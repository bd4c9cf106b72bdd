import Sema.Proofs.Scopes.Log
import Sema.Symbols.Basic
import Mathlib.Data.List.DropRight
import Mathlib.Data.List.Infix
import Mathlib.Data.List.Nodup

/-!
# What a log says of variables

All that a symbol table ought to hold can be read off the log of what was done to it. A scope and a
name that is declared in it make a variable, no matter how often it is declared there; the last of
these declarations counts. A mention means the variable of the innermost open scope that has
declared the name by then. A moment of a log is given by the part of the log before it.
-/

namespace Sema

inductive TableDeed where
  | declare (name ty : String) (line : UInt64)
  | mention (name : String)
  | token (token : TokenEntry)
  deriving DecidableEq, Repr

abbrev TableLog := List (ScopeEvent TableDeed)

/-- The event came right after the earlier part of the log. -/
def Happens (event : ScopeEvent TableDeed) (earlier log : TableLog) : Prop :=
  event :: earlier <:+ log

/-- The name has been declared while the scope was innermost. -/
def DeclaredIn (log : TableLog) (scope : Nat) (name : String) : Prop :=
  ∃ ty line earlier, Happens (.deed (.declare name ty line)) earlier log ∧ innermost earlier = scope

/-- The first variable was declared at a time when the second was not. -/
def DeclaredBefore (log : TableLog) (first second : Nat × String) : Prop :=
  ∃ earlier, earlier <:+ log ∧ DeclaredIn earlier first.1 first.2 ∧
    ¬ DeclaredIn earlier second.1 second.2

/-- The scopes with the names declared in them, in the order of the first declarations. -/
def births : TableLog → List (Nat × String)
  | [] => []
  | .deed (.declare name _ _) :: earlier =>
      if (innermost earlier, name) ∈ births earlier then births earlier
      else births earlier ++ [(innermost earlier, name)]
  | .deed (.mention _) :: earlier | .deed (.token _) :: earlier => births earlier
  | .enter :: earlier | .leave :: earlier => births earlier

/-- The scopes around a scope, counted when it has just been opened. -/
def depthOf (log : TableLog) (scope : Nat) : Nat := (innerScopes (log.rtake scope)).length

/-- A mention of the name, here and now, means what the scope has declared: the scope is open, and
no scope that is open inside of it has declared the name. -/
def Means (log : TableLog) (scope : Nat) (name : String) : Prop :=
  scope ∈ openScopes log ∧ ∀ inner ∈ openScopes log, scope < inner → ¬ DeclaredIn log inner name

/-- The entry tells what the log says of the name in the scope. -/
structure Records (log : TableLog) (scope : Nat) (name : String) (entry : Variable) : Prop where
  named : entry.name = name
  deep : entry.scopeDepth = depthOf log scope
  /-- The last declaration gives type and line. The variable is used if a mention since then means
  it. -/
  declared : ∃ earlier, Happens (.deed (.declare name entry.ty entry.line)) earlier log ∧
    innermost earlier = scope ∧
    (∀ ty line other, Happens (.deed (.declare name ty line)) other log →
      innermost other = scope → other.length ≤ earlier.length) ∧
    (entry.used = true ↔ ∃ before, Happens (.deed (.mention name)) before log ∧
      earlier.length < before.length ∧ Means before scope name)

/-! ### Moments -/

variable {log earlier : TableLog} {event latest : ScopeEvent TableDeed} {scope : Nat}
  {name : String} {entry : Variable}

theorem happens_cons : Happens event earlier (latest :: log) ↔
    (event = latest ∧ earlier = log) ∨ Happens event earlier log := by
  rw [Happens, List.suffix_cons_iff, List.cons.injEq, Happens]

theorem Happens.later (happens : Happens event earlier log) (latest : ScopeEvent TableDeed) :
    Happens event earlier (latest :: log) := happens_cons.mpr (.inr happens)

theorem Happens.before (happens : Happens event earlier log) : earlier.length < log.length := by
  have bound := happens.length_le
  rwa [List.length_cons] at bound

theorem declaredIn_cons : DeclaredIn (latest :: log) scope name ↔
    ((∃ ty line, latest = .deed (.declare name ty line)) ∧ innermost log = scope) ∨
      DeclaredIn log scope name := by
  constructor
  · intro declared
    obtain ⟨ty, line, earlier, happens, inside⟩ := declared
    cases happens_cons.mp happens with
    | inl now => exact .inl ⟨⟨ty, line, now.1.symm⟩, by rw [← now.2, inside]⟩
    | inr before => exact .inr ⟨ty, line, earlier, before, inside⟩
  · intro either
    cases either with
    | inl now =>
        obtain ⟨⟨ty, line, same⟩, inside⟩ := now
        exact ⟨ty, line, log, happens_cons.mpr (.inl ⟨same.symm, rfl⟩), inside⟩
    | inr before =>
        obtain ⟨ty, line, earlier, happens, inside⟩ := before
        exact ⟨ty, line, earlier, happens.later latest, inside⟩

theorem not_declaredIn_nil : ¬ DeclaredIn [] scope name := by
  intro declared
  obtain ⟨ty, line, earlier, happens, -⟩ := declared
  exact Nat.not_lt_zero _ happens.before

theorem DeclaredIn.bound (declared : DeclaredIn log scope name) : scope ≤ log.length := by
  obtain ⟨ty, line, earlier, happens, inside⟩ := declared
  have place := openScopes_bounds (innermost_open earlier)
  have before := happens.before
  rw [inside] at place
  omega

/-! ### Depths -/

theorem depthOf_cons (known : scope ≤ log.length) (latest : ScopeEvent TableDeed) :
    depthOf (latest :: log) scope = depthOf log scope := by
  have rest : (latest :: log).length - scope = log.length - scope + 1 := by
    rw [List.length_cons]
    omega
  rw [depthOf, List.rtake, rest, List.drop_succ_cons]
  rfl

theorem depthOf_entered (log : TableLog) :
    depthOf (.enter :: log) (log.length + 1) = (innerScopes log).length + 1 := by
  rw [depthOf, List.rtake, List.length_cons, Nat.sub_self, List.drop_zero, innerScopes,
    List.length_cons]

/-- The position of an open scope, counted from the root, is its depth. -/
theorem depthOf_open {place : Nat} (position : (openScopes log).reverse[place]? = some scope) :
    depthOf log scope = place := by
  induction log generalizing scope with
  | nil =>
      rw [openScopes, innerScopes, List.nil_append, List.reverse_singleton,
        List.getElem?_singleton] at position
      split at position
      · rename_i first
        rw [first, ← Option.some.inj position]
        rfl
      · cases position
  | cons latest log induction =>
      have older : (openScopes log).reverse[place]? = some scope →
          depthOf (latest :: log) scope = place := by
        intro before
        have bound := openScopes_bounds (List.mem_reverse.mp (List.mem_of_getElem? before))
        rw [depthOf_cons bound]
        exact induction before
      cases latest with
      | enter =>
          have grown : (openScopes (.enter :: log)).reverse =
              (openScopes log).reverse ++ [log.length + 1] := by
            simp [openScopes, innerScopes]
          rw [grown, List.getElem?_append] at position
          split at position
          · exact older position
          · rename_i beyond
            rw [List.getElem?_singleton] at position
            split at position
            · rename_i last
              rw [← Option.some.inj position, depthOf_entered]
              simp only [openScopes, List.length_reverse, List.length_append,
                List.length_singleton] at beyond last
              omega
            · cases position
      | leave =>
          apply older
          have shrunk : (openScopes (.leave :: log)).reverse <+: (openScopes log).reverse := by
            rw [List.reverse_prefix, openScopes, openScopes, innerScopes]
            exact List.suffix_append_self_iff.mpr (List.tail_suffix _)
          obtain ⟨rest, whole⟩ := shrunk
          have within := (List.getElem?_eq_some_iff.mp position).1
          rw [← whole, List.getElem?_append_left within]
          exact position
      | deed what => exact older position

theorem depthOf_innermost (log : TableLog) :
    depthOf log (innermost log) = (innerScopes log).length := by
  apply depthOf_open
  have last : (openScopes log).length = (innerScopes log).length + 1 := by
    rw [openScopes, List.length_append, List.length_singleton]
  rw [List.getElem?_reverse (by omega), last, openScopes_eq_cons]
  simp

/-! ### Variables -/

theorem mem_births : (scope, name) ∈ births log ↔ DeclaredIn log scope name := by
  induction log with
  | nil =>
      rw [births]
      exact iff_of_false List.not_mem_nil not_declaredIn_nil
  | cons latest log induction =>
      rw [declaredIn_cons, ← induction]
      cases latest with
      | enter | leave => simp [births]
      | deed what =>
          cases what with
          | mention | token => simp [births]
          | declare other ty line =>
              have now : (∃ ty' line', ScopeEvent.deed (TableDeed.declare other ty line) =
                  .deed (.declare name ty' line')) ↔ other = name := by simp
              rw [births, now]
              split
              · rename_i known
                rw [iff_or_self]
                intro here
                rwa [← here.1, ← here.2]
              · rw [List.mem_append, List.mem_singleton, Prod.mk.injEq, or_comm, and_comm,
                  @eq_comm _ name, @eq_comm _ scope]

theorem births_nodup (log : TableLog) : (births log).Nodup := by
  induction log with
  | nil => exact List.nodup_nil
  | cons latest log induction =>
      cases latest with
      | enter | leave => exact induction
      | deed what =>
          cases what with
          | mention | token => exact induction
          | declare other ty line =>
              rw [births]
              split
              · exact induction
              · rename_i new
                rw [← List.concat_eq_append, List.nodup_concat]
                exact ⟨new, induction⟩

theorem DeclaredBefore.later {first second : Nat × String}
    (before : DeclaredBefore log first second) (latest : ScopeEvent TableDeed) :
    DeclaredBefore (latest :: log) first second := by
  obtain ⟨earlier, moment, declared, undeclared⟩ := before
  exact ⟨earlier, moment.trans (List.suffix_cons latest log), declared, undeclared⟩

theorem births_ordered (log : TableLog) : (births log).Pairwise (DeclaredBefore log) := by
  induction log with
  | nil => exact List.Pairwise.nil
  | cons latest log induction =>
      have kept : (births log).Pairwise (DeclaredBefore (latest :: log)) :=
        induction.imp fun before => before.later latest
      cases latest with
      | enter | leave => exact kept
      | deed what =>
          cases what with
          | mention | token => exact kept
          | declare other ty line =>
              rw [births]
              split
              · exact kept
              · rename_i new
                rw [List.pairwise_append]
                refine ⟨kept, List.pairwise_singleton _ _, ?_⟩
                intro old declared born isNew
                rw [List.mem_singleton.mp isNew]
                exact ⟨log, List.suffix_cons _ log, mem_births.mp declared,
                  fun again => new (mem_births.mpr again)⟩

end Sema
