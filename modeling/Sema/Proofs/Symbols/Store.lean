import Sema.Proofs.Symbols.Chronicle
import Sema.Proofs.Symbols.Frame

/-!
# The store of a table and its log

The store holds one entry for each scope and name declared in it, in the order of the first
declarations, and an open scope binds a name to the place that the two have in this order. Each
operation keeps this, so a table holds what its log says.
-/

namespace Sema

variable {log : TableLog} {latest : ScopeEvent TableDeed} {scope : Nat} {name : String}
  {entry : Variable}

/-! ### Entries -/

theorem Records.bound (records : Records log scope name entry) : scope ≤ log.length := by
  obtain ⟨earlier, happens, inside, -⟩ := records.declared
  have declared : DeclaredIn log scope name := ⟨entry.ty, entry.line, earlier, happens, inside⟩
  exact declared.bound

/-- An event that is no declaration of the variable changes its mark at most. -/
theorem Records.follow (records : Records log scope name entry)
    (other : ∀ ty line, latest = .deed (.declare name ty line) → innermost log ≠ scope)
    {used : Bool} (marks : used = true ↔
      entry.used = true ∨ latest = .deed (.mention name) ∧ Means log scope name) :
    Records (latest :: log) scope name { entry with used } where
  named := records.named
  deep := by rw [depthOf_cons records.bound, records.deep]
  declared := by
    obtain ⟨earlier, happens, inside, last, mentioned⟩ := records.declared
    refine ⟨earlier, happens.later latest, inside, ?_, ?_⟩
    · intro ty line before declares here
      cases happens_cons.mp declares with
      | inl now => exact absurd (now.2 ▸ here) (other ty line now.1.symm)
      | inr old => exact last ty line before old here
    · rw [marks, mentioned]
      constructor
      · intro either
        cases either with
        | inl old =>
            obtain ⟨before, mention, since, means⟩ := old
            exact ⟨before, mention.later latest, since, means⟩
        | inr now => exact ⟨log, happens_cons.mpr (.inl ⟨now.1.symm, rfl⟩), happens.before, now.2⟩
      · intro found
        obtain ⟨before, mention, since, means⟩ := found
        cases happens_cons.mp mention with
        | inl now => exact .inr ⟨now.1.symm, now.2 ▸ means⟩
        | inr old => exact .inl ⟨before, old, since, means⟩

/-- A declaration starts the entry of its variable again. -/
theorem records_declared (log : TableLog) (name ty : String) (line : UInt64) :
    Records (.deed (.declare name ty line) :: log) (innermost log) name
      ⟨name, ty, line, false, (innerScopes log).length⟩ where
  named := rfl
  deep := by
    rw [depthOf_cons (openScopes_bounds (innermost_open log)), depthOf_innermost]
  declared := by
    refine ⟨log, happens_cons.mpr (.inl ⟨rfl, rfl⟩), rfl, ?_, ?_⟩
    · intro otherTy otherLine before declares _
      exact Nat.le_of_lt_succ declares.before
    · refine iff_of_false Bool.false_ne_true ?_
      intro found
      obtain ⟨before, mention, since, -⟩ := found
      have bound := mention.before
      rw [List.length_cons] at bound
      omega

/-- A declaration concerns no variable but that of its name in the innermost scope. -/
theorem Records.other (records : Records log scope name entry) {sought ty : String} {line : UInt64}
    (apart : (scope, name) ≠ (innermost log, sought)) :
    Records (.deed (.declare sought ty line) :: log) scope name entry := by
  apply records.follow
  · intro otherTy otherLine same here
    cases same
    exact apart (Prod.ext here.symm rfl)
  · simp

/-! ### Places in the order -/

section Places

variable {Item : Type} [BEq Item] [LawfulBEq Item] {items : List Item} {item new : Item}

theorem idxOf_eq_some_iff (nodup : items.Nodup) {place : Nat} :
    items.idxOf? item = some place ↔ items[place]? = some item := by
  rw [List.idxOf?_eq_some_iff, List.getElem?_eq_some_iff]
  constructor
  · intro first
    obtain ⟨within, here, -⟩ := first
    exact ⟨within, here⟩
  · intro found
    obtain ⟨within, here⟩ := found
    refine ⟨within, here, ?_⟩
    intro earlier before same
    rw [← here, nodup.getElem_inj_iff] at same
    omega

theorem idxOf_new (absent : new ∉ items) : (items ++ [new]).idxOf? new = some items.length := by
  rw [List.idxOf?, List.findIdx?_append, ← List.idxOf?, List.idxOf?_eq_none_iff.mpr absent]
  simp

theorem idxOf_other (other : item ≠ new) : (items ++ [new]).idxOf? item = items.idxOf? item := by
  rw [List.idxOf?, List.findIdx?_append, ← List.idxOf?]
  simp [Ne.symm other]

end Places

namespace Symbols

/-- The table holds what the log says. -/
structure Tells (log : TableLog) (symbols : Symbols) : Prop where
  holds : symbols.scopes.Holds (fun scope name => (births log).idxOf? (scope, name)) log
  size : symbols.entries.length = (births log).length
  entries : ∀ (slot scope : Nat) name entry, (births log)[slot]? = some (scope, name) →
    symbols.entries[slot]? = some entry → Records log scope name entry

def perform (symbols : Symbols) : ScopeEvent TableDeed → Symbols
  | .enter => symbols.act .enter
  | .leave => symbols.act .leave
  | .deed (.declare name ty line) => symbols.act (.declare name ty line)
  | .deed (.mention name) => symbols.act (.mention name)
  | .deed (.token token) => symbols.addToken token

/-- The table after the events of a log. -/
def built : TableLog → Symbols
  | [] => .empty
  | event :: earlier => (built earlier).perform event

/-- The table after the operations of a log. -/
def after : List (ScopeOperation TableDeed) → Symbols
  | [] => .empty
  | .clear :: earlier => (after earlier).clear
  | .event event :: earlier => (after earlier).perform event

theorem after_eq_built (log : List (ScopeOperation TableDeed)) :
    after log = built (sinceClear log) := by
  induction log with
  | nil => rfl
  | cons operation earlier induction =>
      cases operation with
      | clear => rfl
      | event event => rw [after, sinceClear, built, induction]

variable {symbols : Symbols}

theorem tells_empty : Symbols.empty.Tells [] where
  holds := ScopeStack.holds_empty fun _ => rfl
  size := rfl
  entries := by simp [births]

/-- A name that is searched for leads to the place of a variable if a mention would mean it. -/
theorem Tells.visible_iff (tells : symbols.Tells log) {slot : Nat}
    (born : (births log)[slot]? = some (scope, name)) (sought : String) :
    symbols.scopes.visible? sought = some slot ↔ name = sought ∧ Means log scope sought := by
  have decreasing := openScopes_decreasing log
  rw [tells.holds.visible_eq, List.findSome?_eq_some_iff]
  constructor
  · intro found
    obtain ⟨inner, number, outer, split, here, hidden⟩ := found
    rw [idxOf_eq_some_iff (births_nodup log), born, Option.some.injEq, Prod.mk.injEq] at here
    obtain ⟨sameScope, sameName⟩ := here
    subst sameScope
    refine ⟨sameName, by simp [split], ?_⟩
    intro other isOpen deeper
    rw [split, List.pairwise_append] at decreasing
    rw [split, List.mem_append, List.mem_cons] at isOpen
    rw [← mem_births, ← List.idxOf?_eq_none_iff]
    rcases isOpen with inside | same | outside
    · exact hidden other inside
    · omega
    · have around := List.rel_of_pairwise_cons decreasing.2.1 outside
      omega
  · intro meant
    obtain ⟨named, isOpen, seen⟩ := meant
    subst named
    obtain ⟨inner, outer, split⟩ := List.append_of_mem isOpen
    refine ⟨inner, scope, outer, split, (idxOf_eq_some_iff (births_nodup log)).mpr born, ?_⟩
    intro other inside
    rw [split, List.pairwise_append] at decreasing
    have deeper := decreasing.2.2 other inside scope List.mem_cons_self
    rw [List.idxOf?_eq_none_iff, mem_births]
    exact seen other (by simp [split, inside]) deeper

/-! ### Steps -/

/-- The entries stay if the event neither declares nor mentions anything. -/
theorem Tells.entries_kept (tells : symbols.Tells log)
    (quiet : ∀ deed, latest = .deed deed → ∃ token, deed = .token token)
    {slot : Nat} (born : (births log)[slot]? = some (scope, name))
    (found : symbols.entries[slot]? = some entry) : Records (latest :: log) scope name entry := by
  apply (tells.entries slot scope name entry born found).follow
  · intro ty line declares
    obtain ⟨token, impossible⟩ := quiet _ declares
    cases impossible
  · rw [iff_self_or]
    intro mentioned
    obtain ⟨token, impossible⟩ := quiet _ mentioned.1
    cases impossible

theorem Tells.enter (tells : symbols.Tells log) : (symbols.act .enter).Tells (.enter :: log) where
  holds := by
    apply tells.holds.enter
    intro name
    rw [List.idxOf?_eq_none_iff, mem_births]
    intro declared
    have bound := declared.bound
    omega
  size := tells.size
  entries slot scope name entry born found := tells.entries_kept (by simp) born found

theorem scopes_leave (symbols : Symbols) :
    symbols.act .leave = { symbols with scopes := symbols.scopes.left } := by
  cases inside : symbols.scopes.inner with
  | nil =>
      rw [ScopeStack.left_root inside]
      simp [act, leave, ScopeStack.leave, inside, Except.map]
  | cons bindings outer =>
      rw [act_leave_of_inner inside, ScopeStack.left_inner inside]

theorem Tells.leave (tells : symbols.Tells log) : (symbols.act .leave).Tells (.leave :: log) := by
  rw [scopes_leave]
  exact {
    holds := tells.holds.leave
    size := tells.size
    entries := fun slot scope name entry born found => tells.entries_kept (by simp) born found }

theorem Tells.token (tells : symbols.Tells log) (token : TokenEntry) :
    (symbols.addToken token).Tells (.deed (.token token) :: log) where
  holds := tells.holds.deed _
  size := tells.size
  entries slot scope name entry born found := tells.entries_kept (by simp) born found

theorem Tells.mention (tells : symbols.Tells log) (mentioned : String) :
    (symbols.act (.mention mentioned)).Tells (.deed (.mention mentioned) :: log) where
  holds := by
    rw [act, scopes_markUsed]
    exact tells.holds.deed _
  size := by
    rw [act, length_markUsed]
    exact tells.size
  entries slot scope name entry born found := by
    rw [births] at born
    rw [act, entry_markUsed, Option.map_eq_some_iff] at found
    obtain ⟨old, before, now⟩ := found
    have records := tells.entries slot scope name old born before
    have means := tells.visible_iff born mentioned
    have notDeclared : ∀ ty line, ScopeEvent.deed (TableDeed.mention mentioned) =
        .deed (.declare name ty line) → innermost log ≠ scope := by simp
    by_cases seen : symbols.scopes.visible? mentioned = some slot
    · rw [if_pos seen] at now
      rw [← now]
      apply records.follow notDeclared
      obtain ⟨named, meant⟩ := means.mp seen
      subst named
      simp [meant]
    · rw [if_neg seen] at now
      rw [← now]
      apply records.follow notDeclared
      rw [iff_self_or]
      intro both
      cases both.1
      exact absurd (means.mpr ⟨rfl, both.2⟩) seen

theorem Tells.local_eq (tells : symbols.Tells log) (name : String) :
    symbols.scopes.local? name = (births log).idxOf? (innermost log, name) :=
  tells.holds.local_eq name

theorem Tells.scopeDepth_eq (tells : symbols.Tells log) :
    symbols.scopeDepth = (innerScopes log).length := tells.holds.depth_eq

theorem declare_known {name : String} {slot : Nat}
    (known : symbols.scopes.local? name = some slot) (ty : String) (line : UInt64) :
    symbols.act (.declare name ty line) =
      { symbols with
        entries := symbols.entries.set slot ⟨name, ty, line, false, symbols.scopeDepth⟩ } := by
  simp [act, declare, known]

theorem declare_unknown {name : String} (unknown : symbols.scopes.local? name = none) (ty : String)
    (line : UInt64) :
    symbols.act (.declare name ty line) =
      { symbols with
        entries := symbols.entries ++ [⟨name, ty, line, false, symbols.scopeDepth⟩]
        scopes := (symbols.scopes.define name symbols.entries.length).2 } := by
  simp [act, declare, unknown]

theorem Tells.redeclare (tells : symbols.Tells log) {name : String} {slot : Nat}
    (known : symbols.scopes.local? name = some slot) (ty : String) (line : UInt64) :
    (symbols.act (.declare name ty line)).Tells (.deed (.declare name ty line) :: log) := by
  rw [declare_known known, tells.scopeDepth_eq]
  rw [tells.local_eq, idxOf_eq_some_iff (births_nodup log)] at known
  have same : births (.deed (.declare name ty line) :: log) = births log := by
    rw [births, if_pos (List.mem_of_getElem? known)]
  constructor
  · rw [same]
    exact tells.holds.deed _
  · rw [same, List.length_set]
    exact tells.size
  · intro place scope other entry born found
    rw [same] at born
    by_cases here : slot = place
    · subst here
      rw [known, Option.some.injEq, Prod.mk.injEq] at born
      obtain ⟨rfl, rfl⟩ := born
      have within := (List.getElem?_eq_some_iff.mp known).1
      rw [List.getElem?_set_self (by rwa [tells.size]), Option.some.injEq] at found
      rw [← found]
      exact records_declared log name ty line
    · rw [List.getElem?_set_ne here] at found
      apply (tells.entries place scope other entry born found).other
      intro equal
      have within := (List.getElem?_eq_some_iff.mp born).1
      rw [equal, ← known, List.getElem?_inj within (births_nodup log)] at born
      exact here born.symm

theorem Tells.declare_new (tells : symbols.Tells log) {name : String}
    (unknown : symbols.scopes.local? name = none) (ty : String) (line : UInt64) :
    (symbols.act (.declare name ty line)).Tells (.deed (.declare name ty line) :: log) := by
  rw [declare_unknown unknown, tells.scopeDepth_eq]
  rw [tells.local_eq, List.idxOf?_eq_none_iff] at unknown
  have grown : births (.deed (.declare name ty line) :: log) =
      births log ++ [(innermost log, name)] := by
    rw [births, if_neg unknown]
  constructor
  · apply tells.holds.define
    intro scope sought
    rw [grown]
    split
    · rename_i here
      rw [here.1, ← here.2, idxOf_new unknown, tells.size]
    · rename_i apart
      apply idxOf_other
      intro equal
      rw [Prod.mk.injEq] at equal
      exact apart ⟨equal.1, equal.2.symm⟩
  · rw [grown, List.length_append, List.length_append, tells.size]
    rfl
  · intro place scope other entry born found
    rw [grown, List.getElem?_append] at born
    rw [List.getElem?_append, tells.size] at found
    by_cases old : place < (births log).length
    · rw [if_pos old] at born found
      apply (tells.entries place scope other entry born found).other
      intro equal
      rw [equal] at born
      exact unknown (List.mem_of_getElem? born)
    · rw [if_neg old, List.getElem?_singleton] at born found
      split at born
      · cases born
        rename_i last
        rw [if_pos last, Option.some.injEq] at found
        rw [← found]
        exact records_declared log name ty line
      · cases born

theorem Tells.perform (tells : symbols.Tells log) (event : ScopeEvent TableDeed) :
    (symbols.perform event).Tells (event :: log) := by
  cases event with
  | enter => exact tells.enter
  | leave => exact tells.leave
  | deed what =>
      cases what with
      | mention name => exact tells.mention name
      | token token => exact tells.token token
      | declare name ty line =>
          cases known : symbols.scopes.local? name with
          | none => exact tells.declare_new known ty line
          | some slot => exact tells.redeclare known ty line

theorem built_tells (log : TableLog) : (built log).Tells log := by
  induction log with
  | nil => exact tells_empty
  | cons event earlier induction => exact induction.perform event

/-! ### Reachable tables -/

theorem reachable_after (log : List (ScopeOperation TableDeed)) : (after log).Reachable := by
  induction log with
  | nil => exact .empty
  | cons operation earlier induction =>
      cases operation with
      | clear => exact .empty
      | event event =>
          cases event with
          | enter => exact induction.enter
          | leave =>
              rw [after, perform, act]
              cases left : (after earlier).leave with
              | ok outer => exact induction.leave left
              | error => exact induction
          | deed what =>
              cases what with
              | declare name ty line => exact induction.declare name ty line
              | mention name => exact induction.markUsed name
              | token token => exact induction.addToken token

/-- The tables that can be reached are those of the logs. -/
theorem reachable_iff_after : symbols.Reachable ↔ ∃ log, after log = symbols := by
  constructor
  · intro reachable
    induction reachable with
    | empty => exact ⟨[], rfl⟩
    | enter _ induction =>
        obtain ⟨log, same⟩ := induction
        exact ⟨.event .enter :: log, by rw [after, same]; rfl⟩
    | leave _ left induction =>
        obtain ⟨log, same⟩ := induction
        refine ⟨.event .leave :: log, ?_⟩
        rw [after, same, perform, act, left]
    | declare name ty line _ induction =>
        obtain ⟨log, same⟩ := induction
        exact ⟨.event (.deed (.declare name ty line)) :: log, by rw [after, same]; rfl⟩
    | markUsed name _ induction =>
        obtain ⟨log, same⟩ := induction
        exact ⟨.event (.deed (.mention name)) :: log, by rw [after, same]; rfl⟩
    | addToken token _ induction =>
        obtain ⟨log, same⟩ := induction
        exact ⟨.event (.deed (.token token)) :: log, by rw [after, same]; rfl⟩
  · intro found
    obtain ⟨log, same⟩ := found
    rw [← same]
    exact reachable_after log

/-! ### The whole store -/

theorem Tells.forall (tells : symbols.Tells log) :
    List.Forall₂ (fun born entry => Records log born.1 born.2 entry) (births log)
      symbols.entries := by
  rw [List.forall₂_iff_get]
  refine ⟨tells.size.symm, ?_⟩
  intro slot bornWithin within
  exact tells.entries slot _ _ _ (List.getElem?_eq_getElem bornWithin)
    (List.getElem?_eq_getElem within)

/-- After any operations the store holds one entry for each scope and name that was declared in it
since the last clear, in the order of the first declarations, and each entry tells what was done to
its variable. -/
theorem store_is_history (log : List (ScopeOperation TableDeed)) :
    let recent := sinceClear log
    (∀ scope name, (scope, name) ∈ births recent ↔ DeclaredIn recent scope name) ∧
    (births recent).Nodup ∧
    (births recent).Pairwise (DeclaredBefore recent) ∧
    List.Forall₂ (fun born entry => Records recent born.1 born.2 entry) (births recent)
      (after log).entries ∧
    (after log).unused = ((after log).entries.filter fun entry => !entry.used).map unusedEntry := by
  refine ⟨fun _ _ => mem_births, births_nodup _, births_ordered _, ?_, rfl⟩
  rw [after_eq_built]
  exact (built_tells (sinceClear log)).forall

/-- The name is declared in the root and in an inner scope, and mentioned when this is closed. -/
example :
    (after [.event (.deed (.mention "x")), .event .leave, .event (.deed (.declare "x" "int" 3)),
      .event .enter, .event (.deed (.declare "x" "long" 1)), .clear]).unused = ["x (line 3)"] := by
  decide

end Symbols

end Sema
