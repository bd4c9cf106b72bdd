import Sema.Symbols.ScopeStack
import Mathlib.Data.List.Forall2

/-!
# Logs of nested scopes

A log lists what was done in nested scopes, the latest first. A scope is known by a number: how many
events there were when it was opened, its own `enter` among them, and zero for the root. So of two
open scopes the one with the greater number stands inside the other. A leave that finds only the
root open is refused.

`Holds` ties the open scopes of a log to those of a stack, each with what it binds; a lemma for each
operation says how the two go on together.
-/

namespace Sema

/-- A deed falls to the scope that is innermost at its time. -/
inductive ScopeEvent (Deed : Type) where
  | enter
  | leave
  | deed (what : Deed)
  deriving DecidableEq, Repr

inductive ScopeOperation (Deed : Type) where
  | event (event : ScopeEvent Deed)
  /-- Everything starts again from an empty root scope. -/
  | clear
  deriving DecidableEq, Repr

section Logs

variable {Deed : Type}

/-- What was done since everything was cleared for the last time. -/
def sinceClear : List (ScopeOperation Deed) → List (ScopeEvent Deed)
  | [] => []
  | .clear :: _ => []
  | .event event :: earlier => event :: sinceClear earlier

/-- The open scopes above the root, the innermost first. -/
def innerScopes : List (ScopeEvent Deed) → List Nat
  | [] => []
  | .enter :: earlier => (earlier.length + 1) :: innerScopes earlier
  | .leave :: earlier => (innerScopes earlier).tail
  | .deed _ :: earlier => innerScopes earlier

/-- The open scopes, the innermost first and the root last. -/
def openScopes (log : List (ScopeEvent Deed)) : List Nat := innerScopes log ++ [0]

def innermost (log : List (ScopeEvent Deed)) : Nat := (innerScopes log).headD 0

/-! ### Numbers of scopes -/

theorem innerScopes_bounds (log : List (ScopeEvent Deed)) :
    ∀ scope ∈ innerScopes log, 0 < scope ∧ scope ≤ log.length := by
  induction log with
  | nil => simp [innerScopes]
  | cons event earlier induction =>
      intro scope member
      have older : scope ∈ innerScopes earlier → 0 < scope ∧ scope ≤ (event :: earlier).length := by
        intro before
        have bounds := induction scope before
        rw [List.length_cons]
        omega
      cases event with
      | enter =>
          rw [innerScopes, List.mem_cons] at member
          cases member with
          | inl new => simp [new]
          | inr before => exact older before
      | leave => exact older (List.mem_of_mem_tail member)
      | deed what => exact older member

theorem openScopes_bounds {log : List (ScopeEvent Deed)} {scope : Nat}
    (member : scope ∈ openScopes log) : scope ≤ log.length := by
  rw [openScopes, List.mem_append, List.mem_singleton] at member
  cases member with
  | inl inner => exact (innerScopes_bounds log scope inner).2
  | inr root =>
      rw [root]
      exact Nat.zero_le _

/-- A scope that is opened now has a number that no open scope has. -/
theorem fresh_scope (log : List (ScopeEvent Deed)) : log.length + 1 ∉ openScopes log := by
  intro member
  have bound := openScopes_bounds member
  omega

theorem innerScopes_decreasing (log : List (ScopeEvent Deed)) :
    (innerScopes log).Pairwise fun inner outer => outer < inner := by
  induction log with
  | nil => exact List.Pairwise.nil
  | cons event earlier induction =>
      cases event with
      | enter =>
          refine List.Pairwise.cons ?_ induction
          intro outer member
          have bounds := innerScopes_bounds earlier outer member
          omega
      | leave => exact induction.tail
      | deed what => exact induction

theorem openScopes_decreasing (log : List (ScopeEvent Deed)) :
    (openScopes log).Pairwise fun inner outer => outer < inner := by
  rw [openScopes, List.pairwise_append]
  refine ⟨innerScopes_decreasing log, List.pairwise_singleton _ _, ?_⟩
  intro scope member root isRoot
  rw [List.mem_singleton.mp isRoot]
  exact (innerScopes_bounds log scope member).1

theorem openScopes_eq_cons (log : List (ScopeEvent Deed)) :
    openScopes log = innermost log :: (openScopes log).tail := by
  rw [innermost, openScopes]
  cases innerScopes log <;> rfl

theorem innermost_open (log : List (ScopeEvent Deed)) : innermost log ∈ openScopes log := by
  rw [openScopes_eq_cons]
  exact List.mem_cons_self

/-- All other open scopes stand around the innermost one. -/
theorem around_innermost {log : List (ScopeEvent Deed)} {scope : Nat}
    (member : scope ∈ (openScopes log).tail) : scope < innermost log := by
  have decreasing := openScopes_decreasing log
  rw [openScopes_eq_cons] at decreasing
  exact List.rel_of_pairwise_cons decreasing member

theorem innermost_greatest {log : List (ScopeEvent Deed)} {scope : Nat}
    (member : scope ∈ openScopes log) : scope ≤ innermost log := by
  rw [openScopes_eq_cons] at member
  cases List.mem_cons.mp member with
  | inl here => exact Nat.le_of_eq here
  | inr around => exact Nat.le_of_lt (around_innermost around)

end Logs

/-! ### Logs of a stack -/

namespace ScopeStack

variable {Key Value : Type} [DecidableEq Key]

/-- The stack after a leave, which changes nothing if it is refused. -/
def left (scopes : ScopeStack Key Value) : ScopeStack Key Value :=
  match scopes.leave with
  | .ok outer => outer
  | .error _ => scopes

def perform (scopes : ScopeStack Key Value) : ScopeEvent (Key × Value) → ScopeStack Key Value
  | .enter => scopes.enter
  | .leave => scopes.left
  | .deed (key, value) => (scopes.define key value).2

/-- The stack after the events of a log. -/
def built : List (ScopeEvent (Key × Value)) → ScopeStack Key Value
  | [] => .empty
  | event :: earlier => (built earlier).perform event

/-- The stack after the operations of a log. -/
def after : List (ScopeOperation (Key × Value)) → ScopeStack Key Value
  | [] => .empty
  | .clear :: earlier => (after earlier).clear
  | .event event :: earlier => (after earlier).perform event

theorem after_eq_built (log : List (ScopeOperation (Key × Value))) :
    after log = built (sinceClear log) := by
  induction log with
  | nil => rfl
  | cons operation earlier induction =>
      cases operation with
      | clear => rfl
      | event event => rw [after, sinceClear, built, induction]

omit [DecidableEq Key] in
theorem left_root {scopes : ScopeStack Key Value} (alone : scopes.inner = []) :
    scopes.left = scopes := by
  simp [left, leave, alone]

omit [DecidableEq Key] in
theorem left_inner {scopes : ScopeStack Key Value} {bindings : Bindings Key Value}
    {outer : List (Bindings Key Value)} (inside : scopes.inner = bindings :: outer) :
    scopes.left = { scopes with inner := outer } := by
  simp [left, leave, inside]

omit [DecidableEq Key] in
theorem inner_left {scopes : ScopeStack Key Value} {bindings : Bindings Key Value}
    {outer : List (Bindings Key Value)} (inside : scopes.inner = bindings :: outer) :
    scopes.left.inner = outer := by
  rw [left_inner inside]

omit [DecidableEq Key] in
theorem root_left (scopes : ScopeStack Key Value) : scopes.left.root = scopes.root := by
  cases inside : scopes.inner with
  | nil => rw [left_root inside]
  | cons bindings outer => rw [left_inner inside]

/-- A definition binds the key in the first of the open scopes. -/
theorem outward_define (scopes : ScopeStack Key Value) (key : Key) (value : Value) :
    ∃ current around, scopes.outward = current :: around ∧
      (scopes.define key value).2.outward = current.bind key value :: around := by
  cases inside : scopes.inner with
  | nil => exact ⟨scopes.root, [], by simp [outward, inside], by simp [define, outward, inside]⟩
  | cons current outer =>
      refine ⟨current, outer ++ [scopes.root], ?_, ?_⟩
      · simp [outward, inside]
      · simp [define, outward, inside]

theorem local_eq_head (scopes : ScopeStack Key Value) {current : Bindings Key Value}
    {around : List (Bindings Key Value)} (places : scopes.outward = current :: around) (key : Key) :
    scopes.local? key = current.find? key := by
  rw [outward] at places
  cases inside : scopes.inner with
  | nil =>
      rw [inside, List.nil_append, List.cons.injEq] at places
      simp [local?, inside, places.1]
  | cons first outer =>
      rw [inside, List.cons_append, List.cons.injEq] at places
      simp [local?, inside, places.1]

/-! ### What the open scopes bind -/

/-- Scopes, each known by its number, with what is said of a scope and a key. -/
def Bound (content : Nat → Key → Option Value) : List Nat → List (Bindings Key Value) → Prop :=
  List.Forall₂ fun scope bindings => ∀ key, bindings.find? key = content scope key

/-- The open scopes of the stack are those of the log, and bind what is said of them. -/
def Holds {Deed : Type} (content : Nat → Key → Option Value) (log : List (ScopeEvent Deed))
    (scopes : ScopeStack Key Value) : Prop := Bound content (openScopes log) scopes.outward

variable {Deed : Type} {content later : Nat → Key → Option Value} {log : List (ScopeEvent Deed)}
  {scopes : ScopeStack Key Value} {numbers : List Nat} {places : List (Bindings Key Value)}

theorem Bound.findSome_eq (bound : Bound content numbers places) (key : Key) :
    (places.findSome? fun bindings => bindings.find? key) =
      numbers.findSome? fun scope => content scope key := by
  induction bound with
  | nil => rfl
  | cons first _ induction => rw [List.findSome?_cons, List.findSome?_cons, first, induction]

theorem Bound.congr (bound : Bound content numbers places)
    (same : ∀ scope ∈ numbers, ∀ key, later scope key = content scope key) :
    Bound later numbers places := by
  induction bound with
  | nil => exact List.Forall₂.nil
  | cons first _ induction =>
      refine List.Forall₂.cons ?_ (induction fun scope member => same scope (.tail _ member))
      intro key
      rw [first, same _ List.mem_cons_self]

theorem Holds.depth_eq (holds : scopes.Holds content log) :
    scopes.depth = (innerScopes log).length := by
  have lengths := List.Forall₂.length_eq holds
  simp only [openScopes, outward, List.length_append, List.length_singleton] at lengths
  rw [depth]
  omega

theorem Holds.visible_eq (holds : scopes.Holds content log) (key : Key) :
    scopes.visible? key = (openScopes log).findSome? fun scope => content scope key :=
  Bound.findSome_eq holds key

theorem Holds.local_eq (holds : scopes.Holds content log) (key : Key) :
    scopes.local? key = content (innermost log) key := by
  rw [Holds, Bound, openScopes_eq_cons, List.forall₂_cons_left_iff] at holds
  obtain ⟨current, around, first, -, outward⟩ := holds
  rw [local_eq_head scopes outward, first]

/-! ### Steps -/

theorem holds_empty (unbound : ∀ key, content 0 key = none) :
    (empty : ScopeStack Key Value).Holds content ([] : List (ScopeEvent Deed)) :=
  List.Forall₂.cons (fun key => (unbound key).symm) List.Forall₂.nil

theorem Holds.enter (holds : scopes.Holds content log)
    (unbound : ∀ key, content (log.length + 1) key = none) :
    scopes.enter.Holds content (.enter :: log) :=
  List.Forall₂.cons (fun key => (unbound key).symm) holds

theorem Holds.leave (holds : scopes.Holds content log) :
    scopes.left.Holds content (.leave :: log) := by
  have depth := holds.depth_eq
  rw [ScopeStack.depth] at depth
  rw [Holds, openScopes] at holds ⊢
  rw [innerScopes]
  cases inside : scopes.inner with
  | nil =>
      have none : innerScopes log = [] := by simpa [inside] using depth.symm
      rw [none] at holds
      rw [left_root inside, none]
      exact holds
  | cons bindings outer =>
      obtain ⟨scope, around, same⟩ : ∃ scope around, innerScopes log = scope :: around := by
        apply List.exists_cons_of_length_pos
        rw [← depth, inside]
        exact Nat.succ_pos _
      rw [outward, inside, same, List.cons_append, List.cons_append, Bound, List.forall₂_cons]
        at holds
      rw [left_inner inside, same]
      exact holds.2

/-- A deed that defines nothing. -/
theorem Holds.deed (holds : scopes.Holds content log) (what : Deed) :
    scopes.Holds content (.deed what :: log) := holds

/-- A definition goes into the innermost scope and leaves the others as they are. -/
theorem Holds.define (holds : scopes.Holds content log) (what : Deed) (key : Key) (value : Value)
    (changed : ∀ scope sought, later scope sought =
      if scope = innermost log ∧ key = sought then some value else content scope sought) :
    (scopes.define key value).2.Holds later (.deed what :: log) := by
  obtain ⟨current, around, before, after⟩ := outward_define scopes key value
  rw [Holds, before, openScopes_eq_cons, Bound, List.forall₂_cons] at holds
  change Bound later (openScopes log) _
  rw [after, openScopes_eq_cons]
  apply List.Forall₂.cons
  · intro sought
    rw [Bindings.find?_bind, changed, holds.1]
    simp
  · apply Bound.congr holds.2
    intro scope member sought
    have outside := around_innermost member
    rw [changed, if_neg fun both => Nat.ne_of_lt outside both.1]

end ScopeStack

end Sema
