import Sema.Proofs.Scopes.Log
import Mathlib.Data.List.Infix

/-!
# The most recent definition in an open scope

A stack is searched from the innermost scope outwards. In time this finds the most recent of all
definitions whose scope is still open, since what is defined while a scope is open is defined in it
or inside of it. What is done inside of a scope is gone when the scope is left.
-/

namespace Sema

/-- A definition with the scope that it was made in. -/
structure Definition (Key Value : Type) where
  scope : Nat
  key : Key
  value : Value
  deriving DecidableEq, Repr

section

variable {Key Value : Type}

/-- The definitions of a log, the most recent first. -/
def definitions : List (ScopeEvent (Key × Value)) → List (Definition Key Value)
  | [] => []
  | .deed (key, value) :: earlier => ⟨innermost earlier, key, value⟩ :: definitions earlier
  | .enter :: earlier | .leave :: earlier => definitions earlier

def enters (log : List (ScopeEvent (Key × Value))) : Nat := log.countP (· matches .enter)

variable [DecidableEq Key]

/-- The value of the most recent definition of a key in one of the scopes. -/
def mostRecent (log : List (ScopeEvent (Key × Value))) (scopes : List Nat) (key : Key) :
    Option Value :=
  ((definitions log).find? fun definition => definition.key = key ∧ definition.scope ∈ scopes).map
    Definition.value

/-- The leaves of a log that were not refused. -/
def successfulLeaves : List (ScopeEvent (Key × Value)) → Nat
  | [] => 0
  | .leave :: earlier =>
      successfulLeaves earlier + if (ScopeStack.built earlier).leave.isOk then 1 else 0
  | .enter :: earlier | .deed _ :: earlier => successfulLeaves earlier

/-! ### Definitions in open scopes -/

omit [DecidableEq Key] in
theorem definitions_bounds (log : List (ScopeEvent (Key × Value))) :
    ∀ definition ∈ definitions log, definition.scope ≤ log.length := by
  induction log with
  | nil => simp [definitions]
  | cons event earlier induction =>
      intro definition member
      rw [List.length_cons]
      cases event with
      | enter | leave => exact Nat.le_succ_of_le (induction definition member)
      | deed what =>
          cases List.mem_cons.mp member with
          | inr before => exact Nat.le_succ_of_le (induction definition before)
          | inl new =>
              rw [new]
              exact Nat.le_succ_of_le (openScopes_bounds (innermost_open earlier))

omit [DecidableEq Key] in
/-- Of the definitions in open scopes, those in inner scopes were made later. -/
theorem definitions_inner_later (log : List (ScopeEvent (Key × Value))) :
    ((definitions log).filter fun definition => definition.scope ∈ openScopes log).Pairwise
      fun later earlier => earlier.scope ≤ later.scope := by
  induction log with
  | nil => exact List.Pairwise.nil
  | cons event earlier induction =>
      cases event with
      | enter =>
          have same : ∀ definition ∈ definitions earlier,
              decide (definition.scope ∈ openScopes (.enter :: earlier)) =
                decide (definition.scope ∈ openScopes earlier) := by
            intro definition member
            have bound := definitions_bounds earlier definition member
            have old : definition.scope ≠ earlier.length + 1 := by omega
            simp [openScopes, innerScopes, old]
          rw [definitions, List.filter_congr same]
          exact induction
      | leave =>
          apply List.Pairwise.sublist _ induction
          apply List.monotone_filter_right
          intro definition member
          rw [decide_eq_true_iff, openScopes, innerScopes, List.mem_append] at member
          rw [decide_eq_true_iff, openScopes, List.mem_append]
          exact member.imp_left List.mem_of_mem_tail
      | deed what =>
          change List.Pairwise _ (List.filter (fun definition : Definition Key Value =>
            definition.scope ∈ openScopes earlier) (⟨innermost earlier, what.1, what.2⟩ :: _))
          rw [List.filter_cons_of_pos (by simpa using innermost_open earlier)]
          apply List.Pairwise.cons
          · intro definition member
            rw [List.mem_filter, decide_eq_true_iff] at member
            exact innermost_greatest member.2
          · exact induction

theorem findSome_congr {Item Result : Type} {items : List Item} {search other : Item → Option Result}
    (same : ∀ item ∈ items, search item = other item) :
    items.findSome? search = items.findSome? other := by
  induction items with
  | nil => rfl
  | cons first rest induction =>
      rw [List.findSome?_cons, List.findSome?_cons, same first List.mem_cons_self,
        induction fun item member => same item (List.mem_cons_of_mem first member)]

/-- If inner scopes define later, a search by scope finds the most recent definition of all. -/
theorem findSome_eq_find {scopes : List Nat} {items : List (Definition Key Value)} (key : Key)
    (nested : scopes.Pairwise fun inner outer => outer < inner)
    (later : (items.filter fun definition => definition.scope ∈ scopes).Pairwise
      fun later earlier => earlier.scope ≤ later.scope) :
    (scopes.findSome? fun scope => (items.find? fun definition =>
      definition.key = key ∧ definition.scope ∈ [scope]).map Definition.value) =
      (items.find? fun definition => definition.key = key ∧ definition.scope ∈ scopes).map
        Definition.value := by
  induction items with
  | nil => simp
  | cons latest rest induction =>
      by_cases found : latest.key = key ∧ latest.scope ∈ scopes
      · obtain ⟨inner, outer, split⟩ := List.append_of_mem found.2
        rw [List.find?_cons_of_pos (by simpa using found), Option.map_some,
          List.findSome?_eq_some_iff]
        refine ⟨inner, latest.scope, outer, split, by simp [found.1], ?_⟩
        intro scope member
        have deeper : latest.scope < scope := by
          rw [split, List.pairwise_append] at nested
          exact nested.2.2 scope member latest.scope List.mem_cons_self
        have known : scope ∈ scopes := by
          rw [split]
          exact List.mem_append_left _ member
        rw [List.filter_cons_of_pos (by simpa using found.2)] at later
        rw [Option.map_eq_none_iff, List.find?_eq_none]
        intro definition among defines
        rw [decide_eq_true_iff, List.mem_singleton] at defines
        cases List.mem_cons.mp among with
        | inl same =>
            rw [same] at defines
            omega
        | inr before =>
            have counted : definition ∈ rest.filter fun definition => definition.scope ∈ scopes := by
              rw [List.mem_filter, decide_eq_true_iff, defines.2]
              exact ⟨before, known⟩
            have outside := List.rel_of_pairwise_cons later counted
            omega
      · rw [List.find?_cons_of_neg (by simpa using found), ← induction]
        · apply findSome_congr
          intro scope member
          rw [List.find?_cons_of_neg]
          rw [decide_eq_true_iff, List.mem_singleton]
          intro both
          exact found ⟨both.1, both.2 ▸ member⟩
        · exact later.sublist ((List.sublist_cons_self latest rest).filter _)

/-! ### Stacks -/

namespace ScopeStack

theorem mostRecent_deed (log : List (ScopeEvent (Key × Value))) (key : Key) (value : Value)
    (scope : Nat) (sought : Key) :
    mostRecent (.deed (key, value) :: log) [scope] sought =
      if scope = innermost log ∧ key = sought then some value
      else mostRecent log [scope] sought := by
  rw [mostRecent, definitions]
  by_cases here : scope = innermost log ∧ key = sought
  · rw [if_pos here, List.find?_cons_of_pos (by simp [here])]
    rfl
  · rw [if_neg here, List.find?_cons_of_neg]
    · rfl
    · rw [decide_eq_true_iff, List.mem_singleton]
      intro both
      exact here ⟨both.2.symm, both.1⟩

theorem mostRecent_unopened (log : List (ScopeEvent (Key × Value))) (key : Key) :
    mostRecent log [log.length + 1] key = none := by
  rw [mostRecent, Option.map_eq_none_iff, List.find?_eq_none]
  intro definition member
  have bound := definitions_bounds log definition member
  rw [decide_eq_true_iff, List.mem_singleton]
  intro both
  omega

/-- Each open scope binds what was defined in it most recently. -/
theorem built_holds (log : List (ScopeEvent (Key × Value))) :
    (built log).Holds (fun scope key => mostRecent log [scope] key) log := by
  induction log with
  | nil => exact holds_empty fun _ => rfl
  | cons event earlier induction =>
      cases event with
      | enter => exact induction.enter (mostRecent_unopened earlier)
      | leave => exact induction.leave
      | deed what =>
          apply induction.define what what.1 what.2
          intro scope sought
          exact mostRecent_deed earlier what.1 what.2 scope sought

theorem visible_eq_mostRecent (log : List (ScopeEvent (Key × Value))) (key : Key) :
    (built log).visible? key = mostRecent log (openScopes log) key := by
  rw [(built_holds log).visible_eq]
  exact findSome_eq_find key (openScopes_decreasing log) (definitions_inner_later log)

theorem depth_built (log : List (ScopeEvent (Key × Value))) :
    (built log).depth = (innerScopes log).length := (built_holds log).depth_eq

/-! ### Refused leaves -/

omit [DecidableEq Key] in
theorem leave_refused_iff (scopes : ScopeStack Key Value) :
    scopes.leave = .error .cannotLeaveRoot ↔ scopes.depth = 0 := by
  rw [depth]
  cases inside : scopes.inner with
  | nil => simp [leave, inside]
  | cons bindings outer => simp [leave, inside]

theorem depth_add_leaves (log : List (ScopeEvent (Key × Value))) :
    (built log).depth + successfulLeaves log = enters log := by
  induction log with
  | nil => rfl
  | cons event earlier induction =>
      have depth := depth_built earlier
      cases event with
      | enter =>
          rw [enters, List.countP_cons_of_pos rfl, ← enters, depth_built, innerScopes,
            List.length_cons, successfulLeaves]
          omega
      | deed what =>
          rw [enters, List.countP_cons_of_neg (by simp), ← enters, depth_built, innerScopes,
            successfulLeaves]
          omega
      | leave =>
          rw [enters, List.countP_cons_of_neg (by simp), ← enters, depth_built, innerScopes,
            successfulLeaves, List.length_tail]
          rw [ScopeStack.depth] at induction depth
          cases inside : (built earlier).inner with
          | nil =>
              rw [inside, List.length_nil] at induction depth
              simp only [leave, inside, Except.isOk, Except.toBool, Bool.false_eq_true, if_false]
              omega
          | cons bindings outer =>
              rw [inside, List.length_cons] at induction depth
              simp only [leave, inside, Except.isOk, Except.toBool, if_true]
              omega

/-- A leave is refused if and only if every scope that was opened has been left. -/
theorem leave_refused_of_balance (log : List (ScopeEvent (Key × Value))) :
    (built log).leave = .error .cannotLeaveRoot ↔ enters log = successfulLeaves log := by
  have balance := depth_add_leaves log
  rw [leave_refused_iff]
  omega

/-! ### Scopes that are opened and left -/

theorem sinceClear_events {Deed : Type} (events : List (ScopeEvent Deed))
    (log : List (ScopeOperation Deed)) :
    sinceClear (events.map .event ++ log) = events ++ sinceClear log := by
  induction events with
  | nil => rfl
  | cons event rest induction =>
      rw [List.map_cons, List.cons_append, sinceClear, induction, List.cons_append]

/-- As many leaves as there are scopes on top close just these. -/
theorem built_leaves {log : List (ScopeEvent (Key × Value))}
    {top around : List (Bindings Key Value)} (stacked : (built log).inner = top ++ around) :
    (built (List.replicate top.length .leave ++ log)).inner = around ∧
      (built (List.replicate top.length .leave ++ log)).root = (built log).root := by
  induction top generalizing log with
  | nil => exact ⟨stacked, rfl⟩
  | cons bindings rest induction =>
      have left : (built (.leave :: log)).inner = rest ++ around := by
        exact inner_left stacked
      rw [List.length_cons, List.replicate_succ', List.append_assoc, List.singleton_append]
      rw [← root_left (built log)]
      exact induction left

/-- While a scope stays open, the scopes around it are as they were when it was opened. -/
theorem built_inside {log inside : List (ScopeEvent (Key × Value))}
    (stays : ∀ part, part <:+ inside → log.length + 1 ∈ openScopes (part ++ .enter :: log)) :
    ∃ numbers top current,
      innerScopes (inside ++ .enter :: log) = numbers ++ (log.length + 1) :: innerScopes log ∧
        (built (inside ++ .enter :: log)).inner = top ++ current :: (built log).inner ∧
        (built (inside ++ .enter :: log)).root = (built log).root ∧
        numbers.length = top.length := by
  induction inside with
  | nil => exact ⟨[], [], .empty, rfl, rfl, rfl, rfl⟩
  | cons event rest induction =>
      obtain ⟨numbers, top, current, scopes, stack, root, lengths⟩ :=
        induction fun part isSuffix => stays part (isSuffix.trans (List.suffix_cons _ _))
      have now := stays (event :: rest) List.suffix_rfl
      rw [List.cons_append] at now ⊢
      cases event with
      | enter =>
          refine ⟨((rest ++ .enter :: log).length + 1) :: numbers, .empty :: top, current, ?_, ?_,
            root, congrArg Nat.succ lengths⟩
          · rw [innerScopes, scopes, List.cons_append]
          · rw [built, perform, enter, stack, List.cons_append]
      | leave =>
          cases top with
          | nil =>
              -- The scope itself would be left here.
              rw [List.length_nil, List.length_eq_zero_iff] at lengths
              rw [openScopes, innerScopes, scopes, lengths] at now
              exact absurd now (fresh_scope log)
          | cons first top =>
              cases numbers with
              | nil => simp at lengths
              | cons number numbers =>
                  refine ⟨numbers, top, current, ?_, ?_, ?_, Nat.succ.inj lengths⟩
                  · rw [innerScopes, scopes, List.cons_append, List.tail_cons]
                  · exact inner_left stack
                  · rw [built, perform, root_left, root]
      | deed what =>
          cases top with
          | nil =>
              refine ⟨numbers, [], current.bind what.1 what.2, scopes, ?_, ?_, lengths⟩
              · simp [built, perform, define, stack]
              · simp [built, perform, define, stack, root]
          | cons first top =>
              refine ⟨numbers, first.bind what.1 what.2 :: top, current, scopes, ?_, ?_, lengths⟩
              · simp [built, perform, define, stack]
              · simp [built, perform, define, stack, root]

theorem built_restored {log inside : List (ScopeEvent (Key × Value))}
    (stays : ∀ part, part <:+ inside → log.length + 1 ∈ openScopes (part ++ .enter :: log)) :
    built (.leave :: (List.replicate
      ((built (inside ++ .enter :: log)).depth - (built (.enter :: log)).depth) .leave ++
        (inside ++ .enter :: log))) = built log := by
  obtain ⟨numbers, top, current, -, stack, root, -⟩ := built_inside stays
  have count : (built (inside ++ .enter :: log)).depth - (built (.enter :: log)).depth =
      top.length := by
    rw [depth, stack, depth, built, perform, enter]
    simp
  obtain ⟨inner, same⟩ := built_leaves stack
  rw [count, built, perform, left_inner inner]
  exact congrArg₂ ScopeStack.mk (same.trans root) rfl

/-! ### The stack in time -/

omit [DecidableEq Key] in
theorem after_events [DecidableEq Key] (events : List (ScopeEvent (Key × Value)))
    (log : List (ScopeOperation (Key × Value))) :
    after (events.map .event ++ log) = built (events ++ sinceClear log) := by
  rw [after_eq_built, sinceClear_events]

theorem define_replaces (scopes : ScopeStack Key Value) (key : Key) (value : Value) :
    (scopes.define key value).1 = scopes.local? key := by
  cases inside : scopes.inner with
  | nil => simp [define, local?, inside]
  | cons bindings outer => simp [define, local?, inside]

/-- A search finds the most recent definition whose scope is open, or is the innermost one. A
definition gives back what it replaces there, and a leave is refused, without effect, if all scopes
that were opened have been left. To open a scope, to do anything in it without leaving it, and to
close what is open in it and the scope itself changes nothing. -/
theorem lookups_most_recent (log : List (ScopeOperation (Key × Value))) :
    let recent := sinceClear log
    (∀ key, (after log).visible? key = mostRecent recent (openScopes recent) key) ∧
    (∀ key, (after log).local? key = mostRecent recent [innermost recent] key) ∧
    (∀ key value, ((after log).define key value).1 = (after log).local? key) ∧
    ((after log).leave = .error .cannotLeaveRoot ↔ enters recent = successfulLeaves recent) ∧
    ((after log).leave = .error .cannotLeaveRoot → after (.event .leave :: log) = after log) ∧
    ∀ inside : List (ScopeEvent (Key × Value)),
      (∀ part, part <:+ inside → recent.length + 1 ∈ openScopes (part ++ .enter :: recent)) →
        let entered := .event .enter :: log
        let worked := inside.map .event ++ entered
        let leftOpen := (after worked).depth - (after entered).depth
        after ((.leave :: List.replicate leftOpen .leave).map .event ++ worked) = after log := by
  rw [after_eq_built]
  refine ⟨visible_eq_mostRecent _, fun key => (built_holds _).local_eq key, define_replaces _,
    leave_refused_of_balance _, ?_, ?_⟩
  · intro refused
    rw [leave_refused_iff, depth, List.length_eq_zero_iff] at refused
    rw [after, after_eq_built]
    exact left_root refused
  · intro inside stays entered worked leftOpen
    have opening : after entered = built (.enter :: sinceClear log) := after_eq_built entered
    have working : after worked = built (inside ++ .enter :: sinceClear log) :=
      after_events inside entered
    have count : leftOpen = (built (inside ++ .enter :: sinceClear log)).depth -
        (built (.enter :: sinceClear log)).depth := by
      rw [← working, ← opening]
    rw [after_events, sinceClear_events, count]
    exact built_restored stays

/-- The key has a definition in the root and one in an open scope. Inside of a further scope it is
defined in two more, of which one is left open. -/
theorem restored_after_shadowing :
    let log : List (ScopeOperation (String × Nat)) :=
      [.event (.deed ("x", 2)), .event .enter, .event (.deed ("x", 1)), .clear, .event .leave]
    let inside : List (ScopeEvent (String × Nat)) :=
      [.deed ("x", 4), .enter, .leave, .deed ("x", 3), .enter]
    (∀ part, part <:+ inside →
      (sinceClear log).length + 1 ∈ openScopes (part ++ .enter :: sinceClear log)) ∧
    (after log).visible? "x" = some 2 ∧
    (after ((.leave :: .leave :: inside).map .event ++ .event .enter :: log)).visible? "x" =
      some 2 := by
  intro log inside
  have stays : ∀ part, part <:+ inside →
      (sinceClear log).length + 1 ∈ openScopes (part ++ .enter :: sinceClear log) := by
    intro part isSuffix
    have all : ∀ part ∈ inside.tails,
        (sinceClear log).length + 1 ∈ openScopes (part ++ .enter :: sinceClear log) := by decide
    exact all part (List.mem_tails part inside |>.mpr isSuffix)
  obtain ⟨visible, -, -, -, -, restores⟩ := lookups_most_recent log
  have shown : (after log).visible? "x" = some 2 := by
    rw [visible]
    decide
  refine ⟨stays, shown, ?_⟩
  have restored := restores inside stays
  rw [← shown, ← restored]
  rfl

end ScopeStack

end

end Sema
