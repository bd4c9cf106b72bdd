import Sema.Proofs.Symbols.Recorded

/-!
# A history on its own

What a lawful history does to a table falls into two parts that do not touch. It marks the variables
that its free mentions mean, and it adds the variables that it would add to a table without any,
with the same marks on them. So pieces that close what they open can be put in another order: each
adds what it added before, and a variable that was there is marked if some piece mentions it.
-/

namespace Sema

namespace Bindings

/-- The same names with all slots moved up. -/
def shifted (places : Nat) (scope : Bindings String Nat) : Bindings String Nat :=
  ⟨scope.entries.map fun bound => (bound.1, places + bound.2)⟩

theorem find?_shifted (places : Nat) (scope : Bindings String Nat) (name : String) :
    (scope.shifted places).find? name = (scope.find? name).map (places + ·) := by
  obtain ⟨entries⟩ := scope
  simp only [shifted, find?]
  induction entries with
  | nil => rfl
  | cons bound rest induction =>
      by_cases same : bound.1 = name
      · simp [findIn, same]
      · simpa [findIn, same] using induction

theorem bind_shifted (places slot : Nat) (scope : Bindings String Nat) (name : String) :
    (scope.bind name slot).shifted places = (scope.shifted places).bind name (places + slot) := by
  obtain ⟨entries⟩ := scope
  simp only [shifted, bind, mk.injEq]
  induction entries with
  | nil => rfl
  | cons bound rest induction =>
      by_cases same : bound.1 = name
      · simp [bindIn, same]
      · simpa [bindIn, same] using induction

end Bindings

namespace Symbols

/-- A table without variables that has the given number of scopes open above the root. -/
def blank (depth : Nat) : Symbols := ⟨[], ⟨.empty, List.replicate depth .empty⟩, []⟩

/-- The variables that a history adds to a table with scopes open at the given depth. -/
def added (depth : Nat) (history : List Action) : List Variable :=
  ((blank depth).acts history).entries

/-- A history over a base and the same history over a blank table. -/
structure Alongside (base : Symbols) (history : List Action) (opened : List (Bindings String Nat))
    (symbols alone : Symbols) : Prop where
  built : (blank base.scopeDepth).Built history opened alone
  root : symbols.scopes.root = base.scopes.root
  inner : symbols.scopes.inner =
    opened.map (Bindings.shifted base.entries.length) ++ base.scopes.inner
  entries : symbols.entries = (base.marked history).entries ++ alone.entries

variable {base symbols alone : Symbols} {history : List Action} {scope : Bindings String Nat}
  {opened : List (Bindings String Nat)}

theorem scopeDepth_blank (depth : Nat) : (blank depth).scopeDepth = depth :=
  List.length_replicate

theorem visible_blank (depth : Nat) (name : String) :
    (blank depth).scopes.visible? name = none := by
  apply List.findSome?_eq_none_iff.mpr
  intro scope member
  obtain rfl : scope = .empty := by
    rcases List.mem_append.mp member with inner | root
    · exact List.eq_of_mem_replicate inner
    · exact List.mem_singleton.mp root
  rfl

theorem findSome_shifted (places : Nat) (opened : List (Bindings String Nat)) (name : String) :
    (opened.map (Bindings.shifted places)).findSome? (fun scope => scope.find? name) =
      (opened.findSome? fun scope => scope.find? name).map (places + ·) := by
  induction opened with
  | nil => rfl
  | cons scope rest induction =>
      rw [List.map_cons, List.findSome?_cons, List.findSome?_cons, Bindings.find?_shifted]
      cases scope.find? name with
      | none => exact induction
      | some slot => rfl

/-! ### Steps -/

namespace Alongside

theorem scope_depth (alongside : base.Alongside history opened symbols alone) :
    symbols.scopeDepth = alone.scopeDepth := by
  rw [alongside.built.toOver.scope_depth, scopeDepth_blank, scopeDepth, ScopeStack.depth,
    alongside.inner, List.length_append, List.length_map, Nat.add_comm]
  rfl

theorem length (alongside : base.Alongside history opened symbols alone) :
    symbols.entries.length = base.entries.length + alone.entries.length := by
  rw [alongside.entries, List.length_append, length_marked]

theorem visible (alongside : base.Alongside history opened symbols alone) (name : String) :
    symbols.scopes.visible? name =
      ((opened.findSome? fun scope => scope.find? name).map (base.entries.length + ·)).or
        (base.scopes.visible? name) := by
  rw [ScopeStack.visible?, ScopeStack.outward, alongside.inner, alongside.root, List.append_assoc,
    List.findSome?_append, findSome_shifted]
  rfl

theorem visible_alone (alongside : base.Alongside history opened symbols alone) (name : String) :
    alone.scopes.visible? name = opened.findSome? fun scope => scope.find? name := by
  rw [alongside.built.toOver.visible, visible_blank, Option.or_none]

theorem enter (alongside : base.Alongside history opened symbols alone) :
    base.Alongside (history ++ [.enter]) (.empty :: opened) (symbols.act .enter)
      (alone.act .enter) where
  built := alongside.built.enter
  root := alongside.root
  inner := congrArg (Bindings.empty :: ·) alongside.inner
  entries := by
    rw [marked_concat]
    exact alongside.entries

theorem leave (alongside : base.Alongside history (scope :: opened) symbols alone) :
    base.Alongside (history ++ [.leave]) opened (symbols.act .leave) (alone.act .leave) where
  built := alongside.built.leave
  root := by
    rw [act_leave_of_inner alongside.inner]
    exact alongside.root
  inner := by
    rw [act_leave_of_inner alongside.inner]
    rfl
  entries := by
    rw [marked_concat, act_leave_of_inner alongside.inner,
      act_leave_of_inner alongside.built.inner]
    exact alongside.entries

theorem declare (alongside : base.Alongside history (scope :: opened) symbols alone)
    (name ty : String) (line : UInt64) :
    ∃ next, base.Alongside (history ++ [.declare name ty line]) next
      (symbols.act (.declare name ty line)) (alone.act (.declare name ty line)) := by
  have depth := alongside.scope_depth
  have shifted := Bindings.find?_shifted base.entries.length scope name
  cases found : scope.find? name with
  -- A scope may declare a name twice; then both tables write over the slot of the first.
  | some slot =>
      rw [found, Option.map_some] at shifted
      refine ⟨scope :: opened, alongside.built.redeclare found ty line, ?_, ?_, ?_⟩
      · rw [act, declare_of_bound alongside.inner shifted]
        exact alongside.root
      · rw [act, declare_of_bound alongside.inner shifted]
        exact alongside.inner
      · have above : (base.marked history).entries.length ≤ base.entries.length + slot := by
          rw [length_marked]
          omega
        rw [act, act, declare_of_bound alongside.inner shifted,
          declare_of_bound alongside.built.inner found, marked_concat, depth]
        simp only [alongside.entries, List.set_append_right _ _ above, length_marked,
          Nat.add_sub_cancel_left]
        rfl
  | none =>
      rw [found, Option.map_none] at shifted
      refine ⟨scope.bind name alone.entries.length :: opened,
        alongside.built.declare found ty line, ?_, ?_, ?_⟩
      · rw [act, declare_of_unbound alongside.inner shifted]
        exact alongside.root
      · rw [act, declare_of_unbound alongside.inner shifted, List.map_cons,
          Bindings.bind_shifted, alongside.length]
        rfl
      · rw [act, act, declare_of_unbound alongside.inner shifted,
          declare_of_unbound alongside.built.inner found, marked_concat, depth]
        simp only [alongside.entries, List.append_assoc]
        rfl

/-- A name that an open scope binds is marked on the side of the history, and any other on the side
of the base. -/
theorem mention (alongside : base.Alongside history opened symbols alone)
    (inStore : base.InStore) (lawful : Lawful history) (name : String) :
    base.Alongside (history ++ [.mention name]) opened (symbols.act (.mention name))
      (alone.act (.mention name)) where
  built := alongside.built.mention name
  root := by simpa only [act, scopes_markUsed] using alongside.root
  inner := by simpa only [act, scopes_markUsed] using alongside.inner
  entries := by
    have visible := alongside.visible name
    have visibleAlone := alongside.visible_alone name
    rw [act, act, marked_concat]
    cases bound : opened.findSome? fun scope => scope.find? name with
    -- The history binds the name, so the mention is not free and marks nothing of the base.
    | some slot =>
        rw [bound, Option.map_some, Option.some_or] at visible
        rw [bound] at visibleAlone
        obtain ⟨inside, member, found⟩ := List.exists_of_findSome?_eq_some bound
        obtain ⟨place, here⟩ := List.mem_iff_getElem?.mp member
        obtain ⟨ty, line, latest, -⟩ := alongside.built.latest place inside name slot here found
        rw [freeFrom_mention_of_live latest.live, markUsed, visible, markUsed, visibleAlone]
        simp only [alongside.entries, ← length_marked base history, modify_append_right,
          List.foldl_nil]
    | none =>
        rw [bound, Option.map_none, Option.none_or, ← scopes_marked base history] at visible
        rw [bound] at visibleAlone
        have silent : alone.markUsed name = alone := by rw [markUsed, visibleAlone]
        have free := alongside.built.free_of_unbound lawful bound
        rw [freeFrom_mention_of_free free, silent]
        exact entries_markUsed (inStore.marks _) visible alongside.entries

theorem act (alongside : base.Alongside history opened symbols alone) (inStore : base.InStore)
    {action : Action} (lawful : Lawful (history ++ [action])) :
    ∃ next, base.Alongside (history ++ [action]) next (symbols.act action) (alone.act action) := by
  cases action with
  | enter => exact ⟨_, alongside.enter⟩
  | leave =>
      obtain ⟨scope, outer, rfl⟩ := alongside.built.leaves_own lawful
      exact ⟨outer, alongside.leave⟩
  | mention name => exact ⟨opened, alongside.mention inStore lawful.front name⟩
  | declare name ty line =>
      obtain ⟨scope, outer, rfl⟩ := alongside.built.declares_own lawful
      exact alongside.declare name ty line

end Alongside

/-! ### Whole histories -/

theorem acts_alongside (inStore : base.InStore) {history : List Action} (lawful : Lawful history) :
    ∃ opened, base.Alongside history opened (base.acts history)
      ((blank base.scopeDepth).acts history) := by
  induction history using List.reverseRecOn with
  | nil =>
      exact ⟨[], built_nil _, rfl, rfl, (List.append_nil _).symm⟩
  | append_singleton history action induction =>
      obtain ⟨opened, alongside⟩ := induction lawful.front
      rw [acts_concat, acts_concat]
      exact alongside.act inStore lawful

theorem entries_acts (inStore : base.InStore) {history : List Action} (lawful : Lawful history) :
    (base.acts history).entries =
      (base.marked history).entries ++ added base.scopeDepth history := by
  obtain ⟨opened, alongside⟩ := acts_alongside inStore lawful
  exact alongside.entries

/-- Histories that close what they open, one after another: each adds its own variables, and what
was there before has the marks of all of them. -/
theorem entries_flatten (inStore : base.InStore) {histories : List (List Action)}
    (lawful : ∀ history ∈ histories, Lawful history)
    (level : ∀ history ∈ histories, height history = 0) :
    (base.acts histories.flatten).entries =
      ((histories.flatMap freeMentions).foldl markUsed base).entries ++
        histories.flatMap (added base.scopeDepth) := by
  induction histories generalizing base with
  | nil => exact (List.append_nil _).symm
  | cons history rest induction =>
      have first := entries_acts inStore (lawful history List.mem_cons_self)
      have stacked := acts_over base (lawful history List.mem_cons_self)
        (level history List.mem_cons_self)
      have scopes := stacked.scopes_eq
      have depth : (base.acts history).scopeDepth = base.scopeDepth :=
        congrArg ScopeStack.depth scopes
      have later := induction (stacked.in_store inStore)
        (fun history member => lawful history (List.mem_cons_of_mem _ member))
        (fun history member => level history (List.mem_cons_of_mem _ member))
      have marks := entries_marks (inStore.marks (freeMentions history))
        (scopes.trans (scopes_marked base history).symm) first (rest.flatMap freeMentions)
      rw [List.flatten_cons, acts_append, later, marks, depth, List.flatMap_cons,
        List.flatMap_cons, List.foldl_append, List.append_assoc]

/-! ### Other orders -/

/-- A variable is marked if one of the names means it. -/
theorem entry_marks (base : Symbols) (names : List String) (slot : Nat) :
    (names.foldl markUsed base).entries[slot]? = (base.entries[slot]?).map fun entry =>
      if ∃ name ∈ names, base.scopes.visible? name = some slot then { entry with used := true }
      else entry := by
  induction names generalizing base with
  | nil => simp
  | cons name rest induction =>
      rw [List.foldl_cons, induction, entry_markUsed, scopes_markUsed, Option.map_map]
      congr 1
      funext entry
      by_cases own : base.scopes.visible? name = some slot
      · simp [own]
      · simp [own]

theorem marks_congr (base : Symbols) {names others : List String}
    (same : ∀ name, name ∈ names ↔ name ∈ others) :
    (names.foldl markUsed base).entries = (others.foldl markUsed base).entries := by
  apply List.ext_getElem?
  intro slot
  simp only [entry_marks, same]

/-- Histories that close what they open may change places: the variables from before get the same
marks, and the same variables are added. -/
theorem entries_reordered (inStore : base.InStore) {histories others : List (List Action)}
    (lawful : ∀ history ∈ histories, Lawful history)
    (level : ∀ history ∈ histories, height history = 0) (reordered : histories.Perm others) :
    (base.acts histories.flatten).entries.take base.entries.length =
        (base.acts others.flatten).entries.take base.entries.length ∧
      ((base.acts histories.flatten).entries.drop base.entries.length).Perm
        ((base.acts others.flatten).entries.drop base.entries.length) := by
  have first := entries_flatten inStore lawful level
  have second := entries_flatten inStore
    (fun history member => lawful history (reordered.mem_iff.mpr member))
    (fun history member => level history (reordered.mem_iff.mpr member))
  have marks : ((histories.flatMap freeMentions).foldl markUsed base).entries =
      ((others.flatMap freeMentions).foldl markUsed base).entries :=
    marks_congr base fun name => (reordered.flatMap_right freeMentions).mem_iff
  have length := length_marks base (others.flatMap freeMentions)
  rw [first, second, marks]
  constructor
  · rw [List.take_left' length, List.take_left' length]
  · rw [List.drop_left' length, List.drop_left' length]
    exact reordered.flatMap_right _

end Symbols

end Sema
