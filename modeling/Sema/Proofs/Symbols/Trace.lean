import Sema.Proofs.Symbols.Recorded

/-!
# One declaration

The slot of a declaration, from the moment that it is declared. As long as its scope is open, that
scope binds its name to the slot and no other binding leads there; afterwards none does. So if its
scope does not declare the name again, the slot holds the declaration, which is marked as used if
and only if it is referenced, whatever the scopes around it and inside of it declare.
-/

namespace Sema

/-- The name is declared again in the scope that is innermost at first. -/
def Redeclared (rest : List Action) (name : String) : Prop :=
  ∃ between ty line later, rest = between ++ .declare name ty line :: later ∧
    StaysOpen between ∧ height between = 0

/-- A live declaration that is deeper than the last scopes opened is one of the last actions. -/
theorem LiveAt.inside {front rest : List Action} {name : String} {depth : Int}
    (live : LiveAt (front ++ rest) name depth) (deep : depth < height rest) :
    LiveAt rest name depth := by
  obtain ⟨before, ty, line, after, split, stays, level⟩ := live
  rcases List.append_eq_append_iff.mp split with ⟨gap, rfl, restSplit⟩ | ⟨gap, rfl, gapSplit⟩
  · exact ⟨gap, ty, line, after, restSplit, stays, level⟩
  · cases gap with
    | nil => exact ⟨[], ty, line, after, gapSplit.symm, stays, level⟩
    | cons action gap =>
        obtain ⟨-, rfl⟩ := List.cons.inj gapSplit
        have bottom := stays.front.nonneg
        have total : height gap + height rest = depth := by rw [← height_append]; exact level
        omega

theorem Redeclared.declares {rest : List Action} {name : String} (again : Redeclared rest name) :
    Declares rest name := by
  obtain ⟨between, ty, line, later, rfl, -, -⟩ := again
  exact ⟨ty, line, by simp⟩

theorem not_redeclared_front {rest : List Action} {name : String} {action : Action}
    (once : ¬ Redeclared (rest ++ [action]) name) : ¬ Redeclared rest name := by
  rintro ⟨between, ty, line, later, rfl, stays, level⟩
  exact once ⟨between, ty, line, later ++ [action], by simp, stays, level⟩

namespace Declaration

/-- The declaration with what is done before and after it. -/
def within (declaration : Declaration) (front : List Action) : List Action :=
  front ++ .declare declaration.name declaration.ty declaration.line :: declaration.rest

theorem within_followed (declaration : Declaration) (front : List Action) (action : Action) :
    (declaration.followed [action]).within front = declaration.within front ++ [action] := by
  simp [within, followed]

/-- The scope of the declaration is open, that many scopes out. -/
def OpenAt (declaration : Declaration) (depth : Nat) : Prop :=
  StaysOpen declaration.rest ∧ height declaration.rest = depth

theorem openAt_followed {declaration : Declaration} {action : Action} {depth after : Nat}
    (moved : (after : Int) = depth + action.rise) :
    (declaration.followed [action]).OpenAt after ↔ declaration.OpenAt depth := by
  simp only [OpenAt, followed, stays_open_concat, height_append, height_cons, height_nil]
  constructor
  · rintro ⟨⟨stays, -⟩, level⟩
    exact ⟨stays, by omega⟩
  · rintro ⟨stays, level⟩
    exact ⟨⟨stays, by omega⟩, by omega⟩

end Declaration

namespace Symbols

/-- The table after a declaration, which is in the given slot, and what follows it. -/
structure Traced (base : Symbols) (front : List Action) (declaration : Declaration) (slot : Nat)
    (opened : List (Bindings String Nat)) (symbols : Symbols) : Prop
    extends Built base (declaration.within front) opened symbols where
  own : base.entries.length ≤ slot
  holds : symbols.entries[slot]? = some (declaration.entry base.scopeDepth)
  bindings : ∀ (depth : Nat) scope name, opened[depth]? = some scope →
    (scope.find? name = some slot ↔ declaration.name = name ∧ declaration.OpenAt depth)

variable {base symbols : Symbols} {front history : List Action} {scope : Bindings String Nat}
  {opened : List (Bindings String Nat)} {declaration : Declaration} {slot : Nat}

/-! ### The declaration itself -/

theorem traced_new {name ty : String} {line : UInt64}
    (built : base.Built (front ++ [.declare name ty line]) (scope :: opened) symbols)
    (bound : scope.find? name = some slot)
    (holds : symbols.entries[slot]? =
      some ⟨name, ty, line, false, base.scopeDepth + (height front).toNat⟩) :
    base.Traced front ⟨name, ty, line, (height front).toNat, []⟩ slot (scope :: opened)
      symbols where
  toBuilt := built
  own := (built.fresh scope List.mem_cons_self name slot bound).1
  holds := by
    have unused : ¬ Referenced [] name := not_referenced_nil name
    simp [holds, Declaration.entry, unused]
  bindings := by
    intro depth inside other place
    have here : (scope :: opened)[0]? = some scope := List.getElem?_cons_zero
    constructor
    · intro found
      obtain ⟨level, named⟩ := built.slot_injective here bound place found
      exact ⟨named, stays_open_nil, by rw [← level]; rfl⟩
    · rintro ⟨named, -, level⟩
      obtain rfl : depth = 0 := by simpa using level.symm
      simp only [here, Option.some.injEq] at place
      rw [← place, ← named, bound]

theorem Traced.visible_at_first (traced : base.Traced front declaration slot opened symbols)
    (new : declaration.rest = []) (inside : opened ≠ []) :
    symbols.scopes.visible? declaration.name = some slot := by
  cases opened with
  | nil => exact absurd rfl inside
  | cons scope outer =>
      have here : declaration.OpenAt 0 := by
        rw [Declaration.OpenAt, new]
        exact ⟨stays_open_nil, rfl⟩
      have bound : scope.find? declaration.name = some slot :=
        (traced.bindings 0 scope declaration.name rfl).mpr ⟨rfl, here⟩
      rw [traced.toOver.visible, List.findSome?_cons, bound]
      rfl

/-! ### What follows -/

theorem Traced.stored (traced : base.Traced front declaration slot opened symbols) :
    slot < symbols.entries.length := (List.getElem?_eq_some_iff.mp traced.holds).1

/-- A scope that was open before binds what it has bound. -/
theorem Traced.bindings_followed (traced : base.Traced front declaration slot opened symbols)
    {action : Action} {depth after : Nat} (place : opened[depth]? = some scope)
    (moved : (after : Int) = depth + action.rise) (name : String) :
    scope.find? name = some slot ↔ (declaration.followed [action]).name = name ∧
      (declaration.followed [action]).OpenAt after := by
  rw [Declaration.openAt_followed moved]
  exact traced.bindings depth scope name place

theorem Traced.enter (traced : base.Traced front declaration slot opened symbols) :
    base.Traced front (declaration.followed [.enter]) slot (.empty :: opened)
      (symbols.act .enter) where
  toBuilt := by
    rw [Declaration.within_followed]
    exact traced.toBuilt.enter
  own := traced.own
  holds := by
    rw [entry_followed (by simp)]
    exact traced.holds
  bindings := by
    intro depth inside name place
    cases depth with
    | zero =>
        simp only [List.getElem?_cons_zero, Option.some.injEq] at place
        subst place
        simp only [Bindings.find?_empty, reduceCtorEq, false_iff]
        rintro ⟨-, stays, level⟩
        have bottom := stays.front.nonneg
        simp only [Declaration.followed, height_append, height_cons, height_nil, Action.rise]
          at level
        omega
    | succ depth =>
        exact traced.bindings_followed (by simpa using place) (by simp [Action.rise]) name

theorem Traced.leave (traced : base.Traced front declaration slot (scope :: opened) symbols) :
    base.Traced front (declaration.followed [.leave]) slot opened (symbols.act .leave) where
  toBuilt := by
    rw [Declaration.within_followed]
    exact traced.toBuilt.leave
  own := traced.own
  holds := by
    rw [entry_followed (by simp), act_leave_of_inner traced.inner]
    exact traced.holds
  bindings := by
    intro depth inside name place
    have outer : (scope :: opened)[depth + 1]? = some inside := by simpa using place
    exact traced.bindings_followed outer (by rw [Action.rise]; omega) name

theorem Traced.redeclare (traced : base.Traced front declaration slot (scope :: opened) symbols)
    {name ty : String} {line : UInt64} {other : Nat} (bound : scope.find? name = some other)
    (once : ¬ Redeclared (declaration.rest ++ [.declare name ty line]) declaration.name) :
    base.Traced front (declaration.followed [.declare name ty line]) slot (scope :: opened)
      (symbols.act (.declare name ty line)) where
  toBuilt := by
    rw [Declaration.within_followed]
    exact traced.toBuilt.redeclare bound ty line
  own := traced.own
  holds := by
    -- A binding that leads to the slot is that of the declaration, which is not made again here.
    have apart : other ≠ slot := by
      rintro rfl
      obtain ⟨named, stays, level⟩ := (traced.bindings 0 scope name rfl).mp bound
      exact once ⟨declaration.rest, ty, line, [], by rw [named], stays, level⟩
    rw [entry_followed (by simp), act, declare_of_bound traced.inner bound]
    simpa [List.getElem?_set_ne apart] using traced.holds
  bindings := by
    intro depth inside sought place
    exact traced.bindings_followed place (by simp [Action.rise]) sought

theorem Traced.declare (traced : base.Traced front declaration slot (scope :: opened) symbols)
    {name : String} (unbound : scope.find? name = none) (ty : String) (line : UInt64) :
    base.Traced front (declaration.followed [.declare name ty line]) slot
      (scope.bind name symbols.entries.length :: opened)
      (symbols.act (.declare name ty line)) where
  toBuilt := by
    rw [Declaration.within_followed]
    exact traced.toBuilt.declare unbound ty line
  own := traced.own
  holds := by
    rw [entry_followed (by simp), act, declare_of_unbound traced.inner unbound]
    simpa [List.getElem?_append_left traced.stored] using traced.holds
  bindings := by
    intro depth inside sought place
    have stored := traced.stored
    rw [Declaration.openAt_followed (show (depth : Int) = depth + _ by simp [Action.rise])]
    cases depth with
    | zero =>
        simp only [List.getElem?_cons_zero, Option.some.injEq] at place
        subst place
        have before := traced.bindings 0 scope sought rfl
        rw [Bindings.find?_bind]
        by_cases same : name = sought
        · subst same
          rw [unbound] at before
          simp only [if_true, Option.some.injEq]
          constructor
          · intro new
            omega
          · intro declared
            exact absurd (before.mpr declared) (by simp)
        · rw [if_neg same]
          exact before
    | succ depth => exact traced.bindings (depth + 1) inside sought (by simpa using place)

/-! ### Mentions -/

/-- What is not hidden is bound by no scope inside of its own. -/
theorem Built.unbound_of_seen (built : base.Built history opened symbols) {rest : List Action}
    {action : Action} (split : history = front ++ action :: rest) {name : String}
    (seen : ¬ Hidden rest name) {depth : Nat} (place : opened[depth]? = some scope)
    (deep : depth < height rest) : scope.find? name = none := by
  cases found : scope.find? name with
  | none => rfl
  | some slot =>
      obtain ⟨ty, line, latest, -⟩ := built.latest depth scope name slot place found
      have regroup : front ++ action :: rest = (front ++ [action]) ++ rest := by simp
      have live := latest.live
      rw [split, regroup] at live
      exact absurd ⟨depth, deep, live.inside deep⟩ seen

/-- A mention that leads to the slot refers to the declaration. -/
theorem Traced.visible_of_slot (traced : base.Traced front declaration slot opened symbols)
    (inStore : base.InStore) {name : String}
    (led : symbols.scopes.visible? name = some slot) : declaration.Visible name := by
  have split : declaration.within front = front ++
      .declare declaration.name declaration.ty declaration.line :: declaration.rest := rfl
  rw [traced.toOver.visible] at led
  cases bound : opened.findSome? fun scope => scope.find? name with
  | none =>
      rw [bound, Option.none_or] at led
      have within := inStore.visible_lt led
      have own := traced.own
      omega
  | some other =>
      rw [bound, Option.some_or, Option.some.injEq] at led
      subst led
      obtain ⟨inner, scope, outer, rfl, found, unbound⟩ := List.findSome?_eq_some_iff.mp bound
      have own : (inner ++ scope :: outer)[inner.length]? = some scope := by simp
      obtain ⟨rfl, stays, level⟩ := (traced.bindings inner.length scope name own).mp found
      refine ⟨rfl, stays, traced.toBuilt.not_hidden split own level ?_⟩
      intro depth inside place deeper
      rw [List.getElem?_append_left deeper] at place
      exact unbound inside (List.mem_of_getElem? place)

/-- A mention that refers to the declaration leads to its slot. -/
theorem Traced.slot_of_visible (traced : base.Traced front declaration slot opened symbols)
    (lawful : Lawful (declaration.within front)) {name : String}
    (visible : declaration.Visible name) : symbols.scopes.visible? name = some slot := by
  obtain ⟨rfl, stays, seen⟩ := visible
  have split : declaration.within front = front ++
      .declare declaration.name declaration.ty declaration.line :: declaration.rest := rfl
  have inside := lawful.inside front _ _ _ declaration.rest split
  have total := traced.level
  rw [split, height_append, height_cons, Action.rise] at total
  obtain ⟨place, level⟩ := Int.eq_ofNat_of_zero_le stays.nonneg
  have within : place < opened.length := by omega
  have here : opened[place]? = some opened[place] := List.getElem?_eq_getElem within
  have bound : opened[place].find? declaration.name = some slot :=
    (traced.bindings place _ declaration.name here).mpr ⟨rfl, stays, level⟩
  have unbound : ∀ scope ∈ opened.take place, scope.find? declaration.name = none := by
    intro scope member
    obtain ⟨depth, found⟩ := List.mem_iff_getElem?.mp member
    have deeper : depth < place := by
      have reached := (List.getElem?_eq_some_iff.mp found).1
      rw [List.length_take] at reached
      omega
    rw [List.getElem?_take_of_lt deeper] at found
    exact traced.toBuilt.unbound_of_seen split seen found (by omega)
  have first : (opened.findSome? fun scope => scope.find? declaration.name) = some slot := by
    refine List.findSome?_eq_some_iff.mpr
      ⟨opened.take place, opened[place], opened.drop (place + 1), ?_, bound, unbound⟩
    simp
  rw [traced.toOver.visible, first, Option.some_or]

theorem Traced.mention (traced : base.Traced front declaration slot opened symbols)
    (inStore : base.InStore) (lawful : Lawful (declaration.within front)) (name : String) :
    base.Traced front (declaration.followed [.mention name]) slot opened
      (symbols.act (.mention name)) where
  toBuilt := by
    rw [Declaration.within_followed]
    exact traced.toBuilt.mention name
  own := traced.own
  holds := by
    rw [act, entry_markUsed, traced.holds, Option.map_some]
    by_cases visible : declaration.Visible name
    · rw [if_pos (traced.slot_of_visible lawful visible), entry_of_visible visible]
    · have elsewhere : symbols.scopes.visible? name ≠ some slot :=
        fun led => visible (traced.visible_of_slot inStore led)
      rw [if_neg elsewhere, entry_of_not_visible visible]
  bindings := by
    intro depth inside sought place
    exact traced.bindings_followed place (by simp [Action.rise]) sought

/-! ### Whole histories -/

theorem Traced.act (traced : base.Traced front declaration slot opened symbols)
    (inStore : base.InStore) {action : Action}
    (lawful : Lawful (declaration.within front ++ [action]))
    (once : ¬ Redeclared (declaration.rest ++ [action]) declaration.name) :
    ∃ next, base.Traced front (declaration.followed [action]) slot next (symbols.act action) := by
  cases action with
  | enter => exact ⟨_, traced.enter⟩
  | mention name => exact ⟨opened, traced.mention inStore lawful.front name⟩
  | leave =>
      obtain ⟨scope, outer, rfl⟩ := traced.toBuilt.leaves_own lawful
      exact ⟨outer, traced.leave⟩
  | declare name ty line =>
      obtain ⟨scope, outer, rfl⟩ := traced.toBuilt.declares_own lawful
      cases bound : scope.find? name with
      | none => exact ⟨_, traced.declare bound ty line⟩
      | some other => exact ⟨_, traced.redeclare bound once⟩

/-- A declaration in an open scope gets a slot, old or new. -/
theorem declare_traced (base : Symbols) {front : List Action} {name ty : String} {line : UInt64}
    (lawful : Lawful (front ++ [.declare name ty line])) :
    ∃ slot opened, (base.acts (front ++ [.declare name ty line])).scopes.visible? name = some slot ∧
      base.Traced front ⟨name, ty, line, (height front).toNat, []⟩ slot opened
        (base.acts (front ++ [.declare name ty line])) := by
  obtain ⟨opened, built⟩ := acts_built base lawful.front
  obtain ⟨scope, outer, rfl⟩ := built.declares_own lawful
  have level := built.level
  have depth := built.toOver.scope_depth
  have count : (scope :: outer).length = (height front).toNat := by omega
  rw [acts_concat]
  cases bound : scope.find? name with
  | some slot =>
      have stored := (built.fresh scope List.mem_cons_self name slot bound).2
      have traced := traced_new (built.redeclare bound ty line) bound (by
        rw [act, declare_of_bound built.inner bound, depth, count]
        simp [stored])
      exact ⟨slot, _, traced.visible_at_first rfl (by simp), traced⟩
  | none =>
      have own : (scope.bind name (base.acts front).entries.length).find? name =
          some (base.acts front).entries.length := by
        rw [Bindings.find?_bind, if_pos rfl]
      have traced := traced_new (built.declare bound ty line) own (by
        rw [act, declare_of_unbound built.inner bound, depth, count]
        simp)
      exact ⟨_, _, traced.visible_at_first rfl (by simp), traced⟩

/-- As long as its scope does not declare the name again, the slot of a declaration tells whether it
was referenced. -/
theorem acts_traced {base : Symbols} (inStore : base.InStore) {front : List Action}
    {name ty : String} {line : UInt64} {rest : List Action}
    (lawful : Lawful (front ++ .declare name ty line :: rest)) (once : ¬ Redeclared rest name) :
    ∃ slot, (base.acts (front ++ [.declare name ty line])).scopes.visible? name = some slot ∧
      ∃ opened, base.Traced front ⟨name, ty, line, (height front).toNat, rest⟩ slot opened
        (base.acts (front ++ .declare name ty line :: rest)) := by
  -- The slot is fixed by the declaration; what follows is taken action by action.
  induction rest using List.reverseRecOn with
  | nil =>
      obtain ⟨slot, opened, visible, traced⟩ := declare_traced base lawful
      exact ⟨slot, visible, opened, traced⟩
  | append_singleton rest action induction =>
      have regroup : front ++ .declare name ty line :: (rest ++ [action]) =
          (front ++ .declare name ty line :: rest) ++ [action] := by simp
      rw [regroup] at lawful
      obtain ⟨slot, visible, opened, traced⟩ :=
        induction lawful.front (not_redeclared_front once)
      obtain ⟨next, followed⟩ := traced.act inStore lawful once
      rw [← acts_concat, ← regroup] at followed
      exact ⟨slot, visible, next, followed⟩

end Symbols

end Sema
