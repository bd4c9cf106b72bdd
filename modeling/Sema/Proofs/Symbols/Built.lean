import Sema.Proofs.Symbols.Frame

/-!
# The open scopes after a history

`acts_built` is what the library knows about a table after a lawful history: the scopes opened over
the base bind the names with a live declaration, each scope at the depth of those declarations, and
the slot of a name holds the latest of them.
-/

namespace Sema.Symbols

/-- The scopes over a base bind what the history has declared and not closed. -/
structure Built (base : Symbols) (history : List Action) (opened : List (Bindings String Nat))
    (symbols : Symbols) : Prop extends Over base opened symbols where
  level : (opened.length : Int) = height history
  bound : ∀ (depth : Nat) scope name, opened[depth]? = some scope → LiveAt history name depth →
    ∃ slot, scope.find? name = some slot
  latest : ∀ (depth : Nat) scope name slot, opened[depth]? = some scope →
    scope.find? name = some slot → ∃ ty line, LatestAt history name depth ty line ∧
      (symbols.entries[slot]?).map Variable.unmarked =
        some ⟨name, ty, line, false, base.scopeDepth + (opened.length - depth)⟩

variable {base symbols : Symbols} {history : List Action} {scope : Bindings String Nat}
  {opened : List (Bindings String Nat)}

theorem Over.scope_depth (stacked : base.Over opened symbols) :
    symbols.scopeDepth = base.scopeDepth + opened.length := by
  simp only [scopeDepth, ScopeStack.depth, stacked.inner, List.length_append]
  omega

theorem built_nil (base : Symbols) : base.Built [] [] base where
  toOver := over_refl base
  level := rfl
  bound := by simp
  latest := by simp

theorem Built.enter (built : base.Built history opened symbols) :
    base.Built (history ++ [.enter]) (.empty :: opened) (symbols.act .enter) where
  toOver := built.toOver.enter
  level := by
    have level := built.level
    simp only [List.length_cons, height_append, height_cons, height_nil, Action.rise]
    omega
  bound := by
    intro depth inside name place live
    rcases live_at_concat.mp live with ⟨-, live⟩ | ⟨-, _, _, impossible⟩
    · cases depth with
      | zero =>
          have above := live.nonneg
          simp [Action.rise] at above
      | succ depth =>
          refine built.bound depth inside name (by simpa using place) ?_
          simpa [Action.rise] using live
    · cases impossible
  latest := by
    intro depth inside name slot place found
    cases depth with
    | zero =>
        simp only [List.getElem?_cons_zero, Option.some.injEq] at place
        subst place
        simp at found
    | succ depth =>
        obtain ⟨ty, line, latest, content⟩ :=
          built.latest depth inside name slot (by simpa using place) found
        refine ⟨ty, line, LatestAt.concat (by simpa [Action.rise] using latest) (by omega)
          (by simp), ?_⟩
        simpa [act, Symbols.enter] using content

theorem Built.leave (built : base.Built history (scope :: opened) symbols) :
    base.Built (history ++ [.leave]) opened (symbols.act .leave) where
  toOver := built.toOver.leave
  level := by
    have level := built.level
    simp only [List.length_cons, height_append, height_cons, height_nil, Action.rise] at level ⊢
    omega
  bound := by
    intro depth inside name place live
    rcases live_at_concat.mp live with ⟨-, live⟩ | ⟨-, _, _, impossible⟩
    · refine built.bound (depth + 1) inside name (by simpa using place) ?_
      simpa [Action.rise] using live
    · cases impossible
  latest := by
    intro depth inside name slot place found
    obtain ⟨ty, line, latest, content⟩ :=
      built.latest (depth + 1) inside name slot (by simpa using place) found
    refine ⟨ty, line, LatestAt.concat (by simpa [Action.rise] using latest) (by omega)
      (by simp), ?_⟩
    rw [act_leave_of_inner built.inner]
    simpa using content

theorem Built.mention (built : base.Built history opened symbols) (name : String) :
    base.Built (history ++ [.mention name]) opened (symbols.act (.mention name)) where
  toOver := built.toOver.mention name
  level := by simpa [Action.rise] using built.level
  bound := by
    intro depth inside sought place live
    rcases live_at_concat.mp live with ⟨-, live⟩ | ⟨-, _, _, impossible⟩
    · exact built.bound depth inside sought place (by simpa [Action.rise] using live)
    · cases impossible
  latest := by
    intro depth inside sought slot place found
    obtain ⟨ty, line, latest, content⟩ := built.latest depth inside sought slot place found
    refine ⟨ty, line, LatestAt.concat (by simpa [Action.rise] using latest) (by omega)
      (by simp), ?_⟩
    simpa only [act, unmarked_markUsed] using content

/-! ### Declarations -/

/-- Two bindings of open scopes share a slot only if they are the same binding. -/
theorem Built.slot_injective (built : base.Built history opened symbols) {first second : Nat}
    {left right : Bindings String Nat} {name other : String} {slot : Nat}
    (leftPlace : opened[first]? = some left) (leftFound : left.find? name = some slot)
    (rightPlace : opened[second]? = some right) (rightFound : right.find? other = some slot) :
    first = second ∧ name = other := by
  obtain ⟨_, _, -, leftContent⟩ := built.latest first left name slot leftPlace leftFound
  obtain ⟨_, _, -, rightContent⟩ := built.latest second right other slot rightPlace rightFound
  have firstWithin := (List.getElem?_eq_some_iff.mp leftPlace).1
  have secondWithin := (List.getElem?_eq_some_iff.mp rightPlace).1
  rw [leftContent] at rightContent
  simp only [Option.some.injEq, Variable.mk.injEq] at rightContent
  exact ⟨by omega, rightContent.1⟩

theorem Built.redeclare (built : base.Built history (scope :: opened) symbols) {name : String}
    {slot : Nat} (found : scope.find? name = some slot) (ty : String) (line : UInt64) :
    base.Built (history ++ [.declare name ty line]) (scope :: opened)
      (symbols.act (.declare name ty line)) where
  toOver := built.toOver.redeclare found ty line
  level := by simpa [Action.rise] using built.level
  bound := by
    intro depth inside sought place live
    rcases live_at_concat.mp live with ⟨-, live⟩ | ⟨same, _, _, declared⟩
    · exact built.bound depth inside sought place (by simpa [Action.rise] using live)
    · obtain rfl : depth = 0 := by omega
      obtain ⟨rfl, -, -⟩ := Action.declare.inj declared
      simp only [List.getElem?_cons_zero, Option.some.injEq] at place
      subst place
      exact ⟨slot, found⟩
  latest := by
    intro depth inside sought other place otherFound
    have depthOver := built.toOver.scope_depth
    have within := (built.fresh scope List.mem_cons_self name slot found).2
    rw [act, declare_of_bound built.inner found]
    by_cases same : depth = 0 ∧ sought = name
    · obtain ⟨rfl, rfl⟩ := same
      simp only [List.getElem?_cons_zero, Option.some.injEq] at place
      subst place
      obtain rfl : slot = other := by rwa [found, Option.some.injEq] at otherFound
      refine ⟨ty, line, latest_at_concat_declare history sought ty line, ?_⟩
      simp [within, Variable.unmarked, depthOver]
    · obtain ⟨oldTy, oldLine, latest, content⟩ :=
        built.latest depth inside sought other place otherFound
      have apart : slot ≠ other := by
        rintro rfl
        have here : (scope :: opened)[0]? = some scope := List.getElem?_cons_zero
        have one := built.slot_injective here found place otherFound
        exact same ⟨one.1.symm, one.2.symm⟩
      refine ⟨oldTy, oldLine, LatestAt.concat (by simpa [Action.rise] using latest) (by omega) ?_,
        by rwa [List.getElem?_set_ne apart]⟩
      rintro ⟨root, _, _, declared⟩
      exact same ⟨by omega, (Action.declare.inj declared).1.symm⟩

theorem Built.declare (built : base.Built history (scope :: opened) symbols) {name : String}
    (unbound : scope.find? name = none) (ty : String) (line : UInt64) :
    base.Built (history ++ [.declare name ty line])
      (scope.bind name symbols.entries.length :: opened)
      (symbols.act (.declare name ty line)) where
  toOver := built.toOver.declare unbound ty line
  level := by simpa [Action.rise] using built.level
  bound := by
    intro depth inside sought place live
    cases depth with
    | zero =>
        simp only [List.getElem?_cons_zero, Option.some.injEq] at place
        subst place
        rw [Bindings.find?_bind]
        by_cases same : name = sought
        · exact ⟨symbols.entries.length, by simp [same]⟩
        · rw [if_neg same]
          rcases live_at_concat.mp live with ⟨-, live⟩ | ⟨-, _, _, declared⟩
          · exact built.bound 0 scope sought List.getElem?_cons_zero
              (by simpa [Action.rise] using live)
          · exact absurd (Action.declare.inj declared).1 same
    | succ depth =>
        rcases live_at_concat.mp live with ⟨-, live⟩ | ⟨root, -⟩
        · exact built.bound (depth + 1) inside sought (by simpa using place)
            (by simpa [Action.rise] using live)
        · omega
  latest := by
    intro depth inside sought slot place found
    have depthOver := built.toOver.scope_depth
    rw [act, declare_of_unbound built.inner unbound]
    by_cases same : depth = 0 ∧ sought = name
    · obtain ⟨rfl, rfl⟩ := same
      simp only [List.getElem?_cons_zero, Option.some.injEq] at place
      subst place
      rw [Bindings.find?_bind, if_pos rfl, Option.some.injEq] at found
      subst found
      refine ⟨ty, line, latest_at_concat_declare history sought ty line, ?_⟩
      simp [Variable.unmarked, depthOver]
    -- Any other binding was there before, and its name is not declared in its scope now.
    · obtain ⟨old, oldPlace, oldFound⟩ : ∃ old, (scope :: opened)[depth]? = some old ∧
          old.find? sought = some slot := by
        cases depth with
        | zero =>
            simp only [List.getElem?_cons_zero, Option.some.injEq] at place
            subst place
            have different : ¬ name = sought := fun equal => same ⟨rfl, equal.symm⟩
            rw [Bindings.find?_bind, if_neg different] at found
            exact ⟨scope, List.getElem?_cons_zero, found⟩
        | succ depth => exact ⟨inside, by simpa using place, found⟩
      obtain ⟨oldTy, oldLine, latest, content⟩ :=
        built.latest depth old sought slot oldPlace oldFound
      have within := (built.fresh old (List.mem_of_getElem? oldPlace) sought slot oldFound).2
      refine ⟨oldTy, oldLine, LatestAt.concat (by simpa [Action.rise] using latest) (by omega) ?_,
        by rwa [List.getElem?_append_left within]⟩
      rintro ⟨root, _, _, declared⟩
      exact same ⟨by omega, (Action.declare.inj declared).1.symm⟩

/-! ### Whole histories -/

theorem acts_concat (base : Symbols) (history : List Action) (action : Action) :
    base.acts (history ++ [action]) = (base.acts history).act action := by
  simp [acts]

theorem acts_append (base : Symbols) (history later : List Action) :
    base.acts (history ++ later) = (base.acts history).acts later := by
  simp [acts]

/-- A lawful history leaves no scope but those that it has opened. -/
theorem Built.leaves_own (built : base.Built history opened symbols)
    (lawful : Lawful (history ++ [.leave])) : ∃ scope outer, opened = scope :: outer := by
  have above := (stays_open_concat.mp lawful.stays).2
  have level := built.level
  rw [Action.rise] at above
  exact List.exists_cons_of_length_pos (by omega)

/-- A lawful history declares in no scope but those that it has opened. -/
theorem Built.declares_own (built : base.Built history opened symbols) {name ty : String}
    {line : UInt64} (lawful : Lawful (history ++ [.declare name ty line])) :
    ∃ scope outer, opened = scope :: outer := by
  have above := lawful.inside history name ty line [] rfl
  have level := built.level
  exact List.exists_cons_of_length_pos (by omega)

/-- What a lawful action builds on what its history has built. -/
theorem Built.act (built : base.Built history opened symbols) {action : Action}
    (lawful : Lawful (history ++ [action])) :
    ∃ next, base.Built (history ++ [action]) next (symbols.act action) := by
  cases action with
  | enter => exact ⟨_, built.enter⟩
  | leave =>
      obtain ⟨scope, outer, rfl⟩ := built.leaves_own lawful
      exact ⟨outer, built.leave⟩
  | mention name => exact ⟨opened, built.mention name⟩
  | declare name ty line =>
      obtain ⟨scope, outer, rfl⟩ := built.declares_own lawful
      cases found : scope.find? name with
      | none => exact ⟨_, built.declare found ty line⟩
      | some slot => exact ⟨_, built.redeclare found ty line⟩

theorem acts_built (base : Symbols) {history : List Action} (lawful : Lawful history) :
    ∃ opened, base.Built history opened (base.acts history) := by
  induction history using List.reverseRecOn with
  | nil => exact ⟨[], built_nil base⟩
  | append_singleton history action induction =>
      obtain ⟨opened, built⟩ := induction lawful.front
      rw [acts_concat]
      exact built.act lawful

/-- A history that closes what it opens leaves a table with the scopes that it had. -/
theorem acts_over (base : Symbols) {history : List Action} (lawful : Lawful history)
    (level : height history = 0) : base.Over [] (base.acts history) := by
  obtain ⟨opened, built⟩ := acts_built base lawful
  have count := built.level
  rw [level] at count
  obtain rfl : opened = [] := List.eq_nil_of_length_eq_zero (by omega)
  exact built.toOver

/-! ### Excursions -/

/-- All that leads from one table to the other happens in scopes that are closed again. -/
def Excursion (before after : Symbols) : Prop :=
  ∃ history, Lawful history ∧ height history = 0 ∧ after = before.acts history

theorem excursion_refl (symbols : Symbols) : symbols.Excursion symbols :=
  ⟨[], lawful_nil, rfl, rfl⟩

theorem Excursion.trans {first second third : Symbols} (before : first.Excursion second)
    (after : second.Excursion third) : first.Excursion third := by
  obtain ⟨history, lawful, level, rfl⟩ := before
  obtain ⟨later, laterLawful, laterLevel, rfl⟩ := after
  refine ⟨history ++ later, lawful.append laterLawful, ?_, (acts_append first history later).symm⟩
  rw [height_append, level, laterLevel, Int.add_zero]

theorem Excursion.over {before after : Symbols} (excursion : before.Excursion after) :
    before.Over [] after := by
  obtain ⟨history, lawful, level, rfl⟩ := excursion
  exact acts_over before lawful level

end Sema.Symbols
