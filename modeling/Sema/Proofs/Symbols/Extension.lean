import Sema.Proofs.Symbols.Lookup

/-!
# What a history leaves of a table

A lawful history writes over no variable of the table that it starts from: it may mark some of them
as used, and what it adds is declared in deeper scopes. If it also closes all scopes that it opens,
every name stands for what it stood for before.
-/

namespace Sema

/-- The same variable, which may have been used in between. -/
def Variable.Becomes (before after : Variable) : Prop :=
  after = before ∨ after = { before with used := true }

namespace Variable

theorem becomes_refl (entry : Variable) : entry.Becomes entry := .inl rfl

theorem Becomes.mark {before after : Variable} (becomes : before.Becomes after) :
    before.Becomes { after with used := true } := by
  rcases becomes with rfl | rfl
  · exact .inr rfl
  · exact .inr rfl

end Variable

namespace Symbols

/-- The variables of a table stay in their slots, and those after them belong to deeper scopes. -/
structure Extends (base symbols : Symbols) : Prop where
  kept : ∀ (slot : Nat) (entry : Variable), base.entries[slot]? = some entry →
    ∃ later, symbols.entries[slot]? = some later ∧ entry.Becomes later
  deeper : ∀ (slot : Nat) (entry : Variable), base.entries.length ≤ slot →
    symbols.entries[slot]? = some entry → base.scopeDepth < entry.scopeDepth

/-- No scope is open that was not open before, and every name stands for what it stood for. -/
structure Undisturbed (before after : Symbols) : Prop extends Extends before after where
  scopes : after.scopes = before.scopes
  tokens : after.tokens = before.tokens
  slots : ∀ name, after.scopes.visible? name = before.scopes.visible? name
  lookups : ∀ name, Option.Rel Variable.Becomes (before.lookup? name) (after.lookup? name)

variable {base symbols : Symbols} {scope : Bindings String Nat}
  {opened : List (Bindings String Nat)}

theorem extends_refl (base : Symbols) : base.Extends base where
  kept _ entry found := ⟨entry, found, entry.becomes_refl⟩
  deeper slot entry above found := by
    have within := (List.getElem?_eq_some_iff.mp found).1
    omega

/-! ### Steps -/

theorem Extends.leave (extension : base.Extends symbols)
    (stacked : base.Over (scope :: opened) symbols) : base.Extends (symbols.act .leave) := by
  rw [act_leave_of_inner stacked.inner]
  exact ⟨extension.kept, extension.deeper⟩

theorem Extends.mention (extension : base.Extends symbols) (name : String) :
    base.Extends (symbols.act (.mention name)) where
  kept := by
    intro slot entry found
    obtain ⟨later, here, becomes⟩ := extension.kept slot entry found
    rw [act, entry_markUsed, here, Option.map_some]
    refine ⟨_, rfl, ?_⟩
    split
    · exact becomes.mark
    · exact becomes
  deeper := by
    intro slot entry above found
    rw [act, entry_markUsed, Option.map_eq_some_iff] at found
    obtain ⟨earlier, here, rfl⟩ := found
    have deeper := extension.deeper slot earlier above here
    split <;> exact deeper

/-- The new variable belongs to a scope over the base, and so does one that it replaces. -/
theorem Extends.declare (extension : base.Extends symbols)
    (stacked : base.Over (scope :: opened) symbols) (name ty : String) (line : UInt64) :
    base.Extends (symbols.act (.declare name ty line)) := by
  have depth := stacked.scope_depth
  rw [List.length_cons] at depth
  have longer := stacked.longer
  rw [act]
  cases bound : scope.find? name with
  -- The scope belongs to the history, so the slot that is written again is none of the base.
  | some slot =>
      have place := stacked.fresh scope List.mem_cons_self name slot bound
      rw [declare_of_bound stacked.inner bound]
      constructor
      · intro old entry found
        have within := (List.getElem?_eq_some_iff.mp found).1
        rw [List.getElem?_set_ne (by omega)]
        exact extension.kept old entry found
      · intro old entry above found
        rw [List.getElem?_set] at found
        split at found
        · simp only [place.2, if_true, Option.some.injEq] at found
          subst found
          simp only [depth]
          omega
        · exact extension.deeper old entry above found
  | none =>
      rw [declare_of_unbound stacked.inner bound]
      constructor
      · intro old entry found
        have within := (List.getElem?_eq_some_iff.mp found).1
        rw [List.getElem?_append_left (by omega)]
        exact extension.kept old entry found
      · intro old entry above found
        rcases Nat.lt_or_ge old symbols.entries.length with within | beyond
        · rw [List.getElem?_append_left within] at found
          exact extension.deeper old entry above found
        · rw [List.getElem?_append_right beyond, List.getElem?_singleton] at found
          split at found
          · obtain rfl := Option.some.inj found
            simp only [depth]
            omega
          · cases found

/-! ### Whole histories -/

theorem acts_extends (base : Symbols) {history : List Action} (lawful : Lawful history) :
    base.Extends (base.acts history) := by
  induction history using List.reverseRecOn with
  | nil => exact extends_refl base
  | append_singleton history action induction =>
      have extension := induction lawful.front
      obtain ⟨opened, built⟩ := acts_built base lawful.front
      rw [acts_concat]
      cases action with
      | enter => exact ⟨extension.kept, extension.deeper⟩
      | mention name => exact extension.mention name
      | leave =>
          obtain ⟨scope, outer, rfl⟩ := built.leaves_own lawful
          exact extension.leave built.toOver
      | declare name ty line =>
          obtain ⟨scope, outer, rfl⟩ := built.declares_own lawful
          exact extension.declare built.toOver name ty line

/-- A mark on a variable of the base stays, whatever is done in scopes over it. -/
theorem Built.act_keeps_mark {history : List Action} (built : base.Built history opened symbols)
    {action : Action} (lawful : Lawful (history ++ [action])) {slot : Nat} {entry : Variable}
    (within : slot < base.entries.length) (found : symbols.entries[slot]? = some entry)
    (used : entry.used = true) : (symbols.act action).entries[slot]? = some entry := by
  have longer := built.longer
  cases action with
  | enter => exact found
  | leave =>
      obtain ⟨scope, outer, rfl⟩ := built.leaves_own lawful
      rw [act_leave_of_inner built.inner]
      exact found
  | mention name =>
      have marked : { entry with used := true } = entry := by
        rw [← used]
      rw [Symbols.act, entry_markUsed, found, Option.map_some, marked, ite_self]
  | declare name ty line =>
      obtain ⟨scope, outer, rfl⟩ := built.declares_own lawful
      rw [Symbols.act]
      cases bound : scope.find? name with
      | some other =>
          have fresh := built.fresh scope List.mem_cons_self name other bound
          rw [declare_of_bound built.inner bound, List.getElem?_set_ne (by omega)]
          exact found
      | none =>
          rw [declare_of_unbound built.inner bound, List.getElem?_append_left (by omega)]
          exact found

theorem acts_keep_mark {history later : List Action} (lawful : Lawful (history ++ later))
    {slot : Nat} {entry : Variable} (within : slot < base.entries.length)
    (found : (base.acts history).entries[slot]? = some entry) (used : entry.used = true) :
    (base.acts (history ++ later)).entries[slot]? = some entry := by
  induction later using List.reverseRecOn with
  | nil =>
      rw [List.append_nil]
      exact found
  | append_singleton later action induction =>
      rw [← List.append_assoc] at lawful ⊢
      obtain ⟨opened, built⟩ := acts_built base lawful.front
      rw [acts_concat]
      exact built.act_keeps_mark lawful within (induction lawful.front) used

/-- A mention marks the variable of the base that the name stands for, if no declaration before it
has taken the name, and the mark stays. -/
theorem mention_marks {table : Symbols} (stacked : base.Over [] table) {front later : List Action}
    {name : String} (lawful : Lawful (front ++ .mention name :: later))
    (undeclared : ¬ Declares front name) {slot : Nat} {entry : Variable}
    (seen : base.scopes.visible? name = some slot) (found : base.entries[slot]? = some entry) :
    (table.acts (front ++ .mention name :: later)).entries[slot]? =
      some { entry with used := true } := by
  have regroup : front ++ .mention name :: later = (front ++ [.mention name]) ++ later := by simp
  rw [regroup] at lawful ⊢
  have within := (List.getElem?_eq_some_iff.mp found).1
  obtain ⟨opened, built⟩ := acts_built table lawful.front.front
  have visible := built.visible_undeclared undeclared
  rw [stacked.scopes_eq, seen] at visible
  -- The variable may be marked already, so it is known but for its mark.
  have kept := (stacked.trans built.toOver).kept slot within
  rw [found, Option.map_some, Option.map_eq_some_iff] at kept
  obtain ⟨current, here, same⟩ := kept
  have marked : { current with used := true } = { entry with used := true } :=
    congrArg (fun other : Variable => { other with used := true }) same
  have mentioned : (table.acts (front ++ [.mention name])).entries[slot]? =
      some { entry with used := true } := by
    rw [acts_concat, act, entry_markUsed, here, Option.map_some, if_pos visible, marked]
  exact acts_keep_mark lawful (Nat.lt_of_lt_of_le within stacked.longer) mentioned rfl

/-- An excursion from a reachable table does not disturb it. -/
theorem Excursion.undisturbed {before after : Symbols} (excursion : before.Excursion after)
    (reachable : before.Reachable) : before.Undisturbed after := by
  have stacked := excursion.over
  obtain ⟨history, lawful, level, rfl⟩ := excursion
  have extension := acts_extends before lawful
  have scopes := stacked.scopes_eq
  refine ⟨extension, scopes, stacked.tokens, fun name => by rw [scopes], fun name => ?_⟩
  rw [lookup?, lookup?, scopes]
  cases seen : before.scopes.visible? name with
  | none => exact .none
  | some slot =>
      have within := reachable.in_store.visible_lt seen
      obtain ⟨later, here, becomes⟩ :=
        extension.kept slot _ (List.getElem?_eq_getElem within)
      simp only [Option.bind_some, here, List.getElem?_eq_getElem within]
      exact .some becomes

end Symbols

end Sema
