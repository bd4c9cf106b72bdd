import Sema.Proofs.Symbols.Live

/-!
# What a history builds over a table

A lawful history opens scopes over those of a base table and leaves the base as it is, but for marks
of use. The open scopes bind exactly the names with a live declaration, and the slot of a name holds
its latest declaration.
-/

namespace Sema

/-- A variable but for its mark of use. -/
def Variable.unmarked (entry : Variable) : Variable := { entry with used := false }

namespace Symbols

/-- Every bound slot is one of the store. -/
def InStore (symbols : Symbols) : Prop :=
  ∀ scope ∈ symbols.scopes.outward, ∀ name slot, scope.find? name = some slot →
    slot < symbols.entries.length

/-- A table that has the given scopes open over a base, and slots of its own in them. -/
structure Over (base : Symbols) (opened : List (Bindings String Nat)) (symbols : Symbols) :
    Prop where
  root : symbols.scopes.root = base.scopes.root
  inner : symbols.scopes.inner = opened ++ base.scopes.inner
  tokens : symbols.tokens = base.tokens
  longer : base.entries.length ≤ symbols.entries.length
  kept : ∀ slot, slot < base.entries.length →
    (symbols.entries[slot]?).map Variable.unmarked = (base.entries[slot]?).map Variable.unmarked
  fresh : ∀ scope ∈ opened, ∀ name slot, scope.find? name = some slot →
    base.entries.length ≤ slot ∧ slot < symbols.entries.length

/-! ### Single operations -/

theorem local_of_inner {symbols : Symbols} {scope : Bindings String Nat}
    {outer : List (Bindings String Nat)} (inner : symbols.scopes.inner = scope :: outer)
    (name : String) : symbols.scopes.local? name = scope.find? name := by
  simp [ScopeStack.local?, inner]

theorem act_leave_of_inner {symbols : Symbols} {scope : Bindings String Nat}
    {outer : List (Bindings String Nat)} (inner : symbols.scopes.inner = scope :: outer) :
    symbols.act .leave =
      { symbols with scopes := { symbols.scopes with inner := outer } } := by
  simp [act, leave, ScopeStack.leave, inner, Except.map]

theorem declare_of_bound {symbols : Symbols} {scope : Bindings String Nat}
    {outer : List (Bindings String Nat)} (inner : symbols.scopes.inner = scope :: outer)
    {name : String} {slot : Nat} (bound : scope.find? name = some slot) (ty : String)
    (line : UInt64) :
    symbols.declare name ty line =
      { symbols with
        entries := symbols.entries.set slot ⟨name, ty, line, false, symbols.scopeDepth⟩ } := by
  rw [← local_of_inner inner] at bound
  simp [declare, bound]

theorem declare_of_unbound {symbols : Symbols} {scope : Bindings String Nat}
    {outer : List (Bindings String Nat)} (inner : symbols.scopes.inner = scope :: outer)
    {name : String} (unbound : scope.find? name = none) (ty : String) (line : UInt64) :
    symbols.declare name ty line =
      { symbols with
        entries := symbols.entries ++ [⟨name, ty, line, false, symbols.scopeDepth⟩]
        scopes := ⟨symbols.scopes.root, scope.bind name symbols.entries.length :: outer⟩ } := by
  rw [← local_of_inner inner] at unbound
  simp [declare, unbound, ScopeStack.define, inner]

theorem length_markUsed (symbols : Symbols) (name : String) :
    (symbols.markUsed name).entries.length = symbols.entries.length := by
  unfold markUsed
  split <;> simp

theorem scopes_markUsed (symbols : Symbols) (name : String) :
    (symbols.markUsed name).scopes = symbols.scopes := by
  unfold markUsed
  split <;> rfl

theorem tokens_markUsed (symbols : Symbols) (name : String) :
    (symbols.markUsed name).tokens = symbols.tokens := by
  unfold markUsed
  split <;> rfl

/-- A mention marks the one variable that it means. -/
theorem entry_markUsed (symbols : Symbols) (name : String) (slot : Nat) :
    (symbols.markUsed name).entries[slot]? = (symbols.entries[slot]?).map fun entry =>
      if symbols.scopes.visible? name = some slot then { entry with used := true } else entry := by
  unfold markUsed
  cases symbols.scopes.visible? name with
  | none => simp
  | some marked => simp [List.getElem?_modify]

theorem unmarked_markUsed (symbols : Symbols) (name : String) (slot : Nat) :
    ((symbols.markUsed name).entries[slot]?).map Variable.unmarked =
      (symbols.entries[slot]?).map Variable.unmarked := by
  rw [entry_markUsed, Option.map_map]
  congr 1
  funext entry
  simp only [Function.comp_apply]
  split <;> rfl

theorem addTokens_eq (symbols : Symbols) (tokens : List TokenEntry) :
    tokens.foldl addToken symbols =
      { symbols with tokens := symbols.tokens ++ tokens } := by
  induction tokens generalizing symbols with
  | nil => rw [List.foldl_nil, List.append_nil]
  | cons token rest induction =>
      rw [List.foldl_cons, induction, addToken, List.append_assoc]
      rfl

/-! ### Reachable tables -/

theorem in_store_empty : InStore .empty := by
  intro scope member name slot bound
  simp only [empty, ScopeStack.empty, ScopeStack.outward, List.nil_append,
    List.mem_singleton] at member
  subst member
  simp at bound

theorem InStore.enter {symbols : Symbols} (stored : symbols.InStore) : symbols.enter.InStore := by
  intro scope member name slot bound
  simp only [Symbols.enter, ScopeStack.enter, ScopeStack.outward, List.cons_append,
    List.mem_cons] at member
  rcases member with rfl | member
  · simp at bound
  · exact stored scope member name slot bound

theorem InStore.leave {symbols outer : Symbols} (stored : symbols.InStore)
    (left : symbols.leave = .ok outer) : outer.InStore := by
  intro scope member name slot bound
  unfold Symbols.leave ScopeStack.leave at left
  split at left
  · simp [Except.map] at left
  · rename_i closed rest inner
    simp only [Except.map, Except.ok.injEq] at left
    subst left
    refine stored scope ?_ name slot bound
    simp only [ScopeStack.outward, inner, List.cons_append, List.mem_cons]
    exact .inr member

theorem InStore.declare {symbols : Symbols} (stored : symbols.InStore) (name ty : String)
    (line : UInt64) : (symbols.declare name ty line).InStore := by
  intro scope member sought slot bound
  unfold Symbols.declare at member ⊢
  split at member
  · simpa using stored scope member sought slot bound
  · simp only [List.length_append, List.length_singleton]
    have within : ∀ old ∈ symbols.scopes.outward, ∀ key slot, old.find? key = some slot →
        slot < symbols.entries.length + 1 :=
      fun old known key slot bound => Nat.lt_succ_of_lt (stored old known key slot bound)
    have rebound : ∀ old ∈ symbols.scopes.outward, ∀ slot,
        (old.bind name symbols.entries.length).find? sought = some slot →
          slot < symbols.entries.length + 1 := by
      intro old known slot bound
      rw [Bindings.find?_bind] at bound
      split at bound
      · obtain rfl := Option.some.inj bound
        omega
      · exact within old known sought slot bound
    cases inner : symbols.scopes.inner with
    | nil =>
        simp only [ScopeStack.outward, inner, List.nil_append] at within rebound
        simp only [ScopeStack.define, inner, ScopeStack.outward, List.nil_append,
          List.mem_singleton] at member
        subst member
        exact rebound _ (by simp) slot bound
    | cons current outer =>
        simp only [ScopeStack.outward, inner, List.cons_append] at within rebound
        simp only [ScopeStack.define, inner, ScopeStack.outward, List.cons_append,
          List.mem_cons] at member
        rcases member with rfl | member
        · exact rebound _ (by simp) slot bound
        · exact within scope (List.mem_cons_of_mem _ member) sought slot bound

theorem InStore.markUsed {symbols : Symbols} (stored : symbols.InStore) (name : String) :
    (symbols.markUsed name).InStore := by
  intro scope member sought slot bound
  rw [scopes_markUsed] at member
  rw [length_markUsed]
  exact stored scope member sought slot bound

theorem Reachable.in_store {symbols : Symbols} (reachable : symbols.Reachable) :
    symbols.InStore := by
  induction reachable with
  | empty => exact in_store_empty
  | enter _ stored => exact stored.enter
  | leave _ left stored => exact stored.leave left
  | declare name ty line _ stored => exact stored.declare name ty line
  | markUsed name _ stored => exact stored.markUsed name
  | addToken token _ stored => exact stored

/-! ### Steps over a base -/

theorem over_refl (base : Symbols) : base.Over [] base where
  root := rfl
  inner := rfl
  tokens := rfl
  longer := Nat.le_refl _
  kept := fun _ _ => rfl
  fresh := by simp

variable {base symbols : Symbols} {scope : Bindings String Nat}
  {opened : List (Bindings String Nat)}

/-- A table that has opened no scope has the scopes of its base. -/
theorem Over.scopes_eq (stacked : base.Over [] symbols) : symbols.scopes = base.scopes := by
  cases here : symbols.scopes
  cases outside : base.scopes
  have root := stacked.root
  have inner := stacked.inner
  simp only [here, outside, List.nil_append] at root inner
  rw [root, inner]

theorem Over.trans {middle : Symbols} (first : base.Over [] middle)
    (second : middle.Over opened symbols) : base.Over opened symbols where
  root := second.root.trans first.root
  inner := by rw [second.inner, first.inner, List.nil_append]
  tokens := second.tokens.trans first.tokens
  longer := Nat.le_trans first.longer second.longer
  kept := by
    intro slot within
    rw [second.kept slot (Nat.lt_of_lt_of_le within first.longer), first.kept slot within]
  fresh := by
    intro inside member name slot bound
    obtain ⟨above, within⟩ := second.fresh inside member name slot bound
    exact ⟨Nat.le_trans first.longer above, within⟩

theorem Over.enter (stacked : base.Over opened symbols) :
    base.Over (.empty :: opened) (symbols.act .enter) where
  root := stacked.root
  inner := by simp [act, Symbols.enter, ScopeStack.enter, stacked.inner]
  tokens := stacked.tokens
  longer := stacked.longer
  kept := stacked.kept
  fresh := by
    intro inside member name slot bound
    rcases List.mem_cons.mp member with rfl | member
    · simp at bound
    · exact stacked.fresh inside member name slot bound

theorem Over.leave (stacked : base.Over (scope :: opened) symbols) :
    base.Over opened (symbols.act .leave) := by
  rw [act_leave_of_inner stacked.inner]
  exact {
    root := stacked.root
    inner := rfl
    tokens := stacked.tokens
    longer := stacked.longer
    kept := stacked.kept
    fresh := fun inside member => stacked.fresh inside (List.mem_cons_of_mem _ member) }

theorem Over.mention (stacked : base.Over opened symbols) (name : String) :
    base.Over opened (symbols.act (.mention name)) where
  root := by simpa only [act, scopes_markUsed] using stacked.root
  inner := by simpa only [act, scopes_markUsed] using stacked.inner
  tokens := by simpa only [act, tokens_markUsed] using stacked.tokens
  longer := by simpa only [act, length_markUsed] using stacked.longer
  kept := by simpa only [act, unmarked_markUsed] using stacked.kept
  fresh := by simpa only [act, length_markUsed] using stacked.fresh

theorem Over.redeclare (stacked : base.Over (scope :: opened) symbols) {name : String} {slot : Nat}
    (bound : scope.find? name = some slot) (ty : String) (line : UInt64) :
    base.Over (scope :: opened) (symbols.act (.declare name ty line)) := by
  have place := stacked.fresh scope List.mem_cons_self name slot bound
  rw [act, declare_of_bound stacked.inner bound]
  exact {
    root := stacked.root
    inner := stacked.inner
    tokens := stacked.tokens
    longer := by simpa using stacked.longer
    kept := by
      intro old within
      rw [List.getElem?_set_ne (by omega)]
      exact stacked.kept old within
    fresh := by simpa using stacked.fresh }

theorem Over.declare (stacked : base.Over (scope :: opened) symbols) {name : String}
    (unbound : scope.find? name = none) (ty : String) (line : UInt64) :
    base.Over (scope.bind name symbols.entries.length :: opened)
      (symbols.act (.declare name ty line)) := by
  have longer := stacked.longer
  rw [act, declare_of_unbound stacked.inner unbound]
  exact {
    root := stacked.root
    inner := rfl
    tokens := stacked.tokens
    longer := by simp only [List.length_append]; omega
    kept := by
      intro old within
      rw [List.getElem?_append_left (by omega)]
      exact stacked.kept old within
    fresh := by
      intro inside member sought slot found
      rw [List.length_append, List.length_singleton]
      rcases List.mem_cons.mp member with rfl | member
      · rw [Bindings.find?_bind] at found
        split at found
        · obtain rfl := Option.some.inj found
          omega
        · have place := stacked.fresh scope List.mem_cons_self sought slot found
          omega
      · have place := stacked.fresh inside (List.mem_cons_of_mem _ member) sought slot found
        omega }

end Symbols

end Sema
