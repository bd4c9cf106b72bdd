import Sema.Proofs.Symbols.Built
import Sema.Types.Basic

/-!
# Types by declaration and by scope

`overlay` gives a name the type of its last declaration in a history, no matter in which scope, and
falls back on what was known before. A table answers by scope. For names that a history does not
declare the table answers as its base does.
-/

namespace Sema

/-- The types of variables, for those that have one. -/
abbrev Typing := String → Option Ty

def declared (types : Typing) (name ty : String) : Typing :=
  fun sought => if name = sought then some (.ofName ty) else types sought

namespace Action

def declareIn (types : Typing) : Action → Typing
  | .declare name ty _ => declared types name ty
  | .enter | .leave | .mention _ => types

end Action

/-- The last declaration of a name counts, and without one the types from before. -/
def overlay (types : Typing) (history : List Action) : Typing :=
  history.foldl Action.declareIn types

def Declares (history : List Action) (name : String) : Prop :=
  ∃ ty line, .declare name ty line ∈ history

namespace Symbols

/-- The type that a table gives to a name. -/
def typeOf? (symbols : Symbols) : Typing := fun name =>
  (symbols.lookup? name).map fun entry => .ofName entry.ty

end Symbols

/-! ### Overlays -/

@[simp] theorem overlay_nil (types : Typing) : overlay types [] = types := rfl

@[simp] theorem overlay_cons (types : Typing) (action : Action) (rest : List Action) :
    overlay types (action :: rest) = overlay (action.declareIn types) rest := rfl

theorem overlay_append (types : Typing) (front rest : List Action) :
    overlay types (front ++ rest) = overlay (overlay types front) rest := List.foldl_append

theorem overlay_concat (types : Typing) (history : List Action) (action : Action) :
    overlay types (history ++ [action]) = action.declareIn (overlay types history) :=
  overlay_append types history [action]

/-- What a history says of a name comes before what was known. -/
theorem overlay_apply (types : Typing) (history : List Action) (name : String) :
    overlay types history name =
      (overlay (fun _ => none) history name).or (types name) := by
  induction history using List.reverseRecOn with
  | nil => rfl
  | append_singleton history action induction =>
      rw [overlay_concat, overlay_concat]
      cases action with
      | enter | leave | mention => exact induction
      | declare other ty line =>
          by_cases same : other = name
          · simp [Action.declareIn, declared, same]
          · simpa [Action.declareIn, declared, same] using induction

theorem overlay_eq_none {history : List Action} {name : String} :
    overlay (fun _ => none) history name = none ↔ ¬ Declares history name := by
  induction history using List.reverseRecOn with
  | nil => simp [Declares]
  | append_singleton history action induction =>
      rw [overlay_concat]
      cases action with
      | enter | leave | mention => simpa [Action.declareIn, declared, Declares] using induction
      | declare other ty line =>
          by_cases same : other = name
          · subst same
            have declares : Declares (history ++ [.declare other ty line]) other :=
              ⟨ty, line, by simp⟩
            simp [Action.declareIn, declared, declares]
          · simpa [Action.declareIn, declared, Declares, same, Ne.symm same] using induction

/-- After the last declaration of a name its type does not change. -/
theorem overlay_last {front rest : List Action} {name ty : String} {line : UInt64}
    (types : Typing) (last : ¬ Declares rest name) :
    overlay types (front ++ .declare name ty line :: rest) name = some (.ofName ty) := by
  rw [overlay_append, overlay_cons, overlay_apply, overlay_eq_none.mpr last]
  simp [Action.declareIn, declared]

theorem Declares.last {history : List Action} {name : String} (declares : Declares history name) :
    ∃ front ty line rest, history = front ++ .declare name ty line :: rest ∧
      ¬ Declares rest name := by
  induction history with
  | nil =>
      obtain ⟨ty, line, member⟩ := declares
      cases member
  | cons action rest induction =>
      by_cases later : Declares rest name
      · obtain ⟨front, ty, line, tail, rfl, last⟩ := induction later
        exact ⟨action :: front, ty, line, tail, rfl, last⟩
      · obtain ⟨ty, line, member⟩ := declares
        rcases List.mem_cons.mp member with rfl | inside
        · exact ⟨[], ty, line, rest, rfl, later⟩
        · exact absurd ⟨ty, line, inside⟩ later

/-- A type that a history gives to a name comes from the last declaration of the name. -/
theorem overlay_supplied {history : List Action} {name : String} {type : Ty}
    (supplied : overlay (fun _ => none) history name = some type) :
    ∃ front ty line rest, history = front ++ .declare name ty line :: rest ∧
      ¬ Declares rest name ∧ type = .ofName ty := by
  have declares : Declares history name := by
    by_contra absent
    rw [overlay_eq_none.mpr absent] at supplied
    cases supplied
  obtain ⟨front, ty, line, rest, rfl, last⟩ := declares.last
  rw [overlay_last _ last] at supplied
  exact ⟨front, ty, line, rest, rfl, last, (Option.some.inj supplied).symm⟩

theorem LiveAt.declares {history : List Action} {name : String} {depth : Int}
    (live : LiveAt history name depth) : Declares history name := by
  obtain ⟨front, ty, line, rest, rfl, -, -⟩ := live
  exact ⟨ty, line, by simp⟩

/-! ### Tables -/

namespace Symbols

variable {base symbols : Symbols} {history : List Action} {opened : List (Bindings String Nat)}

theorem Over.visible (stacked : base.Over opened symbols) (name : String) :
    symbols.scopes.visible? name =
      (opened.findSome? fun scope => scope.find? name).or (base.scopes.visible? name) := by
  simp only [ScopeStack.visible?, ScopeStack.outward, stacked.inner, stacked.root,
    List.append_assoc, List.findSome?_append]

theorem InStore.visible_lt (stored : symbols.InStore) {name : String} {slot : Nat}
    (seen : symbols.scopes.visible? name = some slot) : slot < symbols.entries.length := by
  obtain ⟨scope, member, found⟩ := List.exists_of_findSome?_eq_some seen
  exact stored scope member name slot found

/-- A name that no open scope binds stands for what it stands for in the base. -/
theorem Over.lookup_outside (stacked : base.Over opened symbols) (stored : base.InStore)
    {name : String} (absent : ∀ scope ∈ opened, scope.find? name = none) :
    (symbols.lookup? name).map Variable.unmarked = (base.lookup? name).map Variable.unmarked := by
  have hidden : (opened.findSome? fun scope => scope.find? name) = none :=
    List.findSome?_eq_none_iff.mpr absent
  rw [lookup?, lookup?, stacked.visible, hidden, Option.none_or]
  cases seen : base.scopes.visible? name with
  | none => rfl
  | some slot => exact stacked.kept slot (stored.visible_lt seen)

theorem typeOf_eq_of_unmarked {name : String}
    (same : (symbols.lookup? name).map Variable.unmarked =
      (base.lookup? name).map Variable.unmarked) :
    symbols.typeOf? name = base.typeOf? name := by
  have types := congrArg (Option.map fun entry : Variable => Ty.ofName entry.ty) same
  simpa [typeOf?, Option.map_map, Function.comp_def, Variable.unmarked] using types

/-- The scopes of a history bind no name that it does not declare. -/
theorem Built.unbound_undeclared (built : base.Built history opened symbols) {name : String}
    (undeclared : ¬ Declares history name) : ∀ scope ∈ opened, scope.find? name = none := by
  intro scope member
  obtain ⟨depth, place⟩ := List.mem_iff_getElem?.mp member
  cases found : scope.find? name with
  | none => rfl
  | some slot =>
      obtain ⟨ty, line, latest, -⟩ := built.latest depth scope name slot place found
      exact absurd latest.live.declares undeclared

theorem Built.visible_undeclared (built : base.Built history opened symbols) {name : String}
    (undeclared : ¬ Declares history name) :
    symbols.scopes.visible? name = base.scopes.visible? name := by
  have hidden : (opened.findSome? fun scope => scope.find? name) = none :=
    List.findSome?_eq_none_iff.mpr (built.unbound_undeclared undeclared)
  rw [built.toOver.visible, hidden, Option.none_or]

theorem Built.typeOf_undeclared (built : base.Built history opened symbols)
    (stored : base.InStore) {name : String} (undeclared : ¬ Declares history name) :
    symbols.typeOf? name = base.typeOf? name := by
  apply typeOf_eq_of_unmarked
  exact built.toOver.lookup_outside stored (built.unbound_undeclared undeclared)

theorem Over.in_store (stacked : base.Over [] symbols) (stored : base.InStore) :
    symbols.InStore := by
  intro scope member name slot bound
  have within : scope ∈ base.scopes.outward := by
    simpa only [ScopeStack.outward, stacked.root, stacked.inner, List.nil_append] using member
  exact Nat.lt_of_lt_of_le (stored scope within name slot bound) stacked.longer

theorem Over.typeOf (stacked : base.Over [] symbols) (stored : base.InStore) :
    symbols.typeOf? = base.typeOf? := by
  funext name
  exact typeOf_eq_of_unmarked (stacked.lookup_outside stored (by simp))

end Symbols

end Sema
