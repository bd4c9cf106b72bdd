import Sema.Proofs.Symbols.Action
import Mathlib.Data.List.Infix

/-!
# Live declarations

A declaration is live as long as its scope is open. The depth of a live declaration is the number of
scopes opened inside its own since. In one scope a later declaration of a name takes the place of an
earlier one, so of the live declarations of a name at one depth the latest counts.
-/

namespace Sema

def LiveAt (history : List Action) (name : String) (depth : Int) : Prop :=
  ∃ front ty line rest, history = front ++ .declare name ty line :: rest ∧
    StaysOpen rest ∧ height rest = depth

theorem LiveAt.append_left {history : List Action} {name : String} {depth : Int}
    (live : LiveAt history name depth) (earlier : List Action) :
    LiveAt (earlier ++ history) name depth := by
  obtain ⟨front, ty, line, rest, rfl, stays, level⟩ := live
  exact ⟨earlier ++ front, ty, line, rest, by rw [List.append_assoc], stays, level⟩

/-- The last declaration of the name in its scope, which is still open. -/
def LatestAt (history : List Action) (name : String) (depth : Int) (ty : String) (line : UInt64) :
    Prop :=
  ∃ front rest, history = front ++ .declare name ty line :: rest ∧
    StaysOpen rest ∧ height rest = depth ∧ ¬ LiveAt rest name depth

theorem LiveAt.nonneg {history : List Action} {name : String} {depth : Int}
    (live : LiveAt history name depth) : 0 ≤ depth := by
  obtain ⟨_, _, _, _, _, stays, rfl⟩ := live
  exact stays.nonneg

theorem LatestAt.live {history : List Action} {name ty : String} {depth : Int} {line : UInt64}
    (latest : LatestAt history name depth ty line) : LiveAt history name depth := by
  obtain ⟨front, rest, split, stays, level, _⟩ := latest
  exact ⟨front, ty, line, rest, split, stays, level⟩

/-- One more action moves every live declaration by its rise, and may make one. -/
theorem live_at_concat {history : List Action} {action : Action} {name : String} {depth : Int} :
    LiveAt (history ++ [action]) name depth ↔
      (0 ≤ depth ∧ LiveAt history name (depth - action.rise)) ∨
        (depth = 0 ∧ ∃ ty line, action = .declare name ty line) := by
  constructor
  · rintro ⟨front, ty, line, rest, split, stays, level⟩
    rcases concat_eq_append_cons.mp split with ⟨-, same, rfl⟩ | ⟨earlier, rfl, rfl⟩
    · exact .inr ⟨level.symm, ty, line, same.symm⟩
    · rw [height_append] at level
      simp only [height_cons, height_nil] at level
      refine .inl ⟨?_, front, ty, line, earlier, rfl, stays.front, by omega⟩
      have bottom := (stays_open_concat.mp stays).2
      omega
  · rintro (⟨above, front, ty, line, rest, rfl, stays, level⟩ | ⟨rfl, ty, line, rfl⟩)
    · refine ⟨front, ty, line, rest ++ [action], by simp, ?_, by simp; omega⟩
      exact stays_open_concat.mpr ⟨stays, by omega⟩
    · exact ⟨history, ty, line, [], rfl, stays_open_nil, rfl⟩

theorem latest_at_concat_declare (history : List Action) (name ty : String) (line : UInt64) :
    LatestAt (history ++ [.declare name ty line]) name 0 ty line := by
  refine ⟨history, [], rfl, stays_open_nil, rfl, ?_⟩
  rintro ⟨front, _, _, rest, impossible, -, -⟩
  simp at impossible

/-- The latest declaration stays the latest unless the name is declared in its scope again. -/
theorem LatestAt.concat {history : List Action} {action : Action} {name ty : String}
    {line : UInt64} {depth : Int} (latest : LatestAt history name (depth - action.rise) ty line)
    (above : 0 ≤ depth)
    (other : ¬ (depth = 0 ∧ ∃ ty line, action = .declare name ty line)) :
    LatestAt (history ++ [action]) name depth ty line := by
  obtain ⟨front, rest, rfl, stays, level, last⟩ := latest
  refine ⟨front, rest ++ [action], by simp, ?_, by simp; omega, ?_⟩
  · exact stays_open_concat.mpr ⟨stays, by omega⟩
  · intro again
    rcases live_at_concat.mp again with ⟨-, again⟩ | again
    · exact last again
    · exact other again

/-! ### Declarations of an outline -/

/-- A property of every declaration, given what stands before it. -/
def EachDeclaration (outline : List Action) (property : List Action → String → Prop) : Prop :=
  ∀ front name ty line rest, outline = front ++ .declare name ty line :: rest → property front name

theorem EachDeclaration.front {front rest : List Action} {property : List Action → String → Prop}
    (each : EachDeclaration (front ++ rest) property) : EachDeclaration front property := by
  intro earlier name ty line later split
  apply each earlier name ty line (later ++ rest)
  rw [split, List.append_assoc, List.cons_append]

theorem each_declaration_cons {action : Action} {outline : List Action}
    {property : List Action → String → Prop} :
    EachDeclaration (action :: outline) property ↔
      (∀ name ty line, action = .declare name ty line → property [] name) ∧
        EachDeclaration outline fun front name => property (action :: front) name := by
  constructor
  · intro each
    constructor
    · rintro name ty line rfl
      exact each [] name ty line outline rfl
    · rintro front name ty line rest rfl
      exact each (action :: front) name ty line rest rfl
  · rintro ⟨first, later⟩ front name ty line rest split
    cases front with
    | nil =>
        obtain ⟨rfl, rfl⟩ := List.cons.inj split
        exact first name ty line rfl
    | cons head front =>
        obtain ⟨rfl, rfl⟩ := List.cons.inj split
        exact later front name ty line rest rfl

theorem live_at_cons {action : Action} {rest : List Action} {name : String} {depth : Int} :
    LiveAt (action :: rest) name depth ↔
      ((∃ ty line, action = .declare name ty line) ∧ StaysOpen rest ∧ height rest = depth) ∨
        LiveAt rest name depth := by
  constructor
  · rintro ⟨front, ty, line, later, split, stays, level⟩
    cases front with
    | nil =>
        obtain ⟨rfl, rfl⟩ := List.cons.inj split
        exact .inl ⟨⟨ty, line, rfl⟩, stays, level⟩
    | cons head front =>
        obtain ⟨rfl, rfl⟩ := List.cons.inj split
        exact .inr ⟨front, ty, line, later, rfl, stays, level⟩
  · rintro (⟨⟨ty, line, rfl⟩, stays, level⟩ | ⟨front, ty, line, later, rfl, stays, level⟩)
    · exact ⟨[], ty, line, rest, rfl, stays, level⟩
    · exact ⟨action :: front, ty, line, later, rfl, stays, level⟩

instance : DecidablePred StaysOpen := fun actions =>
  decidable_of_iff (∀ front ∈ actions.inits, 0 ≤ height front) (by
    simp only [List.mem_inits]
    rfl)

instance declareDecidable (action : Action) (name : String) :
    Decidable (∃ ty line, action = .declare name ty line) :=
  match action with
  | .declare other ty line =>
      if same : other = name then isTrue ⟨ty, line, by rw [same]⟩
      else isFalse (by
        rintro ⟨_, _, equal⟩
        exact same (Action.declare.inj equal).1)
  | .enter | .leave | .mention _ => isFalse (by simp)

instance liveDecidable (depths : Int → Prop) [DecidablePred depths] (name : String) :
    (history : List Action) → Decidable (∃ depth, depths depth ∧ LiveAt history name depth)
  | [] => isFalse (by
      rintro ⟨_, _, front, _, _, _, impossible, _⟩
      simp at impossible)
  | action :: rest =>
      have := liveDecidable depths name rest
      decidable_of_iff
        (((∃ ty line, action = .declare name ty line) ∧ StaysOpen rest ∧ depths (height rest)) ∨
          ∃ depth, depths depth ∧ LiveAt rest name depth) (by
        simp only [live_at_cons]
        constructor
        · rintro (⟨declares, stays, meets⟩ | ⟨depth, meets, live⟩)
          · exact ⟨height rest, meets, .inl ⟨declares, stays, rfl⟩⟩
          · exact ⟨depth, meets, .inr live⟩
        · rintro ⟨depth, meets, ⟨declares, stays, rfl⟩ | live⟩
          · exact .inl ⟨declares, stays, meets⟩
          · exact .inr ⟨depth, meets, live⟩)

instance (history : List Action) (name : String) (depth : Int) :
    Decidable (LiveAt history name depth) :=
  decidable_of_iff (∃ sought, sought = depth ∧ LiveAt history name sought) (by simp)

instance eachDecidable : (outline : List Action) → (property : List Action → String → Prop) →
    [∀ front name, Decidable (property front name)] → Decidable (EachDeclaration outline property)
  | [], _, _ => isTrue (by
      intro front name ty line rest impossible
      simp at impossible)
  | action :: outline, property, _ =>
      have := eachDecidable outline fun front name => property (action :: front) name
      have : Decidable (∀ name ty line, action = .declare name ty line → property [] name) :=
        match action with
        | .declare name ty line =>
            decidable_of_iff (property [] name) (by simp)
        | .enter | .leave | .mention _ => isTrue (by simp)
      decidable_of_iff _ each_declaration_cons.symm

end Sema
