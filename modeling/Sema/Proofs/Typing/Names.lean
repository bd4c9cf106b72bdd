import Sema.Proofs.Typing.Rules

/-!
# Types and their names

A type is nameable if some name stands for it. Such a type is known by what is shown for it, and two
names stand for one type only if they are equal or both are names of the type of strings. A class
that bears the name of a built-in type is not nameable: it would be shown like the other one.
Expressions have nameable types if their variables have.
-/

namespace Sema

namespace Ty

def Nameable (type : Ty) : Prop := ∃ name, ofName name = type

theorem nameable_ofName (name : String) : (ofName name).Nameable := ⟨name, rfl⟩

theorem nameable_unknown : unknown.Nameable := ⟨"unknown", rfl⟩

theorem nameable_primitive (type : Primitive) : (primitive type).Nameable := by
  refine ⟨type.name, ?_⟩
  cases type <;> rfl

/-- A nameable type is read back from what is shown for it. -/
theorem nameable_iff {type : Ty} : type.Nameable ↔ ofName type.display = type := by
  constructor
  · rintro ⟨name, rfl⟩
    exact ofName_display_ofName name
  · exact fun back => ⟨type.display, back⟩

theorem Nameable.display_injective {left right : Ty} (first : left.Nameable)
    (second : right.Nameable) (same : left.display = right.display) : left = right := by
  rw [← nameable_iff.mp first, ← nameable_iff.mp second, same]

/-- A built-in type has its own name, and that of strings one more. -/
theorem name_of_ofName? {name : String} {type : Primitive}
    (found : Primitive.ofName? name = some type) :
    type.name = if name = "string" then "String" else name := by
  unfold Primitive.ofName? at found
  split_ifs at found with byte short char int long float double boolean string
  all_goals obtain rfl := Option.some.inj found
  any_goals (subst name; rfl)
  rcases string with rfl | rfl <;> rfl

/-- Every name is shown as it is, but for the second name of strings. -/
theorem display_ofName (name : String) :
    (ofName name).display = if name = "string" then "String" else name := by
  unfold ofName
  split
  · subst name
    rfl
  · split
    · subst name
      rfl
    · cases found : Primitive.ofName? name with
      | some type => exact name_of_ofName? found
      | none =>
          have other : name ≠ "string" := by
            rintro rfl
            cases found
          rw [if_neg other]
          rfl

def namesOfStrings : List String := ["String", "string"]

/-- Two names stand for one type only if both stand for that of strings. -/
theorem ofName_eq_iff (first second : String) :
    ofName first = ofName second ↔
      first = second ∨ first ∈ namesOfStrings ∧ second ∈ namesOfStrings := by
  constructor
  · intro same
    have shown := congrArg display same
    rw [display_ofName, display_ofName] at shown
    split_ifs at shown <;> simp_all [namesOfStrings]
  · rintro (rfl | ⟨first, second⟩)
    · rfl
    · simp only [namesOfStrings, List.mem_cons, List.not_mem_nil, or_false] at first second
      rcases first with rfl | rfl <;> rcases second with rfl | rfl <;> rfl

/-- A promotion has a built-in type or an unknown one. -/
theorem nameable_wider (left right : Ty) : (wider left right).Nameable := by
  unfold wider
  split
  · split
    · split <;> exact nameable_primitive _
    · exact nameable_unknown
  · exact nameable_unknown

end Ty

/-! ### Expressions -/

mutual

theorem nameable_typeIn {types : Typing}
    (nameable : ∀ name type, types name = some type → type.Nameable) :
    ∀ expr : Expr, (expr.typeIn types).Nameable
  | .literal ty _ => Ty.nameable_ofName ty
  | .identifier name => by
      rw [Expr.typeIn]
      cases found : types name with
      | none => exact Ty.nameable_unknown
      | some type => exact nameable name type found
  | .binary op lhs rhs => by
      rw [Expr.typeIn]
      split
      · exact Ty.nameable_primitive .boolean
      · exact Ty.nameable_wider _ _
  | .unary op operand leading => by
      by_cases negates : op = .not
      · subst negates
        exact Ty.nameable_primitive .boolean
      · rw [typeIn_unary types operand leading negates, ← typeOfLocated_eq]
        exact nameable_located nameable operand
  | .call _ _ | .member _ | .memberCall _ _ _ => Ty.nameable_unknown

theorem nameable_located {types : Typing}
    (nameable : ∀ name type, types name = some type → type.Nameable) :
    ∀ expr : Located Expr, (typeOfLocated types expr).Nameable
  | ⟨_, expr⟩ => nameable_typeIn nameable expr

end

end Sema
