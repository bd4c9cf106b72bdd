import Sema.Types.Primitive

/-!
The types of variables, parameters, results and expressions. Every name that is not built in is the
name of a class, and classes are compatible only by name. A type that cannot be found out is
`unknown`; checks in which it takes part are left out or only warn.
-/

namespace Sema

inductive Ty where
  | primitive (type : Primitive)
  | void
  | named (name : String)
  | unknown
  deriving DecidableEq, Repr

namespace Ty

def ofName (name : String) : Ty :=
  if name = "void" then .void
  else if name = "unknown" then .unknown
  else match Primitive.ofName? name with
    | some type => .primitive type
    | none => .named name

/-- How a type is shown. -/
def display : Ty → String
  | .primitive type => type.name
  | .void => "void"
  | .named name => name
  | .unknown => "unknown"

def boolean : Ty := .primitive .boolean

def isUnknown (type : Ty) : Bool := type == .unknown

def isNumeric : Ty → Bool
  | .primitive type => type.isNumeric
  | .void | .named _ | .unknown => false

def isBoolean (type : Ty) : Bool := type == .primitive .boolean

def isString (type : Ty) : Bool := type == .primitive .string

/-- Whether a value of the first type may be stored where the second is declared. -/
def assignable (source target : Ty) : Bool :=
  source == target ||
    match source, target with
    | .primitive source, .primitive target => source.widensTo.contains target
    | _, _ => false

/-- The result of promotion: the numeric type of higher rank. Without two numeric types it is
unknown. -/
def wider : Ty → Ty → Ty
  | .primitive left, .primitive right =>
      match left.rank?, right.rank? with
      | some leftRank, some rightRank =>
          if rightRank ≤ leftRank then .primitive left else .primitive right
      | _, _ => .unknown
  | _, _ => .unknown

theorem assignable_refl (type : Ty) : assignable type type = true := by simp [assignable]

theorem ofName_display_ofName (name : String) : ofName (ofName name).display = ofName name := by
  unfold ofName
  split
  · rfl
  · split
    · rfl
    · cases found : Primitive.ofName? name with
      | none => simp_all [display]
      | some type => cases type <;> rfl

end Ty

end Sema
