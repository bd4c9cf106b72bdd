/-!
The built-in value types. `widensTo` lists where a value may go without a cast, and the rank orders
the numeric types for promotion. A char ranks between a short and an int, although a short does not
widen to it. The type of strings counts as built in and accepts only itself.
-/

namespace Sema

inductive Primitive where
  | byte
  | short
  | char
  | int
  | long
  | float
  | double
  | boolean
  | string
  deriving DecidableEq, Repr

namespace Primitive

def name : Primitive → String
  | .byte => "byte"
  | .short => "short"
  | .char => "char"
  | .int => "int"
  | .long => "long"
  | .float => "float"
  | .double => "double"
  | .boolean => "boolean"
  | .string => "String"

/-- The type that a name stands for. The type of strings has a second name. -/
def ofName? (name : String) : Option Primitive :=
  if name = "byte" then some .byte
  else if name = "short" then some .short
  else if name = "char" then some .char
  else if name = "int" then some .int
  else if name = "long" then some .long
  else if name = "float" then some .float
  else if name = "double" then some .double
  else if name = "boolean" then some .boolean
  else if name = "String" ∨ name = "string" then some .string
  else none

theorem ofName?_name (type : Primitive) : ofName? type.name = some type := by
  cases type <;> simp [name, ofName?]

/-- The types that take a value of this one, itself first. -/
def widensTo : Primitive → List Primitive
  | .byte => [.byte, .short, .int, .long, .float, .double]
  | .short => [.short, .int, .long, .float, .double]
  | .char => [.char, .int, .long, .float, .double]
  | .int => [.int, .long, .float, .double]
  | .long => [.long, .float, .double]
  | .float => [.float, .double]
  | .double => [.double]
  | .boolean => [.boolean]
  | .string => [.string]

/-- The place in the order of promotion, for numeric types. -/
def rank? : Primitive → Option Nat
  | .byte => some 0
  | .short => some 1
  | .char => some 2
  | .int => some 3
  | .long => some 4
  | .float => some 5
  | .double => some 6
  | .boolean | .string => none

def isNumeric (type : Primitive) : Bool := type.rank?.isSome

end Primitive

end Sema
