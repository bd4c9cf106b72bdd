/-!
The operators of expressions with their symbols. The binary ones fall into five families, and all
members of a family are typed alike. `ofSymbol?` reads back exactly what `symbol` writes.
-/

namespace Sema

inductive BinaryOp where
  | equals
  | notEquals
  | lessThan
  | greaterThan
  | lessEquals
  | greaterEquals
  | logicalAnd
  | logicalOr
  | add
  | sub
  | mul
  | div
  | mod
  | bitAnd
  | bitOr
  | bitXor
  | shiftLeft
  | shiftRight
  deriving DecidableEq, Repr

inductive OperatorFamily where
  | equality
  | relational
  | logical
  | arithmetic
  | bitwise
  deriving DecidableEq, Repr

namespace BinaryOp

def all : List BinaryOp :=
  [.equals, .notEquals, .lessThan, .greaterThan, .lessEquals, .greaterEquals, .logicalAnd,
    .logicalOr, .add, .sub, .mul, .div, .mod, .bitAnd, .bitOr, .bitXor, .shiftLeft, .shiftRight]

def symbol : BinaryOp → String
  | .equals => "=="
  | .notEquals => "!="
  | .lessThan => "<"
  | .greaterThan => ">"
  | .lessEquals => "<="
  | .greaterEquals => ">="
  | .logicalAnd => "&&"
  | .logicalOr => "||"
  | .add => "+"
  | .sub => "-"
  | .mul => "*"
  | .div => "/"
  | .mod => "%"
  | .bitAnd => "&"
  | .bitOr => "|"
  | .bitXor => "^"
  | .shiftLeft => "<<"
  | .shiftRight => ">>"

def ofSymbol? (symbol : String) : Option BinaryOp := all.find? fun op => op.symbol == symbol

theorem mem_all (op : BinaryOp) : op ∈ all := by cases op <;> decide

theorem ofSymbol?_symbol (op : BinaryOp) : ofSymbol? op.symbol = some op := by cases op <;> rfl

theorem symbol_of_ofSymbol? {symbol : String} {op : BinaryOp}
    (found : ofSymbol? symbol = some op) : op.symbol = symbol := by
  simpa using List.find?_some found

def family : BinaryOp → OperatorFamily
  | .equals | .notEquals => .equality
  | .lessThan | .greaterThan | .lessEquals | .greaterEquals => .relational
  | .logicalAnd | .logicalOr => .logical
  | .add | .sub | .mul | .div | .mod => .arithmetic
  | .bitAnd | .bitOr | .bitXor | .shiftLeft | .shiftRight => .bitwise

/-- Comparisons and logical operators give a truth value, whatever their operands are. -/
def yieldsBoolean (op : BinaryOp) : Bool :=
  match op.family with
  | .equality | .relational | .logical => true
  | .arithmetic | .bitwise => false

end BinaryOp

inductive UnaryOp where
  | not
  | neg
  | plus
  | increment
  | decrement
  | bitNot
  deriving DecidableEq, Repr

namespace UnaryOp

def all : List UnaryOp := [.not, .neg, .plus, .increment, .decrement, .bitNot]

def symbol : UnaryOp → String
  | .not => "!"
  | .neg => "-"
  | .plus => "+"
  | .increment => "++"
  | .decrement => "--"
  | .bitNot => "~"

def ofSymbol? (symbol : String) : Option UnaryOp := all.find? fun op => op.symbol == symbol

theorem mem_all (op : UnaryOp) : op ∈ all := by cases op <;> decide

theorem ofSymbol?_symbol (op : UnaryOp) : ofSymbol? op.symbol = some op := by cases op <;> rfl

theorem symbol_of_ofSymbol? {symbol : String} {op : UnaryOp}
    (found : ofSymbol? symbol = some op) : op.symbol = symbol := by
  simpa using List.find?_some found

end UnaryOp

end Sema
