import Sema.Tree.Operator
import Sema.Tree.Position

/-!
Expressions. A name stands for a variable; a call without a path is a call of a method of the
program. A dotted path reaches into another object, and neither it nor a call at its end is
resolved.
-/

namespace Sema

inductive Expr where
  /-- A literal with the name of its type and its text. -/
  | literal (ty value : String)
  | identifier (name : String)
  | binary (op : BinaryOp) (lhs rhs : Located Expr)
  /-- The flag tells whether the operator stands in front of its operand. -/
  | unary (op : UnaryOp) (operand : Located Expr) (leading : Bool)
  | call (name : String) (args : List (Located Expr))
  | member (path : List String)
  | memberCall (path : List String) (name : String) (args : List (Located Expr))

namespace Expr

/-- The word for the sort of an expression. -/
def kind : Expr → String
  | .literal _ _ => "Literal"
  | .identifier _ => "Identifier"
  | .binary _ _ _ => "Binary"
  | .unary _ _ _ => "Unary"
  | .call _ _ => "MethodCall"
  | .member _ | .memberCall _ _ _ => "MemberAccess"

end Expr

end Sema
