import Sema.Tree.Expr

/-!
Statements. The parts of a statement that may be left out in the language are optional here: an
initial value, an else branch, each of the three parts of a counting loop, the arm of a switch that
takes everything else, and the value of a return.
-/

namespace Sema

/-- One arm of a switch: the value that selects it and the statements that follow. -/
structure Arm (Statement : Type) where
  value : Located Expr
  body : List (Located Statement)

inductive Stmt where
  | declare (ty name : String) (isArray : Bool) (init : Option (Located Expr))
  | assign (target : String) (value : Located Expr)
  | ifElse (cond : Located Expr) (thenBranch : Located Stmt) (elseBranch : Option (Located Stmt))
  | whileLoop (cond : Located Expr) (body : Located Stmt)
  | doWhileLoop (body : Located Stmt) (cond : Located Expr)
  | forLoop (init : Option (Located Stmt)) (cond : Option (Located Expr))
      (update : Option (Located Stmt)) (body : Located Stmt)
  | switch (scrutinee : Located Expr) (arms : List (Located (Arm Stmt)))
      (otherwise : Option (Located (List (Located Stmt))))
  | returning (value : Option (Located Expr))
  | breaking
  | continuing
  | block (statements : List (Located Stmt))
  | expression (value : Located Expr)

namespace Stmt

/-- The word for the sort of a statement. -/
def kind : Stmt → String
  | .declare _ _ _ _ => "VariableDeclaration"
  | .assign _ _ => "Assignment"
  | .ifElse _ _ _ => "If"
  | .whileLoop _ _ => "While"
  | .doWhileLoop _ _ => "DoWhile"
  | .forLoop _ _ _ _ => "For"
  | .switch _ _ _ => "Switch"
  | .returning _ => "Return"
  | .breaking => "Break"
  | .continuing => "Continue"
  | .block _ => "Block"
  | .expression _ => "Expression"

end Stmt

end Sema
