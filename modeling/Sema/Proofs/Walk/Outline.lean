import Sema.Proofs.Symbols.Action
import Sema.Tree.Program

/-!
# Outlines

The outline of a piece of a program lists, in the order of a walk, the scopes it opens and closes,
the names it declares and the names it mentions. It depends on nothing but the syntax. A declaration
comes before its initial value; the body of a `do` loop comes before its condition; a counting loop
has a scope around its four parts, and so has each arm of a switch around its statements. A branch
that is no block declares into the scope around it.

Methods have nesting one, and every statement or expression one more than the node it belongs to.
-/

namespace Sema

/-- Of a dotted path only the name that it starts with is looked up. -/
def pathOutline (path : List String) : List Action := path.head?.toList.map .mention

/-! ### Expressions -/

mutual

def exprOutline : Located Expr → List Action
  | ⟨_, expr⟩ => expr.outline

def Expr.outline : Expr → List Action
  | .literal _ _ => []
  | .identifier name => [.mention name]
  | .binary _ lhs rhs => exprOutline lhs ++ exprOutline rhs
  | .unary _ operand _ => exprOutline operand
  | .call _ args => exprsOutline args
  | .member path => pathOutline path
  | .memberCall path _ args => pathOutline path ++ exprsOutline args

def exprsOutline : List (Located Expr) → List Action
  | [] => []
  | expr :: rest => exprOutline expr ++ exprsOutline rest

end

theorem path_outline_mentions (path : List String) :
    ∀ action ∈ pathOutline path, ∃ name, action = .mention name := by
  cases path with
  | nil => simp [pathOutline]
  | cons head rest => simp [pathOutline]

mutual

theorem expr_outline_mentions :
    ∀ expr, ∀ action ∈ exprOutline expr, ∃ name, action = .mention name
  | ⟨_, expr⟩ => expr_inside_mentions expr

theorem expr_inside_mentions :
    ∀ expr : Expr, ∀ action ∈ expr.outline, ∃ name, action = .mention name
  | .literal _ _ => by simp [Expr.outline]
  | .identifier name => by simp [Expr.outline]
  | .binary _ lhs rhs =>
      List.forall_mem_append.mpr ⟨expr_outline_mentions lhs, expr_outline_mentions rhs⟩
  | .unary _ operand _ => expr_outline_mentions operand
  | .call _ args => exprs_outline_mentions args
  | .member path => path_outline_mentions path
  | .memberCall path _ args =>
      List.forall_mem_append.mpr ⟨path_outline_mentions path, exprs_outline_mentions args⟩

theorem exprs_outline_mentions :
    ∀ exprs, ∀ action ∈ exprsOutline exprs, ∃ name, action = .mention name
  | [] => by simp [exprsOutline]
  | expr :: rest =>
      List.forall_mem_append.mpr ⟨expr_outline_mentions expr, exprs_outline_mentions rest⟩

end

def optionalExprOutline : Option (Located Expr) → List Action
  | none => []
  | some expr => exprOutline expr

mutual

def exprNesting : Located Expr → Nat
  | ⟨_, expr⟩ => expr.nesting + 1

/-- The nesting of what belongs to an expression, counted from the expression. -/
def Expr.nesting : Expr → Nat
  | .literal _ _ | .identifier _ | .member _ => 0
  | .binary _ lhs rhs => max (exprNesting lhs) (exprNesting rhs)
  | .unary _ operand _ => exprNesting operand
  | .call _ args => exprsNesting args
  | .memberCall _ _ args => exprsNesting args

def exprsNesting : List (Located Expr) → Nat
  | [] => 0
  | expr :: rest => max (exprNesting expr) (exprsNesting rest)

end

def optionalExprNesting : Option (Located Expr) → Nat
  | none => 0
  | some expr => exprNesting expr

/-! ### Statements -/

mutual

def stmtOutline : Located Stmt → List Action
  | ⟨pos, stmt⟩ => stmt.outline pos.line

def Stmt.outline : Stmt → UInt64 → List Action
  | .declare ty name _ init, line => .declare name ty line :: optionalExprOutline init
  | .assign _ value, _ => exprOutline value
  | .ifElse cond thenBranch elseBranch, _ =>
      exprOutline cond ++ (stmtOutline thenBranch ++ optionalStmtOutline elseBranch)
  | .whileLoop cond body, _ => exprOutline cond ++ stmtOutline body
  | .doWhileLoop body cond, _ => stmtOutline body ++ exprOutline cond
  | .forLoop init cond update body, _ =>
      scopeAround (optionalStmtOutline init ++ (optionalExprOutline cond ++
        (optionalStmtOutline update ++ stmtOutline body)))
  | .switch scrutinee arms otherwise, _ =>
      exprOutline scrutinee ++ (armsOutline arms ++ otherwiseOutline otherwise)
  | .returning value, _ => optionalExprOutline value
  | .breaking, _ => []
  | .continuing, _ => []
  | .block statements, _ => scopeAround (stmtsOutline statements)
  | .expression value, _ => exprOutline value

def stmtsOutline : List (Located Stmt) → List Action
  | [] => []
  | stmt :: rest => stmtOutline stmt ++ stmtsOutline rest

def optionalStmtOutline : Option (Located Stmt) → List Action
  | none => []
  | some stmt => stmtOutline stmt

def armsOutline : List (Located (Arm Stmt)) → List Action
  | [] => []
  | ⟨_, value, body⟩ :: rest =>
      (exprOutline value ++ scopeAround (stmtsOutline body)) ++ armsOutline rest

def otherwiseOutline : Option (Located (List (Located Stmt))) → List Action
  | none => []
  | some ⟨_, statements⟩ => scopeAround (stmtsOutline statements)

end

mutual

def stmtNesting : Located Stmt → Nat
  | ⟨_, stmt⟩ => stmt.nesting + 1

/-- The nesting of what belongs to a statement, counted from the statement. -/
def Stmt.nesting : Stmt → Nat
  | .declare _ _ _ init => optionalExprNesting init
  | .assign _ value => exprNesting value
  | .ifElse cond thenBranch elseBranch =>
      max (exprNesting cond) (max (stmtNesting thenBranch) (optionalStmtNesting elseBranch))
  | .whileLoop cond body => max (exprNesting cond) (stmtNesting body)
  | .doWhileLoop body cond => max (stmtNesting body) (exprNesting cond)
  | .forLoop init cond update body =>
      max (optionalStmtNesting init) (max (optionalExprNesting cond)
        (max (optionalStmtNesting update) (stmtNesting body)))
  | .switch scrutinee arms otherwise =>
      max (exprNesting scrutinee) (max (armsNesting arms) (otherwiseNesting otherwise))
  | .returning value => optionalExprNesting value
  | .breaking => 0
  | .continuing => 0
  | .block statements => stmtsNesting statements
  | .expression value => exprNesting value

def stmtsNesting : List (Located Stmt) → Nat
  | [] => 0
  | stmt :: rest => max (stmtNesting stmt) (stmtsNesting rest)

def optionalStmtNesting : Option (Located Stmt) → Nat
  | none => 0
  | some stmt => stmtNesting stmt

def armsNesting : List (Located (Arm Stmt)) → Nat
  | [] => 0
  | ⟨_, value, body⟩ :: rest =>
      max (max (exprNesting value) (stmtsNesting body)) (armsNesting rest)

def otherwiseNesting : Option (Located (List (Located Stmt))) → Nat
  | none => 0
  | some ⟨_, statements⟩ => stmtsNesting statements

end

/-! ### Methods and programs -/

/-- Parameters stand in the scope of the method, in front of its body. -/
def parametersOutline (params : List (Located Parameter)) : List Action :=
  params.map fun param => .declare param.data.name param.data.ty param.line

theorem parameters_closed (params : List (Located Parameter)) :
    Closed (parametersOutline params) := by
  induction params with
  | nil => exact closed_nil
  | cons param rest closed =>
      exact (closed_declare param.data.name param.data.ty param.line).append closed

namespace Method

def outline (method : Method) : List Action :=
  scopeAround (parametersOutline method.params ++ stmtsOutline method.body)

def nesting (method : Method) : Nat := stmtsNesting method.body + 1

end Method

namespace Program

def outline (program : Program) : List Action :=
  program.methods.flatMap fun method => method.data.outline

/-- The depth of the most deeply nested node. -/
def nesting (program : Program) : Nat :=
  program.methods.foldr (fun method deepest => max method.data.nesting deepest) 0

end Program

theorem nesting_le_iff {program : Program} {limit : Nat} :
    program.nesting ≤ limit ↔ ∀ method ∈ program.methods, method.data.nesting ≤ limit := by
  unfold Program.nesting
  induction program.methods with
  | nil => simp
  | cons method rest induction =>
      rw [List.foldr_cons, Nat.max_le, induction, List.forall_mem_cons]

end Sema
