import Sema.Proofs.Walk.Program

/-!
# Well-typed programs

The rules of the language, without a walk and without a table. The types of variables go from
statement to statement as the outlines say: a declaration counts from its own initial value on, in
whatever scope it stands, until the end of the method. `HasType` leaves out the expressions whose
type cannot be found out, so a rule says of itself whether it needs a type to be known.
-/

namespace Sema

/-! ### Expressions -/

inductive HasType (types : Typing) : Expr → Ty → Prop
  | literal (ty value : String) :
      Ty.ofName ty ≠ .unknown → HasType types (.literal ty value) (.ofName ty)
  | identifier {name : String} {ty : Ty} :
      types name = some ty → ty ≠ .unknown → HasType types (.identifier name) ty
  | comparison {op : BinaryOp} (lhs rhs : Located Expr) :
      op.yieldsBoolean = true → HasType types (.binary op lhs rhs) .boolean
  | promotion {op : BinaryOp} {lhs rhs : Located Expr} {left right : Primitive} {low high : Nat} :
      op.yieldsBoolean = false →
      HasType types lhs.data (.primitive left) → HasType types rhs.data (.primitive right) →
      left.rank? = some low → right.rank? = some high →
      HasType types (.binary op lhs rhs) (.primitive (if high ≤ low then left else right))
  | negation (operand : Located Expr) (leading : Bool) :
      HasType types (.unary .not operand leading) .boolean
  | unary {op : UnaryOp} {operand : Located Expr} {ty : Ty} (leading : Bool) :
      op ≠ .not → HasType types operand.data ty → HasType types (.unary op operand leading) ty

/-- A value of known type that may be stored where the given type is declared. -/
def Accepts (types : Typing) (target : Ty) (value : Expr) : Prop :=
  ∃ source, HasType types value source ∧ source.assignable target = true

def OperandsOk (op : BinaryOp) (left right : Ty) : Prop :=
  match op.family with
  | .relational => left.isNumeric = true ∧ right.isNumeric = true
  | .equality => left.assignable right = true ∨ right.assignable left = true
  | .logical => left = .boolean ∧ right = .boolean
  | .arithmetic =>
      (left.isNumeric = true ∨ left.isString = true) ∧
        (right.isNumeric = true ∨ right.isString = true)
  | .bitwise => True

variable (signature? : String → Option Signature)

def CallOk (types : Typing) (name : String) (args : List (Located Expr)) : Prop :=
  ∃ signature, signature? name = some signature ∧
    List.Forall₂ (fun param arg => Accepts types param.ty arg.data) signature.params args

inductive ExprOk (types : Typing) : Expr → Prop
  | literal (ty value : String) : ExprOk types (.literal ty value)
  | identifier (name : String) : ExprOk types (.identifier name)
  | binary {op : BinaryOp} {lhs rhs : Located Expr} :
      (∀ left right, HasType types lhs.data left → HasType types rhs.data right →
        OperandsOk op left right) →
      ExprOk types lhs.data → ExprOk types rhs.data → ExprOk types (.binary op lhs rhs)
  | unary (op : UnaryOp) {operand : Located Expr} (leading : Bool) :
      ExprOk types operand.data → ExprOk types (.unary op operand leading)
  | call {name : String} {args : List (Located Expr)} :
      CallOk signature? types name args → (∀ arg ∈ args, ExprOk types arg.data) →
      ExprOk types (.call name args)
  | member (path : List String) : ExprOk types (.member path)
  | memberCall (path : List String) (name : String) {args : List (Located Expr)} :
      (∀ arg ∈ args, ExprOk types arg.data) → ExprOk types (.memberCall path name args)

/-! ### Statements -/

/-- An initial value may be of unknown type. -/
def InitialOk (types : Typing) (target : Ty) (value : Expr) : Prop :=
  (∀ source, HasType types value source → source.assignable target = true) ∧
    ExprOk signature? types value

def ConditionOk (types : Typing) (cond : Expr) : Prop :=
  HasType types cond .boolean ∧ ExprOk signature? types cond

def ReturnOk (method : MethodContext) (types : Typing) (value : Option (Located Expr)) : Prop :=
  if method.returnTy = .void then value = none
  else ∃ returned, value = some returned ∧ Accepts types method.returnTy returned.data

mutual

inductive StmtOk (method : MethodContext) : Typing → Stmt → Prop
  | declare {types : Typing} {ty name : String} (isArray : Bool) {init : Option (Located Expr)} :
      (∀ value ∈ init, InitialOk signature? (declared types name ty) (.ofName ty) value.data) →
      StmtOk method types (.declare ty name isArray init)
  | assign {types : Typing} {target : String} {ty : Ty} {value : Located Expr} :
      types target = some ty → Accepts types ty value.data → ExprOk signature? types value.data →
      StmtOk method types (.assign target value)
  | ifElse {types : Typing} {cond : Located Expr} {thenBranch : Located Stmt}
      {elseBranch : Option (Located Stmt)} :
      ConditionOk signature? types cond.data → StmtOk method types thenBranch.data →
      (∀ branch ∈ elseBranch,
        StmtOk method (overlay types (stmtOutline thenBranch)) branch.data) →
      StmtOk method types (.ifElse cond thenBranch elseBranch)
  | whileLoop {types : Typing} {cond : Located Expr} {body : Located Stmt} :
      ConditionOk signature? types cond.data → StmtOk method types body.data →
      StmtOk method types (.whileLoop cond body)
  | doWhileLoop {types : Typing} {body : Located Stmt} {cond : Located Expr} :
      StmtOk method types body.data →
      ConditionOk signature? (overlay types (stmtOutline body)) cond.data →
      StmtOk method types (.doWhileLoop body cond)
  | forLoop {types started updated : Typing} {init : Option (Located Stmt)}
      {cond : Option (Located Expr)} {update : Option (Located Stmt)} {body : Located Stmt} :
      started = overlay types (optionalStmtOutline init) →
      updated = overlay started (optionalStmtOutline update) →
      (∀ stmt ∈ init, StmtOk method types stmt.data) →
      (∀ expr ∈ cond, ConditionOk signature? started expr.data) →
      (∀ stmt ∈ update, StmtOk method started stmt.data) →
      StmtOk method updated body.data →
      StmtOk method types (.forLoop init cond update body)
  | switch {types : Typing} {scrutinee : Located Expr} {arms : List (Located (Arm Stmt))}
      {otherwise : Option (Located (List (Located Stmt)))} :
      ExprOk signature? types scrutinee.data → ArmsOk method types arms →
      (∀ block ∈ otherwise, StmtsOk method (overlay types (armsOutline arms)) block.data) →
      StmtOk method types (.switch scrutinee arms otherwise)
  | returning {types : Typing} {value : Option (Located Expr)} :
      ReturnOk method types value → (∀ returned ∈ value, ExprOk signature? types returned.data) →
      StmtOk method types (.returning value)
  | breaking (types : Typing) : StmtOk method types .breaking
  | continuing (types : Typing) : StmtOk method types .continuing
  | block {types : Typing} {statements : List (Located Stmt)} :
      StmtsOk method types statements → StmtOk method types (.block statements)
  | expression {types : Typing} {value : Located Expr} :
      ExprOk signature? types value.data → StmtOk method types (.expression value)

inductive StmtsOk (method : MethodContext) : Typing → List (Located Stmt) → Prop
  | nil (types : Typing) : StmtsOk method types []
  | cons {types : Typing} {stmt : Located Stmt} {rest : List (Located Stmt)} :
      StmtOk method types stmt.data → StmtsOk method (overlay types (stmtOutline stmt)) rest →
      StmtsOk method types (stmt :: rest)

inductive ArmsOk (method : MethodContext) : Typing → List (Located (Arm Stmt)) → Prop
  | nil (types : Typing) : ArmsOk method types []
  | cons {types : Typing} {arm : Located (Arm Stmt)} {rest : List (Located (Arm Stmt))} :
      ExprOk signature? types arm.data.value.data → StmtsOk method types arm.data.body →
      ArmsOk method (overlay types (stmtsOutline arm.data.body)) rest →
      ArmsOk method types (arm :: rest)

end

/-! ### Programs -/

def MethodOk (types : Typing) (method : Method) : Prop :=
  StmtsOk signature? method.context (overlay types (parametersOutline method.params)) method.body

/-- The methods that a body may call: itself and those above it, or with a first pass all. -/
def Placed.callable (place : Placed) (program : Program) (ahead : Bool) : List (Located Method) :=
  if ahead then program.methods else place.sofar

structure Program.WellTyped (program : Program) (types : Typing) (ahead : Bool) : Prop where
  distinct : (program.methods.map fun method => method.data.name).Nodup
  bodies : ∀ place ∈ program.placed,
    MethodOk (declaredIn (place.callable program ahead)) types place.method.data

end Sema
