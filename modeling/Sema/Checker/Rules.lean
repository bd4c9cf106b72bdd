import Sema.Checker.Finding
import Sema.Checker.Typing
import Sema.Types.Signature

/-!
The rules of single constructs. A rule gives the messages for a construct, in order, from what can
be seen around it: the types of the variables, the signatures that are registered so far, and the
method it stands in. A type that is not known gives a warning at most.
-/

namespace Sema

/-- The method whose body is being analysed. -/
structure MethodContext where
  name : String
  returnTy : Ty
  deriving DecidableEq, Repr

structure Context where
  variableType? : String → Option Ty
  signature? : String → Option Signature
  method : Option MethodContext

def errorAt (line : UInt64) (cause : Violation) : FindingLog := [.error (some line) cause]

def warningAt (line : UInt64) (cause : Doubt) : FindingLog := [.warning (some line) cause]

namespace Context

def typeOf (context : Context) (expr : Expr) : Ty := expr.typeIn context.variableType?

def assignment (context : Context) (name : String) (value : Expr) (line : UInt64) : FindingLog :=
  match context.variableType? name with
  | none => errorAt line (.undeclaredVariable name)
  | some target =>
      let source := context.typeOf value
      if source.isUnknown then warningAt line (.untypedAssignment name)
      else if source.assignable target then []
      else errorAt line (.assignmentMismatch name source target)

/-- An initial value of unknown type is accepted without a word. -/
def initializer (context : Context) (name : String) (target : Ty) (value : Expr) (line : UInt64) :
    FindingLog :=
  let source := context.typeOf value
  if source.isUnknown || source.assignable target then []
  else errorAt line (.initializerMismatch name source target)

def condition (context : Context) (cond : Expr) (construct : Construct) (line : UInt64) :
    FindingLog :=
  let ty := context.typeOf cond
  if ty.isUnknown then warningAt line (.untypedCondition construct)
  else if ty.isBoolean then []
  else errorAt line (.conditionNotBoolean construct ty)

end Context

/-! ### Operators -/

namespace Rule

/-- An operand that is not a truth value is reported on its own. -/
def logicalOperand (op : BinaryOp) (side : Side) (ty : Ty) (line : UInt64) : FindingLog :=
  if ty.isBoolean then [] else errorAt line (.logicalOperand op side ty)

/-- Strings may be added, and the other arithmetic operators are as lenient. -/
def arithmeticOperand (op : BinaryOp) (side : Side) (ty : Ty) (line : UInt64) : FindingLog :=
  if ty.isNumeric || ty.isString then []
  else errorAt line (.arithmeticOperand op side ty)

/-- The rule of an operator's family for operands of known types. -/
def operands (op : BinaryOp) (lhs rhs : Ty) (line : UInt64) : FindingLog :=
  match op.family with
  | .relational =>
      if lhs.isNumeric && rhs.isNumeric then []
      else errorAt line (.relationalOperands op lhs rhs)
  | .equality =>
      if lhs.assignable rhs || rhs.assignable lhs then []
      else warningAt line (.unrelatedOperands lhs rhs)
  | .logical => logicalOperand op .left lhs line ++ logicalOperand op .right rhs line
  | .arithmetic => arithmeticOperand op .left lhs line ++ arithmeticOperand op .right rhs line
  | .bitwise => []

end Rule

/-- Nothing is reported if the type of either operand is unknown. -/
def Context.binary (context : Context) (op : BinaryOp) (lhs rhs : Expr) (line : UInt64) :
    FindingLog :=
  let left := context.typeOf lhs
  let right := context.typeOf rhs
  if left.isUnknown || right.isUnknown then []
  else Rule.operands op left right line

/-! ### Returns and calls -/

namespace Context

/-- The value returned from a method whose result has a type. -/
def returnedValue (context : Context) (method : MethodContext) (value : Expr) (line : UInt64) :
    FindingLog :=
  let actual := context.typeOf value
  if actual.isUnknown then warningAt line .untypedReturn
  else if actual.assignable method.returnTy then []
  else errorAt line (.returnMismatch method.name method.returnTy actual)

def returning (context : Context) (value : Option Expr) (line : UInt64) : FindingLog :=
  match context.method with
  | none => errorAt line .returnOutsideMethod
  | some method =>
      match value, method.returnTy == .void with
      | some _, true => errorAt line (.voidReturnsValue method.name)
      | none, true => []
      | none, false => errorAt line (.missingReturnValue method.name method.returnTy)
      | some value, false => context.returnedValue method value line

def argument (context : Context) (method : String) (position : Nat) (param : ParameterType)
    (arg : Expr) (line : UInt64) : FindingLog :=
  let actual := context.typeOf arg
  if actual.isUnknown then warningAt line (.untypedArgument position method)
  else if actual.assignable param.ty then []
  else errorAt line (.argumentMismatch position method param.ty actual)

/-- Arguments against parameters in order, the first of them at the given position. -/
def arguments (context : Context) (method : String) (line : UInt64) (position : Nat) :
    List ParameterType → List (Located Expr) → FindingLog
  | param :: params, arg :: args =>
      context.argument method position param arg.data line ++
        context.arguments method line (position + 1) params args
  | _, _ => []

/-- A wrong number of arguments is reported once, and the arguments are not looked at then. -/
def call (context : Context) (name : String) (args : List (Located Expr)) (line : UInt64) :
    FindingLog :=
  match context.signature? name with
  | none => warningAt line (.methodNotFound name)
  | some signature =>
      if signature.params.length = args.length then
        context.arguments name line 1 signature.params args
      else errorAt line (.argumentCount name signature.params.length args.length)

end Context

end Sema
