import Sema.Checker.Rules
import Sema.Symbols.Basic

/-!
The state of a check. The symbol table is handed in and comes out again with what was declared and
used; the log only grows. The locals of a method, its parameters among them, are kept by the name
of the method and stay after its body is left. A check adds the messages of its rule to the log and
changes nothing else.
-/

namespace Sema

structure Options where
  /-- All signatures are registered before the first body, so a call may stand above its method. -/
  resolveForwardCalls : Bool := false
  /-- Nodes nested deeper than this are not analysed. -/
  maxNestingDepth : Nat := 256
  deriving DecidableEq, Repr

/-- The types of the parameters and locals of one method. -/
abbrev LocalEnv := Bindings String Ty

structure Session where
  symbols : Symbols
  catalogue : Catalogue
  locals : Bindings String LocalEnv
  current : Option MethodContext
  log : FindingLog
  options : Options
  depth : Nat

namespace Session

def start (symbols : Symbols) (options : Options) : Session :=
  ⟨symbols, .empty, .empty, none, [], options, 0⟩

def note (session : Session) (messages : FindingLog) : Session :=
  { session with log := session.log ++ messages }

/-- The locals of the current method. -/
def currentLocals (session : Session) : Option LocalEnv :=
  session.current.bind fun method => session.locals.find? method.name

/-- The type of a variable. A local of the current method hides what the symbol table has. -/
def resolve? (session : Session) (name : String) : Option Ty :=
  match session.currentLocals.bind fun env => env.find? name with
  | some ty => some ty
  | none => (session.symbols.lookup? name).map fun entry => .ofName entry.ty

/-- What the rules see. -/
def context (session : Session) : Context :=
  ⟨session.resolve?, session.catalogue.find?, session.current⟩

def typeOf (session : Session) (expr : Expr) : Ty := session.context.typeOf expr

/-! ### Methods -/

def enterMethod (session : Session) (name returnTy : String) : Session :=
  { session with current := some ⟨name, .ofName returnTy⟩ }

def exitMethod (session : Session) : Session := { session with current := none }

/-- Runs a part of a check in the context of a method, which is left whatever comes of it. -/
def withMethod {Result : Type} (session : Session) (name returnTy : String)
    (run : Session → Result × Session) : Result × Session :=
  let (result, session) := run (session.enterMethod name returnTy)
  (result, session.exitMethod)

/-- Registers a signature, unless the name has one already, which is an error. -/
def registerMethod (session : Session) (name returnTy : String) (params : List ParameterType)
    (line : UInt64) : Session :=
  match session.catalogue.add ⟨name, .ofName returnTy, params, line⟩ with
  | .ok catalogue => { session with catalogue }
  | .error first => session.note (errorAt line (.duplicateMethod name first.line))

/-! ### Checks -/

def checkAssignment (session : Session) (name : String) (value : Expr) (line : UInt64) : Session :=
  session.note (session.context.assignment name value line)

def checkInitializer (session : Session) (name : String) (target : Ty) (value : Expr)
    (line : UInt64) : Session :=
  session.note (session.context.initializer name target value line)

def checkBinary (session : Session) (op : BinaryOp) (lhs rhs : Expr) (line : UInt64) : Session :=
  session.note (session.context.binary op lhs rhs line)

def checkCondition (session : Session) (cond : Expr) (construct : Construct) (line : UInt64) :
    Session :=
  session.note (session.context.condition cond construct line)

def checkReturn (session : Session) (value : Option Expr) (line : UInt64) : Session :=
  session.note (session.context.returning value line)

def checkCall (session : Session) (name : String) (args : List (Located Expr)) (line : UInt64) :
    Session :=
  session.note (session.context.call name args line)

end Session

end Sema
