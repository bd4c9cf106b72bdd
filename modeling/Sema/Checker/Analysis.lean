import Sema.Checker.Session

/-!
The walk over a program. Every method, statement and expression is visited one level deeper than
the node it belongs to; a node below the limit is not analysed. The analysis of a node may fail:
then the failure becomes a warning without a line, and the walk goes on after the node with the
state that the node left behind.
-/

namespace Sema

/-- The failure of a node's analysis, if it failed, and the session after it. -/
abbrev Outcome := Option Obstacle × Session

namespace Outcome

/-- Goes on with a further step unless the analysis failed. -/
def next (outcome : Outcome) (step : Session → Outcome) : Outcome :=
  match outcome with
  | (none, session) => step session
  | (some failure, session) => (some failure, session)

end Outcome

namespace Session

def succeed (session : Session) : Outcome := (none, session)

def enterScope (session : Session) : Session := { session with symbols := session.symbols.enter }

def leaveScope (session : Session) : Outcome :=
  match session.symbols.leave with
  | .ok symbols => (none, { session with symbols })
  | .error .cannotLeaveRoot => (some .scopeUnderflow, session)

/-- Declares a variable in the symbol table only, as parameters are. -/
def declareSymbol (session : Session) (name ty : String) (line : UInt64) : Session :=
  { session with symbols := session.symbols.declare name ty line }

/-- Declares a local of the current method, both among its locals and in the symbol table. -/
def declareLocal (session : Session) (name ty : String) (line : UInt64) : Outcome :=
  match session.current with
  | none => (session.declareSymbol name ty line).succeed
  | some method =>
      match session.locals.find? method.name with
      | none => (some (.missingLocals method.name), session)
      | some env =>
          let locals := session.locals.bind method.name (env.bind name (.ofName ty))
          ({ session with locals }.declareSymbol name ty line).succeed

def markUsed (session : Session) (name : String) : Session :=
  { session with symbols := session.symbols.markUsed name }

/-- Analyses a node one level deeper than the session stands. -/
def visit (analyse : Session → Outcome) (session : Session) : Session :=
  let entered := { session with depth := session.depth + 1 }
  let (failure, after) :=
    if session.options.maxNestingDepth < entered.depth then
      (some (.nestingTooDeep session.options.maxNestingDepth), entered)
    else analyse entered
  let left := { after with depth := after.depth - 1 }
  match failure with
  | none => left
  | some reason => left.note [.warning none (.notAnalysed reason)]

end Session

/-! ### Expressions -/

mutual

def visitExpr : Located Expr → Session → Session
  | ⟨pos, expr⟩ => Session.visit fun session => (analyseExpr expr pos.line session).succeed

/-- The checks of an expression come before the visits of its parts. Of a dotted path only the
variable that it starts at is looked at. -/
def analyseExpr : Expr → UInt64 → Session → Session
  | .literal _ _, _ => id
  | .identifier name, _ => fun session => session.markUsed name
  | .binary op lhs rhs, line => fun session =>
      visitExpr rhs (visitExpr lhs (session.checkBinary op lhs.data rhs.data line))
  | .unary _ operand _, _ => visitExpr operand
  | .call name args, line => fun session => visitExprs args (session.checkCall name args line)
  | .member path, _ => fun session => path.head?.elim session session.markUsed
  | .memberCall path _ args, _ => fun session =>
      visitExprs args (path.head?.elim session session.markUsed)

def visitExprs : List (Located Expr) → Session → Session
  | [], session => session
  | expr :: rest, session => visitExprs rest (visitExpr expr session)

end

def visitOptionalExpr : Option (Located Expr) → Session → Session
  | none, session => session
  | some expr, session => visitExpr expr session

/-! ### Statements -/

mutual

def visitStmt : Located Stmt → Session → Session
  | ⟨pos, stmt⟩ => Session.visit (analyseStmt stmt pos.line)

/-- A variable is declared before its initial value is looked at, so the value may use it. The body
of a `do` loop comes before its condition; a counting loop has a scope around its four parts. -/
def analyseStmt : Stmt → UInt64 → Session → Outcome
  | .declare ty name _ init, line => fun session =>
      (session.declareLocal name ty line).next fun session =>
        match init with
        | none => session.succeed
        | some value =>
            (visitExpr value
              (session.checkInitializer name (.ofName ty) value.data line)).succeed
  | .assign target value, line => fun session =>
      (visitExpr value (session.checkAssignment target value.data line)).succeed
  | .ifElse cond thenBranch elseBranch, line => fun session =>
      (visitOptionalStmt elseBranch (visitStmt thenBranch (visitExpr cond
        (session.checkCondition cond.data .ifElse line)))).succeed
  | .whileLoop cond body, line => fun session =>
      (visitStmt body (visitExpr cond
        (session.checkCondition cond.data .whileLoop line))).succeed
  | .doWhileLoop body cond, line => fun session =>
      (visitExpr cond ((visitStmt body session).checkCondition cond.data .doWhileLoop line)).succeed
  | .forLoop init cond update body, line => fun session =>
      let session := visitOptionalStmt init session.enterScope
      let session :=
        match cond with
        | none => session
        | some cond => visitExpr cond (session.checkCondition cond.data .forLoop line)
      (visitStmt body (visitOptionalStmt update session)).leaveScope
  | .switch scrutinee arms otherwise, _ => fun session =>
      (analyseArms arms (visitExpr scrutinee session)).next (analyseOtherwise otherwise)
  | .returning value, line => fun session =>
      (visitOptionalExpr value (session.checkReturn (value.map Located.data) line)).succeed
  | .breaking, _ => Session.succeed
  | .continuing, _ => Session.succeed
  | .block statements, _ => fun session => (visitStmts statements session.enterScope).leaveScope
  | .expression value, _ => fun session => (visitExpr value session).succeed

def visitStmts : List (Located Stmt) → Session → Session
  | [], session => session
  | stmt :: rest, session => visitStmts rest (visitStmt stmt session)

def visitOptionalStmt : Option (Located Stmt) → Session → Session
  | none, session => session
  | some stmt, session => visitStmt stmt session

/-- The statements of each arm have a scope of their own. -/
def analyseArms : List (Located (Arm Stmt)) → Session → Outcome
  | [], session => session.succeed
  | ⟨_, value, body⟩ :: rest, session =>
      (visitStmts body (visitExpr value session).enterScope).leaveScope.next (analyseArms rest)

def analyseOtherwise : Option (Located (List (Located Stmt))) → Session → Outcome
  | none, session => session.succeed
  | some ⟨_, statements⟩, session => (visitStmts statements session.enterScope).leaveScope

end

/-! ### Methods and programs -/

namespace Method

def parameterTypes (method : Method) : List ParameterType :=
  method.params.map fun param => .ofParameter param.data

/-- The locals of a method before its body: its parameters. The last of a name counts. -/
def parameterEnv (method : Method) : LocalEnv :=
  .ofList (method.parameterTypes.map fun param => (param.name, param.ty))

end Method

namespace Session

def register (session : Session) (method : Located Method) : Session :=
  session.registerMethod method.data.name method.data.returnTy method.data.parameterTypes
    method.line

def declareParameters (session : Session) (params : List (Located Parameter)) : Session :=
  params.foldl (fun session param => session.declareSymbol param.data.name param.data.ty param.line)
    session

/-- The locals of a method of the same name that was analysed before are dropped. -/
def analyseMethod (method : Located Method) (session : Session) : Outcome :=
  let locals := session.locals.bind method.data.name method.data.parameterEnv
  let session := { session with locals }
  let session := if session.options.resolveForwardCalls then session else session.register method
  session.withMethod method.data.name method.data.returnTy fun session =>
    (visitStmts method.data.body
      (session.enterScope.declareParameters method.data.params)).leaveScope

def visitMethod (session : Session) (method : Located Method) : Session :=
  session.visit (analyseMethod method)

/-- Analyses the methods of all classes in order. Fields are not looked at. -/
def analyse (session : Session) (program : Program) : Session :=
  let session :=
    if session.options.resolveForwardCalls then program.methods.foldl register session
    else session
  program.methods.foldl visitMethod session

end Session

end Sema
