import Sema.Proofs.Walk.Program

/-!
# Visits

The visits of an analysis are those that it makes in the bodies of its methods, and those that a
visit makes in turn if the nesting limit allows it. `parts` lists the visits that the analysis of a
node makes itself, each with the session in which it begins. In the script of its method a visit is
a segment.
-/

namespace Sema

def Node.visit : Node → Session → Session
  | .expr visited => visitExpr visited
  | .stmt visited => visitStmt visited

structure Visit where
  node : Node
  before : Session

def Visit.after (visit : Visit) : Session := visit.node.visit visit.before

/-- The visits that follow an analysis if it does not fail. -/
def Outcome.parts (outcome : Outcome) (further : Session → List Visit) : List Visit :=
  match outcome with
  | (none, session) => further session
  | (some _, _) => []

/-! ### Visits of the parts of a node -/

def exprsParts : List (Located Expr) → Session → List Visit
  | [], _ => []
  | expr :: rest, session => ⟨.expr expr, session⟩ :: exprsParts rest (visitExpr expr session)

def optionalExprParts : Option (Located Expr) → Session → List Visit
  | none, _ => []
  | some expr, session => [⟨.expr expr, session⟩]

def Expr.parts : Expr → UInt64 → Session → List Visit
  | .literal _ _, _, _ => []
  | .identifier _, _, _ => []
  | .binary op lhs rhs, line, session =>
      let checked := session.checkBinary op lhs.data rhs.data line
      [⟨.expr lhs, checked⟩, ⟨.expr rhs, visitExpr lhs checked⟩]
  | .unary _ operand _, _, session => [⟨.expr operand, session⟩]
  | .call name args, line, session => exprsParts args (session.checkCall name args line)
  | .member _, _, _ => []
  | .memberCall path _ args, _, session =>
      exprsParts args (path.head?.elim session session.markUsed)

def initializerParts (name ty : String) (line : UInt64) (init : Option (Located Expr))
    (session : Session) : List Visit :=
  match init with
  | none => []
  | some value =>
      [⟨.expr value, session.checkInitializer name (.ofName ty) value.data line⟩]

def conditionParts (construct : Construct) (line : UInt64) (cond : Located Expr)
    (session : Session) : List Visit :=
  [⟨.expr cond, session.checkCondition cond.data construct line⟩]

def optionalConditionParts (line : UInt64) (cond : Option (Located Expr)) (session : Session) :
    List Visit :=
  match cond with
  | none => []
  | some cond => conditionParts .forLoop line cond session

def stmtsParts : List (Located Stmt) → Session → List Visit
  | [], _ => []
  | stmt :: rest, session => ⟨.stmt stmt, session⟩ :: stmtsParts rest (visitStmt stmt session)

def optionalStmtParts : Option (Located Stmt) → Session → List Visit
  | none, _ => []
  | some stmt, session => [⟨.stmt stmt, session⟩]

def armsParts : List (Located (Arm Stmt)) → Session → List Visit
  | [], _ => []
  | ⟨_, value, body⟩ :: rest, session =>
      let entered := (visitExpr value session).enterScope
      ⟨.expr value, session⟩ :: stmtsParts body entered ++
        (visitStmts body entered).leaveScope.parts (armsParts rest)

def otherwiseParts : Option (Located (List (Located Stmt))) → Session → List Visit
  | none, _ => []
  | some ⟨_, statements⟩, session => stmtsParts statements session.enterScope

def Stmt.parts : Stmt → UInt64 → Session → List Visit
  | .declare ty name _ init, line, session =>
      (session.declareLocal name ty line).parts (initializerParts name ty line init)
  | .assign target value, line, session =>
      [⟨.expr value, session.checkAssignment target value.data line⟩]
  | .ifElse cond thenBranch elseBranch, line, session =>
      let tested := visitExpr cond (session.checkCondition cond.data .ifElse line)
      conditionParts .ifElse line cond session ++
        (⟨.stmt thenBranch, tested⟩ :: optionalStmtParts elseBranch (visitStmt thenBranch tested))
  | .whileLoop cond body, line, session =>
      conditionParts .whileLoop line cond session ++
        [⟨.stmt body, visitExpr cond (session.checkCondition cond.data .whileLoop line)⟩]
  | .doWhileLoop body cond, line, session =>
      ⟨.stmt body, session⟩ :: conditionParts .doWhileLoop line cond (visitStmt body session)
  | .forLoop init cond update body, line, session =>
      let begun := visitOptionalStmt init session.enterScope
      let tested :=
        match cond with
        | none => begun
        | some cond => visitExpr cond (begun.checkCondition cond.data .forLoop line)
      optionalStmtParts init session.enterScope ++ (optionalConditionParts line cond begun ++
        (optionalStmtParts update tested ++ [⟨.stmt body, visitOptionalStmt update tested⟩]))
  | .switch scrutinee arms otherwise, _, session =>
      let entered := visitExpr scrutinee session
      ⟨.expr scrutinee, session⟩ ::
        (armsParts arms entered ++ (analyseArms arms entered).parts (otherwiseParts otherwise))
  | .returning value, line, session =>
      optionalExprParts value (session.checkReturn (value.map Located.data) line)
  | .breaking, _, _ => []
  | .continuing, _, _ => []
  | .block statements, _, session => stmtsParts statements session.enterScope
  | .expression value, _, session => [⟨.expr value, session⟩]

def Node.parts : Node → Session → List Visit
  | .expr ⟨pos, visited⟩ => visited.parts pos.line
  | .stmt ⟨pos, visited⟩ => visited.parts pos.line

namespace Session

/-- The session in which a node is analysed whose visit begins in the given one. -/
def deeper (session : Session) : Session := { session with depth := session.depth + 1 }

/-- The visits of statements and expressions in an analysis that begins in the given session. -/
inductive Visits (session : Session) (program : Program) : Visit → Prop
  | body {earlier later : List (Located Method)} {method : Located Method} {before : Session}
      {visit : Visit} :
      program.methods = earlier ++ method :: later →
      before = earlier.foldl visitMethod (session.prepare program) →
      before.depth < before.options.maxNestingDepth →
      visit ∈ stmtsParts method.data.body (before.inMethod method) →
      Visits session program visit
  | part {whole visit : Visit} :
      Visits session program whole →
      whole.before.depth < whole.before.options.maxNestingDepth →
      visit ∈ whole.node.parts whole.before.deeper →
      Visits session program visit

/-- The visits in the body of one method, whose own visit begins in the given session. -/
inductive VisitsIn (session : Session) (method : Located Method) : Visit → Prop
  | body {visit : Visit} :
      session.depth < session.options.maxNestingDepth →
      visit ∈ stmtsParts method.data.body (session.inMethod method) →
      VisitsIn session method visit
  | part {whole visit : Visit} :
      VisitsIn session method whole →
      whole.before.depth < whole.before.options.maxNestingDepth →
      visit ∈ whole.node.parts whole.before.deeper →
      VisitsIn session method visit

theorem visits_iff {session : Session} {program : Program} {visit : Visit} :
    session.Visits program visit ↔ ∃ earlier method later,
      program.methods = earlier ++ method :: later ∧
        (earlier.foldl visitMethod (session.prepare program)).VisitsIn method visit := by
  constructor
  · intro visits
    induction visits with
    | @body earlier later method before visit methods reached allowed member =>
        rw [reached] at allowed member
        exact ⟨earlier, method, later, methods, .body allowed member⟩
    | part _ allowed member induction =>
        obtain ⟨earlier, method, later, methods, visits⟩ := induction
        exact ⟨earlier, method, later, methods, visits.part allowed member⟩
  · intro found
    obtain ⟨earlier, method, later, methods, visits⟩ := found
    induction visits with
    | body allowed member => exact .body methods rfl allowed member
    | part _ allowed member induction => exact induction.part allowed member

end Session

/-! ### Visits in a script -/

theorem node_walks (node : Node) : Walks node.visit node.script := by
  cases node with
  | expr visited => exact visit_expr_walks visited
  | stmt visited => exact visit_stmt_walks visited

/-- The steps between the start and the end of a visit. -/
def Node.inside : Node → Nat → List Step
  | .expr ⟨pos, visited⟩ => visited.script pos.line
  | .stmt ⟨pos, visited⟩ => visited.script pos.line

theorem Node.script_succ (node : Node) (room : Nat) :
    node.script (room + 1) = .visit node :: node.inside room ++ [.done] := by
  cases node with
  | expr visited =>
      cases visited
      rw [Node.script, exprScript]
      rfl
  | stmt visited =>
      cases visited
      rw [Node.script, stmtScript]
      rfl

/-- The visits begin where the script of a walk has the script of their node. -/
def Covers (parts : Session → List Visit) (script : Nat → List Step) : Prop :=
  ∀ session, session.Grounded → ∀ visit ∈ parts session, ∃ front tail,
    script session.room = front ++ (visit.node.script visit.before.room ++ tail) ∧
      visit.before = session.run front

namespace Covers

variable {parts later : Session → List Visit} {script next : Nat → List Step}

theorem nil (script : Nat → List Step) : Covers (fun _ => []) script := by simp [Covers]

theorem one (node : Node) : Covers (fun session => [⟨node, session⟩]) node.script := by
  intro session _ visit member
  obtain rfl := List.mem_singleton.mp member
  exact ⟨[], [], (List.append_nil _).symm, rfl⟩

theorem completed {walk : Session → Outcome} (completes : Completes walk script)
    (first : Covers parts script) (second : Covers later next) :
    Covers (fun session => parts session ++ (walk session).parts later)
      fun room => script room ++ next room := by
  intro session grounded visit member
  rcases List.mem_append.mp member with own | further
  · obtain ⟨front, tail, place, before⟩ := first session grounded visit own
    exact ⟨front, tail ++ next session.room, by simp [place], before⟩
  · have steady := (completes.bracketed session.room).steady session
    rw [completes.runs session grounded] at further
    obtain ⟨front, tail, place, before⟩ := second _ (steady.grounded grounded) visit further
    rw [steady.room] at place
    refine ⟨script session.room ++ front, tail, by simp [place], ?_⟩
    rw [before, Session.run_append]

theorem followed {walk : Session → Session} (walks : Walks walk script)
    (first : Covers parts script) (second : Covers later next) :
    Covers (fun session => parts session ++ later (walk session))
      fun room => script room ++ next room := first.completed walks.completes second

theorem check (covers : Covers parts script) (line : UInt64) (check : Check) :
    Covers (fun session => parts (session.note (session.context.findings line check)))
      fun room => .check line check :: script room :=
  followed (Walks.nil.check line check) (nil _) covers

theorem scope (covers : Covers parts script) :
    Covers (fun session => parts session.enterScope) fun room => scopeScript (script room) := by
  intro session grounded visit member
  obtain ⟨front, tail, place, before⟩ := covers session.enterScope grounded visit member
  have entered : script session.room =
      front ++ (visit.node.script visit.before.room ++ tail) := place
  refine ⟨.act .enter :: front, tail ++ [.act .leave], ?_, before⟩
  simp [scopeScript, entered]

end Covers

theorem exprs_covered (exprs : List (Located Expr)) :
    Covers (exprsParts exprs) (exprsScript exprs) := by
  induction exprs with
  | nil => exact .nil _
  | cons expr rest covered =>
      exact .followed (visit_expr_walks expr) (.one (.expr expr)) covered

theorem expr_covered (expr : Expr) (line : UInt64) :
    Covers (expr.parts line) (expr.script line) := by
  cases expr with
  | literal => exact .nil _
  | identifier => exact .nil _
  | binary op lhs rhs =>
      have operands := Covers.followed (visit_expr_walks lhs) (.one (.expr lhs)) (.one (.expr rhs))
      exact operands.check line (.binary op lhs.data rhs.data)
  | unary op operand => exact .one (.expr operand)
  | call name args => exact (exprs_covered args).check line (.call name args)
  | member => exact .nil _
  | memberCall path name args =>
      exact .followed (path_walks path) (.nil _) (exprs_covered args)

theorem condition_covered (construct : Construct) (line : UInt64) (cond : Located Expr) :
    Covers (conditionParts construct line cond) (conditionScript construct line cond) :=
  .check (.one (.expr cond)) line (.condition cond.data construct)

theorem optional_condition_covered (line : UInt64) (cond : Option (Located Expr)) :
    Covers (optionalConditionParts line cond) (optionalConditionScript line cond) := by
  cases cond with
  | none => exact .nil _
  | some cond => exact condition_covered .forLoop line cond

theorem initializer_covered (name ty : String) (line : UInt64) (init : Option (Located Expr)) :
    Covers (initializerParts name ty line init) (initializerScript name ty line init) := by
  cases init with
  | none => exact .nil _
  | some value =>
      exact .check (.one (.expr value)) line (.initializer name (.ofName ty) value.data)

theorem optional_expr_covered (expr : Option (Located Expr)) :
    Covers (optionalExprParts expr) (optionalExprScript expr) := by
  cases expr with
  | none => exact .nil _
  | some expr => exact .one (.expr expr)

theorem stmts_covered (stmts : List (Located Stmt)) :
    Covers (stmtsParts stmts) (stmtsScript stmts) := by
  induction stmts with
  | nil => exact .nil _
  | cons stmt rest covered =>
      exact .followed (visit_stmt_walks stmt) (.one (.stmt stmt)) covered

theorem optional_stmt_covered (stmt : Option (Located Stmt)) :
    Covers (optionalStmtParts stmt) (optionalStmtScript stmt) := by
  cases stmt with
  | none => exact .nil _
  | some stmt => exact .one (.stmt stmt)

theorem arms_covered (arms : List (Located (Arm Stmt))) :
    Covers (armsParts arms) (armsScript arms) := by
  induction arms with
  | nil => exact .nil _
  | cons arm rest covered =>
      obtain ⟨pos, value, body⟩ := arm
      have own := Covers.followed (visit_expr_walks value) (.one (.expr value))
        (stmts_covered body).scope
      have walks := Completes.after (visit_expr_walks value) (visit_stmts_walks body).scope
      exact own.completed walks covered

theorem otherwise_covered (otherwise : Option (Located (List (Located Stmt)))) :
    Covers (otherwiseParts otherwise) (otherwiseScript otherwise) := by
  cases otherwise with
  | none => exact .nil _
  | some statements => exact (stmts_covered statements.data).scope

/-- The visits that a statement makes itself, form by form. -/
theorem stmt_covered (stmt : Stmt) (line : UInt64) :
    Covers (stmt.parts line) (stmt.script line) := by
  cases stmt with
  | declare ty name isArray init =>
      exact .completed (.declare name ty line) (.nil _) (initializer_covered name ty line init)
  | assign target value =>
      exact .check (.one (.expr value)) line (.assignment target value.data)
  | ifElse cond thenBranch elseBranch =>
      have branches := Covers.followed (visit_stmt_walks thenBranch) (.one (.stmt thenBranch))
        (optional_stmt_covered elseBranch)
      exact .followed (condition_walks .ifElse line cond)
        (condition_covered .ifElse line cond) branches
  | whileLoop cond body =>
      exact .followed (condition_walks .whileLoop line cond)
        (condition_covered .whileLoop line cond) (.one (.stmt body))
  | doWhileLoop body cond =>
      exact .followed (visit_stmt_walks body) (.one (.stmt body))
        (condition_covered .doWhileLoop line cond)
  | forLoop init cond update body =>
      have repeated := Covers.followed (visit_optional_stmt_walks update)
        (optional_stmt_covered update) (.one (.stmt body))
      have tested := Covers.followed (optional_condition_walks line cond)
        (optional_condition_covered line cond) repeated
      have begun := Covers.followed (visit_optional_stmt_walks init)
        (optional_stmt_covered init) tested
      exact begun.scope
  | switch scrutinee arms otherwise =>
      have blocks := Covers.completed (analyse_arms_completes arms) (arms_covered arms)
        (otherwise_covered otherwise)
      exact .followed (visit_expr_walks scrutinee) (.one (.expr scrutinee)) blocks
  | returning value =>
      exact (optional_expr_covered value).check line (.returning (value.map Located.data))
  | breaking => exact .nil _
  | continuing => exact .nil _
  | block statements => exact (stmts_covered statements).scope
  | expression value => exact .one (.expr value)

theorem parts_covered (node : Node) : Covers node.parts node.inside := by
  cases node with
  | expr visited => exact expr_covered visited.data visited.pos.line
  | stmt visited => exact stmt_covered visited.data visited.pos.line

/-! ### Visits in an analysis -/

namespace Session

/-- The place of a visit in the script of its method. -/
structure Within (base : Symbols) (program : Program) (visit : Visit) (session : Session)
    (method : Located Method) (room : Nat) (front tail : List Step) : Prop where
  member : method ∈ program.methods
  stacked : base.Over [] session.symbols
  place : method.data.script room = front ++ (visit.node.script visit.before.room ++ tail)
  before : visit.before = (session.inMethod method).run front

variable {base : Symbols} {options : Options} {program : Program} {visit whole : Visit}
  {session : Session} {method : Located Method} {room : Nat} {front tail : List Step}

theorem Within.inside_before (within : Within base program visit session method room front tail) :
    visit.before.Inside session.symbols method.data.context
      (parametersOutline method.data.params ++ actions front) := by
  rw [within.before]
  exact (inside_inMethod session method).run front

theorem Within.inside_after (within : Within base program visit session method room front tail) :
    visit.after.Inside session.symbols method.data.context
      (parametersOutline method.data.params ++ actions front ++
        actions (visit.node.script visit.before.room)) := by
  have before := within.inside_before
  have ended : visit.after = visit.before.run (visit.node.script visit.before.room) :=
    (node_walks visit.node).runs visit.before before.grounded
  rw [ended]
  exact before.run _

theorem Within.part (within : Within base program whole session method room front tail)
    (allowed : whole.before.depth < whole.before.options.maxNestingDepth)
    (member : visit ∈ whole.node.parts whole.before.deeper) :
    ∃ front tail, Within base program visit session method room front tail := by
  obtain ⟨inner, left⟩ : ∃ inner, whole.before.room = inner + 1 :=
    Nat.exists_eq_add_one.mpr (Nat.sub_pos_of_lt allowed)
  have entered : whole.before.deeper.room = inner := by
    simp only [Session.room, deeper] at left ⊢
    omega
  have grounded : whole.before.deeper.Grounded := within.inside_before.grounded
  obtain ⟨begun, ended, place, before⟩ := parts_covered whole.node _ grounded visit member
  rw [entered] at place
  refine ⟨front ++ .visit whole.node :: begun, ended ++ .done :: tail,
    within.member, within.stacked, ?_, ?_⟩
  · rw [within.place, left, Node.script_succ, place]
    simp
  · rw [before, run_append, ← within.before]
    rfl

theorem VisitsIn.within (visits : session.VisitsIn method visit)
    (between : session.Between base options) (member : method ∈ program.methods) :
    ∃ room front tail, options.maxNestingDepth = room + 1 ∧
      Within base program visit session method room front tail := by
  induction visits with
  | @body visit allowed found =>
      obtain ⟨room, fits⟩ : ∃ room, session.room = room + 1 :=
        Nat.exists_eq_add_one.mpr (Nat.sub_pos_of_lt allowed)
      obtain ⟨front, tail, place, begun⟩ :=
        stmts_covered method.data.body _ (inside_inMethod session method).grounded visit found
      rw [room_inMethod fits] at place
      exact ⟨room, front, tail, between.room.symm.trans fits, member, between.stacked, place, begun⟩
  | part _ allowed found induction =>
      obtain ⟨room, front, tail, limit, within⟩ := induction
      obtain ⟨begun, ended, inner⟩ := within.part allowed found
      exact ⟨room, begun, ended, limit, inner⟩

/-- A visit lies in the walk of one method, after those of the methods above it. -/
theorem Visits.located (visits : (start base options).Visits program visit) :
    ∃ earlier method later room front tail,
      program.methods = earlier ++ method :: later ∧ options.maxNestingDepth = room + 1 ∧
        Within base program visit
          (earlier.foldl visitMethod ((start base options).prepare program)) method room
          front tail := by
  obtain ⟨earlier, method, later, methods, inMethod⟩ := visits_iff.mp visits
  have between := (between_prepare base options program).visits earlier
  have member : method ∈ program.methods := by simp [methods]
  obtain ⟨room, front, tail, limit, within⟩ := inMethod.within between member
  exact ⟨earlier, method, later, room, front, tail, methods, limit, within⟩

theorem Visits.within (visits : (start base options).Visits program visit) :
    ∃ session method room front tail, Within base program visit session method room front tail := by
  obtain ⟨_, method, _, room, front, tail, -, -, within⟩ := visits.located
  exact ⟨_, method, room, front, tail, within⟩

end Session

end Sema
