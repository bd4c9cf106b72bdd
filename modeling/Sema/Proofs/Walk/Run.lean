import Sema.Proofs.Symbols.Frame
import Sema.Proofs.Walk.Script

/-!
# The walk as a run of its script

Every visit is the run of the script of its node, one step after the other. So what a walk does at a
given moment is what the steps before that moment have done, and a property of all moments is proved
step by step.

A visit can only fail if the locals of the current method are missing, or if a scope is left that was
never entered. A session is grounded if the former cannot happen; scripts are bracketed, so the
latter never does.
-/

namespace Sema

namespace Context

/-- The messages of a check. -/
def findings (context : Context) (line : UInt64) : Check → FindingLog
  | .assignment target value => context.assignment target value line
  | .initializer name target value => context.initializer name target value line
  | .binary op lhs rhs => context.binary op lhs rhs line
  | .condition cond construct => context.condition cond construct line
  | .returning value => context.returning value line
  | .call name args => context.call name args line

end Context

/-- The message of a visit that is refused. -/
def refusal (limit : Nat) : FindingLog := [.warning none (.notAnalysed (.nestingTooDeep limit))]

namespace Session

def act (session : Session) : Action → Session
  | .enter => session.enterScope
  | .leave => session.leaveScope.2
  | .declare name ty line => (session.declareLocal name ty line).2
  | .mention name => session.markUsed name

def perform (session : Session) : Step → Session
  | .visit _ => { session with depth := session.depth + 1 }
  | .done => { session with depth := session.depth - 1 }
  | .refuse => session.note (refusal session.options.maxNestingDepth)
  | .act action => session.act action
  | .check line check => session.note (session.context.findings line check)

def run (session : Session) (script : List Step) : Session := script.foldl perform session

/-- How many levels the nesting limit leaves. -/
def room (session : Session) : Nat := session.options.maxNestingDepth - session.depth

/-- The locals of the current method are there. -/
def Grounded (session : Session) : Prop :=
  ∀ method, session.current = some method → ∃ env, session.locals.find? method.name = some env

@[simp] theorem run_nil (session : Session) : session.run [] = session := rfl

@[simp] theorem run_cons (session : Session) (step : Step) (rest : List Step) :
    session.run (step :: rest) = (session.perform step).run rest := rfl

theorem run_append (session : Session) (front rest : List Step) :
    session.run (front ++ rest) = (session.run front).run rest := List.foldl_append

/-! ### What a bracketed script keeps -/

/-- A walk comes back to the level, the method and the scope in which it began. -/
structure Steady (before after : Session) : Prop where
  options : after.options = before.options
  depth : after.depth = before.depth
  current : after.current = before.current
  catalogue : after.catalogue = before.catalogue
  scopes : after.symbols.scopeDepth = before.symbols.scopeDepth
  grounded : before.Grounded → after.Grounded

theorem steady_refl (session : Session) : session.Steady session :=
  ⟨rfl, rfl, rfl, rfl, rfl, id⟩

theorem Steady.trans {first second third : Session} (before : first.Steady second)
    (after : second.Steady third) : first.Steady third where
  options := after.options.trans before.options
  depth := after.depth.trans before.depth
  current := after.current.trans before.current
  catalogue := after.catalogue.trans before.catalogue
  scopes := after.scopes.trans before.scopes
  grounded := fun grounded => after.grounded (before.grounded grounded)

theorem Steady.room {before after : Session} (steady : before.Steady after) :
    after.room = before.room := by
  rw [Session.room, Session.room, steady.options, steady.depth]

theorem steady_note (session : Session) (messages : FindingLog) :
    session.Steady (session.note messages) := ⟨rfl, rfl, rfl, rfl, rfl, id⟩

theorem steady_mention (session : Session) (name : String) :
    session.Steady (session.markUsed name) := by
  refine ⟨rfl, rfl, rfl, rfl, ?_, id⟩
  simp only [markUsed, Symbols.scopeDepth, Symbols.scopes_markUsed]

theorem scope_depth_declare (symbols : Symbols) (name ty : String) (line : UInt64) :
    (symbols.declare name ty line).scopeDepth = symbols.scopeDepth := by
  unfold Symbols.declare
  split
  · rfl
  · simp only [Symbols.scopeDepth, ScopeStack.depth, ScopeStack.define]
    split <;> rename_i inner <;> simp [inner]

theorem steady_declare (session : Session) (name ty : String) (line : UInt64) :
    session.Steady (session.declareLocal name ty line).2 := by
  unfold declareLocal
  split
  · exact ⟨rfl, rfl, rfl, rfl, scope_depth_declare session.symbols name ty line, id⟩
  · rename_i method entered
    split
    · exact steady_refl session
    · refine ⟨rfl, rfl, rfl, rfl, scope_depth_declare session.symbols name ty line, ?_⟩
      intro _ other same
      obtain rfl : method = other := Option.some.inj (entered.symm.trans same)
      exact ⟨_, by simp [succeed, declareSymbol, Bindings.find?_bind]; rfl⟩

theorem leaveScope_of_open {session : Session} (inside : 0 < session.symbols.scopeDepth) :
    session.leaveScope = (none, session.act .leave) := by
  simp only [Symbols.scopeDepth, ScopeStack.depth] at inside
  cases inner : session.symbols.scopes.inner with
  | nil => simp [inner] at inside
  | cons scope outer =>
      simp [act, leaveScope, Symbols.leave, ScopeStack.leave, inner, Except.map]

theorem scope_depth_leave (session : Session) :
    (session.act .leave).symbols.scopeDepth = session.symbols.scopeDepth - 1 := by
  cases inner : session.symbols.scopes.inner <;>
    simp [act, leaveScope, Symbols.leave, ScopeStack.leave, inner, Except.map,
      Symbols.scopeDepth, ScopeStack.depth]

theorem steady_leave (session : Session) :
    (session.act .leave).options = session.options ∧ (session.act .leave).depth = session.depth ∧
      (session.act .leave).current = session.current ∧
      (session.act .leave).catalogue = session.catalogue ∧
      (session.act .leave).locals = session.locals := by
  simp only [act, leaveScope]
  split <;> exact ⟨rfl, rfl, rfl, rfl, rfl⟩

end Session

theorem Bracketed.steady {script : List Step} (bracketed : Bracketed script) :
    ∀ session : Session, session.Steady (session.run script) := by
  induction bracketed with
  | nil => exact Session.steady_refl
  | mention name => exact fun session => session.steady_mention name
  | declare name ty line => exact fun session => session.steady_declare name ty line
  | check line check => exact fun session => session.steady_note _
  | refuse => exact fun session => session.steady_note _
  | visit node _ induction =>
      intro session
      have inside := induction (session.perform (.visit node))
      rw [List.cons_append, Session.run_cons, Session.run_append]
      refine ⟨inside.options, ?_, inside.current, inside.catalogue, inside.scopes,
        inside.grounded⟩
      have depth := inside.depth
      simp only [Session.perform] at depth
      simp [Session.perform, depth]
  | scope _ induction =>
      intro session
      have inside := induction session.enterScope
      rw [scopeScript, List.cons_append, Session.run_cons, Session.run_append]
      obtain ⟨options, depth, current, catalogue, locals⟩ :=
        Session.steady_leave ((session.perform (.act .enter)).run _)
      refine ⟨options.trans inside.options, depth.trans inside.depth,
        current.trans inside.current, catalogue.trans inside.catalogue, ?_, ?_⟩
      · have opened : (session.enterScope.run _).symbols.scopeDepth =
            session.symbols.scopeDepth + 1 := inside.scopes
        calc ((session.enterScope.run _).act .leave).symbols.scopeDepth
            = (session.enterScope.run _).symbols.scopeDepth - 1 := Session.scope_depth_leave _
          _ = session.symbols.scopeDepth := by rw [opened, Nat.add_sub_cancel]
      · intro grounded method same
        obtain ⟨env, found⟩ := inside.grounded grounded method (current.symm.trans same)
        exact ⟨env, by rw [← found]; exact congrArg (fun map => map.find? method.name) locals⟩
  | append _ _ first second =>
      intro session
      rw [Session.run_append]
      exact (first session).trans (second _)

/-! ### Walks -/

/-- A part of the walk that runs a script, with the room that the session leaves. -/
structure Walks (walk : Session → Session) (script : Nat → List Step) : Prop where
  bracketed : ∀ room, Bracketed (script room)
  runs : ∀ session, session.Grounded → walk session = session.run (script session.room)

/-- A part of the walk that might fail, but runs a script to its end. -/
structure Completes (walk : Session → Outcome) (script : Nat → List Step) : Prop where
  bracketed : ∀ room, Bracketed (script room)
  runs : ∀ session, session.Grounded → walk session = (none, session.run (script session.room))

namespace Walks

variable {walk further : Session → Session} {script next : Nat → List Step}

theorem steady (walks : Walks walk script) (session : Session) :
    session.Steady (session.run (script session.room)) :=
  (walks.bracketed session.room).steady session

theorem nil : Walks (fun session => session) fun _ => [] where
  bracketed _ := .nil
  runs _ _ := rfl

theorem followed (first : Walks walk script) (second : Walks further next) :
    Walks (fun session => further (walk session)) fun room => script room ++ next room where
  bracketed room := (first.bracketed room).append (second.bracketed room)
  runs session grounded := by
    have steady := first.steady session
    rw [first.runs session grounded, second.runs _ (steady.grounded grounded), steady.room,
      Session.run_append]

theorem check (walks : Walks walk script) (line : UInt64) (check : Check) :
    Walks (fun session => walk (session.note (session.context.findings line check)))
      fun room => .check line check :: script room where
  bracketed room := Bracketed.append (.check line check) (walks.bracketed room)
  runs _ grounded := walks.runs _ grounded

theorem mention (walks : Walks walk script) (name : String) :
    Walks (fun session => walk (session.markUsed name))
      fun room => .act (.mention name) :: script room where
  bracketed room := Bracketed.append (.mention name) (walks.bracketed room)
  runs _ grounded := walks.runs _ grounded

theorem completes (walks : Walks walk script) :
    Completes (fun session => (walk session).succeed) script where
  bracketed := walks.bracketed
  runs session grounded := by rw [walks.runs session grounded]; rfl

theorem scope (walks : Walks walk script) :
    Completes (fun session => (walk session.enterScope).leaveScope)
      fun room => scopeScript (script room) where
  bracketed room := (walks.bracketed room).scope
  runs session grounded := by
    have steady := walks.steady session.enterScope
    have inside : 0 < (session.enterScope.run (script session.room)).symbols.scopeDepth :=
      steady.scopes ▸ Nat.succ_pos session.symbols.scopeDepth
    rw [walks.runs session.enterScope grounded, scopeScript, List.cons_append, Session.run_cons,
      Session.run_append]
    exact Session.leaveScope_of_open inside

end Walks

namespace Completes

variable {walk further : Session → Outcome} {script next : Nat → List Step}

theorem followed (first : Completes walk script) (second : Completes further next) :
    Completes (fun session => (walk session).next further) fun room => script room ++ next room where
  bracketed room := (first.bracketed room).append (second.bracketed room)
  runs session grounded := by
    have steady := (first.bracketed session.room).steady session
    rw [first.runs session grounded, Outcome.next, second.runs _ (steady.grounded grounded),
      steady.room, Session.run_append]

theorem after {walk : Session → Session} (first : Walks walk script)
    (second : Completes further next) :
    Completes (fun session => further (walk session)) fun room => script room ++ next room where
  bracketed room := (first.bracketed room).append (second.bracketed room)
  runs session grounded := by
    have steady := first.steady session
    rw [first.runs session grounded, second.runs _ (steady.grounded grounded), steady.room,
      Session.run_append]

/-- One level deeper there is room if the limit is not reached yet. -/
theorem visit (completes : Completes walk script) (node : Node) :
    Walks (Session.visit walk) (visitScript node script) where
  bracketed room := by
    cases room with
    | zero => exact .visit node .refuse
    | succ room => exact .visit node (completes.bracketed room)
  runs session grounded := by
    have entered := completes.runs { session with depth := session.depth + 1 } grounded
    simp only [Session.room] at entered
    unfold Session.visit
    by_cases refused : session.options.maxNestingDepth < session.depth + 1
    · have room : session.room = 0 := by rw [Session.room]; omega
      simp only [if_pos refused, room, visitScript, Session.run_cons, Session.run_nil]
      rfl
    · have room : session.room =
          session.options.maxNestingDepth - (session.depth + 1) + 1 := by
        rw [Session.room]
        omega
      simp only [if_neg refused, entered, room, visitScript, List.cons_append, Session.run_cons,
        Session.run_append, Session.run_nil]
      rfl

/-- In a grounded session a declaration does not fail. -/
theorem declare (name ty : String) (line : UInt64) :
    Completes (fun session => session.declareLocal name ty line)
      fun _ => [.act (.declare name ty line)] where
  bracketed _ := .declare name ty line
  runs session grounded := by
    simp only [Session.run_cons, Session.run_nil, Session.perform, Session.act]
    unfold Session.declareLocal
    cases entered : session.current with
    | none => rfl
    | some method =>
        obtain ⟨env, found⟩ := grounded method entered
        simp [found, Session.succeed]

end Completes

/-! ### Every visit is a run -/

theorem path_walks (path : List String) :
    Walks (fun session => path.head?.elim session session.markUsed) fun _ => pathScript path := by
  cases path with
  | nil => exact .nil
  | cons head rest => exact .mention .nil head

mutual

theorem visit_expr_walks : ∀ expr, Walks (visitExpr expr) (exprScript expr)
  | ⟨pos, expr⟩ => (analyse_expr_walks expr pos.line).completes.visit _

theorem analyse_expr_walks :
    ∀ (expr : Expr) (line : UInt64), Walks (analyseExpr expr line) (expr.script line)
  | .literal _ _, _ => .nil
  | .identifier name, _ => .mention .nil name
  | .binary op lhs rhs, line =>
      ((visit_expr_walks lhs).followed (visit_expr_walks rhs)).check line
        (.binary op lhs.data rhs.data)
  | .unary _ operand _, _ => visit_expr_walks operand
  | .call name args, line => (visit_exprs_walks args).check line (.call name args)
  | .member path, _ => path_walks path
  | .memberCall path _ args, _ => (path_walks path).followed (visit_exprs_walks args)

theorem visit_exprs_walks : ∀ exprs, Walks (visitExprs exprs) (exprsScript exprs)
  | [] => .nil
  | expr :: rest => (visit_expr_walks expr).followed (visit_exprs_walks rest)

end

theorem visit_optional_expr_walks :
    ∀ expr, Walks (visitOptionalExpr expr) (optionalExprScript expr)
  | none => .nil
  | some expr => visit_expr_walks expr

theorem condition_walks (construct : Construct) (line : UInt64) (cond : Located Expr) :
    Walks (fun session => visitExpr cond (session.checkCondition cond.data construct line))
      (conditionScript construct line cond) :=
  (visit_expr_walks cond).check line (.condition cond.data construct)

theorem optional_condition_walks (line : UInt64) : ∀ cond : Option (Located Expr),
    Walks (fun session =>
      match cond with
      | none => session
      | some cond => visitExpr cond (session.checkCondition cond.data .forLoop line))
      (optionalConditionScript line cond)
  | none => .nil
  | some cond => condition_walks .forLoop line cond

theorem initializer_completes (name ty : String) (line : UInt64) :
    ∀ init : Option (Located Expr),
      Completes (fun session =>
        match init with
        | none => session.succeed
        | some value =>
            (visitExpr value
              (session.checkInitializer name (.ofName ty) value.data line)).succeed)
        (initializerScript name ty line init)
  | none => Walks.nil.completes
  | some value =>
      ((visit_expr_walks value).check line
        (.initializer name (.ofName ty) value.data)).completes

mutual

theorem visit_stmt_walks : ∀ stmt, Walks (visitStmt stmt) (stmtScript stmt)
  | ⟨pos, stmt⟩ => (analyse_stmt_completes stmt pos.line).visit _

theorem analyse_stmt_completes :
    ∀ (stmt : Stmt) (line : UInt64), Completes (analyseStmt stmt line) (stmt.script line)
  | .declare ty name _ init, line =>
      (Completes.declare name ty line).followed (initializer_completes name ty line init)
  | .assign target value, line =>
      ((visit_expr_walks value).check line (.assignment target value.data)).completes
  | .ifElse cond thenBranch elseBranch, line =>
      ((condition_walks .ifElse line cond).followed
        ((visit_stmt_walks thenBranch).followed
          (visit_optional_stmt_walks elseBranch))).completes
  | .whileLoop cond body, line =>
      ((condition_walks .whileLoop line cond).followed (visit_stmt_walks body)).completes
  | .doWhileLoop body cond, line =>
      ((visit_stmt_walks body).followed (condition_walks .doWhileLoop line cond)).completes
  | .forLoop init cond update body, line =>
      ((visit_optional_stmt_walks init).followed ((optional_condition_walks line cond).followed
        ((visit_optional_stmt_walks update).followed (visit_stmt_walks body)))).scope
  | .switch scrutinee arms otherwise, _ => by
      have parts := (analyse_arms_completes arms).followed (analyse_otherwise_completes otherwise)
      have whole := Completes.after (visit_expr_walks scrutinee) parts
      exact whole
  | .returning value, line =>
      ((visit_optional_expr_walks value).check line
        (.returning (value.map Located.data))).completes
  | .breaking, _ => Walks.nil.completes
  | .continuing, _ => Walks.nil.completes
  | .block statements, _ => (visit_stmts_walks statements).scope
  | .expression value, _ => (visit_expr_walks value).completes

theorem visit_stmts_walks : ∀ stmts, Walks (visitStmts stmts) (stmtsScript stmts)
  | [] => .nil
  | stmt :: rest => (visit_stmt_walks stmt).followed (visit_stmts_walks rest)

theorem visit_optional_stmt_walks :
    ∀ stmt, Walks (visitOptionalStmt stmt) (optionalStmtScript stmt)
  | none => .nil
  | some stmt => visit_stmt_walks stmt

theorem analyse_arms_completes : ∀ arms, Completes (analyseArms arms) (armsScript arms)
  | [] => Walks.nil.completes
  | ⟨_, value, body⟩ :: rest =>
      (Completes.after (visit_expr_walks value) (visit_stmts_walks body).scope).followed
        (analyse_arms_completes rest)

theorem analyse_otherwise_completes :
    ∀ otherwise, Completes (analyseOtherwise otherwise) (otherwiseScript otherwise)
  | none => Walks.nil.completes
  | some ⟨_, statements⟩ => (visit_stmts_walks statements).scope

end

end Sema
