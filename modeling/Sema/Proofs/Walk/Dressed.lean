import Sema.Proofs.Walk.Blind

/-!
# Analyses of a program in a guise

The walk over a program in a guise, from a session in this guise, ends in the guise of the session
in which the plain walk ends. So two programs that come to the same without what no check looks at
are found to have the same faults, and lines go through an analysis untouched.
-/

namespace Sema

variable {guise : Guise}

/-! ### Walks -/

/-- On sessions in the guise the second walk does what the first does on plain ones. -/
def Dresses (guise : Guise) (walk dressed : Session → Session) : Prop :=
  ∀ session, dressed (session.inGuise guise) = (walk session).inGuise guise

/-- The same of walks that might fail: they fail together, and for the same reason. -/
def DressesOutcome (guise : Guise) (walk dressed : Session → Outcome) : Prop :=
  ∀ session, dressed (session.inGuise guise) = ((walk session).1, (walk session).2.inGuise guise)

namespace Dresses

variable {walk dressed further next : Session → Session}

theorem nil : Dresses guise (fun session => session) fun session => session := fun _ => rfl

theorem followed (first : Dresses guise walk dressed) (second : Dresses guise further next) :
    Dresses guise (fun session => further (walk session))
      fun session => next (dressed session) := by
  intro session
  dsimp only
  rw [first, second]

theorem check (dresses : Dresses guise walk dressed) (line : UInt64)
    (check other : Check) (same : other = check.inGuise guise) :
    Dresses guise (fun session => walk (session.note (session.context.findings line check)))
      fun session =>
        dressed (session.note (session.context.findings (guise.line line) other)) := by
  intro session
  dsimp only
  rw [same, Session.check_in_guise, dresses]

theorem mention (name : String) :
    Dresses guise (fun session => session.markUsed name) fun session => session.markUsed name := by
  intro session
  dsimp only [Session.markUsed, Session.inGuise]
  rw [Symbols.markUsed_in_guise]

theorem succeed (dresses : Dresses guise walk dressed) :
    DressesOutcome guise (fun session => (walk session).succeed)
      fun session => (dressed session).succeed := by
  intro session
  dsimp only [Session.succeed]
  rw [dresses]

theorem scope (dresses : Dresses guise walk dressed) :
    DressesOutcome guise (fun session => (walk session.enterScope).leaveScope)
      fun session => (dressed session.enterScope).leaveScope := by
  intro session
  have entered : (session.inGuise guise).enterScope = session.enterScope.inGuise guise := rfl
  have left : ∀ after : Session, (after.inGuise guise).leaveScope =
      (after.leaveScope.1, after.leaveScope.2.inGuise guise) := by
    intro after
    unfold Session.leaveScope
    rw [Session.inGuise, Symbols.leave_in_guise]
    cases after.symbols.leave <;> rfl
  dsimp only
  rw [entered, dresses, left]

end Dresses

namespace DressesOutcome

variable {walk dressed further next : Session → Outcome}

theorem followed (first : DressesOutcome guise walk dressed)
    (second : DressesOutcome guise further next) :
    DressesOutcome guise (fun session => (walk session).next further)
      fun session => (dressed session).next next := by
  intro session
  dsimp only
  rw [first]
  obtain ⟨failure, after⟩ := walk session
  cases failure with
  | none => exact second after
  | some reason => rfl

theorem after {walk dressed : Session → Session} (first : Dresses guise walk dressed)
    (second : DressesOutcome guise further next) :
    DressesOutcome guise (fun session => further (walk session))
      fun session => next (dressed session) := by
  intro session
  dsimp only
  rw [first, second]

theorem visit (dresses : DressesOutcome guise walk dressed) :
    Dresses guise (Session.visit walk) (Session.visit dressed) := by
  intro session
  have entered : dressed (session.inGuise guise).entered =
      ((walk session.entered).1, (walk session.entered).2.inGuise guise) := dresses session.entered
  have limit : (session.inGuise guise).options = session.options := rfl
  have depth : (session.inGuise guise).depth = session.depth := rfl
  rw [Session.visit_eq, Session.visit_eq, entered, limit, depth, ← Session.finish_in_guise]
  split <;> rfl

theorem declare (name ty : String) (line : UInt64) :
    DressesOutcome guise (fun session => session.declareLocal name ty line)
      fun session => session.declareLocal name ty (guise.line line) := by
  intro session
  have current : (session.inGuise guise).current = session.current := rfl
  have locals : (session.inGuise guise).locals = session.locals := rfl
  dsimp only
  unfold Session.declareLocal
  rw [current, locals]
  cases session.current with
  | none =>
      simp [Session.succeed, Session.declareSymbol, Session.inGuise, Symbols.declare_in_guise]
  | some method =>
      dsimp only
      cases session.locals.find? method.name with
      | none => rfl
      | some env =>
          simp [Session.succeed, Session.declareSymbol, Session.inGuise, Symbols.declare_in_guise]

theorem inMethod (dresses : DressesOutcome guise walk dressed) (name returnTy : String) :
    DressesOutcome guise (fun session => session.withMethod name returnTy walk)
      fun session => session.withMethod name returnTy dressed := by
  intro session
  have inside := dresses (session.enterMethod name returnTy)
  exact congrArg (fun outcome : Outcome => (outcome.1, outcome.2.exitMethod)) inside

end DressesOutcome

theorem path_dressed (path : List String) :
    Dresses guise (fun session => path.head?.elim session session.markUsed)
      fun session => (pathInGuise guise path).head?.elim session session.markUsed := by
  cases path with
  | nil => exact .nil
  | cons head rest => exact .mention head

mutual

theorem visit_expr_dressed :
    ∀ expr, Dresses guise (visitExpr expr) (visitExpr (exprInGuise guise expr))
  | ⟨pos, expr⟩ => (analyse_expr_dressed expr pos.line).succeed.visit

theorem analyse_expr_dressed : ∀ (expr : Expr) (line : UInt64),
    Dresses guise (analyseExpr expr line) (analyseExpr (expr.inGuise guise) (guise.line line))
  | .literal _ _, _ => .nil
  | .identifier name, _ => .mention name
  | .binary op lhs rhs, line =>
      ((visit_expr_dressed lhs).followed (visit_expr_dressed rhs)).check line
        (.binary op lhs.data rhs.data)
        (.binary op (exprInGuise guise lhs).data (exprInGuise guise rhs).data)
        (by rw [data_exprInGuise, data_exprInGuise]; rfl)
  | .unary _ operand _, _ => visit_expr_dressed operand
  | .call name args, line => (visit_exprs_dressed args).check line (.call name args) _ rfl
  | .member path, _ => path_dressed path
  | .memberCall path _ args, _ => (path_dressed path).followed (visit_exprs_dressed args)

theorem visit_exprs_dressed :
    ∀ exprs, Dresses guise (visitExprs exprs) (visitExprs (exprsInGuise guise exprs))
  | [] => .nil
  | expr :: rest => (visit_expr_dressed expr).followed (visit_exprs_dressed rest)

end

theorem visit_optional_expr_dressed : ∀ expr : Option (Located Expr),
    Dresses guise (visitOptionalExpr expr) (visitOptionalExpr (expr.map (exprInGuise guise)))
  | none => .nil
  | some expr => visit_expr_dressed expr

theorem condition_dressed (construct : Construct) (line : UInt64) (cond : Located Expr) :
    Dresses guise (fun session => visitExpr cond (session.checkCondition cond.data construct line))
      fun session => visitExpr (exprInGuise guise cond)
        (session.checkCondition (exprInGuise guise cond).data construct (guise.line line)) :=
  (visit_expr_dressed cond).check line (.condition cond.data construct)
    (.condition (exprInGuise guise cond).data construct)
    (by rw [data_exprInGuise]; rfl)

theorem optional_condition_dressed (line : UInt64) : ∀ cond : Option (Located Expr),
    Dresses guise
      (fun session =>
        match cond with
        | none => session
        | some cond => visitExpr cond (session.checkCondition cond.data .forLoop line))
      fun session =>
        match cond.map (exprInGuise guise) with
        | none => session
        | some cond =>
            visitExpr cond (session.checkCondition cond.data .forLoop (guise.line line))
  | none => .nil
  | some cond => condition_dressed .forLoop line cond

theorem initializer_dressed (name ty : String) (line : UInt64) : ∀ init : Option (Located Expr),
    DressesOutcome guise
      (fun session =>
        match init with
        | none => session.succeed
        | some value =>
            (visitExpr value
              (session.checkInitializer name (.ofName ty) value.data line)).succeed)
      fun session =>
        match init.map (exprInGuise guise) with
        | none => session.succeed
        | some value =>
            (visitExpr value
              (session.checkInitializer name (.ofName ty) value.data (guise.line line))).succeed
  | none => Dresses.nil.succeed
  | some value =>
      ((visit_expr_dressed value).check line (.initializer name (.ofName ty) value.data)
        (.initializer name (.ofName ty) (exprInGuise guise value).data)
        (by rw [data_exprInGuise]; rfl)).succeed

mutual

theorem visit_stmt_dressed :
    ∀ stmt, Dresses guise (visitStmt stmt) (visitStmt (stmtInGuise guise stmt))
  | ⟨pos, stmt⟩ => (analyse_stmt_dressed stmt pos.line).visit

theorem analyse_stmt_dressed : ∀ (stmt : Stmt) (line : UInt64),
    DressesOutcome guise (analyseStmt stmt line)
      (analyseStmt (stmt.inGuise guise) (guise.line line))
  | .declare ty name _ init, line =>
      (DressesOutcome.declare name ty line).followed (initializer_dressed name ty line init)
  | .assign target value, line =>
      ((visit_expr_dressed value).check line (.assignment target value.data)
        (.assignment target (exprInGuise guise value).data)
        (by rw [data_exprInGuise]; rfl)).succeed
  | .ifElse cond thenBranch elseBranch, line =>
      ((condition_dressed .ifElse line cond).followed
        ((visit_stmt_dressed thenBranch).followed
          (visit_optional_stmt_dressed elseBranch))).succeed
  | .whileLoop cond body, line =>
      ((condition_dressed .whileLoop line cond).followed (visit_stmt_dressed body)).succeed
  | .doWhileLoop body cond, line =>
      ((visit_stmt_dressed body).followed (condition_dressed .doWhileLoop line cond)).succeed
  | .forLoop init cond update body, line =>
      ((visit_optional_stmt_dressed init).followed ((optional_condition_dressed line cond).followed
        ((visit_optional_stmt_dressed update).followed (visit_stmt_dressed body)))).scope
  | .switch scrutinee arms otherwise, _ => by
      have parts := (analyse_arms_dressed arms).followed (analyse_otherwise_dressed otherwise)
      have whole := DressesOutcome.after (visit_expr_dressed scrutinee) parts
      exact whole
  | .returning value, line =>
      ((visit_optional_expr_dressed value).check line
        (.returning (value.map Located.data))
        (.returning ((value.map (exprInGuise guise)).map Located.data))
        (by cases value <;> simp [Check.inGuise])).succeed
  | .breaking, _ => Dresses.nil.succeed
  | .continuing, _ => Dresses.nil.succeed
  | .block statements, _ => (visit_stmts_dressed statements).scope
  | .expression value, _ => (visit_expr_dressed value).succeed

theorem visit_stmts_dressed :
    ∀ stmts, Dresses guise (visitStmts stmts) (visitStmts (stmtsInGuise guise stmts))
  | [] => .nil
  | stmt :: rest => (visit_stmt_dressed stmt).followed (visit_stmts_dressed rest)

theorem visit_optional_stmt_dressed : ∀ stmt,
    Dresses guise (visitOptionalStmt stmt) (visitOptionalStmt (optionalStmtInGuise guise stmt))
  | none => .nil
  | some stmt => visit_stmt_dressed stmt

theorem analyse_arms_dressed :
    ∀ arms, DressesOutcome guise (analyseArms arms) (analyseArms (armsInGuise guise arms))
  | [] => Dresses.nil.succeed
  | ⟨_, value, body⟩ :: rest =>
      (DressesOutcome.after (visit_expr_dressed value) (visit_stmts_dressed body).scope).followed
        (analyse_arms_dressed rest)

theorem analyse_otherwise_dressed : ∀ otherwise,
    DressesOutcome guise (analyseOtherwise otherwise)
      (analyseOtherwise (otherwiseInGuise guise otherwise))
  | none => Dresses.nil.succeed
  | some ⟨_, statements⟩ => (visit_stmts_dressed statements).scope

end

/-! ### Methods and programs -/

namespace Method

theorem parameterTypes_in_guise (method : Method) :
    (method.inGuise guise).parameterTypes =
      method.parameterTypes.map (ParameterType.inGuise guise) := by
  simp only [parameterTypes, inGuise, List.map_map]
  rfl

theorem parameterEnv_in_guise (method : Method) :
    (method.inGuise guise).parameterEnv = method.parameterEnv := by
  rw [parameterEnv, parameterTypes_in_guise, List.map_map]
  rfl

end Method

theorem register_dressed (method : Located Method) :
    Dresses guise (fun session => session.register method)
      fun session => session.register (methodInGuise guise method) := by
  intro session
  have registered := @Session.registerMethod_in_guise guise session method.data.name
    method.data.returnTy method.data.parameterTypes method.line
  rw [← method.data.parameterTypes_in_guise] at registered
  exact registered

theorem declareParameters_dressed (params : List (Located Parameter)) :
    Dresses guise (fun session => session.declareParameters params)
      fun session => session.declareParameters
        (params.map (Located.inGuise guise (Parameter.inGuise guise))) := by
  intro session
  dsimp only [Session.declareParameters]
  induction params generalizing session with
  | nil => rfl
  | cons param rest induction =>
      have declared : (session.inGuise guise).declareSymbol param.data.name param.data.ty
            (guise.line param.line) =
          (session.declareSymbol param.data.name param.data.ty param.line).inGuise guise := by
        simp [Session.declareSymbol, Session.inGuise, Symbols.declare_in_guise]
      rw [List.map_cons, List.foldl_cons, List.foldl_cons, ← induction, ← declared]
      rfl

theorem announce_dressed (method : Located Method) :
    Dresses guise (fun session =>
        if session.options.resolveForwardCalls then session else session.register method)
      fun session =>
        if session.options.resolveForwardCalls then session
        else session.register (methodInGuise guise method) := by
  intro session
  have options : (session.inGuise guise).options = session.options := rfl
  dsimp only
  rw [options]
  split
  · rfl
  · exact register_dressed method session

theorem analyse_method_dressed (method : Located Method) :
    DressesOutcome guise (Session.analyseMethod method)
      (Session.analyseMethod (methodInGuise guise method)) := by
  have body := ((@declareParameters_dressed guise method.data.params).followed
    (visit_stmts_dressed method.data.body)).scope.inMethod method.data.name method.data.returnTy
  have announced := DressesOutcome.after (announce_dressed method) body
  have env : (methodInGuise guise method).data.parameterEnv = method.data.parameterEnv :=
    method.data.parameterEnv_in_guise
  intro session
  unfold Session.analyseMethod
  rw [env]
  exact announced
    { session with locals := session.locals.bind method.data.name method.data.parameterEnv }

theorem methods_in_guise (program : Program) :
    (program.inGuise guise).methods = program.methods.map (methodInGuise guise) := by
  have each : ∀ decl : ClassDecl,
      (decl.inGuise guise).methods = decl.methods.map (methodInGuise guise) := by
    intro decl
    rw [ClassDecl.methods, ClassDecl.methods, ClassDecl.inGuise, List.filterMap_filterMap,
      List.map_filterMap]
    apply List.filterMap_congr
    rintro ⟨pos, member⟩ _
    cases member with
    | method method => rfl
    | field field => cases kept : guise.field ⟨pos, field⟩ <;> simp [memberInGuise?, kept]
  simp only [Program.methods, Program.inGuise, List.flatMap_map, each, List.map_flatMap]

theorem methods_dressed {step : Session → Located Method → Session}
    (dresses : ∀ method, Dresses guise (fun session => step session method)
      fun session => step session (methodInGuise guise method))
    (methods : List (Located Method)) :
    Dresses guise (fun session => methods.foldl step session)
      fun session => (methods.map (methodInGuise guise)).foldl step session := by
  induction methods with
  | nil => exact .nil
  | cons method rest induction => exact (dresses method).followed induction

/-- The analysis of a program in a guise is the guise of the analysis. -/
theorem analyse_in_guise (session : Session) (program : Program) :
    (session.inGuise guise).analyse (program.inGuise guise) =
      (session.analyse program).inGuise guise := by
  have visits := @methods_dressed guise _ (fun method => (analyse_method_dressed method).visit)
    program.methods
  have registers := @methods_dressed guise _ register_dressed program.methods
  have options : (session.inGuise guise).options = session.options := rfl
  unfold Session.analyse
  rw [methods_in_guise, options]
  split
  · exact (registers.followed visits) session
  · exact visits session

/-! ### Without what no check looks at -/

theorem log_in_guise_bare (log : FindingLog) : logInGuise .bare log = log := by
  have lines : ∀ line : Option UInt64, line.map Guise.bare.line = line := by
    intro line
    cases line <;> rfl
  have each : ∀ message, messageInGuise .bare message = message := by
    intro message
    cases message with
    | warning line cause => rw [messageInGuise, lines]
    | error line cause =>
        have same : cause.inGuise .bare = cause := by cases cause <;> rfl
        rw [messageInGuise, lines, same]
  rw [logInGuise, funext each, List.map_id']

theorem Symbols.in_guise_bare (symbols : Symbols) : symbols.inGuise .bare = symbols := by
  have each : Variable.inGuise .bare = fun entry => entry := rfl
  rw [inGuise, each, List.map_id']
  rfl

theorem start_in_guise (symbols : Symbols) (options : Options) :
    (Session.start symbols options).inGuise guise =
      .start (symbols.inGuise guise) options := rfl

/-- The results of two analyses that differ at most in the marks of arrays in signatures. -/
structure Session.SameFindings (first second : Session) : Prop where
  log : first.log = second.log
  locals : first.locals = second.locals
  symbols : first.symbols = second.symbols
  catalogue : first.catalogue.inGuise .bare = second.catalogue.inGuise .bare

/-- Programs that come to the same without what no check looks at are found to have the same faults,
and an image of all lines goes through an analysis untouched. -/
theorem findings_blind (symbols : Symbols) (options : Options) :
    (∀ first second : Program, first.inGuise .bare = second.inGuise .bare →
      ((Session.start symbols options).analyse first).SameFindings
        ((Session.start symbols options).analyse second)) ∧
    ∀ (image : UInt64 → UInt64) (program : Program),
      (Session.start (symbols.inGuise (.lines image)) options).analyse
          (program.inGuise (.lines image)) =
        ((Session.start symbols options).analyse program).inGuise (.lines image) := by
  constructor
  · intro first second same
    have stripped : ∀ program : Program,
        (Session.start symbols options).analyse (program.inGuise .bare) =
          ((Session.start symbols options).analyse program).inGuise .bare := by
      intro program
      rw [← analyse_in_guise, start_in_guise, symbols.in_guise_bare]
    have equal : ((Session.start symbols options).analyse first).inGuise .bare =
        ((Session.start symbols options).analyse second).inGuise .bare := by
      rw [← stripped, same, stripped]
    have log := congrArg Session.log equal
    have locals := congrArg Session.locals equal
    have tables := congrArg Session.symbols equal
    have catalogue := congrArg Session.catalogue equal
    simp only [Session.inGuise, log_in_guise_bare, Symbols.in_guise_bare] at log tables
    exact ⟨log, locals, tables, catalogue⟩
  · intro image program
    rw [← analyse_in_guise, start_in_guise]

/-- A parameter that is negated and then hands out one of its members. -/
def offer (marked : Bool) (text : String) (leading : Bool) (tail : List String) (called : String)
    (column : UInt64) : List Member :=
  [.method
    { modifiers := text, returnTy := "void", name := "offer",
      params := [.place 3 column ⟨"boolean", "price", marked⟩],
      body := [
        .place 4 column (.assign "price" (.place 4 column (.literal "int" text))),
        .place 5 column (.expression (.place 5 column
          (.unary .neg (.place 5 column (.memberCall ("price" :: tail) called [])) leading))),
        .place 6 column (.switch (.place 6 column (.identifier "price"))
          [.place column 1 ⟨.place 7 column (.literal "int" text), []⟩] none)] },
    .method { modifiers := text, returnTy := "void", name := "offer", params := [], body := [] }]

def plainShop : Program :=
  ⟨[.place 1 1 ⟨"Shop", "", (offer false "1" true [] "get" 1).map (.place 2 1)⟩]⟩

def fullShop : Program :=
  ⟨[.place 90 9 ⟨"Market", "public",
    .place 8 8 (.field { ty := "int", name := "price" }) ::
      (offer true "22" false ["a", "b"] "put" 9).map (.place 2 7)⟩]⟩

theorem shops_alike :
    plainShop.inGuise .bare = fullShop.inGuise .bare ∧
    ((Session.start .empty {}).analyse plainShop).SameFindings
      ((Session.start .empty {}).analyse fullShop) ∧
    ((Session.start .empty {}).analyse plainShop).log =
      [.error (some 4) (.assignmentMismatch "price" (.primitive .int) (.primitive .boolean)),
        .error (some 2) (.duplicateMethod "offer" 2)] ∧
    ((Session.start .empty {}).analyse (fullShop.inGuise (.lines fun line => 100 - line))).log =
      [.error (some 96) (.assignmentMismatch "price" (.primitive .int) (.primitive .boolean)),
        .error (some 98) (.duplicateMethod "offer" 98)] := by
  have alike : plainShop.inGuise .bare = fullShop.inGuise .bare := by
    rfl
  have findings := (findings_blind .empty {}).1 plainShop fullShop alike
  have images := (findings_blind .empty {}).2 (fun line => 100 - line) fullShop
  refine ⟨alike, findings, by decide +kernel, ?_⟩
  have log := congrArg Session.log images
  refine log.trans ?_
  decide +kernel

end Sema
