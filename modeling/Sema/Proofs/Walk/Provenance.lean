import Sema.Proofs.Typing.Unknown
import Sema.Proofs.Walk.Checks

/-!
# Where declared types come from

Every type that a check asks for was given somewhere: to a variable of the table, to a parameter or
a local, or to the result of a method. A walk does not make up any others. So what a session knows
stays among the types that its table and its calls have given, and whatever an error asks for is one
of them.
-/

namespace Sema

/-! ### Given types -/

def Action.givenType? : Action → Option Ty
  | .declare _ ty _ => some (.ofName ty)
  | .enter | .leave | .mention _ => none

def Step.givenType? : Step → Option Ty
  | .act action => action.givenType?
  | .check _ (.initializer _ target _) => some target
  | .check _ (.assignment _ _) | .check _ (.binary _ _ _) | .check _ (.condition _ _)
  | .check _ (.returning _) | .check _ (.call _ _) | .visit _ | .done | .refuse => none

/-- The types of the declarations of a history. -/
def givenIn (history : List Action) : List Ty := history.filterMap Action.givenType?

/-- The types of the variables of a table. -/
def Symbols.givenTypes (symbols : Symbols) : List Ty :=
  symbols.entries.map fun entry => .ofName entry.ty

def Method.givenTypes (method : Method) : List Ty :=
  .ofName method.returnTy :: givenIn method.outline

def Program.givenTypes (program : Program) : List Ty :=
  program.methods.flatMap fun method => method.data.givenTypes

mutual

def Call.givenTypes : Call → List Ty
  | .register _ _ params _ => params.map ParameterType.ty
  | .enter _ returnTy => [.ofName returnTy]
  | .within _ returnTy calls => .ofName returnTy :: givenByCalls calls
  | .analyse program => program.givenTypes
  | .assignment _ _ _ | .binary _ _ _ _ | .condition _ _ _ | .returning _ _ | .call _ _ _
  | .exit => []

def givenByCalls : List Call → List Ty
  | [] => []
  | call :: rest => call.givenTypes ++ givenByCalls rest

end

theorem givenIn_append (front rest : List Action) :
    givenIn (front ++ rest) = givenIn front ++ givenIn rest := List.filterMap_append

namespace Method

theorem givenIn_parameters (method : Method) :
    givenIn (parametersOutline method.params) = method.parameterTypes.map ParameterType.ty := by
  rw [Method.parameterTypes]
  induction method.params with
  | nil => rfl
  | cons param rest induction => exact congrArg (List.cons _) induction

theorem givenTypes_eq (method : Method) :
    method.givenTypes = .ofName method.returnTy ::
      (givenIn (parametersOutline method.params) ++ givenIn (stmtsOutline method.body)) := by
  have outline : givenIn method.outline =
      givenIn (parametersOutline method.params ++ stmtsOutline method.body) := by
    rw [Method.outline, scopeAround, givenIn_append]
    exact List.append_nil _
  rw [givenTypes, outline, givenIn_append]

theorem given_parameter (method : Method) {type : Ty}
    (member : type ∈ givenIn (parametersOutline method.params)) : type ∈ method.givenTypes := by
  rw [givenTypes_eq]
  exact List.mem_cons_of_mem _ (List.mem_append_left _ member)

theorem given_body (method : Method) {type : Ty}
    (member : type ∈ givenIn (stmtsOutline method.body)) : type ∈ method.givenTypes := by
  rw [givenTypes_eq]
  exact List.mem_cons_of_mem _ (List.mem_append_right _ member)

end Method

/-! ### Scripts -/

/-- The types in a script are given by the outline of the same piece. -/
def Draws (outline : List Action) (script : Nat → List Step) : Prop :=
  ∀ room, ∀ type ∈ (script room).filterMap Step.givenType?, type ∈ givenIn outline

namespace Draws

variable {outline later : List Action} {script next : Nat → List Step}

theorem nil : Draws [] fun _ => [] := fun _ _ member => member

theorem mention (name : String) : Draws [.mention name] fun _ => [.act (.mention name)] :=
  fun _ _ member => member

theorem append (first : Draws outline script) (second : Draws later next) :
    Draws (outline ++ later) fun room => script room ++ next room := by
  intro room type member
  rw [List.filterMap_append] at member
  rw [givenIn_append]
  rcases List.mem_append.mp member with front | rest
  · exact List.mem_append_left _ (first room type front)
  · exact List.mem_append_right _ (second room type rest)

theorem check (draws : Draws outline script) {line : UInt64} {check : Check}
    (silent : (Step.check line check).givenType? = none) :
    Draws outline fun room => .check line check :: script room := by
  intro room type member
  rw [List.filterMap_cons_none silent] at member
  exact draws room type member

theorem declare (draws : Draws outline script) (name ty : String) (line : UInt64) :
    Draws (.declare name ty line :: outline)
      fun room => .act (.declare name ty line) :: script room := by
  intro room type member
  rcases List.mem_cons.mp member with rfl | member
  · exact List.mem_cons_self
  · exact List.mem_cons_of_mem _ (draws room type member)

theorem scope (draws : Draws outline script) :
    Draws (scopeAround outline) fun room => scopeScript (script room) := by
  have left : Draws [.leave] fun _ => [.act .leave] := fun _ _ member => member
  exact fun room type member => (draws.append left) room type member

theorem visit (draws : Draws outline script) (node : Node) :
    Draws outline (visitScript node script) := by
  intro room type member
  cases room with
  | zero => cases member
  | succ room =>
      have inside : type ∈ (script room ++ [Step.done]).filterMap Step.givenType? := member
      rw [List.filterMap_append] at inside
      rcases List.mem_append.mp inside with own | ended
      · exact draws room type own
      · cases ended

end Draws

theorem path_draws (path : List String) : Draws (pathOutline path) fun _ => pathScript path := by
  cases path with
  | nil => exact .nil
  | cons head rest => exact .mention head

mutual

theorem expr_draws : ∀ expr, Draws (exprOutline expr) (exprScript expr)
  | ⟨pos, expr⟩ => (expr_inside_draws expr pos.line).visit _

theorem expr_inside_draws :
    ∀ (expr : Expr) (line : UInt64), Draws expr.outline (expr.script line)
  | .literal _ _, _ => .nil
  | .identifier name, _ => .mention name
  | .binary _ lhs rhs, _ => ((expr_draws lhs).append (expr_draws rhs)).check rfl
  | .unary _ operand _, _ => expr_draws operand
  | .call _ args, _ => (exprs_draw args).check rfl
  | .member path, _ => path_draws path
  | .memberCall path _ args, _ => (path_draws path).append (exprs_draw args)

theorem exprs_draw : ∀ exprs, Draws (exprsOutline exprs) (exprsScript exprs)
  | [] => .nil
  | expr :: rest => (expr_draws expr).append (exprs_draw rest)

end

theorem optional_expr_draws : ∀ expr, Draws (optionalExprOutline expr) (optionalExprScript expr)
  | none => .nil
  | some expr => expr_draws expr

/-- The check of an initial value asks for the type of the declaration in front of it. -/
theorem initializer_draws (name ty : String) (line : UInt64) : ∀ init,
    Draws (.declare name ty line :: optionalExprOutline init)
      fun room => .act (.declare name ty line) :: initializerScript name ty line init room
  | none => Draws.nil.declare name ty line
  | some value => by
      intro room type member
      rcases List.mem_cons.mp member with rfl | member
      · exact List.mem_cons_self
      · exact (expr_draws value).declare name ty line room type member

theorem condition_draws (construct : Construct) (line : UInt64) (cond : Located Expr) :
    Draws (exprOutline cond) (conditionScript construct line cond) :=
  (expr_draws cond).check rfl

theorem optional_condition_draws (line : UInt64) : ∀ cond,
    Draws (optionalExprOutline cond) (optionalConditionScript line cond)
  | none => .nil
  | some cond => condition_draws .forLoop line cond

mutual

theorem stmt_draws : ∀ stmt, Draws (stmtOutline stmt) (stmtScript stmt)
  | ⟨pos, stmt⟩ => (stmt_inside_draws stmt pos.line).visit _

theorem stmt_inside_draws :
    ∀ (stmt : Stmt) (line : UInt64), Draws (stmt.outline line) (stmt.script line)
  | .declare ty name _ init, line => initializer_draws name ty line init
  | .assign _ value, _ => (expr_draws value).check rfl
  | .ifElse cond thenBranch elseBranch, line =>
      (condition_draws .ifElse line cond).append
        ((stmt_draws thenBranch).append (optional_stmt_draws elseBranch))
  | .whileLoop cond body, line => (condition_draws .whileLoop line cond).append (stmt_draws body)
  | .doWhileLoop body cond, line =>
      (stmt_draws body).append (condition_draws .doWhileLoop line cond)
  | .forLoop init cond update body, line =>
      ((optional_stmt_draws init).append ((optional_condition_draws line cond).append
        ((optional_stmt_draws update).append (stmt_draws body)))).scope
  | .switch scrutinee arms otherwise, _ =>
      (expr_draws scrutinee).append ((arms_draw arms).append (otherwise_draws otherwise))
  | .returning value, _ => (optional_expr_draws value).check rfl
  | .breaking, _ => .nil
  | .continuing, _ => .nil
  | .block statements, _ => (stmts_draw statements).scope
  | .expression value, _ => expr_draws value

theorem stmts_draw : ∀ stmts, Draws (stmtsOutline stmts) (stmtsScript stmts)
  | [] => .nil
  | stmt :: rest => (stmt_draws stmt).append (stmts_draw rest)

theorem optional_stmt_draws : ∀ stmt, Draws (optionalStmtOutline stmt) (optionalStmtScript stmt)
  | none => .nil
  | some stmt => stmt_draws stmt

theorem arms_draw : ∀ arms, Draws (armsOutline arms) (armsScript arms)
  | [] => .nil
  | ⟨_, value, body⟩ :: rest =>
      ((expr_draws value).append (stmts_draw body).scope).append (arms_draw rest)

theorem otherwise_draws : ∀ otherwise,
    Draws (otherwiseOutline otherwise) (otherwiseScript otherwise)
  | none => .nil
  | some ⟨_, statements⟩ => (stmts_draw statements).scope

end

/-! ### Tables -/

namespace Symbols

theorem entries_act_leave (symbols : Symbols) :
    (symbols.act .leave).entries = symbols.entries := by
  cases inner : symbols.scopes.inner with
  | nil => simp [act, leave, ScopeStack.leave, inner, Except.map]
  | cons scope outer => rw [act_leave_of_inner inner]

theorem givenTypes_markUsed (symbols : Symbols) (name : String) :
    (symbols.markUsed name).givenTypes = symbols.givenTypes := by
  apply List.ext_getElem?
  intro slot
  rw [givenTypes, givenTypes, List.getElem?_map, List.getElem?_map, entry_markUsed,
    Option.map_map]
  congr 1
  funext entry
  simp only [Function.comp_apply]
  split <;> rfl

theorem givenTypes_act {symbols : Symbols} {action : Action} {type : Ty}
    (given : type ∈ (symbols.act action).givenTypes) :
    type ∈ symbols.givenTypes ∨ action.givenType? = some type := by
  cases action with
  | enter => exact .inl given
  | mention name =>
      rw [act, givenTypes_markUsed] at given
      exact .inl given
  | leave =>
      rw [givenTypes, entries_act_leave] at given
      exact .inl given
  | declare name ty line =>
      unfold act declare at given
      dsimp only at given
      obtain ⟨entry, member, rfl⟩ := List.mem_map.mp given
      split at member
      · rcases List.mem_or_eq_of_mem_set member with old | rfl
        · exact .inl (List.mem_map_of_mem old)
        · exact .inr rfl
      · rcases List.mem_append.mp member with old | new
        · exact .inl (List.mem_map_of_mem old)
        · obtain rfl := List.mem_singleton.mp new
          exact .inr rfl

theorem givenTypes_acts {symbols : Symbols} {history : List Action} {type : Ty}
    (given : type ∈ (symbols.acts history).givenTypes) :
    type ∈ symbols.givenTypes ∨ type ∈ givenIn history := by
  induction history generalizing symbols with
  | nil => exact .inl given
  | cons action rest induction =>
      rcases induction given with before | later
      · rcases givenTypes_act before with old | own
        · exact .inl old
        · exact .inr (List.mem_filterMap.mpr ⟨action, List.mem_cons_self, own⟩)
      · obtain ⟨inside, member, own⟩ := List.mem_filterMap.mp later
        exact .inr (List.mem_filterMap.mpr ⟨inside, List.mem_cons_of_mem action member, own⟩)

end Symbols

/-! ### Sessions -/

namespace Session

/-- All types that a session knows as declared are allowed, and so are those that its errors ask
for. -/
structure Drawn (allowed : Ty → Prop) (session : Session) : Prop where
  table : ∀ type ∈ session.symbols.givenTypes, allowed type
  locals : ∀ method env, session.locals.find? method = some env →
    ∀ name type, env.find? name = some type → allowed type
  signatures : ∀ name signature, session.catalogue.find? name = some signature →
    ∀ param ∈ signature.params, allowed param.ty
  current : ∀ method, session.current = some method → allowed method.returnTy
  log : Justified allowed session.log

variable {allowed : Ty → Prop} {session : Session}

theorem drawn_start {symbols : Symbols} (options : Options)
    (given : ∀ type ∈ symbols.givenTypes, allowed type) : (start symbols options).Drawn allowed where
  table := given
  locals := by simp [start]
  signatures := by simp [start, Catalogue.find?, Catalogue.empty]
  current := by simp [start]
  log := justified_nil

theorem Drawn.resolve (drawn : session.Drawn allowed) {name : String} {type : Ty}
    (resolved : session.resolve? name = some type) : allowed type := by
  unfold resolve? at resolved
  split at resolved
  · rename_i supplied own
    obtain rfl := Option.some.inj resolved
    obtain ⟨env, here, found⟩ := Option.bind_eq_some_iff.mp own
    obtain ⟨method, -, known⟩ := Option.bind_eq_some_iff.mp here
    exact drawn.locals method.name env known name supplied found
  · obtain ⟨entry, found, rfl⟩ := Option.map_eq_some_iff.mp resolved
    obtain ⟨slot, -, stored⟩ := Option.bind_eq_some_iff.mp found
    exact drawn.table _ (List.mem_map_of_mem (List.mem_of_getElem? stored))

theorem Drawn.note (drawn : session.Drawn allowed) {messages : FindingLog}
    (justified : Justified allowed messages) : (session.note messages).Drawn allowed where
  table := drawn.table
  locals := drawn.locals
  signatures := drawn.signatures
  current := drawn.current
  log := drawn.log.append justified

/-- A check asks for what the session knows, and for the type that it brings along. -/
theorem Drawn.findings (drawn : session.Drawn allowed) (line : UInt64) (check : Check)
    (given : ∀ type, (Step.check line check).givenType? = some type → allowed type) :
    (session.note (session.context.findings line check)).Drawn allowed := by
  apply drawn.note
  apply (session.context.findings_justified line check).weaken
  intro type asks
  cases check with
  | assignment name value => exact drawn.resolve asks
  | initializer name target value => exact given type (congrArg some asks)
  | binary op lhs rhs => exact asks.elim
  | condition cond construct => exact asks.elim
  | returning value =>
      obtain ⟨method, inside, rfl⟩ := asks
      exact drawn.current method inside
  | call name args =>
      obtain ⟨signature, found, param, member, rfl⟩ := asks
      exact drawn.signatures name signature found param member

theorem Drawn.locals_bind (drawn : session.Drawn allowed) {env : LocalEnv}
    (given : ∀ name type, env.find? name = some type → allowed type) (own : String) :
    ∀ method other, (session.locals.bind own env).find? method = some other →
      ∀ name type, other.find? name = some type → allowed type := by
  intro method other found
  rw [Bindings.find?_bind] at found
  split at found
  · obtain rfl := Option.some.inj found
    exact given
  · exact drawn.locals method other found

theorem Drawn.act (drawn : session.Drawn allowed) {action : Action}
    (given : ∀ type, action.givenType? = some type → allowed type) :
    (session.act action).Drawn allowed := by
  have table : ∀ type ∈ (session.symbols.act action).givenTypes, allowed type := by
    intro type member
    rcases Symbols.givenTypes_act member with old | own
    · exact drawn.table type old
    · exact given type own
  cases action with
  | enter | mention => exact ⟨table, drawn.locals, drawn.signatures, drawn.current, drawn.log⟩
  | leave =>
      rw [act_leave_eq]
      exact ⟨table, drawn.locals, drawn.signatures, drawn.current, drawn.log⟩
  | declare name ty line =>
      cases current : session.current with
      | none =>
          simp only [Session.act, declareLocal, current]
          exact ⟨table, drawn.locals, drawn.signatures, drawn.current, drawn.log⟩
      | some method =>
          cases found : session.locals.find? method.name with
          | none =>
              simp only [Session.act, declareLocal, current, found]
              exact drawn
          | some env =>
              rw [act_declare_eq current found]
              refine ⟨table, drawn.locals_bind ?_ method.name, drawn.signatures, drawn.current,
                drawn.log⟩
              intro sought type known
              rw [Bindings.find?_bind] at known
              split at known
              · obtain rfl := Option.some.inj known
                exact given _ rfl
              · exact drawn.locals method.name env found sought type known

theorem Drawn.perform (drawn : session.Drawn allowed) {step : Step}
    (given : ∀ type, step.givenType? = some type → allowed type) :
    (session.perform step).Drawn allowed := by
  cases step with
  | visit | done =>
      exact ⟨drawn.table, drawn.locals, drawn.signatures, drawn.current, drawn.log⟩
  | refuse => exact drawn.note (justified_warning _ _)
  | act action => exact drawn.act given
  | check line check => exact drawn.findings line check given

theorem Drawn.walk (drawn : session.Drawn allowed) {script : List Step}
    (given : ∀ type ∈ script.filterMap Step.givenType?, allowed type) :
    (session.run script).Drawn allowed := by
  induction script generalizing session with
  | nil => exact drawn
  | cons step rest induction =>
      rw [run_cons]
      refine induction (drawn.perform fun type own => given type ?_) fun type member =>
        given type ?_
      · exact List.mem_filterMap.mpr ⟨step, List.mem_cons_self, own⟩
      · obtain ⟨inside, later, own⟩ := List.mem_filterMap.mp member
        exact List.mem_filterMap.mpr ⟨inside, List.mem_cons_of_mem step later, own⟩

/-! ### Methods and programs -/

theorem Drawn.registerMethod (drawn : session.Drawn allowed) (name returnTy : String)
    {params : List ParameterType} (given : ∀ type ∈ params.map ParameterType.ty, allowed type)
    (line : UInt64) : (session.registerMethod name returnTy params line).Drawn allowed := by
  unfold Session.registerMethod Catalogue.add
  cases session.catalogue.find? name with
  | some first => exact drawn.note (justified_error (by simp) (by simp))
  | none =>
      refine ⟨drawn.table, drawn.locals, ?_, drawn.current, drawn.log⟩
      intro sought signature found
      rw [Catalogue.find?, Bindings.find?_bind] at found
      split at found
      · obtain rfl := Option.some.inj found
        exact fun param member => given param.ty (List.mem_map_of_mem member)
      · exact drawn.signatures sought signature found

theorem Drawn.register (drawn : session.Drawn allowed) {method : Located Method}
    (given : ∀ type ∈ method.data.givenTypes, allowed type) :
    (session.register method).Drawn allowed := by
  apply drawn.registerMethod
  intro type member
  rw [← Method.givenIn_parameters] at member
  exact given type (method.data.given_parameter member)

theorem Drawn.inMethod (drawn : session.Drawn allowed) {method : Located Method}
    (given : ∀ type ∈ method.data.givenTypes, allowed type) :
    (session.inMethod method).Drawn allowed := by
  have params : ∀ type ∈ givenIn (parametersOutline method.data.params), allowed type :=
    fun type member => given type (method.data.given_parameter member)
  have announced : (session.announce method).Drawn allowed := by
    unfold announce
    split
    · exact drawn
    · exact drawn.register given
  refine ⟨?_, ?_, announced.signatures, ?_, announced.log⟩
  -- The table has gained the parameters, and the locals are the parameters alone.
  · intro type member
    rcases Symbols.givenTypes_acts member with old | own
    · exact drawn.table type old
    · exact params type own
  · refine drawn.locals_bind ?_ method.data.name
    intro name type found
    rw [parameter_env_find] at found
    obtain ⟨front, ty, line, rest, split, -, rfl⟩ := overlay_supplied found
    refine params _ (List.mem_filterMap.mpr ⟨.declare name ty line, ?_, rfl⟩)
    rw [split]
    exact List.mem_append_right front List.mem_cons_self
  · intro context inside
    obtain rfl := Option.some.inj inside
    exact given _ List.mem_cons_self

theorem Drawn.visitMethod (drawn : session.Drawn allowed) {method : Located Method}
    (given : ∀ type ∈ method.data.givenTypes, allowed type) :
    (session.visitMethod method).Drawn allowed := by
  cases fits : session.room with
  | zero =>
      rw [visitMethod_refused fits]
      exact drawn.note (justified_warning _ _)
  | succ room =>
      have walked : ((session.inMethod method).run (method.data.script room)).Drawn allowed :=
        (drawn.inMethod given).walk fun type member => given type
          (method.data.given_body (stmts_draw method.data.body room type member))
      rw [visitMethod_run fits]
      refine ⟨?_, walked.locals, walked.signatures, ?_, walked.log⟩
      · rw [outOfMethod, Symbols.givenTypes, Symbols.entries_act_leave]
        exact walked.table
      · intro context inside
        cases inside

theorem Drawn.analyse (drawn : session.Drawn allowed) {program : Program}
    (given : ∀ type ∈ program.givenTypes, allowed type) :
    (session.analyse program).Drawn allowed := by
  have each : ∀ method ∈ program.methods, ∀ type ∈ method.data.givenTypes, allowed type :=
    fun method member type own => given type (List.mem_flatMap.mpr ⟨method, member, own⟩)
  have prepared : (session.prepare program).Drawn allowed := by
    unfold prepare
    split
    · exact List.foldlRecOn _ _ drawn fun session drawn method member =>
        drawn.register (each method member)
    · exact drawn
  rw [analyse_eq]
  exact List.foldlRecOn _ _ prepared fun session drawn method member =>
    drawn.visitMethod (each method member)

/-! ### Sequences of calls -/

theorem Drawn.enter (drawn : session.Drawn allowed) (name : String) {returnTy : String}
    (given : allowed (.ofName returnTy)) : (session.enterMethod name returnTy).Drawn allowed where
  table := drawn.table
  locals := drawn.locals
  signatures := drawn.signatures
  current := by
    intro method inside
    obtain rfl := Option.some.inj inside
    exact given
  log := drawn.log

theorem Drawn.exit (drawn : session.Drawn allowed) : session.exitMethod.Drawn allowed where
  table := drawn.table
  locals := drawn.locals
  signatures := drawn.signatures
  current := by simp [exitMethod]
  log := drawn.log

mutual

theorem Drawn.run {session : Session} (drawn : session.Drawn allowed) :
    ∀ call : Call, (∀ type ∈ call.givenTypes, allowed type) → (call.run session).Drawn allowed
  | .assignment name value line, _ => drawn.findings line (.assignment name value) (by simp [Step.givenType?])
  | .binary op lhs rhs line, _ => drawn.findings line (.binary op lhs rhs) (by simp [Step.givenType?])
  | .condition cond construct line, _ => drawn.findings line (.condition cond construct) (by simp [Step.givenType?])
  | .returning value line, _ => drawn.findings line (.returning value) (by simp [Step.givenType?])
  | .call name args line, _ => drawn.findings line (.call name args) (by simp [Step.givenType?])
  | .register name returnTy params line, given => drawn.registerMethod name returnTy given line
  | .enter name returnTy, given => drawn.enter name (given _ List.mem_cons_self)
  | .exit, _ => drawn.exit
  | .within name returnTy calls, given => by
      obtain ⟨own, inside⟩ := List.forall_mem_cons.mp given
      exact ((drawn.enter name own).runs calls inside).exit
  | .analyse program, given => drawn.analyse given

theorem Drawn.runs {session : Session} (drawn : session.Drawn allowed) :
    ∀ calls : List Call, (∀ type ∈ givenByCalls calls, allowed type) →
      (runCalls calls session).Drawn allowed
  | [], _ => drawn
  | call :: rest, given => by
      obtain ⟨own, later⟩ := List.forall_mem_append.mp given
      exact (drawn.run call own).runs rest later

end

end Session

/-! ### The unknown type in a log -/

/-- Refusals and redeclarations show no types. -/
theorem carries_checked {type : Ty} {log : FindingLog} :
    Carries type (log.filter Message.checked) ↔ Carries type log := by
  constructor
  · rintro ⟨line, cause, member, shown⟩
    exact ⟨line, cause, List.mem_of_mem_filter member, shown⟩
  · rintro ⟨line, cause, member, shown⟩
    refine ⟨line, cause, List.mem_filter.mpr ⟨member, ?_⟩, shown⟩
    cases cause with
    | duplicateMethod name firstLine => simp [Violation.types] at shown
    | _ => rfl

theorem carries_findings {type : Ty} {checks : List Checked} :
    Carries type (checks.flatMap Checked.findings) ↔
      ∃ checked ∈ checks, Carries type checked.findings := by
  induction checks with
  | nil => simp
  | cons checked rest induction =>
      rw [List.flatMap_cons, carries_append, induction, List.exists_mem_cons_iff]

/-- An error shows the unknown type if and only if some check holds something known against a
declaration of that type. No error shows an expression of unknown type, and the types that errors
ask for are among those that the table and the calls have given. -/
theorem unknown_carried_iff_met (symbols : Symbols) (options : Options) (calls : List Call) :
    (Carries .unknown (runCalls calls (.start symbols options)).log ↔
      ∃ checked ∈ checksIn calls (.start symbols options),
        checked.context.MeetsUnknown checked.check) ∧
    ∀ line cause, .error line cause ∈ (runCalls calls (.start symbols options)).log →
      .unknown ∉ cause.found ∧
        ∀ type ∈ cause.asked, type ∈ symbols.givenTypes ++ givenByCalls calls := by
  have made := Session.makes_calls calls (.start symbols options)
  have started : (Session.start symbols options).Drawn
      (· ∈ symbols.givenTypes ++ givenByCalls calls) :=
    Session.drawn_start options fun _ member => List.mem_append_left _ member
  constructor
  · rw [← carries_checked, made, Session.start, List.filter_nil, List.nil_append,
      carries_findings]
    exact exists_congr fun checked => and_congr_right fun _ =>
      checked.context.carries_unknown_iff checked.line checked.check
  · exact (started.runs calls fun _ member => List.mem_append_right _ member).log

/-- Its one variable has a type of the name that stands for the unknown type. -/
def vague : Program :=
  ⟨[.place 1 1 ⟨"Main", "", [.place 2 5 (.method
    { returnTy := "void", name := "run", params := [],
      body := [.place 3 9 (.declare "unknown" "x" false
        (some (.place 3 21 (.literal "int" "1"))))] })]⟩]⟩

theorem vague_initializer_rejected :
    ∃ line cause, .error line cause ∈ (runCalls [.analyse vague] (.start .empty {})).log ∧
      .unknown ∈ cause.types :=
  ⟨some 3, .initializerMismatch "x" (.primitive .int) .unknown, by decide, by decide⟩

theorem vague_type_met :
    (∃ checked ∈ checksIn [.analyse vague] (.start .empty {}),
      checked.context.MeetsUnknown checked.check) ∧
      .unknown ∈ Symbols.empty.givenTypes ++ givenByCalls [.analyse vague] := by
  have rejected : .error (some 3) (.initializerMismatch "x" (.primitive .int) .unknown) ∈
      (runCalls [.analyse vague] (.start .empty {})).log := by decide
  obtain ⟨met, given⟩ := unknown_carried_iff_met .empty {} [.analyse vague]
  obtain ⟨-, asked⟩ := given _ _ rejected
  exact ⟨met.mp ⟨_, _, rejected, by decide⟩, asked .unknown List.mem_cons_self⟩

end Sema
