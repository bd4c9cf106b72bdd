import Sema.Proofs.Symbols.Lookup
import Sema.Proofs.Walk.Run

/-!
# Moments inside a method

`Inside` says what a session is at a moment of a method's body: its table is what the actions so far
have made of the table before the method, and the locals of the method are the last declarations
among them. So the type of a variable is an overlay of the types before the method, a function of
the syntax and of those types.
-/

namespace Sema

namespace Method

/-- The method as the returns in its body see it. -/
def context (method : Method) : MethodContext := ⟨method.name, .ofName method.returnTy⟩

/-- The script of the body, which stands one level below the method. -/
def script (method : Method) (room : Nat) : List Step := stmtsScript method.body room

end Method

namespace Session

/-- Without the first pass a method is registered when it is visited. -/
def announce (session : Session) (method : Located Method) : Session :=
  if session.options.resolveForwardCalls then session else session.register method

/-- The session in which the body of a method is walked. -/
def inMethod (session : Session) (method : Located Method) : Session :=
  { session.announce method with
    symbols := session.symbols.acts (.enter :: parametersOutline method.data.params)
    locals := session.locals.bind method.data.name method.data.parameterEnv
    current := some method.data.context
    depth := session.depth + 1 }

/-- The session after the body of a method. -/
def outOfMethod (session : Session) : Session :=
  { session with
    symbols := session.symbols.act .leave
    current := none
    depth := session.depth - 1 }

/-- A moment in the body of a method, after the given actions in its scope. -/
structure Inside (base : Symbols) (method : MethodContext) (history : List Action)
    (session : Session) : Prop where
  current : session.current = some method
  symbols : session.symbols = base.acts (.enter :: history)
  env : ∃ env, session.locals.find? method.name = some env ∧
    ∀ name, env.find? name = overlay (fun _ => none) history name

variable {base : Symbols} {method : MethodContext} {history : List Action} {session : Session}

theorem Inside.grounded (inside : session.Inside base method history) : session.Grounded := by
  intro other same
  obtain rfl : method = other := Option.some.inj (inside.current.symm.trans same)
  obtain ⟨env, found, -⟩ := inside.env
  exact ⟨env, found⟩

/-! ### Steps -/

theorem act_leave_eq (session : Session) :
    session.act .leave = { session with symbols := session.symbols.act .leave } := by
  cases left : session.symbols.leave <;> simp [act, leaveScope, Symbols.act, left]

theorem act_declare_eq {env : LocalEnv} (current : session.current = some method)
    (found : session.locals.find? method.name = some env) (name ty : String) (line : UInt64) :
    session.act (.declare name ty line) =
      { session with
        symbols := session.symbols.act (.declare name ty line)
        locals := session.locals.bind method.name (env.bind name (.ofName ty)) } := by
  simp only [act, declareLocal, current, found]
  rfl

theorem Inside.act (inside : session.Inside base method history) (action : Action) :
    (session.act action).Inside base method (history ++ [action]) := by
  have symbols : base.acts (.enter :: (history ++ [action])) = session.symbols.act action := by
    rw [inside.symbols, ← List.cons_append, Symbols.acts_concat]
  obtain ⟨env, found, known⟩ := inside.env
  have kept : ∀ types, overlay types (history ++ [action]) =
      action.declareIn (overlay types history) := fun types => overlay_concat types history action
  cases action with
  | enter => exact ⟨inside.current, symbols.symm, env, found, by rw [kept]; exact known⟩
  | mention name => exact ⟨inside.current, symbols.symm, env, found, by rw [kept]; exact known⟩
  | leave =>
      rw [act_leave_eq]
      exact ⟨inside.current, symbols.symm, env, found, by rw [kept]; exact known⟩
  | declare name ty line =>
      rw [act_declare_eq inside.current found]
      refine ⟨inside.current, symbols.symm, env.bind name (.ofName ty), ?_, ?_⟩
      · simp [Bindings.find?_bind]
      · intro sought
        rw [Bindings.find?_bind, known, kept]
        rfl

theorem Inside.perform (inside : session.Inside base method history) (step : Step) :
    (session.perform step).Inside base method (history ++ actions [step]) := by
  cases step with
  | act action => exact inside.act action
  | visit | done | refuse | check =>
      refine ⟨inside.current, ?_, ?_⟩
      · simpa [Session.perform, note] using inside.symbols
      · simpa [Session.perform, note] using inside.env

theorem Inside.run (inside : session.Inside base method history) (script : List Step) :
    (session.run script).Inside base method (history ++ actions script) := by
  induction script generalizing session history with
  | nil => simpa using inside
  | cons step rest induction =>
      have later := induction (inside.perform step)
      rwa [List.append_assoc, ← actions_append] at later

/-- The type of a variable inside a method. -/
theorem Inside.resolve (inside : session.Inside base method history) (stored : base.InStore)
    (lawful : Lawful (.enter :: history)) :
    session.resolve? = overlay base.typeOf? history := by
  funext name
  obtain ⟨env, found, known⟩ := inside.env
  have here : session.currentLocals = some env := by
    simp [currentLocals, inside.current, found]
  rw [overlay_apply, ← known, resolve?, here]
  cases declared : env.find? name with
  | some ty => simp [declared]
  | none =>
      rw [known, overlay_eq_none] at declared
      obtain ⟨opened, built⟩ := Symbols.acts_built base lawful
      have undeclared : ¬ Declares (.enter :: history) name := by
        rintro ⟨ty, line, member⟩
        exact declared ⟨ty, line, by simpa using member⟩
      have outside := built.typeOf_undeclared stored undeclared
      rw [← inside.symbols] at outside
      rw [← overlay_eq_none, ← known] at declared
      simpa [declared, Symbols.typeOf?] using outside

/-! ### Entering a method -/

theorem parameter_env_find (method : Method) (name : String) :
    method.parameterEnv.find? name =
      overlay (fun _ => none) (parametersOutline method.params) name := by
  have bound : ∀ (params : List (Located Parameter)) (env : LocalEnv) (types : Typing),
      (∀ name, env.find? name = types name) →
        ((params.map fun param => (param.data.name, Ty.ofName param.data.ty)).foldl
          (fun env (pair : String × Ty) => env.bind pair.1 pair.2) env).find? name =
            overlay types (parametersOutline params) name := by
    intro params
    induction params with
    | nil => exact fun env types known => known name
    | cons param rest induction =>
        intro env types known
        refine induction _ _ fun sought => ?_
        rw [Bindings.find?_bind, known]
        rfl
  have start := bound method.params .empty (fun _ => none) (fun _ => rfl)
  simpa [Method.parameterEnv, Method.parameterTypes, Bindings.ofList, Function.comp_def,
    ParameterType.ofParameter] using start

theorem inside_inMethod (session : Session) (method : Located Method) :
    (session.inMethod method).Inside session.symbols method.data.context
      (parametersOutline method.data.params) where
  current := rfl
  symbols := rfl
  env := by
    refine ⟨method.data.parameterEnv, ?_, parameter_env_find method.data⟩
    simp [inMethod, Method.context, Bindings.find?_bind]

theorem options_register (session : Session) (method : Located Method) :
    (session.register method).options = session.options := by
  unfold register registerMethod
  split <;> rfl

theorem options_announce (session : Session) (method : Located Method) :
    (session.announce method).options = session.options := by
  unfold announce
  split
  · rfl
  · exact options_register session method

/-- The first pass, where there is one. -/
def prepare (session : Session) (program : Program) : Session :=
  if session.options.resolveForwardCalls then program.methods.foldl register session else session

theorem options_register_all (methods : List (Located Method)) (session : Session) :
    (methods.foldl register session).options = session.options := by
  induction methods generalizing session with
  | nil => rfl
  | cons method rest induction => rw [List.foldl_cons, induction, options_register]

theorem options_prepare (session : Session) (program : Program) :
    (session.prepare program).options = session.options := by
  unfold prepare
  split
  · exact options_register_all program.methods session
  · rfl

theorem analyse_eq (session : Session) (program : Program) :
    session.analyse program = program.methods.foldl visitMethod (session.prepare program) := rfl

/-! ### The visit of a method -/

theorem declareParameters_eq (params : List (Located Parameter)) (session : Session) :
    session.declareParameters params =
      { session with symbols := session.symbols.acts (parametersOutline params) } := by
  induction params generalizing session with
  | nil => rfl
  | cons param rest induction => exact induction _

/-- What a registration does not look at may change before it as well as after. -/
theorem register_with (session : Session) (method : Located Method)
    (locals : Bindings String LocalEnv) (depth : Nat) :
    { session with locals, depth }.register method =
      { session.register method with locals, depth } := by
  unfold register registerMethod
  simp only
  split <;> rfl

theorem registered_symbols (session : Session) (method : Located Method) :
    (session.register method).symbols = session.symbols := by
  unfold register registerMethod
  split <;> rfl

/-- The body is walked in the session that the preparations of a method make. -/
theorem analyseMethod_eq (session : Session) (method : Located Method) :
    analyseMethod method { session with depth := session.depth + 1 } =
      let body := visitStmts method.data.body (session.inMethod method)
      (body.leaveScope.1, body.leaveScope.2.exitMethod) := by
  simp only [analyseMethod, withMethod, declareParameters_eq, inMethod, announce]
  split
  · rfl
  · have prepared := register_with session method
      (session.locals.bind method.data.name method.data.parameterEnv) (session.depth + 1)
    simp only [prepared, enterScope, enterMethod, registered_symbols]
    rfl

theorem room_inMethod {session : Session} {method : Located Method} {room : Nat}
    (fits : session.room = room + 1) : (session.inMethod method).room = room := by
  have kept := options_announce session method
  simp only [Session.room, inMethod, kept] at fits ⊢
  omega

theorem visitMethod_refused {session : Session} (full : session.room = 0)
    (method : Located Method) :
    session.visitMethod method = session.note (refusal session.options.maxNestingDepth) := by
  have refused : session.options.maxNestingDepth < session.depth + 1 := by
    rw [Session.room] at full
    omega
  unfold visitMethod visit
  simp only [if_pos refused]
  rfl

theorem scope_depth_inMethod (session : Session) (method : Located Method) :
    0 < (session.inMethod method).symbols.scopeDepth := by
  have lawful : Lawful (.enter :: parametersOutline method.data.params) :=
    (parameters_closed method.data.params).lawful_scope.front
  obtain ⟨opened, built⟩ := Symbols.acts_built session.symbols lawful
  have level := built.level
  rw [height_cons, (parameters_closed method.data.params).level, Action.rise] at level
  have depth : (session.inMethod method).symbols.scopeDepth = _ := built.toOver.scope_depth
  omega

/-- A visit of a method runs the script of the body. -/
theorem visitMethod_run {session : Session} {room : Nat} (fits : session.room = room + 1)
    (method : Located Method) :
    session.visitMethod method =
      ((session.inMethod method).run (method.data.script room)).outOfMethod := by
  have walks := visit_stmts_walks method.data.body
  have grounded := (inside_inMethod session method).grounded
  have body : visitStmts method.data.body (session.inMethod method) =
      (session.inMethod method).run (method.data.script room) := by
    rw [walks.runs _ grounded, room_inMethod fits]
    rfl
  have scopes : ((session.inMethod method).run (method.data.script room)).symbols.scopeDepth =
      (session.inMethod method).symbols.scopeDepth :=
    ((walks.bracketed room).steady (session.inMethod method)).scopes
  have inside := scope_depth_inMethod session method
  rw [← scopes] at inside
  have left := leaveScope_of_open inside
  have allowed : ¬ session.options.maxNestingDepth < session.depth + 1 := by
    rw [Session.room] at fits
    omega
  unfold visitMethod visit
  simp only [if_neg allowed, analyseMethod_eq, body, left, act_leave_eq]
  rfl

end Session

end Sema
