import Sema.Proofs.Walk.Program

/-!
# What the visit of a method leaves

Between two methods a session stands where it stood at the start, so all that a visit can pass on is
what it leaves in the table, in the locals, in the catalogue and in the log. Each of these is given
here as a function of the method, of the nesting limit, and of the types and signatures that the
visit finds. A method for which there is no room leaves a refusal and nothing else.
-/

namespace Sema

/-- What an action adds to the locals of the method in which it is done. -/
def Action.bindIn (env : LocalEnv) : Action → LocalEnv
  | .declare name ty _ => env.bind name (.ofName ty)
  | .enter | .leave | .mention _ => env

namespace Method

/-- What a visit does to the table, given the room that the limit leaves. -/
def history (method : Method) : Nat → List Action
  | 0 => []
  | room + 1 => scopeAround (parametersOutline method.params ++ actions (method.script room))

/-- The locals that a visit leaves under the name of the method. -/
def locals (method : Method) : Nat → Option LocalEnv
  | 0 => none
  | room + 1 => some ((actions (method.script room)).foldl Action.bindIn method.parameterEnv)

/-- The messages of the body, given the types and signatures that it sees. -/
def messages (method : Method) (types : Typing) (limit : Nat)
    (signature? : String → Option Signature) : FindingLog :=
  (method.remarks types limit).flatMap (Remark.findings limit signature?)

/-- Without room there is a refusal, and no call that would look for a signature. -/
theorem messages_no_room (method : Method) (types : Typing)
    (first second : String → Option Signature) :
    method.messages types 0 first = method.messages types 0 second := rfl

theorem lawful_history (method : Method) (room : Nat) : Lawful (method.history room) := by
  cases room with
  | zero => exact lawful_nil
  | succ room => exact Session.lawful_inMethod method room

theorem level_history (method : Method) (room : Nat) : height (method.history room) = 0 := by
  cases room with
  | zero => rfl
  | succ room =>
      have body := (stmts_render method.body).bracketed room
      exact ((parameters_closed method.params).append body.closed).scope.level

end Method

/-- What a method is reported for before its body, with the signatures of some methods known. -/
def announcement (options : Options) (known : List (Located Method)) (method : Located Method) :
    FindingLog :=
  if options.maxNestingDepth = 0 ∨ options.resolveForwardCalls then []
  else redeclaration known method

/-- The locals that the visits of methods leave under a name: the last method of the name counts. -/
def lastLocals (room : Nat) : List (Located Method) → String → Option LocalEnv
  | [], _ => none
  | method :: rest, name =>
      (lastLocals room rest name).or
        (if method.data.name = name then method.data.locals room else none)

namespace Session

/-- The session in which the messages of a body begin. A method is announced only if there is room
for it. -/
def met (session : Session) (method : Located Method) : Session :=
  if session.room = 0 then session else session.announce method

/-- The session after the visits of the given methods, which are the first ones of the program. -/
def upTo (session : Session) (program : Program) (front : List (Located Method)) : Session :=
  front.foldl visitMethod (session.prepare program)

/-- The messages that the visit of a method adds to the log, after the visits of those before. -/
def Records (session : Session) (program : Program) (front : List (Located Method))
    (method : Located Method) (messages : FindingLog) : Prop :=
  (session.upTo program (front ++ [method])).log = (session.upTo program front).log ++ messages

theorem upTo_concat (session : Session) (program : Program) (front : List (Located Method))
    (method : Located Method) :
    session.upTo program (front ++ [method]) = (session.upTo program front).visitMethod method := by
  simp [upTo]

/-! ### Locals -/

section Locals

variable {base : Symbols} {method : MethodContext} {history : List Action} {session : Session}
  {env : LocalEnv}

/-- Inside a method no step changes the locals of another. -/
theorem Inside.locals_perform (inside : session.Inside base method history)
    (found : session.locals.find? method.name = some env) (step : Step) (name : String) :
    (session.perform step).locals.find? name =
      if method.name = name then some ((actions [step]).foldl Action.bindIn env)
      else session.locals.find? name := by
  have kept : session.locals.find? name =
      if method.name = name then some env else session.locals.find? name := by
    split
    · rename_i same
      rw [← same, found]
    · rfl
  cases step with
  | visit | done | refuse | check => exact kept
  | act action =>
      cases action with
      | enter | mention => exact kept
      | leave =>
          rw [Session.perform, act_leave_eq]
          exact kept
      | declare declared ty line =>
          rw [Session.perform, act_declare_eq inside.current found]
          exact Bindings.find?_bind session.locals method.name name _

theorem Inside.locals_run (inside : session.Inside base method history)
    (found : session.locals.find? method.name = some env) (script : List Step) (name : String) :
    (session.run script).locals.find? name =
      if method.name = name then some ((actions script).foldl Action.bindIn env)
      else session.locals.find? name := by
  induction script generalizing session history env with
  | nil =>
      split
      · rename_i same
        rw [← same]
        exact found
      · rfl
  | cons step rest induction =>
      have own := inside.locals_perform found step method.name
      rw [if_pos rfl] at own
      have split : actions (step :: rest) = actions [step] ++ actions rest :=
        actions_append [step] rest
      rw [run_cons, induction (inside.perform step) own, inside.locals_perform found, split,
        List.foldl_append]
      by_cases same : method.name = name <;> simp [same]

end Locals

theorem locals_visitMethod (session : Session) (method : Located Method) (name : String) :
    (session.visitMethod method).locals.find? name =
      (if method.data.name = name then method.data.locals session.room else none).or
        (session.locals.find? name) := by
  cases fits : session.room with
  | zero =>
      rw [visitMethod_refused fits]
      by_cases same : method.data.name = name <;> simp [same, Method.locals, note]
  | succ room =>
      have bound : (session.inMethod method).locals =
          session.locals.bind method.data.name method.data.parameterEnv := rfl
      have found : (session.inMethod method).locals.find? method.data.context.name =
          some method.data.parameterEnv := by
        rw [bound, Bindings.find?_bind]
        exact if_pos rfl
      have body := (inside_inMethod session method).locals_run found (method.data.script room) name
      rw [visitMethod_run fits]
      refine body.trans ?_
      rw [bound, Bindings.find?_bind, Method.context]
      by_cases same : method.data.name = name <;> simp [same, Method.locals]

/-! ### Table, catalogue and log -/

theorem symbols_history (session : Session) (method : Located Method) :
    (session.visitMethod method).symbols =
      session.symbols.acts (method.data.history session.room) := by
  cases fits : session.room with
  | zero =>
      rw [visitMethod_refused fits]
      rfl
  | succ room => exact symbols_visitMethod fits method

theorem catalogue_met (session : Session) (method : Located Method) :
    (session.visitMethod method).catalogue = (session.met method).catalogue := by
  unfold met
  split
  · rename_i full
    rw [visitMethod_refused full]
    rfl
  · rename_i allowed
    obtain ⟨room, fits⟩ := Nat.exists_eq_succ_of_ne_zero allowed
    obtain ⟨-, -, catalogue⟩ := kept_visitMethod fits method
    exact catalogue

section Between

variable {base : Symbols} {options : Options} {session : Session}

theorem Between.log_met (between : session.Between base options) (stored : base.InStore)
    (method : Located Method) :
    (session.visitMethod method).log = (session.met method).log ++
      method.data.messages base.typeOf? options.maxNestingDepth
        (session.met method).catalogue.find? := by
  have room := between.room
  unfold met
  split
  · rename_i full
    rw [visitMethod_refused full, between.options, ← room, full]
    rfl
  · rename_i allowed
    exact between.log_visit stored (by omega) method

theorem Between.symbols_visited (between : session.Between base options)
    (methods : List (Located Method)) :
    (methods.foldl visitMethod session).symbols = session.symbols.acts
      (methods.flatMap fun method => method.data.history options.maxNestingDepth) := by
  induction methods generalizing session with
  | nil => rfl
  | cons method rest induction =>
      rw [List.foldl_cons, induction (between.visit method), symbols_history, between.room,
        List.flatMap_cons, Symbols.acts_append]

theorem Between.locals_visited (between : session.Between base options)
    (methods : List (Located Method)) (name : String) :
    (methods.foldl visitMethod session).locals.find? name =
      (lastLocals options.maxNestingDepth methods name).or (session.locals.find? name) := by
  induction methods generalizing session with
  | nil => rfl
  | cons method rest induction =>
      rw [List.foldl_cons, induction (between.visit method), locals_visitMethod, between.room,
        lastLocals, Option.or_assoc]

/-! ### Visits with all signatures known -/

section Known

variable {known : List (Located Method)} {method : Located Method}

/-- A method that is known already is registered in vain. -/
theorem register_known (signatures : session.catalogue.find? = declaredIn known)
    (member : method ∈ known) :
    session.register method = session.note (redeclaration known method) := by
  obtain ⟨first, own⟩ : ∃ first, session.catalogue.find? method.data.name = some first := by
    rw [signatures, ← Option.ne_none_iff_exists', Ne, declaredIn_eq_none, not_not]
    exact List.mem_map_of_mem member
  have kept : session.catalogue.enrol method = session.catalogue := by
    rw [Catalogue.enrol, Catalogue.add_known own]
  rw [register_eq signatures, kept]
  rfl

theorem Between.met_known (between : session.Between base options)
    (signatures : 0 < options.maxNestingDepth → session.catalogue.find? = declaredIn known)
    (member : method ∈ known) :
    session.met method = session.note (announcement options known method) := by
  have silent : session = session.note [] := by simp [note]
  unfold met announce announcement
  rw [between.room, between.options]
  by_cases full : options.maxNestingDepth = 0
  · rw [if_pos full, if_pos (.inl full)]
    exact silent
  · rw [if_neg full]
    by_cases ahead : options.resolveForwardCalls = true
    · rw [if_pos ahead, if_pos (.inr ahead)]
      exact silent
    · rw [if_neg ahead, if_neg (by simp [full, ahead])]
      exact register_known (signatures (Nat.pos_of_ne_zero full)) member

/-- If the signatures of all methods are known, each visit adds messages that do not depend on the
visits before it, and the catalogue stays. -/
theorem Between.visits_known (between : session.Between base options) (stored : base.InStore)
    (signatures : 0 < options.maxNestingDepth → session.catalogue.find? = declaredIn known)
    {methods : List (Located Method)} (within : ∀ method ∈ methods, method ∈ known) :
    (methods.foldl visitMethod session).catalogue = session.catalogue ∧
      (methods.foldl visitMethod session).log = session.log ++ methods.flatMap fun method =>
        announcement options known method ++
          method.data.messages base.typeOf? options.maxNestingDepth (declaredIn known) := by
  induction methods generalizing session with
  | nil => exact ⟨rfl, (List.append_nil _).symm⟩
  | cons method rest induction =>
      have met := between.met_known signatures (within method List.mem_cons_self)
      have catalogue := catalogue_met session method
      have log := between.log_met stored method
      have messages : method.data.messages base.typeOf? options.maxNestingDepth
          session.catalogue.find? =
            method.data.messages base.typeOf? options.maxNestingDepth (declaredIn known) := by
        rcases Nat.eq_zero_or_pos options.maxNestingDepth with none | positive
        · rw [none]
          exact method.data.messages_no_room _ _ _
        · rw [signatures positive]
      rw [met] at catalogue log
      obtain ⟨laterCatalogue, laterLog⟩ := induction (between.visit method)
        (by rw [catalogue]; exact signatures)
        fun other member => within other (List.mem_cons_of_mem _ member)
      rw [List.foldl_cons, laterCatalogue, laterLog, catalogue, log, List.flatMap_cons,
        ← messages]
      exact ⟨rfl, by simp [note]⟩

end Known

end Between

/-! ### Analyses -/

section Analyses

variable {base : Symbols} {options : Options} {session : Session}

theorem Between.locals_analyse (between : session.Between base options) (program : Program)
    (name : String) :
    (session.analyse program).locals.find? name =
      (lastLocals options.maxNestingDepth program.methods name).or
        (session.locals.find? name) := by
  rw [analyse_eq, (between.prepare program).locals_visited, (alike_prepare session program).locals]

theorem Between.symbols_analyse (between : session.Between base options) (program : Program) :
    (session.analyse program).symbols = session.symbols.acts (program.methods.flatMap
      fun method => method.data.history options.maxNestingDepth) := by
  rw [analyse_eq, (between.prepare program).symbols_visited,
    (alike_prepare session program).symbols]

theorem signatures_prepared (ahead : options.resolveForwardCalls = true) (base : Symbols)
    (program : Program) :
    ((start base options).prepare program).catalogue.find? = declaredIn program.methods := by
  funext name
  rw [prepare_ahead ahead, Catalogue.find_enrolled]
  rfl

/-- With a first pass the redeclarations come before all other messages, and every body sees all
methods. -/
theorem log_ahead (ahead : options.resolveForwardCalls = true) (stored : base.InStore)
    (program : Program) :
    ((start base options).analyse program).catalogue =
        program.methods.foldl Catalogue.enrol .empty ∧
      ((start base options).analyse program).log =
        program.placed.flatMap Placed.redeclaration ++ program.placed.flatMap fun place =>
          place.messages base.typeOf? options.maxNestingDepth (declaredIn program.methods) := by
  obtain ⟨catalogue, log⟩ := (between_prepare base options program).visits_known stored
    (fun _ => signatures_prepared ahead base program) fun _ member => member
  have unannounced : ∀ method, announcement options program.methods method = [] := by
    simp [announcement, ahead]
  have messages := flatMap_placed [] program.methods fun method =>
    method.data.messages base.typeOf? options.maxNestingDepth (declaredIn program.methods)
  simp only [unannounced, List.nil_append, ← messages] at log
  rw [analyse_eq, catalogue, log, prepare_ahead ahead]
  exact ⟨rfl, rfl⟩

/-- With a first pass, or with room for bodies, all signatures are known in the end. -/
theorem signatures_analyse (stored : base.InStore)
    (registers : options.resolveForwardCalls = true ∨ 0 < options.maxNestingDepth)
    (program : Program) :
    ((start base options).analyse program).catalogue.find? = declaredIn program.methods := by
  funext name
  cases mode : options.resolveForwardCalls with
  | true =>
      rw [(log_ahead mode stored program).1, Catalogue.find_enrolled]
      rfl
  | false =>
      have positive : 0 < options.maxNestingDepth := by simpa [mode] using registers
      rw [(log_single mode positive stored program).1, Catalogue.find_enrolled]
      rfl

end Analyses

end Session

end Sema
