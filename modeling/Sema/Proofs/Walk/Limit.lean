import Sema.Proofs.Walk.Alike
import Sema.Proofs.Walk.Depth
import Sema.Proofs.Walk.Findings
import Sema.Proofs.Walk.Program

/-!
# The nesting limit

A walk gives up at the nodes that stand just below the limit, once for each of them, and at nothing
else: no check gives up, and the parts of a node are visited whatever is found at the node. A limit
that all nodes keep is not looked at, so analyses under two such limits are the same.
-/

namespace Sema

namespace Session

/-! ### Messages of a walk -/

/-- The log grows by as many refusals as given; nothing else that is added tells of a node that was
not analysed or of a return outside of a method. -/
structure Grows (refused : Nat) (before after : Session) : Prop where
  options : after.options = before.options
  log : ∃ messages, after.log = before.log ++ messages ∧
    messages.filter Message.gaveUp = List.replicate refused
      (.warning none (.notAnalysed (.nestingTooDeep before.options.maxNestingDepth))) ∧
    messages.filter Message.returnsOutside = []

theorem grows_refl (session : Session) : Grows 0 session session :=
  ⟨rfl, [], (List.append_nil _).symm, rfl, rfl⟩

theorem Grows.trans {first second third : Session} {refused more : Nat}
    (before : Grows refused first second) (after : Grows more second third) :
    Grows (refused + more) first third := by
  obtain ⟨options, messages, log, gaveUp, outside⟩ := before
  obtain ⟨laterOptions, later, laterLog, laterGaveUp, laterOutside⟩ := after
  refine ⟨laterOptions.trans options, messages ++ later, ?_, ?_, ?_⟩
  · rw [laterLog, log, List.append_assoc]
  · rw [List.filter_append, gaveUp, laterGaveUp, options, List.replicate_append_replicate]
  · rw [List.filter_append, outside, laterOutside, List.append_nil]

theorem grows_note (session : Session) {messages : FindingLog}
    (analysed : messages.filter Message.gaveUp = [])
    (inside : messages.filter Message.returnsOutside = []) :
    Grows 0 session (session.note messages) := ⟨rfl, messages, rfl, analysed, inside⟩

theorem current_act (session : Session) (action : Action) :
    (session.act action).current = session.current := by
  cases action with
  | enter | mention => rfl
  | leave => rw [act_leave_eq]
  | declare name ty line =>
      cases current : session.current with
      | none => simp [act, declareLocal, declareSymbol, succeed, current]
      | some method =>
          cases found : session.locals.find? method.name <;>
            simp [act, declareLocal, declareSymbol, succeed, current, found]

theorem current_perform (session : Session) (step : Step) :
    (session.perform step).current = session.current := by
  cases step with
  | act action => exact current_act session action
  | visit | done | refuse | check => rfl

theorem grows_perform {session : Session} {method : MethodContext}
    (inside : session.current = some method) (step : Step) :
    Grows (refusals [step]) session (session.perform step) := by
  cases step with
  | visit | done => exact ⟨rfl, [], (List.append_nil _).symm, rfl, rfl⟩
  | refuse => exact ⟨rfl, refusal session.options.maxNestingDepth, rfl, rfl, rfl⟩
  | act action =>
      obtain ⟨log, options, -⟩ := act_kept session action
      exact ⟨options, [], log.trans (List.append_nil _).symm, rfl, rfl⟩
  | check line check =>
      have raised := session.context.findings_raised line check
      have context : session.context.method = some method := inside
      apply grows_note session
      · exact raised.filter_eq_nil fun _ => Check.raises_not_gaveUp
      · exact (Context.findings_inside context line check).filter_eq_nil (by simp)

theorem grows_run {session : Session} {method : MethodContext}
    (inside : session.current = some method) (script : List Step) :
    Grows (refusals script) session (session.run script) := by
  induction script generalizing session with
  | nil => exact grows_refl session
  | cons step rest induction =>
      rw [refusals_cons]
      have first := grows_perform inside step
      exact first.trans (induction ((current_perform session step).trans inside))

/-! ### Visits of methods -/

theorem grows_register (session : Session) (method : Located Method) :
    Grows 0 session (session.register method) := by
  unfold register registerMethod
  split
  · exact ⟨rfl, [], (List.append_nil _).symm, rfl, rfl⟩
  · exact grows_note session rfl rfl

theorem grows_announce (session : Session) (method : Located Method) :
    Grows 0 session (session.announce method) := by
  unfold announce
  split
  · exact grows_refl session
  · exact grows_register session method

/-- A visit of a method gives up at the nodes below its room. -/
theorem grows_visitMethod (session : Session) (method : Located Method) :
    Grows (method.data.depths.count (session.room + 1)) session (session.visitMethod method) := by
  have levels := stmts_levels method.data.body
  cases fits : session.room with
  | zero =>
      rw [visitMethod_refused fits]
      have deeper : 1 ∉ stmtsDepths method.data.body 2 := by
        rw [levels.mem_iff]
        omega
      have once : method.data.depths.count (0 + 1) = 1 := by
        rw [Method.depths, List.count_cons_self, List.count_eq_zero.mpr deeper]
      rw [once]
      exact ⟨rfl, refusal session.options.maxNestingDepth, rfl, rfl, rfl⟩
  | succ room =>
      rw [visitMethod_run fits]
      have body : refusals (method.data.script room) =
          method.data.depths.count (room + 1 + 1) := by
        have below : room + 1 + 1 = 2 + room := by omega
        rw [Method.depths, List.count_cons_of_ne (by omega), below]
        exact levels.refused 2 room
      have announced := grows_announce session method
      have inside : (session.inMethod method).current = some method.data.context := rfl
      have walked := grows_run inside (method.data.script room)
      rw [body] at walked
      obtain ⟨options, messages, log, gaveUp, outside⟩ := walked
      have whole : Grows _ (session.announce method)
          ((session.inMethod method).run (method.data.script room)).outOfMethod :=
        ⟨options, messages, log, gaveUp, outside⟩
      have both := announced.trans whole
      rwa [Nat.zero_add] at both

theorem grows_visits (methods : List (Located Method)) (session : Session) :
    Grows ((methods.flatMap fun method => method.data.depths).count (session.room + 1)) session
      (methods.foldl visitMethod session) := by
  induction methods generalizing session with
  | nil => exact grows_refl session
  | cons method rest induction =>
      obtain ⟨options, depth⟩ := visitMethod_level session method
      have first := grows_visitMethod session method
      have later := induction (session.visitMethod method)
      rw [room, options, depth] at later
      rw [List.flatMap_cons, List.count_append]
      exact first.trans later

theorem grows_register_all (methods : List (Located Method)) (session : Session) :
    Grows 0 session (methods.foldl register session) := by
  induction methods generalizing session with
  | nil => exact grows_refl session
  | cons method rest induction =>
      exact (grows_register session method).trans (induction (session.register method))

theorem grows_prepare (session : Session) (program : Program) :
    Grows 0 session (session.prepare program) := by
  unfold prepare
  split
  · exact grows_register_all program.methods session
  · exact grows_refl session

/-- An analysis gives up at the nodes below its room, and reports no return outside of a method. -/
theorem grows_analyse (session : Session) (program : Program) :
    Grows (program.depths.count (session.room + 1)) session (session.analyse program) := by
  have prepared := grows_prepare session program
  have depth := (alike_prepare session program).depth
  have visited := grows_visits program.methods (session.prepare program)
  rw [room, prepared.options, depth] at visited
  have whole := prepared.trans visited
  rwa [Nat.zero_add] at whole

/-! ### Another limit -/

def limited (session : Session) (limit : Nat) : Session :=
  { session with options := { session.options with maxNestingDepth := limit } }

theorem ahead_limited (session : Session) (limit : Nat) :
    (session.limited limit).options.resolveForwardCalls = session.options.resolveForwardCalls := rfl

theorem act_limited (session : Session) (limit : Nat) (action : Action) :
    (session.limited limit).act action = (session.act action).limited limit := by
  cases action with
  | enter | mention => rfl
  | leave =>
      rw [act_leave_eq, act_leave_eq]
      rfl
  | declare name ty line =>
      cases current : session.current with
      | none => simp [act, declareLocal, declareSymbol, succeed, limited, current]
      | some method =>
          cases found : session.locals.find? method.name <;>
            simp [act, declareLocal, declareSymbol, succeed, limited, current, found]

/-- Only a refusal looks at the limit. -/
theorem perform_limited (session : Session) (limit : Nat) {step : Step}
    (kept : step.refuses = false) :
    (session.limited limit).perform step = (session.perform step).limited limit := by
  cases step with
  | act action => exact act_limited session limit action
  | refuse => cases kept
  | visit | done | check => rfl

theorem run_limited (session : Session) (limit : Nat) {script : List Step}
    (kept : ∀ step ∈ script, step.refuses = false) :
    (session.limited limit).run script = (session.run script).limited limit := by
  induction script generalizing session with
  | nil => rfl
  | cons step rest induction =>
      have first := kept step List.mem_cons_self
      have later : ∀ step ∈ rest, step.refuses = false :=
        fun other member => kept other (List.mem_cons_of_mem step member)
      rw [run_cons, run_cons, perform_limited session limit first, induction _ later]

theorem register_limited (session : Session) (limit : Nat) (method : Located Method) :
    (session.limited limit).register method = (session.register method).limited limit := by
  simp only [register, registerMethod, limited]
  split <;> rfl

theorem inMethod_limited (session : Session) (limit : Nat) (method : Located Method) :
    (session.limited limit).inMethod method = (session.inMethod method).limited limit := by
  have announced : (session.limited limit).announce method =
      (session.announce method).limited limit := by
    rw [announce, announce, ahead_limited, register_limited]
    split <;> rfl
  simp only [inMethod, announced]
  rfl

/-- A method all of whose nodes keep both limits is visited alike under both. -/
theorem visitMethod_limited {session : Session} {limit : Nat} {method : Located Method}
    (fits : method.data.nesting ≤ session.room)
    (enough : method.data.nesting ≤ (session.limited limit).room) :
    (session.limited limit).visitMethod method = (session.visitMethod method).limited limit := by
  have levels := stmts_levels method.data.body
  rw [Method.nesting] at fits enough
  obtain ⟨room, left⟩ : ∃ room, session.room = room + 1 :=
    Nat.exists_eq_add_one.mpr (Nat.lt_of_lt_of_le (Nat.succ_pos _) fits)
  obtain ⟨other, leftOther⟩ : ∃ other, (session.limited limit).room = other + 1 :=
    Nat.exists_eq_add_one.mpr (Nat.lt_of_lt_of_le (Nat.succ_pos _) enough)
  have within : stmtsNesting method.data.body ≤ room := by omega
  have same : method.data.script other = method.data.script room := by
    rw [Method.script, Method.script, levels.settled other (by omega), levels.settled room within]
  have kept : ∀ step ∈ method.data.script room, step.refuses = false :=
    refusals_eq_zero.mp (levels.none_refused within)
  rw [visitMethod_run left, visitMethod_run leftOther, same, inMethod_limited,
    run_limited _ limit kept]
  rfl

theorem visits_limited {session : Session} {limit : Nat} {methods : List (Located Method)}
    (fits : ∀ method ∈ methods, method.data.nesting ≤ session.room)
    (enough : ∀ method ∈ methods, method.data.nesting ≤ (session.limited limit).room) :
    methods.foldl visitMethod (session.limited limit) =
      (methods.foldl visitMethod session).limited limit := by
  induction methods generalizing session with
  | nil => rfl
  | cons method rest induction =>
      obtain ⟨options, depth⟩ := visitMethod_level session method
      rw [List.forall_mem_cons] at fits enough
      rw [List.foldl_cons, List.foldl_cons, visitMethod_limited fits.1 enough.1]
      apply induction
      · simpa only [room, options, depth] using fits.2
      · simpa only [room, limited, options, depth] using enough.2

theorem register_all_limited (methods : List (Located Method)) (session : Session) (limit : Nat) :
    methods.foldl register (session.limited limit) =
      (methods.foldl register session).limited limit := by
  induction methods generalizing session with
  | nil => rfl
  | cons method rest induction =>
      rw [List.foldl_cons, List.foldl_cons, register_limited, induction]

theorem prepare_limited (session : Session) (limit : Nat) (program : Program) :
    (session.limited limit).prepare program = (session.prepare program).limited limit := by
  rw [prepare, prepare, ahead_limited, register_all_limited]
  split <;> rfl

/-- Two limits that all nodes keep make no difference. -/
theorem analyse_limited (symbols : Symbols) (options : Options) {limit : Nat} {program : Program}
    (fits : program.nesting ≤ options.maxNestingDepth) (enough : program.nesting ≤ limit) :
    (start symbols { options with maxNestingDepth := limit }).analyse program =
      ((start symbols options).analyse program).limited limit := by
  have other : start symbols { options with maxNestingDepth := limit } =
      (start symbols options).limited limit := rfl
  have between := between_prepare symbols options program
  have room := between.room
  have roomOther : (((start symbols options).prepare program).limited limit).room = limit := by
    rw [Session.room, limited, between.depth, Nat.sub_zero]
  rw [other, analyse_eq, analyse_eq, prepare_limited]
  apply visits_limited
  · rw [room]
    exact nesting_le_iff.mp fits
  · rw [roomOther]
    exact nesting_le_iff.mp enough

end Session

/-- One warning for each node just below the limit and none besides; and limits that all nodes keep
cannot be told apart. -/
theorem nesting_limit_exact (symbols : Symbols) (ahead : Bool) (program : Program) (limit : Nat) :
    ((Session.start symbols ⟨ahead, limit⟩).analyse program).log.filter Message.gaveUp =
        List.replicate (program.depths.count (limit + 1))
          (.warning none (.notAnalysed (.nestingTooDeep limit))) ∧
      (((Session.start symbols ⟨ahead, limit⟩).analyse program).log.filter Message.gaveUp = [] ↔
        program.nesting ≤ limit) ∧
      ∀ other, program.nesting ≤ limit → program.nesting ≤ other →
        ((Session.start symbols ⟨ahead, other⟩).analyse program).log =
            ((Session.start symbols ⟨ahead, limit⟩).analyse program).log ∧
          ((Session.start symbols ⟨ahead, other⟩).analyse program).catalogue =
            ((Session.start symbols ⟨ahead, limit⟩).analyse program).catalogue ∧
          ((Session.start symbols ⟨ahead, other⟩).analyse program).locals =
            ((Session.start symbols ⟨ahead, limit⟩).analyse program).locals ∧
          ((Session.start symbols ⟨ahead, other⟩).analyse program).symbols =
            ((Session.start symbols ⟨ahead, limit⟩).analyse program).symbols := by
  obtain ⟨-, messages, log, gaveUp, -⟩ :=
    Session.grows_analyse (Session.start symbols ⟨ahead, limit⟩) program
  have found : ((Session.start symbols ⟨ahead, limit⟩).analyse program).log.filter
      Message.gaveUp = List.replicate (program.depths.count (limit + 1))
        (.warning none (.notAnalysed (.nestingTooDeep limit))) := by
    rw [log]
    exact gaveUp
  refine ⟨found, ?_, ?_⟩
  · rw [found, List.replicate_eq_nil_iff, List.count_eq_zero, program_depths_iff]
    omega
  · intro other fits enough
    have same : (Session.start symbols ⟨ahead, other⟩).analyse program = _ :=
      Session.analyse_limited symbols ⟨ahead, limit⟩ fits enough
    rw [same]
    exact ⟨rfl, rfl, rfl, rfl⟩

/-- A loop whose body stands at depths three to six. -/
def countingLoop : Program :=
  let sum : Located Expr := .place 5 15
    (.binary .add (.place 5 15 (.identifier "count")) (.place 5 23 (.literal "int" "1")))
  let body : Located Stmt := .place 4 7 (.block [.place 5 7 (.assign "count" sum)])
  let method : Method :=
    { returnTy := "void", name := "repeat",
      params := [.place 3 15 { ty := "int", name := "count" }],
      body := [.place 4 5 (.whileLoop (.place 4 12 (.identifier "more")) body)] }
  ⟨[.place 1 1 ⟨"Sample", "", [.place 3 1 (.method method)]⟩]⟩

theorem counting_loop_cut_twice :
    ((Session.start .empty ⟨false, 2⟩).analyse countingLoop).log.filter Message.gaveUp =
        [.warning none (.notAnalysed (.nestingTooDeep 2)),
          .warning none (.notAnalysed (.nestingTooDeep 2))] ∧
      countingLoop.nesting = 6 ∧
      ((Session.start .empty ⟨false, 256⟩).analyse countingLoop).log =
        ((Session.start .empty ⟨false, 6⟩).analyse countingLoop).log := by
  have count : countingLoop.depths.count 3 = 2 := by decide
  have deep : countingLoop.nesting = 6 := by decide
  obtain ⟨cut, -⟩ := nesting_limit_exact .empty false countingLoop 2
  obtain ⟨-, -, same⟩ := nesting_limit_exact .empty false countingLoop 6
  rw [count] at cut
  exact ⟨cut, deep, (same 256 (by rw [deep]) (by rw [deep]; decide)).1⟩

end Sema
