import Sema.Proofs.Walk.Method

/-!
# Walks in step

What a walk does to the table and to the locals does not depend on the catalogue or on the log. Two
walks that start alike in the rest stay alike, step by step, whatever they report.
-/

namespace Sema.Session

structure Alike (left right : Session) : Prop where
  symbols : left.symbols = right.symbols
  locals : left.locals = right.locals
  current : left.current = right.current
  depth : left.depth = right.depth
  limit : left.options.maxNestingDepth = right.options.maxNestingDepth

variable {left right : Session}

theorem Alike.room (alike : left.Alike right) : left.room = right.room := by
  rw [Session.room, Session.room, alike.depth, alike.limit]

theorem Alike.act (alike : left.Alike right) (action : Action) :
    (left.act action).Alike (right.act action) := by
  obtain ⟨symbols, locals, current, depth, limit⟩ := alike
  cases action with
  | enter => exact ⟨congrArg Symbols.enter symbols, locals, current, depth, limit⟩
  | leave =>
      rw [act_leave_eq, act_leave_eq]
      exact ⟨congrArg (fun table => table.act .leave) symbols, locals, current, depth, limit⟩
  | mention name =>
      exact ⟨congrArg (fun table => table.markUsed name) symbols, locals, current, depth, limit⟩
  | declare name ty line =>
      simp only [Session.act, declareLocal, declareSymbol, succeed, current, locals]
      split
      · exact ⟨by rw [symbols], rfl, rfl, depth, limit⟩
      · split
        · exact ⟨symbols, locals, current, depth, limit⟩
        · exact ⟨by rw [symbols], rfl, rfl, depth, limit⟩

theorem Alike.perform (alike : left.Alike right) (step : Step) :
    (left.perform step).Alike (right.perform step) := by
  cases step with
  | act action => exact alike.act action
  | visit =>
      exact ⟨alike.symbols, alike.locals, alike.current, congrArg (· + 1) alike.depth, alike.limit⟩
  | done =>
      exact ⟨alike.symbols, alike.locals, alike.current, congrArg (· - 1) alike.depth, alike.limit⟩
  | refuse | check =>
      exact ⟨alike.symbols, alike.locals, alike.current, alike.depth, alike.limit⟩

theorem Alike.run (alike : left.Alike right) (script : List Step) :
    (left.run script).Alike (right.run script) := by
  induction script generalizing left right with
  | nil => exact alike
  | cons step rest induction => exact induction (alike.perform step)

/-! ### Methods -/

theorem alike_register (session : Session) (method : Located Method) :
    (session.register method).Alike session := by
  unfold register registerMethod
  split <;> exact ⟨rfl, rfl, rfl, rfl, rfl⟩

theorem alike_register_all (methods : List (Located Method)) (session : Session) :
    (methods.foldl register session).Alike session := by
  induction methods generalizing session with
  | nil => exact ⟨rfl, rfl, rfl, rfl, rfl⟩
  | cons method rest induction =>
      have first := alike_register session method
      have later := induction (session.register method)
      exact ⟨later.symbols.trans first.symbols, later.locals.trans first.locals,
        later.current.trans first.current, later.depth.trans first.depth,
        later.limit.trans first.limit⟩

theorem Alike.inMethod (alike : left.Alike right) (method : Located Method) :
    (left.inMethod method).Alike (right.inMethod method) where
  symbols := congrArg
    (fun table => table.acts (.enter :: parametersOutline method.data.params)) alike.symbols
  locals := congrArg
    (fun locals => locals.bind method.data.name method.data.parameterEnv) alike.locals
  current := rfl
  depth := congrArg (· + 1) alike.depth
  limit := by
    have kept : ∀ session : Session, (session.inMethod method).options = session.options :=
      fun session => options_announce session method
    rw [kept, kept, alike.limit]

theorem Alike.outOfMethod (alike : left.Alike right) : left.outOfMethod.Alike right.outOfMethod :=
  ⟨congrArg (fun table => table.act .leave) alike.symbols, alike.locals, rfl,
    congrArg (· - 1) alike.depth, alike.limit⟩

theorem Alike.visitMethod (alike : left.Alike right) (method : Located Method) :
    (left.visitMethod method).Alike (right.visitMethod method) := by
  cases room : right.room with
  | zero =>
      rw [visitMethod_refused room, visitMethod_refused (alike.room.trans room)]
      exact ⟨alike.symbols, alike.locals, alike.current, alike.depth, alike.limit⟩
  | succ rest =>
      rw [visitMethod_run room, visitMethod_run (alike.room.trans room)]
      exact ((alike.inMethod method).run (method.data.script rest)).outOfMethod

theorem Alike.visits (alike : left.Alike right) (methods : List (Located Method)) :
    (methods.foldl Session.visitMethod left).Alike (methods.foldl Session.visitMethod right) := by
  induction methods generalizing left right with
  | nil => exact alike
  | cons method rest induction => exact induction (alike.visitMethod method)

theorem alike_prepare (session : Session) (program : Program) :
    (session.prepare program).Alike session := by
  unfold prepare
  split
  · exact alike_register_all program.methods session
  · exact ⟨rfl, rfl, rfl, rfl, rfl⟩

/-- A first pass makes no difference to the table and to the locals. -/
theorem alike_analyses (symbols : Symbols) (program : Program) (first second : Options)
    (limit : first.maxNestingDepth = second.maxNestingDepth) :
    ((start symbols first).analyse program).Alike ((start symbols second).analyse program) := by
  have one := alike_prepare (start symbols first) program
  have two := alike_prepare (start symbols second) program
  refine Alike.visits ?_ program.methods
  exact ⟨one.symbols.trans two.symbols.symm, one.locals.trans two.locals.symm,
    one.current.trans two.current.symm, one.depth.trans two.depth.symm,
    one.limit.trans (limit.trans two.limit.symm)⟩

end Sema.Session
