import Sema.Proofs.Walk.Calls

/-!
# The checks of a run

A run is followed here check by check, each with the context in which it is made. But for the
refusals of nodes that are nested too deep and for redeclarations of methods, the log is what these
checks find, in their order.
-/

namespace Sema

structure Checked where
  context : Context
  line : UInt64
  check : Check

def Checked.findings (checked : Checked) : FindingLog :=
  checked.context.findings checked.line checked.check

/-- The message was found by a check. -/
def Message.checked (message : Message Violation Doubt) : Bool :=
  !message.gaveUp && !message.redeclares

namespace Session

def checkOf (session : Session) : Step → List Checked
  | .check line check => [⟨session.context, line, check⟩]
  | .visit _ | .done | .refuse | .act _ => []

/-- The checks of a script. -/
def checks (session : Session) : List Step → List Checked
  | [] => []
  | step :: rest => session.checkOf step ++ (session.perform step).checks rest

/-- The checks in the body of a method, if there is room for it. -/
def methodChecks (session : Session) (method : Located Method) : List Checked :=
  match session.room with
  | 0 => []
  | room + 1 => (session.inMethod method).checks (method.data.script room)

def methodsChecks (session : Session) : List (Located Method) → List Checked
  | [] => []
  | method :: rest =>
      session.methodChecks method ++ (session.visitMethod method).methodsChecks rest

def analysisChecks (session : Session) (program : Program) : List Checked :=
  (session.prepare program).methodsChecks program.methods

end Session

mutual

def Call.checks : Call → Session → List Checked
  | .assignment name value line, session => [⟨session.context, line, .assignment name value⟩]
  | .binary op lhs rhs line, session => [⟨session.context, line, .binary op lhs rhs⟩]
  | .condition cond construct line, session => [⟨session.context, line, .condition cond construct⟩]
  | .returning value line, session => [⟨session.context, line, .returning value⟩]
  | .call name args line, session => [⟨session.context, line, .call name args⟩]
  | .register _ _ _ _, _ | .enter _ _, _ | .exit, _ => []
  | .within name returnTy calls, session => checksIn calls (session.enterMethod name returnTy)
  | .analyse program, session => session.analysisChecks program

/-- The checks that a sequence of calls makes. -/
def checksIn : List Call → Session → List Checked
  | [], _ => []
  | call :: rest, session => call.checks session ++ checksIn rest (call.run session)

end

theorem Checked.filter_findings (checked : Checked) :
    checked.findings.filter Message.checked = checked.findings := by
  have raised := checked.context.findings_raised checked.line checked.check
  apply List.filter_eq_self.mpr
  intro message member
  have kind := raised message member
  rw [Message.checked, Check.raises_not_gaveUp kind, Check.raises_not_redeclares kind]
  rfl

namespace Session

/-- What the checks find is all that the log has gained, but for refusals and redeclarations. -/
def Makes (checks : List Checked) (before after : Session) : Prop :=
  after.log.filter Message.checked =
    before.log.filter Message.checked ++ checks.flatMap Checked.findings

theorem makes_none {before after : Session} (log : after.log = before.log) :
    Makes [] before after := by
  rw [Makes, log]
  exact (List.append_nil _).symm

theorem makes_note (session : Session) {messages : FindingLog}
    (other : messages.filter Message.checked = []) : Makes [] session (session.note messages) := by
  rw [Makes, note, List.filter_append, other]
  rfl

theorem makes_check (session : Session) (checked : Checked) :
    Makes [checked] session (session.note checked.findings) := by
  rw [Makes, note, List.filter_append, checked.filter_findings, List.flatMap_singleton]

theorem Makes.trans {first second third : Session} {checks later : List Checked}
    (before : Makes checks first second) (after : Makes later second third) :
    Makes (checks ++ later) first third := by
  rw [Makes, after, before, List.append_assoc, List.flatMap_append]

/-! ### Walks -/

theorem makes_perform (session : Session) (step : Step) :
    Makes (session.checkOf step) session (session.perform step) := by
  cases step with
  | visit | done => exact makes_none rfl
  | refuse => exact makes_note session rfl
  | act action => exact makes_none (act_kept session action).1
  | check line check => exact makes_check session ⟨session.context, line, check⟩

theorem makes_run (session : Session) (script : List Step) :
    Makes (session.checks script) session (session.run script) := by
  induction script generalizing session with
  | nil => exact makes_none rfl
  | cons step rest induction =>
      exact (makes_perform session step).trans (induction (session.perform step))

theorem makes_registerMethod (session : Session) (name returnTy : String)
    (params : List ParameterType) (line : UInt64) :
    Makes [] session (session.registerMethod name returnTy params line) := by
  unfold registerMethod
  split
  · exact makes_none rfl
  · exact makes_note session rfl

theorem makes_announce (session : Session) (method : Located Method) :
    Makes [] session (session.announce method) := by
  unfold announce
  split
  · exact makes_none rfl
  · exact makes_registerMethod session _ _ _ _

theorem makes_visitMethod (session : Session) (method : Located Method) :
    Makes (session.methodChecks method) session (session.visitMethod method) := by
  unfold methodChecks
  cases fits : session.room with
  | zero =>
      rw [visitMethod_refused fits]
      exact makes_note session rfl
  | succ room =>
      have announced : Makes [] session (session.inMethod method) := makes_announce session method
      have walked := makes_run (session.inMethod method) (method.data.script room)
      rw [visitMethod_run fits]
      exact announced.trans walked

theorem makes_visits (methods : List (Located Method)) (session : Session) :
    Makes (session.methodsChecks methods) session (methods.foldl visitMethod session) := by
  induction methods generalizing session with
  | nil => exact makes_none rfl
  | cons method rest induction =>
      exact (makes_visitMethod session method).trans (induction (session.visitMethod method))

theorem makes_prepare (session : Session) (program : Program) :
    Makes [] session (session.prepare program) := by
  unfold prepare
  split
  · exact List.foldlRecOn _ _ (makes_none rfl) fun before made method _ =>
      made.trans (makes_registerMethod before _ _ _ _)
  · exact makes_none rfl

theorem makes_analyse (session : Session) (program : Program) :
    Makes (session.analysisChecks program) session (session.analyse program) :=
  (makes_prepare session program).trans (makes_visits program.methods (session.prepare program))

/-! ### Sequences of calls -/

mutual

theorem makes_call : ∀ (call : Call) (session : Session),
    Makes (call.checks session) session (call.run session)
  | .assignment name value line, session =>
      makes_check session ⟨session.context, line, .assignment name value⟩
  | .binary op lhs rhs line, session =>
      makes_check session ⟨session.context, line, .binary op lhs rhs⟩
  | .condition cond construct line, session =>
      makes_check session ⟨session.context, line, .condition cond construct⟩
  | .returning value line, session =>
      makes_check session ⟨session.context, line, .returning value⟩
  | .call name args line, session => makes_check session ⟨session.context, line, .call name args⟩
  | .register name returnTy params line, session =>
      makes_registerMethod session name returnTy params line
  | .enter _ _, _ => makes_none rfl
  | .exit, _ => makes_none rfl
  | .within name returnTy calls, session => makes_calls calls (session.enterMethod name returnTy)
  | .analyse program, session => makes_analyse session program

theorem makes_calls : ∀ (calls : List Call) (session : Session),
    Makes (checksIn calls session) session (runCalls calls session)
  | [], _ => makes_none rfl
  | call :: rest, session =>
      (makes_call call session).trans (makes_calls rest (call.run session))

end

end Session

end Sema
