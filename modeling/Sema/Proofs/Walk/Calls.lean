import Sema.Proofs.Walk.Limit

/-!
# Sequences of calls

A check is used through calls: single checks and registrations, methods that are entered and left,
and whole analyses. Whatever the calls, in whatever order, a walk finds the scope that it leaves and
the locals that it declares in, and after an analysis everything but the findings of the analysis
stands where it stood before.
-/

namespace Sema

inductive Call where
  | assignment (name : String) (value : Expr) (line : UInt64)
  | binary (op : BinaryOp) (lhs rhs : Expr) (line : UInt64)
  | condition (cond : Expr) (construct : Construct) (line : UInt64)
  | returning (value : Option Expr) (line : UInt64)
  | call (name : String) (args : List (Located Expr)) (line : UInt64)
  | register (name returnTy : String) (params : List ParameterType) (line : UInt64)
  | enter (name returnTy : String)
  | exit
  /-- Calls in the context of a method, which is left after them. -/
  | within (name returnTy : String) (calls : List Call)
  | analyse (program : Program)

mutual

def Call.run : Call → Session → Session
  | .assignment name value line, session => session.checkAssignment name value line
  | .binary op lhs rhs line, session => session.checkBinary op lhs rhs line
  | .condition cond construct line, session => session.checkCondition cond construct line
  | .returning value line, session => session.checkReturn value line
  | .call name args line, session => session.checkCall name args line
  | .register name returnTy params line, session =>
      session.registerMethod name returnTy params line
  | .enter name returnTy, session => session.enterMethod name returnTy
  | .exit, session => session.exitMethod
  | .within name returnTy calls, session =>
      (session.withMethod name returnTy fun entered => ((), runCalls calls entered)).2
  | .analyse program, session => session.analyse program

def runCalls : List Call → Session → Session
  | [], session => session
  | call :: rest, session => runCalls rest (call.run session)

end

/-- A program with the session in which its analysis begins. -/
structure Analysis where
  before : Session
  program : Program

def Analysis.after (analysis : Analysis) : Session := analysis.before.analyse analysis.program

mutual

def Call.analyses : Call → Session → List Analysis
  | .analyse program, session => [⟨session, program⟩]
  | .within name returnTy calls, session => analysesIn calls (session.enterMethod name returnTy)
  | .assignment _ _ _, _ | .binary _ _ _ _, _ | .condition _ _ _, _ | .returning _ _, _
  | .call _ _ _, _ | .register _ _ _ _, _ | .enter _ _, _ | .exit, _ => []

/-- The analyses that a sequence of calls makes. -/
def analysesIn : List Call → Session → List Analysis
  | [], _ => []
  | call :: rest, session => call.analyses session ++ analysesIn rest (call.run session)

end

/-! ### Single analyses -/

/-- An analysis that comes back to where it began. -/
structure Analysis.Balanced (analysis : Analysis) : Prop where
  begins : analysis.before.depth = 0
  depth : analysis.after.depth = analysis.before.depth
  scopes : analysis.after.symbols.scopeDepth = analysis.before.symbols.scopeDepth
  current : analysis.after.current =
    if analysis.program.methods = [] ∨ analysis.before.options.maxNestingDepth = 0 then
      analysis.before.current
    else none
  inside : ∃ messages, analysis.after.log = analysis.before.log ++ messages ∧
    messages.filter Message.returnsOutside = []

namespace Session

theorem current_visitMethod (session : Session) (method : Located Method) :
    (session.visitMethod method).current = if session.room = 0 then session.current else none := by
  cases fits : session.room with
  | zero =>
      rw [visitMethod_refused fits]
      rfl
  | succ room =>
      rw [visitMethod_run fits]
      rfl

theorem visits_level (methods : List (Located Method)) (session : Session) :
    (methods.foldl visitMethod session).depth = session.depth ∧
      (methods.foldl visitMethod session).current =
        if methods = [] ∨ session.room = 0 then session.current else none := by
  induction methods generalizing session with
  | nil => exact ⟨rfl, by simp⟩
  | cons method rest induction =>
      obtain ⟨options, depth⟩ := visitMethod_level session method
      obtain ⟨laterDepth, laterCurrent⟩ := induction (session.visitMethod method)
      have room : (session.visitMethod method).room = session.room := by
        rw [Session.room, Session.room, options, depth]
      refine ⟨laterDepth.trans depth, ?_⟩
      rw [List.foldl_cons, laterCurrent, current_visitMethod, room]
      by_cases full : session.room = 0 <;> simp [full]

theorem balanced_analyse {session : Session} (level : session.depth = 0) (program : Program) :
    (Analysis.mk session program).Balanced := by
  have prepared := alike_prepare session program
  have grown := grows_analyse session program
  have stacked := (excursion_analyse session program).over
  obtain ⟨depth, current⟩ := visits_level program.methods (session.prepare program)
  obtain ⟨messages, log, -, inside⟩ := grown.log
  have limit : session.room = session.options.maxNestingDepth := by
    rw [room, level, Nat.sub_zero]
  rw [prepared.room, limit, prepared.current] at current
  exact {
    begins := level
    depth := depth.trans prepared.depth
    scopes := stacked.scope_depth
    current := current
    inside := ⟨messages, log, inside⟩ }

/-! ### Sequences of calls -/

/-- Between two calls a session stands at level zero, and it has given up nodes for nothing but
their depth. -/
structure Sound (options : Options) (session : Session) : Prop where
  kept : session.options = options
  depth : session.depth = 0
  gaveUp : ∀ line reason, .warning line (.notAnalysed reason) ∈ session.log →
    line = none ∧ reason = .nestingTooDeep options.maxNestingDepth

variable {options : Options} {session : Session}

theorem sound_start (symbols : Symbols) (options : Options) :
    (start symbols options).Sound options := ⟨rfl, rfl, by simp [start]⟩

theorem Sound.note (sound : session.Sound options) {messages : FindingLog}
    (analysed : messages.filter Message.gaveUp = []) : (session.note messages).Sound options where
  kept := sound.kept
  depth := sound.depth
  gaveUp := by
    intro line reason member
    rcases List.mem_append.mp member with earlier | added
    · exact sound.gaveUp line reason earlier
    · exact absurd rfl (List.filter_eq_nil_iff.mp analysed _ added)

theorem Sound.findings (sound : session.Sound options) (line : UInt64) (check : Check) :
    (session.note (session.context.findings line check)).Sound options := by
  have raised := session.context.findings_raised line check
  apply sound.note
  exact raised.filter_eq_nil fun _ => Check.raises_not_gaveUp

theorem Sound.register (sound : session.Sound options) (name returnTy : String)
    (params : List ParameterType) (line : UInt64) :
    (session.registerMethod name returnTy params line).Sound options := by
  unfold registerMethod
  split
  · exact ⟨sound.kept, sound.depth, sound.gaveUp⟩
  · exact sound.note rfl

theorem Sound.analyse (sound : session.Sound options) (program : Program) :
    (session.analyse program).Sound options := by
  have grown := grows_analyse session program
  have balanced := balanced_analyse sound.depth program
  obtain ⟨messages, log, refused, -⟩ := grown.log
  rw [sound.kept] at refused
  refine ⟨grown.options.trans sound.kept, balanced.depth.trans sound.depth, ?_⟩
  intro line reason member
  rw [log, List.mem_append] at member
  rcases member with earlier | added
  · exact sound.gaveUp line reason earlier
  -- What the analysis has given up is counted, and each of it is a refusal.
  · have kept : Message.warning line (.notAnalysed reason) ∈ messages.filter Message.gaveUp :=
      List.mem_filter.mpr ⟨added, rfl⟩
    rw [refused] at kept
    have same := List.eq_of_mem_replicate kept
    simpa using same

mutual

theorem Sound.run {session : Session} (sound : session.Sound options) :
    ∀ call : Call, (call.run session).Sound options
  | .assignment name value line => sound.findings line (.assignment name value)
  | .binary op lhs rhs line => sound.findings line (.binary op lhs rhs)
  | .condition cond construct line => sound.findings line (.condition cond construct)
  | .returning value line => sound.findings line (.returning value)
  | .call name args line => sound.findings line (.call name args)
  | .register name returnTy params line => sound.register name returnTy params line
  | .enter _ _ => ⟨sound.kept, sound.depth, sound.gaveUp⟩
  | .exit => ⟨sound.kept, sound.depth, sound.gaveUp⟩
  | .within name returnTy calls => by
      have entered : (session.enterMethod name returnTy).Sound options :=
        ⟨sound.kept, sound.depth, sound.gaveUp⟩
      have left := entered.runs calls
      exact ⟨left.kept, left.depth, left.gaveUp⟩
  | .analyse program => sound.analyse program

theorem Sound.runs {session : Session} (sound : session.Sound options) :
    ∀ calls : List Call, (runCalls calls session).Sound options
  | [] => sound
  | call :: rest => (sound.run call).runs rest

end

mutual

theorem Sound.begins {session : Session} (sound : session.Sound options) :
    ∀ call : Call, ∀ analysis ∈ call.analyses session, analysis.before.Sound options
  | .analyse program => by
      intro analysis member
      obtain rfl := List.mem_singleton.mp member
      exact sound
  | .within name returnTy calls => by
      have entered : (session.enterMethod name returnTy).Sound options :=
        ⟨sound.kept, sound.depth, sound.gaveUp⟩
      exact entered.begins_each calls
  | .assignment _ _ _ | .binary _ _ _ _ | .condition _ _ _ | .returning _ _ | .call _ _ _
  | .register _ _ _ _ | .enter _ _ | .exit => by
      intro analysis member
      cases member

theorem Sound.begins_each {session : Session} (sound : session.Sound options) :
    ∀ calls : List Call, ∀ analysis ∈ analysesIn calls session, analysis.before.Sound options
  | [] => by
      intro analysis member
      cases member
  | call :: rest => by
      intro analysis member
      rcases List.mem_append.mp member with own | later
      · exact sound.begins call analysis own
      · exact (sound.run call).begins_each rest analysis later

end

end Session

/-- Whatever the calls, nothing fails inside, and every analysis comes back to where it began. -/
theorem calls_balanced (symbols : Symbols) (options : Options) (calls : List Call) :
    (∀ line reason,
      .warning line (.notAnalysed reason) ∈ (runCalls calls (.start symbols options)).log →
        line = none ∧ reason = .nestingTooDeep options.maxNestingDepth) ∧
      ∀ analysis ∈ analysesIn calls (.start symbols options), analysis.Balanced := by
  have sound := Session.sound_start symbols options
  constructor
  · exact (sound.runs calls).gaveUp
  · intro analysis member
    exact Session.balanced_analyse (sound.begins_each calls analysis member).depth analysis.program

/-- A method that no program declares is entered before an analysis and never left. -/
def ghostCalls : List Call :=
  [.enter "ghost" "int", .analyse countingLoop, .returning none 9,
    .within "outer" "void" [.analyse countingLoop]]

theorem ghost_left :
    .warning none (.notAnalysed (.missingLocals "ghost")) ∉
        (runCalls ghostCalls (.start .empty ⟨false, 2⟩)).log ∧
      ∃ analysis ∈ analysesIn ghostCalls (.start .empty ⟨false, 2⟩),
        analysis.before.current = some ⟨"ghost", .primitive .int⟩ ∧
          analysis.after.current = none ∧ analysis.Balanced ∧
          .warning none (.notAnalysed (.nestingTooDeep 2)) ∈ analysis.after.log := by
  obtain ⟨gaveUp, balanced⟩ := calls_balanced .empty ⟨false, 2⟩ ghostCalls
  have first := balanced _ List.mem_cons_self
  constructor
  · intro member
    obtain ⟨-, impossible⟩ := gaveUp none (.missingLocals "ghost") member
    cases impossible
  · refine ⟨_, List.mem_cons_self, by decide, ?_, first, by decide⟩
    exact first.current.trans (by decide)

end Sema
