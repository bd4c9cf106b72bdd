import Sema.Proofs.Walk.Method

/-!
# Remarks

The steps of a script that may give messages, each with the types of the variables at that moment.
These types are an overlay, so the remarks of a method depend on the syntax and on the types before
the method. The signatures are left open: they are the only thing in which the messages of two walks
over the same body differ.
-/

namespace Sema

/-- A check with what it sees, but for the signatures. -/
structure Site where
  types : Typing
  method : MethodContext
  line : UInt64
  check : Check

inductive Remark where
  | refused
  | checked (site : Site)

def Site.findings (signature? : String → Option Signature) (site : Site) : FindingLog :=
  Context.findings ⟨site.types, signature?, some site.method⟩ site.line site.check

namespace Remark

def findings (limit : Nat) (signature? : String → Option Signature) : Remark → FindingLog
  | .refused => refusal limit
  | .checked site => site.findings signature?

end Remark

def remarks (types : Typing) (method : MethodContext) : List Step → List Remark
  | [] => []
  | .visit _ :: rest | .done :: rest => remarks types method rest
  | .refuse :: rest => .refused :: remarks types method rest
  | .act action :: rest => remarks (action.declareIn types) method rest
  | .check line check :: rest => .checked ⟨types, method, line, check⟩ :: remarks types method rest

theorem remarks_append (types : Typing) (method : MethodContext) (front rest : List Step) :
    remarks types method (front ++ rest) =
      remarks types method front ++ remarks (overlay types (actions front)) method rest := by
  induction front generalizing types with
  | nil => rfl
  | cons step front induction =>
      cases step with
      | visit | done => exact induction types
      | act action => exact induction (action.declareIn types)
      | refuse | check => exact congrArg (List.cons _) (induction types)

namespace Method

/-- The remarks of a visit that finds the given room. -/
def remarks (method : Method) (types : Typing) : Nat → List Remark
  | 0 => [.refused]
  | room + 1 =>
      Sema.remarks (overlay types (parametersOutline method.params)) method.context
        (method.script room)

end Method

namespace Session

variable {base : Symbols} {method : MethodContext} {history : List Action} {session : Session}

theorem Inside.context (inside : session.Inside base method history) (stored : base.InStore)
    (lawful : Lawful (.enter :: history)) :
    session.context = ⟨overlay base.typeOf? history, session.catalogue.find?, some method⟩ := by
  rw [Session.context, inside.resolve stored lawful, inside.current]

theorem act_kept (session : Session) (action : Action) :
    (session.act action).log = session.log ∧ (session.act action).options = session.options ∧
      (session.act action).catalogue = session.catalogue := by
  cases action with
  | enter | mention => exact ⟨rfl, rfl, rfl⟩
  | leave => rw [act_leave_eq]; exact ⟨rfl, rfl, rfl⟩
  | declare name ty line =>
      simp only [act, declareLocal]
      split
      · exact ⟨rfl, rfl, rfl⟩
      · split <;> exact ⟨rfl, rfl, rfl⟩

/-- The log of a part of a body grows by the messages of its remarks. -/
theorem Inside.log (inside : session.Inside base method history) (stored : base.InStore)
    (script : List Step) (lawful : Lawful (.enter :: (history ++ actions script))) :
    (session.run script).log = session.log ++
      (remarks (overlay base.typeOf? history) method script).flatMap
        (Remark.findings session.options.maxNestingDepth session.catalogue.find?) := by
  induction script generalizing session history with
  | nil => simp [remarks]
  | cons step rest induction =>
      have later := induction (inside.perform step)
      rw [List.append_assoc, ← actions_append] at later
      have log := later lawful
      cases step with
      | visit | done =>
          rw [run_cons, log]
          simp [remarks, Session.perform]
      | refuse =>
          rw [run_cons, log]
          simp [remarks, Remark.findings, Session.perform, note]
      | act action =>
          obtain ⟨sameLog, sameOptions, sameCatalogue⟩ := act_kept session action
          rw [run_cons, log, actions_act, actions_nil, overlay_concat, Session.perform, sameLog,
            sameOptions, sameCatalogue]
          rfl
      | check line check =>
          have whole : Lawful ((.enter :: history) ++ actions rest) := lawful
          have before := whole.front
          rw [run_cons, log, Session.perform, inside.context stored before]
          simp [remarks, Remark.findings, Site.findings, note]

/-! ### Visits of methods -/

theorem lawful_inMethod (method : Method) (room : Nat) :
    Lawful (scopeAround (parametersOutline method.params ++ actions (method.script room))) := by
  have body : Closed (actions (method.script room)) :=
    ((stmts_render method.body).bracketed room).closed
  exact ((parameters_closed method.params).append body).lawful_scope

theorem log_visitMethod (stored : session.symbols.InStore) {room : Nat}
    (fits : session.room = room + 1) (method : Located Method) :
    (session.visitMethod method).log = (session.announce method).log ++
      (method.data.remarks session.symbols.typeOf? (room + 1)).flatMap
        (Remark.findings session.options.maxNestingDepth
          (session.announce method).catalogue.find?) := by
  rw [visitMethod_run fits]
  have lawful := (lawful_inMethod method.data room).front
  have log := (inside_inMethod session method).log stored (method.data.script room) lawful
  rw [← options_announce session method]
  exact log

theorem symbols_visitMethod {room : Nat} (fits : session.room = room + 1)
    (method : Located Method) :
    (session.visitMethod method).symbols = session.symbols.acts
      (scopeAround (parametersOutline method.data.params ++
        actions (method.data.script room))) := by
  rw [visitMethod_run fits]
  have inside := (inside_inMethod session method).run (method.data.script room)
  rw [outOfMethod, inside.symbols, scopeAround, Symbols.acts_concat]

theorem kept_visitMethod {room : Nat} (fits : session.room = room + 1)
    (method : Located Method) :
    (session.visitMethod method).options = session.options ∧
      (session.visitMethod method).depth = session.depth ∧
      (session.visitMethod method).catalogue = (session.announce method).catalogue := by
  rw [visitMethod_run fits]
  have steady := ((stmts_render method.data.body).bracketed room).steady (session.inMethod method)
  refine ⟨steady.options.trans (options_announce session method), ?_, steady.catalogue⟩
  have depth : _ = session.depth + 1 := steady.depth
  exact congrArg Nat.pred depth

/-- Between two methods a session has the level and the options with which it began. -/
theorem visitMethod_level (session : Session) (method : Located Method) :
    (session.visitMethod method).options = session.options ∧
      (session.visitMethod method).depth = session.depth := by
  cases fits : session.room with
  | zero =>
      rw [visitMethod_refused fits]
      exact ⟨rfl, rfl⟩
  | succ room =>
      obtain ⟨options, depth, -⟩ := kept_visitMethod fits method
      exact ⟨options, depth⟩

theorem excursion_visitMethod (session : Session) (method : Located Method) :
    session.symbols.Excursion (session.visitMethod method).symbols := by
  cases fits : session.room with
  | zero =>
      rw [visitMethod_refused fits]
      exact Symbols.excursion_refl session.symbols
  | succ room =>
      have closed := (parameters_closed method.data.params).append
        ((stmts_render method.data.body).bracketed room).closed
      exact ⟨_, lawful_inMethod method.data room, closed.scope.level,
        symbols_visitMethod fits method⟩

end Session

end Sema
