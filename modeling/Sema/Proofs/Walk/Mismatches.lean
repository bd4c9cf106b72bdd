import Sema.Proofs.Typing.Names
import Sema.Proofs.Walk.Provenance
import Sema.Proofs.Walk.Visits

/-!
# Mismatches

A message that holds two types against each other shows two different names. A type fits itself, so
the two types differ; and as a walk only meets types that declarations name, or that expressions
over these have, different types are shown by different names.
-/

namespace Sema

/-- The two types that a message holds against each other. -/
def Message.compared? : Message Violation Doubt → Option (Ty × Ty)
  | .error _ (.assignmentMismatch _ source target) => some (source, target)
  | .error _ (.initializerMismatch _ source target) => some (source, target)
  | .error _ (.returnMismatch _ expected actual) => some (expected, actual)
  | .error _ (.argumentMismatch _ _ expected actual) => some (expected, actual)
  | .warning _ (.unrelatedOperands lhs rhs) => some (lhs, rhs)
  | _ => none

/-- The types that a message holds against each other are shown by different names. -/
def ToldApart (log : FindingLog) : Prop :=
  ∀ message ∈ log, ∀ left right, message.compared? = some (left, right) →
    left.display ≠ right.display

/-! ### Logs -/

theorem toldApart_nil : ToldApart [] := by simp [ToldApart]

theorem toldApart_one {message : Message Violation Doubt} (other : message.compared? = none) :
    ToldApart [message] := by
  intro same member left right compared
  obtain rfl := List.mem_singleton.mp member
  rw [other] at compared
  cases compared

theorem toldApart_pair {message : Message Violation Doubt} {left right : Ty}
    (compared : message.compared? = some (left, right)) (apart : left.display ≠ right.display) :
    ToldApart [message] := by
  intro same member first second shown
  obtain rfl := List.mem_singleton.mp member
  rw [compared] at shown
  cases shown
  exact apart

theorem ToldApart.append {front rest : FindingLog} (first : ToldApart front)
    (second : ToldApart rest) : ToldApart (front ++ rest) :=
  List.forall_mem_append.mpr ⟨first, second⟩

theorem toldApart_ite {fits : Bool} {first second : FindingLog} (held : ToldApart first)
    (other : ToldApart second) : ToldApart (if fits then first else second) := by
  cases fits with
  | true => exact held
  | false => exact other

/-- A nameable type that does not fit another is not shown like it. -/
theorem Ty.Nameable.display_ne {source target : Ty} (first : source.Nameable)
    (second : target.Nameable) (unfit : source.assignable target = false) :
    source.display ≠ target.display := by
  intro same
  obtain rfl := first.display_injective second same
  rw [Ty.assignable_refl] at unfit
  cases unfit

/-- The shape of the rules that hold the type of a value against a declared one. -/
theorem toldApart_value {source target : Ty} {silent failure : FindingLog} (first : source.Nameable)
    (second : target.Nameable) (quiet : ToldApart silent)
    (fails : source.display ≠ target.display → ToldApart failure) :
    ToldApart (if source.isUnknown then silent
      else if source.assignable target then [] else failure) := by
  apply toldApart_ite quiet
  cases fits : source.assignable target with
  | true => exact toldApart_nil
  | false => exact fails (first.display_ne second fits)

/-! ### Rules -/

namespace Context

/-- All types that the rules see declared are nameable. -/
structure Nameable (context : Context) : Prop where
  resolved : ∀ name type, context.variableType? name = some type → type.Nameable
  parameters : ∀ name signature, context.signature? name = some signature →
    ∀ param ∈ signature.params, param.ty.Nameable
  result : ∀ method, context.method = some method → method.returnTy.Nameable

variable {context : Context}

theorem Nameable.typeOf (nameable : context.Nameable) (expr : Expr) :
    (context.typeOf expr).Nameable :=
  nameable_typeIn nameable.resolved expr

theorem Nameable.assignment (nameable : context.Nameable) (name : String) (value : Expr)
    (line : UInt64) : ToldApart (context.assignment name value line) := by
  unfold Context.assignment
  cases found : context.variableType? name with
  | none => exact toldApart_one rfl
  | some target =>
      exact toldApart_value (nameable.typeOf value) (nameable.resolved name target found)
        (toldApart_one rfl) (toldApart_pair rfl)

theorem Nameable.initializer (nameable : context.Nameable) (name : String) {target : Ty}
    (declared : target.Nameable) (value : Expr) (line : UInt64) :
    ToldApart (context.initializer name target value line) := by
  unfold Context.initializer
  dsimp only
  cases fits : (context.typeOf value).assignable target with
  | true => simpa using toldApart_nil
  | false =>
      rw [Bool.or_false]
      exact toldApart_ite toldApart_nil
        (toldApart_pair rfl ((nameable.typeOf value).display_ne declared fits))

theorem operands_apart {lhs rhs : Ty} (first : lhs.Nameable) (second : rhs.Nameable) (op : BinaryOp)
    (line : UInt64) : ToldApart (Rule.operands op lhs rhs line) := by
  unfold Rule.operands
  cases op.family with
  | relational => exact toldApart_ite toldApart_nil (toldApart_one rfl)
  | equality =>
      dsimp only
      cases fits : lhs.assignable rhs with
      | true => exact toldApart_nil
      | false =>
          exact toldApart_ite toldApart_nil (toldApart_pair rfl (first.display_ne second fits))
  | logical =>
      exact ToldApart.append (toldApart_ite toldApart_nil (toldApart_one rfl))
        (toldApart_ite toldApart_nil (toldApart_one rfl))
  | arithmetic =>
      exact ToldApart.append (toldApart_ite toldApart_nil (toldApart_one rfl))
        (toldApart_ite toldApart_nil (toldApart_one rfl))
  | bitwise => exact toldApart_nil

theorem Nameable.binary (nameable : context.Nameable) (op : BinaryOp) (lhs rhs : Expr)
    (line : UInt64) : ToldApart (context.binary op lhs rhs line) :=
  toldApart_ite toldApart_nil (operands_apart (nameable.typeOf lhs) (nameable.typeOf rhs) op line)

theorem Nameable.returning (nameable : context.Nameable) (value : Option Expr) (line : UInt64) :
    ToldApart (context.returning value line) := by
  unfold Context.returning
  cases inside : context.method with
  | none => exact toldApart_one rfl
  | some method =>
      dsimp only
      split
      · exact toldApart_one rfl
      · exact toldApart_nil
      · exact toldApart_one rfl
      · exact toldApart_value (nameable.typeOf _) (nameable.result method inside)
          (toldApart_one rfl) fun apart => toldApart_pair rfl apart.symm

theorem Nameable.arguments (nameable : context.Nameable) (name : String) (line : UInt64)
    (position : Nat) {params : List ParameterType} (declared : ∀ param ∈ params, param.ty.Nameable)
    (args : List (Located Expr)) :
    ToldApart (context.arguments name line position params args) := by
  induction params generalizing position args with
  | nil => exact toldApart_nil
  | cons param params induction =>
      cases args with
      | nil => exact toldApart_nil
      | cons arg args =>
          obtain ⟨own, later⟩ := List.forall_mem_cons.mp declared
          have first : ToldApart (context.argument name position param arg.data line) :=
            toldApart_value (nameable.typeOf arg.data) own (toldApart_one rfl)
              fun apart => toldApart_pair rfl apart.symm
          exact first.append (induction (position + 1) later args)

theorem Nameable.call (nameable : context.Nameable) (name : String) (args : List (Located Expr))
    (line : UInt64) : ToldApart (context.call name args line) := by
  unfold Context.call
  cases found : context.signature? name with
  | none => exact toldApart_one rfl
  | some signature =>
      dsimp only
      split
      · exact nameable.arguments name line 1 (nameable.parameters name signature found) args
      · exact toldApart_one rfl

/-- A check that is made where all types are nameable tells apart what it finds not to fit. -/
theorem Nameable.findings (nameable : context.Nameable) (line : UInt64) {check : Check}
    (given : ∀ type, (Step.check line check).givenType? = some type → type.Nameable) :
    ToldApart (context.findings line check) := by
  cases check with
  | assignment name value => exact nameable.assignment name value line
  | initializer name target value => exact nameable.initializer name (given target rfl) value line
  | binary op lhs rhs => exact nameable.binary op lhs rhs line
  | condition cond construct =>
      exact toldApart_ite (toldApart_one rfl) (toldApart_ite toldApart_nil (toldApart_one rfl))
  | returning value => exact nameable.returning value line
  | call name args => exact nameable.call name args line

end Context

/-! ### Declared types -/

theorem nameable_given {history : List Action} {type : Ty} (given : type ∈ givenIn history) :
    type.Nameable := by
  obtain ⟨action, -, own⟩ := List.mem_filterMap.mp given
  cases action with
  | declare name ty line => exact ⟨ty, Option.some.inj own⟩
  | enter | leave | mention => cases own

theorem Symbols.nameable_given {symbols : Symbols} {type : Ty} (given : type ∈ symbols.givenTypes) :
    type.Nameable := by
  obtain ⟨entry, -, rfl⟩ := List.mem_map.mp given
  exact Ty.nameable_ofName entry.ty

namespace Method

theorem nameable_given {method : Method} {type : Ty} (given : type ∈ method.givenTypes) :
    type.Nameable := by
  rcases List.mem_cons.mp given with rfl | inside
  · exact Ty.nameable_ofName method.returnTy
  · exact Sema.nameable_given inside

theorem nameable_script (method : Method) (room : Nat) :
    ∀ type ∈ (method.script room).filterMap Step.givenType?, type.Nameable :=
  fun type member => Sema.nameable_given (stmts_draw method.body room type member)

end Method

/-! ### Sessions -/

namespace Session

/-- Every type that a session holds is nameable, and so is every type of an expression. -/
structure Nameable (session : Session) : Prop where
  locals : ∀ method env, session.locals.find? method = some env →
    ∀ name type, env.find? name = some type → type.Nameable
  results : ∀ name signature, session.catalogue.find? name = some signature →
    signature.returnTy.Nameable
  parameters : ∀ name signature, session.catalogue.find? name = some signature →
    ∀ param ∈ signature.params, param.ty.Nameable
  current : ∀ method, session.current = some method → method.returnTy.Nameable
  expressions : ∀ expr, (session.typeOf expr).Nameable

/-- What a walk keeps: all types are nameable, and all mismatches are told apart. -/
structure Clear (session : Session) : Prop where
  drawn : session.Drawn Ty.Nameable
  results : ∀ name signature, session.catalogue.find? name = some signature →
    signature.returnTy.Nameable
  apart : ToldApart session.log

variable {session : Session}

theorem Clear.context (clear : session.Clear) : session.context.Nameable where
  resolved _ _ found := clear.drawn.resolve found
  parameters := clear.drawn.signatures
  result := clear.drawn.current

theorem Clear.nameable (clear : session.Clear) : session.Nameable where
  locals := clear.drawn.locals
  results := clear.results
  parameters := clear.drawn.signatures
  current := clear.drawn.current
  expressions := clear.context.typeOf

theorem clear_start (symbols : Symbols) (options : Options) : (start symbols options).Clear where
  drawn := drawn_start options fun _ => Symbols.nameable_given
  results := by simp [start, Catalogue.find?, Catalogue.empty]
  apart := toldApart_nil

theorem Clear.perform (clear : session.Clear) {step : Step}
    (given : ∀ type, step.givenType? = some type → type.Nameable) :
    (session.perform step).Clear := by
  have drawn := clear.drawn.perform given
  cases step with
  | visit | done => exact ⟨drawn, clear.results, clear.apart⟩
  | refuse => exact ⟨drawn, clear.results, clear.apart.append (toldApart_one rfl)⟩
  | check line check =>
      exact ⟨drawn, clear.results, clear.apart.append (clear.context.findings line given)⟩
  | act action =>
      obtain ⟨log, -, catalogue⟩ := act_kept session action
      refine ⟨drawn, ?_, ?_⟩
      · rw [Session.perform, catalogue]
        exact clear.results
      · rw [Session.perform, log]
        exact clear.apart

theorem Clear.walk (clear : session.Clear) {script : List Step}
    (given : ∀ type ∈ script.filterMap Step.givenType?, type.Nameable) :
    (session.run script).Clear :=
  List.foldlRecOn _ _ clear fun _ clear step member =>
    clear.perform fun type own => given type (List.mem_filterMap.mpr ⟨step, member, own⟩)

theorem Clear.register (clear : session.Clear) (method : Located Method) :
    (session.register method).Clear := by
  have drawn : (session.register method).Drawn Ty.Nameable :=
    clear.drawn.register fun _ => Method.nameable_given
  -- The case distinction is the same in `drawn`, which says nothing of results and messages.
  unfold Session.register registerMethod Catalogue.add at drawn ⊢
  revert drawn
  cases session.catalogue.find? method.data.name with
  | some first =>
      exact fun drawn => ⟨drawn, clear.results, clear.apart.append (toldApart_one rfl)⟩
  | none =>
      refine fun drawn => ⟨drawn, ?_, clear.apart⟩
      intro name signature found
      rw [Catalogue.find?, Bindings.find?_bind] at found
      split at found
      · obtain rfl := Option.some.inj found
        exact Ty.nameable_ofName method.data.returnTy
      · exact clear.results name signature found

theorem Clear.inMethod (clear : session.Clear) (method : Located Method) :
    (session.inMethod method).Clear := by
  have announced : (session.announce method).Clear := by
    unfold announce
    split
    · exact clear
    · exact clear.register method
  exact ⟨clear.drawn.inMethod fun _ => Method.nameable_given, announced.results, announced.apart⟩

theorem Clear.visitMethod (clear : session.Clear) (method : Located Method) :
    (session.visitMethod method).Clear := by
  have drawn : (session.visitMethod method).Drawn Ty.Nameable :=
    clear.drawn.visitMethod fun _ => Method.nameable_given
  cases fits : session.room with
  | zero =>
      rw [visitMethod_refused fits] at drawn ⊢
      exact ⟨drawn, clear.results, clear.apart.append (toldApart_one rfl)⟩
  | succ room =>
      have walked := (clear.inMethod method).walk (method.data.nameable_script room)
      rw [visitMethod_run fits] at drawn ⊢
      exact ⟨drawn, walked.results, walked.apart⟩

theorem Clear.visits (clear : session.Clear) (methods : List (Located Method)) :
    (methods.foldl Session.visitMethod session).Clear :=
  List.foldlRecOn _ _ clear fun _ clear method _ => clear.visitMethod method

theorem Clear.prepare (clear : session.Clear) (program : Program) :
    (session.prepare program).Clear := by
  unfold Session.prepare
  split
  · exact List.foldlRecOn _ _ clear fun _ clear method _ => clear.register method
  · exact clear

/-- So it is at the beginning and at the end of every visit. -/
theorem Visits.clear {symbols : Symbols} {options : Options} {program : Program} {visit : Visit}
    (visits : (start symbols options).Visits program visit) :
    visit.before.Clear ∧ visit.after.Clear := by
  -- The steps before the visit, those of the visit and those after it make up the script.
  obtain ⟨earlier, method, later, room, front, tail, -, -, within⟩ := visits.located
  have begun := (((clear_start symbols options).prepare program).visits earlier).inMethod method
  have given := method.data.nameable_script room
  rw [within.place, List.filterMap_append, List.filterMap_append] at given
  obtain ⟨before, rest⟩ := List.forall_mem_append.mp given
  have reached : visit.before.Clear := by
    rw [within.before]
    exact begun.walk before
  refine ⟨reached, ?_⟩
  rw [Visit.after, (node_walks visit.node).runs visit.before within.inside_before.grounded]
  exact reached.walk (List.forall_mem_append.mp rest).1

end Session

/-- Every message that holds two types against each other shows two names. For after any number of
methods of an analysis, and around every visit in it, all types are nameable; and nameable types and
names stand for each other, but for the two names of strings. -/
theorem mismatches_name_two_types (symbols : Symbols) (options : Options) (program : Program) :
    ToldApart ((Session.start symbols options).analyse program).log ∧
    (∀ count, ((program.methods.take count).foldl Session.visitMethod
      ((Session.start symbols options).prepare program)).Nameable) ∧
    (∀ visit, (Session.start symbols options).Visits program visit →
      visit.before.Nameable ∧ visit.after.Nameable) ∧
    (∀ type : Ty, type.Nameable → .ofName type.display = type) ∧
    (∀ left right : Ty, left.Nameable → right.Nameable →
      left.display = right.display → left = right) ∧
    ∀ first second, Ty.ofName first = Ty.ofName second ↔
      first = second ∨ first ∈ Ty.namesOfStrings ∧ second ∈ Ty.namesOfStrings := by
  have begun := (Session.clear_start symbols options).prepare program
  refine ⟨(begun.visits program.methods).apart, ?_, ?_, ?_, ?_, Ty.ofName_eq_iff⟩
  · intro count
    exact (begun.visits (program.methods.take count)).nameable
  · intro visit visits
    obtain ⟨before, after⟩ := visits.clear
    exact ⟨before.nameable, after.nameable⟩
  · exact fun type nameable => Ty.nameable_iff.mp nameable
  · exact fun left right first second same => first.display_injective second same

/-- Its one variable is declared by the second name of strings and begins as a number. -/
def misbegun : Program :=
  ⟨[.place 1 1 ⟨"Main", "", [.place 2 5 (.method
    { returnTy := "void", name := "run", params := [],
      body := [.place 3 9 (.declare "string" "text" false
        (some (.place 3 23 (.literal "int" "1"))))] })]⟩]⟩

theorem misbegun_told_apart :
    ∃ message ∈ ((Session.start .empty {}).analyse misbegun).log,
      message.compared? = some (.ofName "int", .ofName "string") ∧
        (Ty.ofName "int").display ≠ (Ty.ofName "string").display := by
  have reported : .error (some 3) (.initializerMismatch "text" (.ofName "int") (.ofName "string")) ∈
      ((Session.start .empty {}).analyse misbegun).log := by decide
  obtain ⟨apart, -⟩ := mismatches_name_two_types .empty {} misbegun
  have different := apart _ reported (.ofName "int") (.ofName "string") rfl
  exact ⟨_, reported, rfl, different⟩

end Sema
