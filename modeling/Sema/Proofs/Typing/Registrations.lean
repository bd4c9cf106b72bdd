import Sema.Checker.Session
import Mathlib.Data.List.Forall2
import Mathlib.Data.List.Induction

/-!
# Calls of registered methods

After any registrations the catalogue has the first one of every name, and each later one of a name
was refused with a message. What is said of a call depends on the first registration of its name
alone: nothing but that there is none, nothing but that the number of arguments is wrong, or one
message for each argument that does not fit, from left to right.
-/

namespace Sema

structure Registration where
  name : String
  returnTy : String
  params : List ParameterType
  line : UInt64

namespace Registration

def signature (registration : Registration) : Signature :=
  ⟨registration.name, .ofName registration.returnTy, registration.params, registration.line⟩

end Registration

/-- The first registration of a name. -/
def firstOf (registrations : List Registration) (name : String) : Option Registration :=
  registrations.find? fun registration => registration.name = name

/-- The messages of registrations: each whose name was registered before it is refused. -/
def repetitions (registrations : List Registration) : FindingLog :=
  registrations.zipIdx.filterMap fun (registration, place) =>
    (firstOf (registrations.take place) registration.name).map fun first =>
      .error (some registration.line) (.duplicateMethod registration.name first.line)

def Session.registerAll (session : Session) (registrations : List Registration) : Session :=
  registrations.foldl (fun session registration => session.registerMethod registration.name
    registration.returnTy registration.params registration.line) session

/-- What is said of an argument at a position, if anything. -/
inductive Objection (typeOf : Expr → Ty) (method : String) (line : UInt64) (position : Nat)
    (param : Ty) (arg : Expr) : Message Violation Doubt → Prop
  | untyped :
      typeOf arg = .unknown →
      Objection typeOf method line position param arg
        (.warning (some line) (.untypedArgument position method))
  | unfit :
      typeOf arg ≠ .unknown → (typeOf arg).assignable param = false →
      Objection typeOf method line position param arg
        (.error (some line) (.argumentMismatch position method param (typeOf arg)))

/-- An objection to one of several arguments, the first of which has the given position. -/
def ObjectionAt (typeOf : Expr → Ty) (method : String) (line : UInt64) (start : Nat)
    (params : List ParameterType) (args : List (Located Expr)) (position : Nat)
    (message : Message Violation Doubt) : Prop :=
  ∃ place param arg, start + place = position ∧ params[place]? = some param ∧
    args[place]? = some arg ∧ Objection typeOf method line position param.ty arg.data message

/-- There is one message for each position with an objection, from left to right. -/
def ReportsEach (objects : Nat → Message Violation Doubt → Prop) (messages : FindingLog) : Prop :=
  ∃ positions : List Nat, positions.Pairwise (· < ·) ∧
    (∀ position, position ∈ positions ↔ ∃ message, objects position message) ∧
    List.Forall₂ objects positions messages

/-- What is said of a call after registrations. -/
inductive CallVerdict (typeOf : Expr → Ty) (registrations : List Registration) (name : String)
    (args : List (Located Expr)) (line : UInt64) : FindingLog → Prop
  | unregistered :
      (∀ registration ∈ registrations, registration.name ≠ name) →
      CallVerdict typeOf registrations name args line [.warning (some line) (.methodNotFound name)]
  | miscounted {first : Registration} :
      firstOf registrations name = some first → first.params.length ≠ args.length →
      CallVerdict typeOf registrations name args line
        [.error (some line) (.argumentCount name first.params.length args.length)]
  | examined {first : Registration} {messages : FindingLog} :
      firstOf registrations name = some first → first.params.length = args.length →
      ReportsEach (ObjectionAt typeOf name line 1 first.params args) messages →
      CallVerdict typeOf registrations name args line messages

/-! ### Registrations -/

theorem firstOf_concat (registrations : List Registration) (registration : Registration)
    (name : String) :
    firstOf (registrations ++ [registration]) name =
      (firstOf registrations name).or
        (if registration.name = name then some registration else none) := by
  rw [firstOf, List.find?_append, firstOf, List.find?_singleton]
  simp

theorem repetitions_concat (registrations : List Registration) (registration : Registration) :
    repetitions (registrations ++ [registration]) = repetitions registrations ++
      ((firstOf registrations registration.name).map fun first =>
        .error (some registration.line)
          (.duplicateMethod registration.name first.line)).toList := by
  rw [repetitions, List.zipIdx_append, List.filterMap_append]
  congr 1
  · refine List.filterMap_congr fun (earlier, place) member => ?_
    have inside : place < registrations.length := (List.mem_zipIdx' member).1
    show Option.map _ (firstOf ((registrations ++ [registration]).take place) earlier.name) = _
    rw [List.take_append_of_le_length (Nat.le_of_lt inside)]
  · cases found : firstOf registrations registration.name <;> simp [found]

/-- What a registration does: a new name enters the catalogue, a known one is refused. -/
theorem registerMethod_eq (session : Session) (registration : Registration) :
    session.registerMethod registration.name registration.returnTy registration.params
        registration.line =
      match session.catalogue.find? registration.name with
      | none => { session with
          catalogue :=
            ⟨session.catalogue.signatures.bind registration.name registration.signature⟩ }
      | some first => session.note
          [.error (some registration.line) (.duplicateMethod registration.name first.line)] := by
  unfold Session.registerMethod Catalogue.add
  cases session.catalogue.find? registration.name <;> rfl

/-- The catalogue has the first registration of every name, the log the repetitions. -/
theorem registered (symbols : Symbols) (options : Options) (registrations : List Registration) :
    (∀ name, ((Session.start symbols options).registerAll registrations).catalogue.find? name =
      (firstOf registrations name).map Registration.signature) ∧
    (Session.start symbols options).registerAll registrations =
      { Session.start symbols options with
        catalogue := ((Session.start symbols options).registerAll registrations).catalogue
        log := repetitions registrations } := by
  induction registrations using List.reverseRecOn with
  | nil => exact ⟨fun name => rfl, rfl⟩
  | append_singleton registrations registration induction =>
      obtain ⟨holds, earlier⟩ := induction
      have step : (Session.start symbols options).registerAll (registrations ++ [registration]) =
          ((Session.start symbols options).registerAll registrations).registerMethod
            registration.name registration.returnTy registration.params registration.line := by
        simp [Session.registerAll, List.foldl_append]
      rw [step, registerMethod_eq, holds, repetitions_concat]
      generalize (Session.start symbols options).registerAll registrations = session at *
      cases found : firstOf registrations registration.name with
      | none =>
          constructor
          · intro name
            show (session.catalogue.signatures.bind _ _).find? name = _
            rw [Bindings.find?_bind, firstOf_concat]
            by_cases same : registration.name = name
            · subst same
              simp [found]
            · simp only [same, if_false, Option.or_none]
              exact holds name
          · simp only [Option.map_none, Option.toList_none, List.append_nil]
            rw [earlier]
      | some first =>
          constructor
          · intro name
            show session.catalogue.find? name = _
            rw [holds, firstOf_concat]
            by_cases same : registration.name = name
            · subst same
              simp [found]
            · simp [same]
          · simp only [Option.map_some, Option.toList_some]
            show session.note _ = _
            rw [earlier]
            rfl

/-! ### Calls -/

section

variable {typeOf : Expr → Ty} {method : String} {line : UInt64} {start : Nat}
  {param : ParameterType} {params : List ParameterType} {arg : Located Expr}
  {args : List (Located Expr)}

theorem objectionAt_cons {position : Nat} {message : Message Violation Doubt} :
    ObjectionAt typeOf method line start (param :: params) (arg :: args) position message ↔
      position = start ∧ Objection typeOf method line start param.ty arg.data message ∨
        ObjectionAt typeOf method line (start + 1) params args position message := by
  constructor
  · rintro ⟨place, found, given, rfl, atPlace, givenThere, objection⟩
    cases place with
    | zero =>
        cases atPlace
        cases givenThere
        exact .inl ⟨rfl, objection⟩
    | succ place =>
        refine .inr ⟨place, found, given, by omega, atPlace, givenThere, objection⟩
  · rintro (⟨rfl, objection⟩ | ⟨place, found, given, rfl, atPlace, givenThere, objection⟩)
    · exact ⟨0, param, arg, rfl, rfl, rfl, objection⟩
    · exact ⟨place + 1, found, given, by omega, atPlace, givenThere, objection⟩

theorem ObjectionAt.start_le {position : Nat} {message : Message Violation Doubt}
    (objection : ObjectionAt typeOf method line start params args position message) :
    start ≤ position := by
  obtain ⟨place, -, -, rfl, -⟩ := objection
  exact Nat.le_add_right start place

/-- An argument is reported once if there is an objection to it, and otherwise not at all. -/
theorem argument_reported (context : Context) (method : String) (line : UInt64) (position : Nat)
    (param : ParameterType) (arg : Expr) :
    (∃ message, context.argument method position param arg line = [message] ∧
      Objection context.typeOf method line position param.ty arg message) ∨
    context.argument method position param arg line = [] ∧
      ∀ message, ¬ Objection context.typeOf method line position param.ty arg message := by
  unfold Context.argument
  by_cases untyped : context.typeOf arg = .unknown
  · left
    exact ⟨_, by simp [untyped, Ty.isUnknown, warningAt], .untyped untyped⟩
  · cases fits : (context.typeOf arg).assignable param.ty with
    | true =>
        right
        refine ⟨by simp [untyped, Ty.isUnknown, fits], ?_⟩
        rintro message (unknown | ⟨-, unfit⟩)
        · exact untyped unknown
        · rw [fits] at unfit
          cases unfit
    | false =>
        left
        exact ⟨_, by simp [untyped, Ty.isUnknown, fits, errorAt], .unfit untyped fits⟩

end

/-- The arguments are reported from left to right, each by the type that it has. -/
theorem arguments_reported (context : Context) (method : String) (line : UInt64) (start : Nat)
    (params : List ParameterType) (args : List (Located Expr)) :
    ReportsEach (ObjectionAt context.typeOf method line start params args)
      (context.arguments method line start params args) := by
  fun_induction Context.arguments context method line start params args with
  | case1 start param params arg args induction =>
      obtain ⟨positions, ascending, exactly, reported⟩ := induction
      have kept : List.Forall₂
          (ObjectionAt context.typeOf method line start (param :: params) (arg :: args)) positions
          (context.arguments method line (start + 1) params args) :=
        reported.imp fun _ _ objection => objectionAt_cons.mpr (.inr objection)
      obtain ⟨message, once, objection⟩ | ⟨silent, unobjected⟩ :=
        argument_reported context method line start param arg.data
      · rw [once]
        -- The rest is about positions further right, so this one comes first and only once.
        have later : ∀ position ∈ positions, start < position := fun position member =>
          have ⟨_, objection⟩ := (exactly position).mp member
          objection.start_le
        refine ⟨start :: positions, List.pairwise_cons.mpr ⟨later, ascending⟩, fun position => ?_,
          .cons (objectionAt_cons.mpr (.inl ⟨rfl, objection⟩)) kept⟩
        simp only [List.mem_cons, exactly, objectionAt_cons, exists_or, exists_and_left]
        exact or_congr_left ⟨fun here => ⟨here, message, objection⟩, And.left⟩
      · rw [silent]
        refine ⟨positions, ascending, fun position => ?_, kept⟩
        simp only [exactly, objectionAt_cons, unobjected, and_false, false_or]
  -- Without a parameter or without an argument there is no place for an objection.
  | case2 params start args unpaired =>
      refine ⟨[], .nil, fun position => ⟨nofun, ?_⟩, .nil⟩
      rintro ⟨message, place, param, arg, -, found, given, -⟩
      cases params with
      | nil => cases found
      | cons first rest =>
          cases args with
          | nil => cases given
          | cons head tail => exact (unpaired first rest head tail rfl rfl).elim

/-- What a call is told after registrations, in the words of the first of its name. -/
theorem call_verdict (session : Session) (registrations : List Registration) (name : String)
    (args : List (Located Expr)) (line : UInt64)
    (holds : session.catalogue.find? name =
      (firstOf registrations name).map Registration.signature) :
    CallVerdict session.typeOf registrations name args line
      (session.context.call name args line) := by
  have seen : session.context.signature? name =
      (firstOf registrations name).map Registration.signature := holds
  unfold Context.call
  rw [seen]
  cases found : firstOf registrations name with
  | none =>
      have never : ∀ registration ∈ registrations, registration.name ≠ name := by
        simpa [firstOf] using found
      exact .unregistered never
  | some first =>
      show CallVerdict _ _ _ _ _ (if first.params.length = args.length then _ else _)
      by_cases fits : first.params.length = args.length
      · rw [if_pos fits]
        exact .examined found fits
          (arguments_reported session.context name line 1 first.params args)
      · rw [if_neg fits]
        exact .miscounted found fits

/-- After any registrations the catalogue has the first signature of every name and the log one
error for each later one, at its own line and with the line of the first. A call adds the messages
of its verdict and changes nothing else. -/
theorem call_after_registrations (symbols : Symbols) (options : Options)
    (registrations : List Registration) (name : String) (args : List (Located Expr))
    (line : UInt64) :
    let session := (Session.start symbols options).registerAll registrations
    (∀ sought, session.catalogue.find? sought =
      (firstOf registrations sought).map Registration.signature) ∧
    session = { Session.start symbols options with
      catalogue := session.catalogue
      log := repetitions registrations } ∧
    ∃ messages, session.checkCall name args line =
        { session with log := repetitions registrations ++ messages } ∧
      CallVerdict session.typeOf registrations name args line messages := by
  intro session
  obtain ⟨holds, earlier⟩ := registered symbols options registrations
  refine ⟨holds, earlier, session.context.call name args line, ?_,
    call_verdict session registrations name args line (holds name)⟩
  have logged : session.log = repetitions registrations := congrArg Session.log earlier
  rw [← logged]
  rfl

end Sema
