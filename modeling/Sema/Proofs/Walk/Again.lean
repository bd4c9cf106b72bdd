import Sema.Proofs.Walk.FirstPass
import Sema.Proofs.Walk.MethodVisit

/-!
# A second analysis

An analysis ends where it began, but for the log and for what it leaves in the table, in the locals
and in the catalogue. Of these a second analysis of the same program sees the catalogue alone, which
then holds the first method of every name, as it does after a first pass. So the second analysis
says of the bodies what an analysis with a first pass says of them, and it finds every method to be
declared already.
-/

namespace Sema

/-- The message reports a method as declared at the line of the first method of its name. -/
def Program.Cites (program : Program) (method : Located Method)
    (message : Message Violation Doubt) : Prop :=
  ∃ first, (program.methods.find? fun other => other.data.name = method.data.name) = some first ∧
    message = .error (some method.line) (.duplicateMethod method.data.name first.line)

/-- What a first pass reports if all methods of the program are known before it. -/
def passAgain (options : Options) (program : Program) : FindingLog :=
  if options.resolveForwardCalls then program.methods.flatMap (redeclaration program.methods)
  else []

/-! ### Redeclarations among other messages -/

theorem announcement_redeclares (options : Options) (known : List (Located Method))
    (method : Located Method) :
    ∀ message ∈ announcement options known method, message.redeclares = true := by
  unfold announcement
  split
  · simp
  · exact redeclaration_redeclares known method

theorem passAgain_redeclares (options : Options) (program : Program) :
    ∀ message ∈ passAgain options program, message.redeclares = true := by
  unfold passAgain
  split
  · intro message member
    obtain ⟨method, -, inside⟩ := List.mem_flatMap.mp member
    exact redeclaration_redeclares program.methods method message inside
  · simp

/-- Messages of bodies are no redeclarations, so both kinds can be told apart in a log. -/
theorem filter_bodies {front : FindingLog} {announced : Located Method → FindingLog}
    (frontRedeclares : ∀ message ∈ front, message.redeclares = true)
    (announcedRedeclares : ∀ method, ∀ message ∈ announced method, message.redeclares = true)
    (methods : List (Located Method)) (types : Typing) (limit : Nat)
    (signature? : String → Option Signature) :
    (front ++ methods.flatMap fun method =>
        announced method ++ method.data.messages types limit signature?).filter
          Message.redeclares = front ++ methods.flatMap announced ∧
      ((front ++ methods.flatMap fun method =>
        announced method ++ method.data.messages types limit signature?).filter
          fun message => !message.redeclares) =
        methods.flatMap fun method => method.data.messages types limit signature? := by
  have parts : ∀ method : Located Method, _ ∧ _ := fun method =>
    filter_redeclares (announcedRedeclares method)
      (messages_not_redeclaring ⟨[], method⟩ types limit signature?)
  have kept := List.filter_eq_self.mpr frontRedeclares
  have dropped : (front.filter fun message => !message.redeclares) = [] :=
    List.filter_eq_nil_iff.mpr fun message member => by simp [frontRedeclares message member]
  rw [List.filter_append, List.filter_append, List.filter_flatMap, List.filter_flatMap, kept,
    dropped, List.nil_append]
  exact ⟨congrArg (front ++ ·) (List.flatMap_congr fun method _ => (parts method).1),
    List.flatMap_congr fun method _ => (parts method).2⟩

/-- A method among those that are known is reported once. -/
theorem redeclaration_cites {program : Program} {method : Located Method}
    (member : method ∈ program.methods) :
    ∃ message, redeclaration program.methods method = [message] ∧
      program.Cites method message := by
  obtain ⟨first, found⟩ : ∃ first, (program.methods.find? fun other =>
      other.data.name = method.data.name) = some first := by
    rw [← Option.isSome_iff_exists, List.find?_isSome]
    exact ⟨method, member, by simp⟩
  refine ⟨_, ?_, first, found, rfl⟩
  rw [redeclaration, declaredIn, found]
  rfl

theorem redeclarations_cite {program : Program} {methods : List (Located Method)}
    (within : ∀ method ∈ methods, method ∈ program.methods) :
    List.Forall₂ program.Cites methods
      (methods.flatMap (redeclaration program.methods)) := by
  induction methods with
  | nil => exact .nil
  | cons method rest induction =>
      obtain ⟨message, single, cites⟩ := redeclaration_cites (within method List.mem_cons_self)
      rw [List.flatMap_cons, single]
      exact .cons cites (induction fun other member => within other (List.mem_cons_of_mem _ member))

namespace Session

variable {base : Symbols} {options : Options} {session : Session} {program : Program}

/-! ### Analyses of known methods -/

theorem register_all_known {known methods : List (Located Method)}
    (signatures : session.catalogue.find? = declaredIn known)
    (within : ∀ method ∈ methods, method ∈ known) :
    methods.foldl register session = session.note (methods.flatMap (redeclaration known)) := by
  induction methods generalizing session with
  | nil => simp [note]
  | cons method rest induction =>
      have first := register_known signatures (within method List.mem_cons_self)
      have later : (session.note (redeclaration known method)).catalogue.find? =
          declaredIn known := signatures
      rw [List.foldl_cons, first,
        induction later fun other member => within other (List.mem_cons_of_mem _ member)]
      simp [note]

theorem Between.prepare_known (between : session.Between base options)
    (signatures : options.resolveForwardCalls = true →
      session.catalogue.find? = declaredIn program.methods) :
    session.prepare program = session.note (passAgain options program) := by
  unfold Session.prepare passAgain
  rw [between.options]
  split
  · rename_i ahead
    exact register_all_known (signatures ahead) fun _ member => member
  · simp [note]

theorem Between.analyse_known (between : session.Between base options) (stored : base.InStore)
    (signatures : options.resolveForwardCalls = true ∨ 0 < options.maxNestingDepth →
      session.catalogue.find? = declaredIn program.methods) :
    (session.analyse program).catalogue = session.catalogue ∧
      (session.analyse program).log = session.log ++ (passAgain options program ++
        program.methods.flatMap fun method => announcement options program.methods method ++
          method.data.messages base.typeOf? options.maxNestingDepth
            (declaredIn program.methods)) := by
  have prepared := between.prepare_known fun ahead => signatures (.inl ahead)
  have known : 0 < options.maxNestingDepth →
      (session.prepare program).catalogue.find? = declaredIn program.methods := by
    intro positive
    rw [prepared]
    exact signatures (.inr positive)
  have visits := (between.prepare program).visits_known stored known fun _ member => member
  rw [prepared] at visits
  rw [analyse_eq, prepared, visits.1, visits.2]
  exact ⟨rfl, by simp [note]⟩

theorem redeclarations_known (positive : 0 < options.maxNestingDepth) :
    passAgain options program ++ program.methods.flatMap (announcement options program.methods) =
      program.methods.flatMap (redeclaration program.methods) := by
  unfold passAgain announcement
  cases options.resolveForwardCalls with
  | true => simp
  | false => simp [Nat.ne_of_gt positive]

end Session

/-- What a second analysis of a program adds: the messages of an analysis with a first pass but for
its redeclarations, and if there is room for bodies, a redeclaration of every method. -/
theorem second_analysis {symbols : Symbols} (reachable : symbols.Reachable) (options : Options)
    (program : Program) :
    ∃ added,
      (((Session.start symbols options).analyse program).analyse program).log =
        ((Session.start symbols options).analyse program).log ++ added ∧
      (added.filter fun message => !message.redeclares) =
        (((Session.start symbols ⟨true, options.maxNestingDepth⟩).analyse program).log.filter
          fun message => !message.redeclares) ∧
      (0 < options.maxNestingDepth →
        List.Forall₂ program.Cites program.methods (added.filter Message.redeclares)) ∧
      (((Session.start symbols options).analyse program).analyse program).catalogue =
        ((Session.start symbols options).analyse program).catalogue ∧
      ∀ name, (((Session.start symbols options).analyse program).analyse program).locals.find?
          name = ((Session.start symbols options).analyse program).locals.find? name := by
  have stored := reachable.in_store
  have started := Session.between_start symbols options
  have between : ((Session.start symbols options).analyse program).Between symbols options :=
    (started.prepare program).visits program.methods
  obtain ⟨catalogue, log⟩ := between.analyse_known stored fun registers =>
    Session.signatures_analyse stored registers program
  have fresh : ((Session.start symbols ⟨true, options.maxNestingDepth⟩).analyse program).log = _ :=
    (Session.log_ahead rfl stored program).2
  obtain ⟨redeclarations, others⟩ := filter_bodies (passAgain_redeclares options program)
    (announcement_redeclares options program.methods) program.methods symbols.typeOf?
    options.maxNestingDepth (declaredIn program.methods)
  refine ⟨_, log, ?_, ?_, catalogue, ?_⟩
  · rw [others, (filter_ahead program symbols.typeOf? options.maxNestingDepth fresh).2,
      flatMap_noted]
    exact (flatMap_placed [] program.methods _).symm
  · intro positive
    rw [redeclarations, Session.redeclarations_known positive]
    exact redeclarations_cite fun _ member => member
  · intro name
    rw [between.locals_analyse, started.locals_analyse]
    cases lastLocals options.maxNestingDepth program.methods name <;> rfl

/-- The first of two methods calls the second, which is declared once more with a wrong result. -/
def duet : Program :=
  let method (line : UInt64) (name : String) (body : List (Located Stmt)) : Located Member :=
    .place line 1 (.method { returnTy := "void", name, params := [], body })
  ⟨[.place 1 1 ⟨"Sample", "",
    [method 2 "lead" [.place 3 5 (.expression (.place 3 5 (.call "follow" [])))],
      method 5 "follow" [],
      method 7 "follow" [.place 8 5 (.returning (some (.place 8 12 (.literal "int" "1"))))]]⟩]⟩

theorem duet_again :
    (∃ added,
      (((Session.start .empty {}).analyse duet).analyse duet).log =
        ((Session.start .empty {}).analyse duet).log ++ added ∧
      List.Forall₂ duet.Cites duet.methods (added.filter Message.redeclares) ∧
      (added.filter fun message => !message.redeclares) =
        [.error (some 8) (.voidReturnsValue "follow")]) ∧
    ((Session.start .empty {}).analyse duet).log =
      [.warning (some 3) (.methodNotFound "follow"),
        .error (some 7) (.duplicateMethod "follow" 5),
        .error (some 8) (.voidReturnsValue "follow")] := by
  obtain ⟨added, log, others, redeclarations, -⟩ := second_analysis .empty {} duet
  exact ⟨⟨added, log, redeclarations (by decide), others.trans (by decide)⟩, by decide⟩

end Sema
