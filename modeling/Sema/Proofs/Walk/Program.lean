import Sema.Proofs.Walk.Alike
import Sema.Proofs.Walk.Remarks

/-!
# Whole programs

Between two methods a session stands where it stood at the start: no scope is open that was not open
then, and the table gives to every name the type that it gave at the start. What differs is the
catalogue. It holds the first declaration of every method name, of the methods so far or, with a
first pass, of all of them.
-/

namespace Sema

/-! ### Signatures -/

def signatureOf (method : Located Method) : Signature :=
  ⟨method.data.name, .ofName method.data.returnTy, method.data.parameterTypes, method.line⟩

/-- The first declaration of a name counts. -/
def declaredIn (methods : List (Located Method)) (name : String) : Option Signature :=
  (methods.find? fun method => method.data.name = name).map signatureOf

/-- The message of a declaration with others before it. -/
def redeclaration (earlier : List (Located Method)) (method : Located Method) : FindingLog :=
  match declaredIn earlier method.data.name with
  | none => []
  | some first => errorAt method.line (.duplicateMethod method.data.name first.line)

theorem declaredIn_append (front rest : List (Located Method)) (name : String) :
    declaredIn (front ++ rest) name = (declaredIn front name).or (declaredIn rest name) := by
  rw [declaredIn, List.find?_append, Option.map_or]
  rfl

theorem declaredIn_eq_none {methods : List (Located Method)} {name : String} :
    declaredIn methods name = none ↔ name ∉ methods.map fun method => method.data.name := by
  simp [declaredIn]

theorem declaredIn_singleton (method : Located Method) (name : String) :
    declaredIn [method] name =
      if method.data.name = name then some (signatureOf method) else none := by
  by_cases same : method.data.name = name <;> simp [declaredIn, same]

theorem redeclaration_nil {earlier : List (Located Method)} {method : Located Method} :
    redeclaration earlier method = [] ↔
      method.data.name ∉ earlier.map fun method => method.data.name := by
  rw [← declaredIn_eq_none, redeclaration]
  cases declaredIn earlier method.data.name with
  | none => simp
  | some first => simp [errorAt]

namespace Catalogue

/-- The catalogue after a declaration, which counts if it is the first of its name. -/
def enrol (catalogue : Catalogue) (method : Located Method) : Catalogue :=
  match catalogue.add (signatureOf method) with
  | .ok next => next
  | .error _ => catalogue

theorem add_known {catalogue : Catalogue} {method : Located Method} {first : Signature}
    (known : catalogue.find? method.data.name = some first) :
    catalogue.add (signatureOf method) = .error ⟨first.line⟩ := by
  rw [add, show catalogue.find? (signatureOf method).name = some first from known]

theorem add_new {catalogue : Catalogue} {method : Located Method}
    (unknown : catalogue.find? method.data.name = none) :
    catalogue.add (signatureOf method) =
      .ok ⟨catalogue.signatures.bind method.data.name (signatureOf method)⟩ := by
  rw [add, show catalogue.find? (signatureOf method).name = none from unknown]
  rfl

theorem find_enrol (catalogue : Catalogue) (method : Located Method) (name : String) :
    (catalogue.enrol method).find? name =
      (catalogue.find? name).or (declaredIn [method] name) := by
  rw [declaredIn_singleton]
  cases known : catalogue.find? method.data.name with
  | some first =>
      rw [enrol, add_known known]
      by_cases same : method.data.name = name
      · rw [← same, known]
        rfl
      · simp [same]
  | none =>
      rw [enrol, add_new known, find?, Bindings.find?_bind]
      by_cases same : method.data.name = name
      · rw [if_pos same, if_pos same, ← same, known]
        rfl
      · rw [if_neg same, if_neg same, Option.or_none]
        rfl

theorem find_enrolled (catalogue : Catalogue) (methods : List (Located Method)) (name : String) :
    (methods.foldl enrol catalogue).find? name =
      (catalogue.find? name).or (declaredIn methods name) := by
  induction methods generalizing catalogue with
  | nil => exact (Option.or_none).symm
  | cons method rest induction =>
      rw [List.foldl_cons, induction, find_enrol, Option.or_assoc, ← declaredIn_append]
      rfl

end Catalogue

/-! ### Methods with those above them -/

structure Placed where
  earlier : List (Located Method)
  method : Located Method

def placed (earlier : List (Located Method)) : List (Located Method) → List Placed
  | [] => []
  | method :: rest => ⟨earlier, method⟩ :: placed (earlier ++ [method]) rest

def Program.placed (program : Program) : List Placed := Sema.placed [] program.methods

namespace Placed

def redeclaration (place : Placed) : FindingLog := Sema.redeclaration place.earlier place.method

/-- The methods that are registered when the body is walked, without a first pass. -/
def sofar (place : Placed) : List (Located Method) := place.earlier ++ [place.method]

/-- The messages of the body, given the signatures that its calls see. -/
def messages (place : Placed) (types : Typing) (limit : Nat)
    (signature? : String → Option Signature) : FindingLog :=
  (place.method.data.remarks types limit).flatMap (Remark.findings limit signature?)

end Placed

theorem mem_placed {earlier methods : List (Located Method)} {place : Placed} :
    place ∈ placed earlier methods ↔
      ∃ front later, methods = front ++ place.method :: later ∧
        place.earlier = earlier ++ front := by
  induction methods generalizing earlier with
  | nil => simp [placed]
  | cons method rest induction =>
      rw [placed, List.mem_cons, induction]
      constructor
      · rintro (rfl | ⟨front, later, rfl, above⟩)
        · exact ⟨[], rest, rfl, by simp⟩
        · exact ⟨method :: front, later, rfl, by simp [above]⟩
      · rintro ⟨front, later, split, above⟩
        cases front with
        | nil =>
            obtain ⟨rfl, rfl⟩ := List.cons.inj split
            rw [List.append_nil] at above
            exact .inl (by rw [← above])
        | cons head front =>
            obtain ⟨rfl, rfl⟩ := List.cons.inj split
            exact .inr ⟨front, later, rfl, by simp [above]⟩

theorem placed_redeclarations {earlier methods : List (Located Method)} :
    (∀ place ∈ placed earlier methods, place.redeclaration = []) ↔
      (methods.map fun method => method.data.name).Nodup ∧
        ∀ method ∈ methods, method.data.name ∉ earlier.map fun method => method.data.name := by
  induction methods generalizing earlier with
  | nil => simp [placed]
  | cons method rest induction =>
      have apart : (∀ other ∈ rest, other.data.name ∉
            (earlier ++ [method]).map fun method => method.data.name) ↔
          (∀ other ∈ rest, other.data.name ∉ earlier.map fun method => method.data.name) ∧
            method.data.name ∉ rest.map fun method => method.data.name := by
        simp only [List.map_append, List.mem_append, not_or, forall_and]
        refine and_congr_right fun _ => ?_
        simp [List.mem_map]
      rw [placed, List.forall_mem_cons, induction, apart, Placed.redeclaration, redeclaration_nil,
        List.map_cons, List.nodup_cons, List.forall_mem_cons]
      constructor
      · rintro ⟨own, distinct, others, fresh⟩
        exact ⟨⟨fresh, distinct⟩, own, others⟩
      · rintro ⟨⟨fresh, distinct⟩, own, others⟩
        exact ⟨own, distinct, others, fresh⟩

/-- What is said of the methods alone does not depend on those above them. -/
theorem flatMap_placed (earlier methods : List (Located Method))
    (messages : Located Method → FindingLog) :
    (placed earlier methods).flatMap (fun place => messages place.method) =
      methods.flatMap messages := by
  induction methods generalizing earlier with
  | nil => rfl
  | cons method rest induction =>
      rw [placed, List.flatMap_cons, List.flatMap_cons, induction]

namespace Session

/-- A moment between two methods. -/
structure Between (base : Symbols) (options : Options) (session : Session) : Prop where
  stacked : base.Over [] session.symbols
  options : session.options = options
  depth : session.depth = 0

variable {base : Symbols} {options : Options} {session : Session}
  {earlier : List (Located Method)}

theorem between_start (base : Symbols) (options : Options) :
    (start base options).Between base options := ⟨Symbols.over_refl base, rfl, rfl⟩

theorem Between.room (between : session.Between base options) :
    session.room = options.maxNestingDepth := by
  rw [Session.room, between.options, between.depth, Nat.sub_zero]

/-- A positive limit leaves room for a method. -/
theorem Between.room_left (between : session.Between base options)
    (positive : 0 < options.maxNestingDepth) :
    ∃ room, options.maxNestingDepth = room + 1 ∧ session.room = room + 1 := by
  obtain ⟨room, limit⟩ := Nat.exists_eq_add_one.mpr positive
  exact ⟨room, limit, between.room.trans limit⟩

theorem Between.visit (between : session.Between base options) (method : Located Method) :
    (session.visitMethod method).Between base options := by
  obtain ⟨sameOptions, sameDepth⟩ := visitMethod_level session method
  have excursion := excursion_visitMethod session method
  exact ⟨between.stacked.trans excursion.over, sameOptions.trans between.options,
    sameDepth.trans between.depth⟩

theorem Between.visits (between : session.Between base options) (methods : List (Located Method)) :
    (methods.foldl visitMethod session).Between base options := by
  induction methods generalizing session with
  | nil => exact between
  | cons method rest induction => exact induction (between.visit method)

theorem excursion_visits (methods : List (Located Method)) (session : Session) :
    session.symbols.Excursion (methods.foldl visitMethod session).symbols := by
  induction methods generalizing session with
  | nil => exact Symbols.excursion_refl session.symbols
  | cons method rest induction =>
      exact (excursion_visitMethod session method).trans (induction (session.visitMethod method))

/-- Whatever a session has done before, an analysis closes the scopes that it opens. -/
theorem excursion_analyse (session : Session) (program : Program) :
    session.symbols.Excursion (session.analyse program).symbols := by
  have prepared := (alike_prepare session program).symbols
  have visited := excursion_visits program.methods (session.prepare program)
  rwa [prepared] at visited

/-! ### Registrations -/

theorem register_eq (known : session.catalogue.find? = declaredIn earlier)
    (method : Located Method) :
    session.register method =
      { session with
        catalogue := session.catalogue.enrol method
        log := session.log ++ redeclaration earlier method } := by
  have own : session.catalogue.find? method.data.name = declaredIn earlier method.data.name := by
    rw [known]
  have built : session.register method =
      match session.catalogue.add (signatureOf method) with
      | .ok catalogue => { session with catalogue }
      | .error first =>
          session.note (errorAt method.line (.duplicateMethod method.data.name first.line)) := rfl
  rw [built, redeclaration, ← own, Catalogue.enrol]
  cases found : session.catalogue.find? method.data.name with
  | none => simp [Catalogue.add_new found]
  | some first => simp [Catalogue.add_known found, note]

theorem enrol_known (known : session.catalogue.find? = declaredIn earlier)
    (method : Located Method) :
    (session.catalogue.enrol method).find? = declaredIn (earlier ++ [method]) := by
  funext name
  rw [Catalogue.find_enrol, known, declaredIn_append]

/-- A first pass reports every declaration of a name but the first. -/
theorem register_all (known : session.catalogue.find? = declaredIn earlier)
    (methods : List (Located Method)) :
    methods.foldl register session =
      { session with
        catalogue := methods.foldl Catalogue.enrol session.catalogue
        log := session.log ++ (placed earlier methods).flatMap Placed.redeclaration } := by
  induction methods generalizing session earlier with
  | nil => simp [placed]
  | cons method rest induction =>
      rw [List.foldl_cons, register_eq known]
      have later : rest.foldl register { session with
          catalogue := session.catalogue.enrol method
          log := session.log ++ redeclaration earlier method } = _ :=
        induction (enrol_known known method)
      rw [later]
      simp [placed, Placed.redeclaration]

/-! ### Visits of all methods -/

theorem Between.announce_single (between : session.Between base options)
    (single : options.resolveForwardCalls = false) (method : Located Method) :
    session.announce method = session.register method := by
  rw [announce, between.options, single]
  rfl

theorem Between.log_visit (between : session.Between base options) (stored : base.InStore)
    (positive : 0 < options.maxNestingDepth) (method : Located Method) :
    (session.visitMethod method).log = (session.announce method).log ++
      (method.data.remarks base.typeOf? options.maxNestingDepth).flatMap
        (Remark.findings options.maxNestingDepth (session.announce method).catalogue.find?) := by
  obtain ⟨room, limit, fits⟩ := between.room_left positive
  rw [log_visitMethod (between.stacked.in_store stored) fits, between.stacked.typeOf stored,
    between.options, limit]

theorem Between.catalogue_visit (between : session.Between base options)
    (positive : 0 < options.maxNestingDepth) (method : Located Method) :
    (session.visitMethod method).catalogue = (session.announce method).catalogue := by
  obtain ⟨room, limit, fits⟩ := between.room_left positive
  obtain ⟨-, -, catalogue⟩ := kept_visitMethod fits method
  exact catalogue

/-- Without a first pass a body sees the methods so far. -/
theorem Between.visits_single (between : session.Between base options) (stored : base.InStore)
    (positive : 0 < options.maxNestingDepth) (single : options.resolveForwardCalls = false)
    (known : session.catalogue.find? = declaredIn earlier) (methods : List (Located Method)) :
    (methods.foldl visitMethod session).catalogue =
        methods.foldl Catalogue.enrol session.catalogue ∧
      (methods.foldl visitMethod session).log = session.log ++
        (placed earlier methods).flatMap fun place => place.redeclaration ++
          place.messages base.typeOf? options.maxNestingDepth (declaredIn place.sofar) := by
  induction methods generalizing session earlier with
  | nil => simp [placed]
  | cons method rest induction =>
      have announced : session.announce method = _ :=
        (between.announce_single single method).trans (register_eq known method)
      have catalogue := between.catalogue_visit positive method
      have log := between.log_visit stored positive method
      rw [announced] at catalogue log
      have next : (session.visitMethod method).catalogue.find? =
          declaredIn (earlier ++ [method]) := by
        rw [catalogue]
        exact enrol_known known method
      obtain ⟨laterCatalogue, laterLog⟩ := induction (between.visit method) next
      rw [List.foldl_cons, List.foldl_cons, laterCatalogue, laterLog, catalogue, log,
        enrol_known known method]
      refine ⟨rfl, ?_⟩
      simp [placed, Placed.redeclaration, Placed.messages, Placed.sofar]

/-! ### Analyses -/

theorem catalogue_start (base : Symbols) (options : Options) :
    (start base options).catalogue.find? = declaredIn [] := rfl

theorem prepare_ahead (ahead : options.resolveForwardCalls = true) (base : Symbols)
    (program : Program) :
    (start base options).prepare program =
      { start base options with
        catalogue := program.methods.foldl Catalogue.enrol .empty
        log := program.placed.flatMap Placed.redeclaration } := by
  have mode : (start base options).options.resolveForwardCalls = true := ahead
  rw [prepare, if_pos mode, register_all (catalogue_start base options)]
  rfl

theorem prepare_single (single : options.resolveForwardCalls = false) (base : Symbols)
    (program : Program) : (start base options).prepare program = start base options := by
  have mode : ¬ (start base options).options.resolveForwardCalls = true := by
    rw [show (start base options).options = options from rfl, single]
    decide
  rw [prepare, if_neg mode]

theorem Between.prepare (between : session.Between base options) (program : Program) :
    (session.prepare program).Between base options := by
  have alike := alike_prepare session program
  refine ⟨?_, (options_prepare session program).trans between.options,
    alike.depth.trans between.depth⟩
  rw [alike.symbols]
  exact between.stacked

theorem between_prepare (base : Symbols) (options : Options) (program : Program) :
    ((start base options).prepare program).Between base options :=
  (between_start base options).prepare program

/-- What an analysis without a first pass reports, method by method. -/
theorem log_single (single : options.resolveForwardCalls = false)
    (positive : 0 < options.maxNestingDepth) (stored : base.InStore) (program : Program) :
    ((start base options).analyse program).catalogue =
        program.methods.foldl Catalogue.enrol .empty ∧
      ((start base options).analyse program).log =
        program.placed.flatMap fun place => place.redeclaration ++
          place.messages base.typeOf? options.maxNestingDepth (declaredIn place.sofar) := by
  rw [analyse_eq, prepare_single single]
  have visits := (between_start base options).visits_single stored positive single
    (catalogue_start base options) program.methods
  exact ⟨visits.1, visits.2.trans (List.nil_append _)⟩

end Session

end Sema
