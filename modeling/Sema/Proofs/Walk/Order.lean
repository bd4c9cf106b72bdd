import Sema.Proofs.Symbols.Alone
import Sema.Proofs.Walk.MethodVisit
import Mathlib.Data.List.Find
import Mathlib.Data.List.Nodup

/-!
# The order of methods

After a first pass every body sees the signatures of all methods, and between two methods the table
gives the types that it gave at the start. So the messages of a visit, the locals that it leaves and
the variables that it adds depend on the method alone, and the marks that it leaves on earlier
variables do not depend on when it leaves them. If no two methods share a name, the methods may
stand in any order.
-/

namespace Sema

/-! ### Methods with names of their own -/

section Distinct

variable {methods others : List (Located Method)}

theorem find_named_perm (distinct : (methods.map fun method => method.data.name).Nodup)
    (reordered : methods.Perm others) (name : String) :
    (methods.find? fun method => method.data.name = name) =
      others.find? fun method => method.data.name = name := by
  apply List.find?_eq_find?_of_perm reordered
  rintro left ⟨leftMember, leftNamed⟩ right ⟨rightMember, rightNamed⟩
  simp only [decide_eq_true_eq] at leftNamed rightNamed
  exact List.inj_on_of_nodup_map distinct leftMember rightMember
    (leftNamed.trans rightNamed.symm)

theorem declaredIn_perm (distinct : (methods.map fun method => method.data.name).Nodup)
    (reordered : methods.Perm others) : declaredIn methods = declaredIn others := by
  funext name
  rw [declaredIn, declaredIn, find_named_perm distinct reordered]

/-- The one method of a name is also the last. -/
theorem last_locals_distinct (distinct : (methods.map fun method => method.data.name).Nodup)
    (room : Nat) (name : String) :
    lastLocals room methods name =
      (methods.find? fun method => method.data.name = name).bind
        fun method => method.data.locals room := by
  induction methods with
  | nil => rfl
  | cons method rest induction =>
      obtain ⟨fresh, distinct⟩ := List.nodup_cons.mp distinct
      rw [lastLocals, induction distinct]
      by_cases own : method.data.name = name
      · have absent : (rest.find? fun method => method.data.name = name) = none := by
          rw [List.find?_eq_none]
          intro other member named
          rw [decide_eq_true_eq, ← own] at named
          exact fresh (List.mem_map.mpr ⟨other, member, named⟩)
        simp [own, absent]
      · simp [own]

theorem last_locals_perm (distinct : (methods.map fun method => method.data.name).Nodup)
    (reordered : methods.Perm others) (room : Nat) (name : String) :
    lastLocals room methods name = lastLocals room others name := by
  have distinctOthers := (reordered.map fun method => method.data.name).nodup_iff.mp distinct
  rw [last_locals_distinct distinct, last_locals_distinct distinctOthers,
    find_named_perm distinct reordered]

end Distinct

namespace Session

/-- Each visit of an analysis adds the messages that belong to its method, and nothing else adds
any. -/
structure Tells (session : Session) (program : Program) (own : Located Method → FindingLog) :
    Prop where
  each : ∀ front method rest, program.methods = front ++ method :: rest →
    session.Records program front method (own method)
  all : (session.analyse program).log = program.methods.flatMap own

/-- The results of two analyses over one table, which may differ in the order of what they found. -/
structure SameUpToOrder (symbols : Symbols) (first second : Session) : Prop where
  errors : first.log.errors.Perm second.log.errors
  warnings : first.log.warnings.Perm second.log.warnings
  catalogue : ∀ name, first.catalogue.find? name = second.catalogue.find? name
  locals : ∀ name, first.locals.find? name = second.locals.find? name
  known : first.symbols.entries.take symbols.entries.length =
    second.symbols.entries.take symbols.entries.length
  added : (first.symbols.entries.drop symbols.entries.length).Perm
    (second.symbols.entries.drop symbols.entries.length)

variable {base : Symbols} {options : Options} {program other : Program}

/-! ### One analysis -/

theorem log_prepared_distinct (ahead : options.resolveForwardCalls = true) (base : Symbols)
    (distinct : (program.methods.map fun method => method.data.name).Nodup) :
    ((start base options).prepare program).log = [] := by
  rw [prepare_ahead ahead]
  exact List.flatMap_eq_nil_iff.mpr (placed_redeclarations.mpr ⟨distinct, by simp⟩)

theorem log_upTo_distinct (ahead : options.resolveForwardCalls = true) (stored : base.InStore)
    (distinct : (program.methods.map fun method => method.data.name).Nodup)
    {front : List (Located Method)} (within : ∀ method ∈ front, method ∈ program.methods) :
    ((start base options).upTo program front).log = front.flatMap fun method =>
      method.data.messages base.typeOf? options.maxNestingDepth (declaredIn program.methods) := by
  have between := between_prepare base options program
  have visits := between.visits_known stored (fun _ => signatures_prepared ahead base program)
    within
  simpa [upTo, log_prepared_distinct ahead base distinct, announcement, ahead] using visits.2

theorem tells_distinct (ahead : options.resolveForwardCalls = true) (stored : base.InStore)
    (distinct : (program.methods.map fun method => method.data.name).Nodup) :
    (start base options).Tells program fun method =>
      method.data.messages base.typeOf? options.maxNestingDepth
        (declaredIn program.methods) where
  each := by
    intro front method rest split
    have through : ∀ other ∈ front ++ [method], other ∈ program.methods := by
      intro other member
      rw [split]
      exact List.append_cons front method rest ▸ List.mem_append_left rest member
    have before : ∀ other ∈ front, other ∈ program.methods :=
      fun other member => through other (List.mem_append_left _ member)
    rw [Records, log_upTo_distinct ahead stored distinct through,
      log_upTo_distinct ahead stored distinct before, List.flatMap_append, List.flatMap_singleton]
  all := log_upTo_distinct ahead stored distinct fun _ member => member

theorem entries_analyse_reordered (stored : base.InStore) (options : Options)
    (reordered : program.methods.Perm other.methods) :
    ((start base options).analyse program).symbols.entries.take base.entries.length =
        ((start base options).analyse other).symbols.entries.take base.entries.length ∧
      (((start base options).analyse program).symbols.entries.drop base.entries.length).Perm
        (((start base options).analyse other).symbols.entries.drop base.entries.length) := by
  rw [(between_start base options).symbols_analyse, (between_start base options).symbols_analyse,
    List.flatMap_def, List.flatMap_def]
  apply Symbols.entries_reordered stored
  · intro history member
    obtain ⟨method, -, rfl⟩ := List.mem_map.mp member
    exact method.data.lawful_history options.maxNestingDepth
  · intro history member
    obtain ⟨method, -, rfl⟩ := List.mem_map.mp member
    exact method.data.level_history options.maxNestingDepth
  · exact reordered.map _

end Session

/-- With a first pass and with methods of different names, the order of the methods changes nothing
but the order of what is found. -/
theorem method_order_irrelevant {symbols : Symbols} (reachable : symbols.Reachable) (limit : Nat)
    {program other : Program}
    (distinct : (program.methods.map fun method => method.data.name).Nodup)
    (reordered : program.methods.Perm other.methods) :
    (∃ own, (Session.start symbols ⟨true, limit⟩).Tells program own ∧
        (Session.start symbols ⟨true, limit⟩).Tells other own) ∧
      Session.SameUpToOrder symbols ((Session.start symbols ⟨true, limit⟩).analyse program)
        ((Session.start symbols ⟨true, limit⟩).analyse other) := by
  have stored := reachable.in_store
  have distinctOther := (reordered.map fun method => method.data.name).nodup_iff.mp distinct
  have signatures := declaredIn_perm distinct reordered
  have first : (Session.start symbols ⟨true, limit⟩).Tells program _ :=
    Session.tells_distinct rfl stored distinct
  have second : (Session.start symbols ⟨true, limit⟩).Tells other _ :=
    Session.tells_distinct rfl stored distinctOther
  rw [← signatures] at second
  have logs : ((Session.start symbols ⟨true, limit⟩).analyse program).log.Perm
      ((Session.start symbols ⟨true, limit⟩).analyse other).log := by
    rw [first.all, second.all]
    exact reordered.flatMap_right _
  obtain ⟨known, added⟩ := Session.entries_analyse_reordered stored ⟨true, limit⟩ reordered
  refine ⟨⟨_, first, second⟩, ?_⟩
  exact {
    errors := logs.filter _
    warnings := logs.filter _
    catalogue := fun name => by
      rw [Session.signatures_analyse stored (.inl rfl),
        Session.signatures_analyse stored (.inl rfl), signatures]
    locals := fun name => by
      rw [(Session.between_start _ _).locals_analyse, (Session.between_start _ _).locals_analyse,
        last_locals_perm distinct reordered]
    known
    added }

/-- It declares two variables, gives one of them to the other method, and uses a variable of the
table. -/
def serve : Located Method :=
  .place 2 1
    { returnTy := "void", name := "serve", params := [],
      body := [.place 3 5 (.declare "int" "dish" false (some (.place 3 16 (.identifier "stock")))),
        .place 4 5 (.declare "boolean" "stock" false none),
        .place 5 5 (.expression (.place 5 5 (.call "cook" [.place 5 10 (.identifier "stock")])))] }

/-- It has a parameter with the name of a variable of the table. -/
def cook : Located Method :=
  .place 7 1
    { returnTy := "int", name := "cook", params := [.place 7 10 ⟨"int", "stock", false⟩],
      body := [.place 8 5 (.returning (some (.place 8 12 (.literal "boolean" "true"))))] }

/-- The methods in classes of their own. -/
def kitchen (methods : List (Located Method)) : Program :=
  ⟨methods.map fun method => .place 1 1 ⟨"Sample", "", [⟨method.pos, .method method.data⟩]⟩⟩

def stocked : Symbols := Symbols.empty.declare "stock" "int" 1

theorem kitchen_in_any_order :
    Session.SameUpToOrder stocked
        ((Session.start stocked ⟨true, 5⟩).analyse (kitchen [serve, cook]))
        ((Session.start stocked ⟨true, 5⟩).analyse (kitchen [cook, serve])) ∧
      ((Session.start stocked ⟨true, 5⟩).analyse (kitchen [serve, cook])).log =
        [.error (some 5) (.argumentMismatch 1 "cook" (.primitive .int) (.primitive .boolean)),
          .error (some 8) (.returnMismatch "cook" (.primitive .int) (.primitive .boolean))] ∧
      ((Session.start stocked ⟨true, 5⟩).analyse (kitchen [cook, serve])).log =
        [.error (some 8) (.returnMismatch "cook" (.primitive .int) (.primitive .boolean)),
          .error (some 5) (.argumentMismatch 1 "cook" (.primitive .int) (.primitive .boolean))] := by
  have reordered : (kitchen [serve, cook]).methods.Perm (kitchen [cook, serve]).methods :=
    .swap cook serve []
  exact ⟨(method_order_irrelevant (.declare "stock" "int" 1 .empty) 5 (by decide) reordered).2,
    by decide +kernel, by decide +kernel⟩

end Sema
