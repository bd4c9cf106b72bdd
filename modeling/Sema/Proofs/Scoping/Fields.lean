import Sema.Proofs.Scoping.Resolution
import Sema.Proofs.Symbols.Extension
import Sema.Proofs.Symbols.Fields
import Sema.Proofs.Walk.MethodVisit

/-!
# Fields in methods

Every scope of a method lies over the root, where the fields are, and is closed before the next
method. So in a method that declares nothing of its name a field can be seen at every moment, and
what reads it marks its one entry. The mark stays, since all that is written later is written in
scopes over the root.
-/

namespace Sema

/-- The variable that an expression itself reads: its own name or the start of its path. -/
def Expr.reads? : Expr → Option String
  | .identifier name => some name
  | .member path | .memberCall path _ _ => path.head?
  | .literal _ _ | .binary _ _ _ | .unary _ _ _ | .call _ _ => none

def Node.reads? : Node → Option String
  | .expr visited => visited.data.reads?
  | .stmt _ => none

/-- The sessions that the visit of a method goes through, from the parameters to the end of the
body. -/
def Session.Passes (session : Session) (method : Located Method) (moment : Session) : Prop :=
  ∃ room front tail, session.room = room + 1 ∧ method.data.script room = front ++ tail ∧
    moment = (session.inMethod method).run front

/-- What the visit of a method has of a field, from the session in which it begins to the one in
which the analysis ends. -/
structure Sees (seeded : Symbols) (session ended : Session) (method : Located Method)
    (field : Located Field) : Prop where
  resolves : ∀ moment, session.Passes method moment →
    moment.resolve? field.data.name = some (.ofName field.data.ty)
  visits : ∀ visit, session.VisitsIn method visit →
    session.Passes method visit.before ∧ session.Passes method visit.after
  marks : ∃ slot : Nat, seeded.entries[slot]? = some (fieldEntry false field) ∧
    ∀ visit, session.VisitsIn method visit → visit.node.reads? = some field.data.name →
      visit.before.depth < visit.before.options.maxNestingDepth →
      visit.after.symbols.entries[slot]? = some (fieldEntry true field) ∧
        ended.symbols.entries[slot]? = some (fieldEntry true field)

/-! ### Histories without a name -/

theorem Thinned.declares {whole thin : List Action} (thinned : Thinned whole thin) {name : String}
    (declares : Declares thin name) : Declares whole name := by
  obtain ⟨ty, line, member⟩ := declares
  obtain ⟨front, rest, split⟩ := List.append_of_mem member
  obtain ⟨before, after, same, -, -⟩ := thinned.split split
  rw [same]
  exact ⟨ty, line, List.mem_append_right before List.mem_cons_self⟩

namespace Method

variable {method : Method} {room : Nat} {front tail : List Step}

/-- A moment in the body divides what the visit does to the table. -/
theorem history_split (place : method.script room = front ++ tail) :
    method.history (room + 1) =
      (.enter :: (parametersOutline method.params ++ actions front)) ++
        (actions tail ++ [.leave]) := by
  rw [history, place, actions_append, scopeAround]
  simp

theorem undeclared_before {name : String} (undeclared : ¬ Declares method.outline name)
    (place : method.script room = front ++ tail) :
    ¬ Declares (.enter :: (parametersOutline method.params ++ actions front)) name := by
  have body := ((stmts_render method.body).thinned room)
  have inside := (Thinned.refl (parametersOutline method.params)).append body
  have thinned : Thinned method.outline (method.history (room + 1)) :=
    .keep .enter (inside.append (.refl [.leave]))
  rw [history_split place] at thinned
  intro declares
  obtain ⟨ty, line, member⟩ := declares
  exact undeclared (thinned.declares ⟨ty, line, List.mem_append_left _ member⟩)

theorem lawful_before (place : method.script room = front ++ tail) :
    Lawful (.enter :: (parametersOutline method.params ++ actions front)) := by
  have lawful := method.lawful_history (room + 1)
  rw [history_split place] at lawful
  exact lawful.front

end Method

/-- A node that reads a variable mentions it first. -/
theorem Node.reads_first {node : Node} {name : String} (reads : node.reads? = some name)
    (room : Nat) :
    ∃ more, node.script (room + 1) = .visit node :: .act (.mention name) :: more := by
  have inside : ∃ more, node.inside room = .act (.mention name) :: more := by
    cases node with
    | stmt visited => cases reads
    | expr visited =>
        obtain ⟨pos, expr⟩ := visited
        cases expr with
        | literal | binary | unary | call => cases reads
        | identifier read =>
            cases reads
            exact ⟨[], rfl⟩
        | member path =>
            cases path with
            | nil => cases reads
            | cons head rest =>
                cases reads
                exact ⟨[], rfl⟩
        | memberCall path called args =>
            cases path with
            | nil => cases reads
            | cons head rest =>
                cases reads
                exact ⟨exprsScript args room, rfl⟩
  obtain ⟨more, first⟩ := inside
  exact ⟨more ++ [.done], by rw [Node.script_succ, first]; rfl⟩

/-! ### Moments in a method -/

namespace Session

variable {base : Symbols} {options : Options} {program : Program} {session : Session}
  {method : Located Method} {visit : Visit}

theorem Passes.resolve {moment : Session} (passes : session.Passes method moment)
    (between : session.Between base options) (stored : base.InStore) {name : String}
    (undeclared : ¬ Declares method.data.outline name) :
    moment.resolve? name = base.typeOf? name := by
  obtain ⟨room, front, tail, -, place, reached⟩ := passes
  have inside := (inside_inMethod session method).run front
  have lawful := Method.lawful_before place
  have silent := Method.undeclared_before undeclared place
  have before : ¬ Declares (parametersOutline method.data.params ++ actions front) name := by
    intro declares
    obtain ⟨ty, line, member⟩ := declares
    exact silent ⟨ty, line, List.mem_cons_of_mem _ member⟩
  rw [reached, inside.resolve (between.stacked.in_store stored) lawful, overlay_apply,
    overlay_eq_none.mpr before, Option.none_or, between.stacked.typeOf stored]

theorem VisitsIn.passes (visits : session.VisitsIn method visit)
    (between : session.Between base options) (member : method ∈ program.methods) :
    session.Passes method visit.before ∧ session.Passes method visit.after := by
  obtain ⟨room, front, tail, limit, within⟩ := visits.within between member
  have left : session.room = room + 1 := between.room.trans limit
  constructor
  · exact ⟨room, front, _, left, within.place, within.before⟩
  · refine ⟨room, front ++ visit.node.script visit.before.room, tail, left, ?_, ?_⟩
    · rw [List.append_assoc]
      exact within.place
    · rw [run_append, ← within.before]
      exact (node_walks visit.node).runs visit.before within.inside_before.grounded

/-- A visit that reads a variable from before the method marks it until the method ends. -/
theorem VisitsIn.marks (visits : session.VisitsIn method visit)
    (between : session.Between base options) (member : method ∈ program.methods) {name : String}
    (undeclared : ¬ Declares method.data.outline name) (reads : visit.node.reads? = some name)
    (allowed : visit.before.depth < visit.before.options.maxNestingDepth) {slot : Nat}
    {entry : Variable} (seen : base.scopes.visible? name = some slot)
    (found : base.entries[slot]? = some entry) :
    visit.after.symbols.entries[slot]? = some { entry with used := true } ∧
      (session.visitMethod method).symbols.entries[slot]? =
        some { entry with used := true } := by
  obtain ⟨room, front, tail, limit, within⟩ := visits.within between member
  obtain ⟨inner, left⟩ : ∃ inner, visit.before.room = inner + 1 :=
    Nat.exists_eq_add_one.mpr (Nat.sub_pos_of_lt allowed)
  obtain ⟨more, first⟩ := Node.reads_first reads inner
  rw [← left] at first
  have place := within.place
  have silent := Method.undeclared_before undeclared place
  have mentioned : actions (visit.node.script visit.before.room) =
      .mention name :: actions more := by
    rw [first]
    rfl
  have after := within.inside_after.symbols
  -- The visit begins with the mention; what the method does after it cannot take the mark away.
  have whole : method.data.history (room + 1) =
      ((.enter :: (parametersOutline method.data.params ++ actions front)) ++
        .mention name :: actions more) ++ (actions tail ++ [.leave]) := by
    rw [Method.history_split place, actions_append, mentioned]
    simp
  have lawful := method.data.lawful_history (room + 1)
  rw [whole] at lawful
  have marked := Symbols.mention_marks between.stacked lawful.front silent seen found
  constructor
  · rw [after, mentioned]
    exact marked
  · have within := (List.getElem?_eq_some_iff.mp found).1
    have stored := Nat.lt_of_lt_of_le within between.stacked.longer
    rw [symbols_history, between.room, limit, whole]
    exact Symbols.acts_keep_mark lawful stored marked rfl

/-- The methods after it take no mark away. -/
theorem visits_keep_mark (methods : List (Located Method)) {slot : Nat} {entry : Variable}
    (found : session.symbols.entries[slot]? = some entry) (used : entry.used = true) :
    (methods.foldl visitMethod session).symbols.entries[slot]? = some entry := by
  obtain ⟨history, lawful, -, reached⟩ := excursion_visits methods session
  have within := (List.getElem?_eq_some_iff.mp found).1
  rw [reached]
  exact @Symbols.acts_keep_mark session.symbols [] history lawful slot entry within found used

end Session

/-- The fields of a program are in the table by their names, each as the last field of its name
says. In an analysis a method that declares nothing of the name resolves it to the type of the field
throughout, and what reads it there marks the entry of the field for good. -/
theorem fields_seeded_and_seen (program : Program) :
    Seeded program.fields program.seeded ∧
      ∀ (session : Session) earlier method later field, session.symbols = program.seeded →
        session.depth = 0 → program.methods = earlier ++ method :: later →
        lastNamed? program.fields field.data.name = some field →
        ¬ Declares method.data.outline field.data.name →
        Sees program.seeded (session.upTo program earlier) (session.analyse program) method
          field := by
  have rooted := program.rooted
  have stored := program.seeded_reachable.in_store
  refine ⟨rooted.seeded, ?_⟩
  intro session earlier method later field table level methods last undeclared
  have begun : session.Between program.seeded session.options := by
    refine ⟨?_, rfl, level⟩
    rw [table]
    exact Symbols.over_refl program.seeded
  have between := (begun.prepare program).visits earlier
  have member : method ∈ program.methods := by simp [methods]
  have lookup := rooted.lookup field.data.name
  rw [last, Option.map_some] at lookup
  constructor
  · intro moment passes
    rw [passes.resolve between stored undeclared, Symbols.typeOf?, lookup]
    rfl
  · intro visit visits
    exact visits.passes between member
  · obtain ⟨slot, seen, found⟩ := Option.bind_eq_some_iff.mp lookup
    refine ⟨slot, found, ?_⟩
    intro visit visits reads allowed
    obtain ⟨after, left⟩ := visits.marks between member undeclared reads allowed seen found
    refine ⟨after, ?_⟩
    rw [Session.analyse_eq, methods, List.foldl_append, List.foldl_cons]
    exact Session.visits_keep_mark later left rfl

/-- A method that reads a field of which a later class has another. -/
def bump : Located Method :=
  let sum : Located Expr :=
    .place 5 13 (.binary .add (.place 5 13 (.identifier "count"))
      (.place 5 21 (.identifier "step")))
  .place 4 3
    { returnTy := "void", name := "bump", params := [.place 4 13 { ty := "int", name := "step" }],
      body := [.place 5 5 (.assign "total" sum)] }

def laterCount : Located Field := .place 9 3 { ty := "long", name := "count" }

def counters : Program :=
  ⟨[.place 1 1 ⟨"First", "", [.place 2 3 (.field { ty := "int", name := "count" }),
      .place 3 3 (.field { ty := "int", name := "total" }), .place 4 3 (.method bump.data)]⟩,
    .place 8 1 ⟨"Second", "", [.place 9 3 (.field laterCount.data)]⟩]⟩

theorem later_count_seen :
    counters.seeded.entries = [⟨"count", "long", 9, false, 0⟩, ⟨"total", "int", 3, false, 0⟩] ∧
      ∃ visit, ((Session.start counters.seeded {}).upTo counters []).VisitsIn bump visit ∧
        visit.node.reads? = some "count" ∧
        visit.before.resolve? "count" = some (.primitive .long) ∧
        ∃ slot : Nat, counters.seeded.entries[slot]? = some (fieldEntry false laterCount) ∧
          ((Session.start counters.seeded {}).analyse counters).symbols.entries[slot]? =
            some (fieldEntry true laterCount) := by
  have undeclared : ¬ Declares bump.data.outline "count" := overlay_eq_none.mp (by decide)
  have sees := (fields_seeded_and_seen counters).2 (Session.start counters.seeded {}) [] bump []
    laterCount rfl rfl rfl (by decide) undeclared
  have assignment : ((Session.start counters.seeded {}).upTo counters []).VisitsIn bump _ :=
    .body (by decide) List.mem_cons_self
  have sum := assignment.part (by decide) List.mem_cons_self
  have count := sum.part (by decide) List.mem_cons_self
  have resolved := sees.resolves _ (sees.visits _ count).1
  obtain ⟨slot, found, marks⟩ := sees.marks
  have marked := (marks _ count rfl (by decide)).2
  exact ⟨by decide, _, count, rfl, resolved, slot, found, marked⟩

end Sema
