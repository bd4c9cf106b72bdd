import Sema.Proofs.Scoping.Unused
import Sema.Proofs.Symbols.Trace
import Sema.Proofs.Walk.Depth
import Sema.Proofs.Walk.Visits

/-!
# Uses of locals

The type of a local comes from its last declaration, be the scope of that open or closed. A use is
recorded for the variable that the open scopes give to the name. So the variable whose declaration
gives the type is marked by a use as long as its scope is open, and no longer: what the body of a
`do` loop declares has a type in the condition, but reading it there leaves it unused.
-/

namespace Sema

/-- A mention in a program, with the last declaration of the name before it. -/
structure Supplier (program : Program) (name : String) where
  front : List Action
  ty : String
  line : UInt64
  between : List Action
  later : List Action
  place : program.outline = front ++ .declare name ty line :: (between ++ .mention name :: later)
  last : ¬ Declares between name

namespace Supplier

variable {program : Program} {name : String}

/-- What the program does before the mention. -/
def past (supplier : Supplier program name) : List Action :=
  supplier.front ++ .declare name supplier.ty supplier.line :: supplier.between

/-- What the program does after the declaration. -/
def rest (supplier : Supplier program name) : List Action :=
  supplier.between ++ .mention name :: supplier.later

/-- Where the declaration is stored, if the program begins with the given table. -/
def slot? (supplier : Supplier program name) (symbols : Symbols) : Option Nat :=
  (symbols.acts (supplier.front ++ [.declare name supplier.ty supplier.line])).scopes.visible? name

def entry (supplier : Supplier program name) (symbols : Symbols) (used : Bool) : Variable where
  name := name
  ty := supplier.ty
  line := supplier.line
  used := used
  scopeDepth := symbols.scopeDepth + (height supplier.front).toNat

/-- The last declaration is not hidden by a later one. -/
theorem referenced_past (supplier : Supplier program name) :
    Referenced (supplier.between ++ [.mention name]) name ↔
      Referenced supplier.between name ∨ StaysOpen supplier.between := by
  have seen : ¬ Hidden supplier.between name := by
    rintro ⟨depth, -, live⟩
    exact supplier.last live.declares
  rw [referenced_concat]
  simp [seen]

theorem not_redeclared (supplier : Supplier program name) :
    ¬ Redeclared (supplier.between ++ [.mention name]) name := by
  intro again
  obtain ⟨ty, line, member⟩ := again.declares
  exact supplier.last ⟨ty, line, by simpa using member⟩

/-- The store right after the mention and at the end of the program. -/
theorem recorded (supplier : Supplier program name) {symbols : Symbols}
    (reachable : symbols.Reachable) :
    ∃ slot, supplier.slot? symbols = some slot ∧
      (symbols.acts (supplier.past ++ [.mention name])).entries[slot]? =
        some (supplier.entry symbols
          (Referenced supplier.between name ∨ StaysOpen supplier.between)) ∧
      (¬ Redeclared supplier.rest name →
        (symbols.acts program.outline).entries[slot]? =
          some (supplier.entry symbols (Referenced supplier.rest name))) := by
  have inStore := reachable.in_store
  have lawful := program.lawful_outline
  have regroup : program.outline = (supplier.front ++
      .declare name supplier.ty supplier.line :: (supplier.between ++ [.mention name])) ++
        supplier.later := by
    rw [supplier.place]
    simp
  have before := lawful
  rw [regroup] at before
  obtain ⟨slot, visible, _, traced⟩ :=
    Symbols.acts_traced inStore before.front supplier.not_redeclared
  refine ⟨slot, visible, ?_, ?_⟩
  · have reached : supplier.past ++ [.mention name] = supplier.front ++
        .declare name supplier.ty supplier.line :: (supplier.between ++ [.mention name]) := by
      simp [past]
    rw [reached, traced.holds]
    simp only [Declaration.entry, entry, supplier.referenced_past]
  · intro once
    rw [supplier.place] at lawful
    obtain ⟨same, sameVisible, _, ended⟩ := Symbols.acts_traced inStore lawful once
    obtain rfl : slot = same := Option.some.inj (visible.symm.trans sameVisible)
    rw [supplier.place, ended.holds]
    rfl

end Supplier

/-! ### Visits of identifiers -/

namespace Session

variable {base : Symbols} {options : Options} {program : Program} {visit : Visit}

/-- Where nothing is refused the visit of an identifier mentions its name. -/
theorem identifier_actions {pos : Position} {name : String} {room : Nat}
    (kept : refusals (exprScript ⟨pos, .identifier name⟩ room) = 0) :
    actions (exprScript ⟨pos, .identifier name⟩ room) = [.mention name] := by
  cases room with
  | zero => cases kept
  | succ room => rfl

/-- The place of a visit in the outline of the program, given room for all of it. -/
theorem Visits.mentioned (visits : (start base options).Visits program visit)
    (fits : program.nesting ≤ options.maxNestingDepth) {pos : Position} {name : String}
    (node : visit.node = .expr ⟨pos, .identifier name⟩) :
    ∃ past context inside later,
      program.outline = past ++ .enter :: (inside ++ .mention name :: later) ∧
        visit.before.Inside (base.acts past) context inside ∧
        visit.after.Inside (base.acts past) context (inside ++ [.mention name]) := by
  obtain ⟨earlier, method, later, room, front, tail, methods, limit, within⟩ := visits.located
  have fitting := nesting_le_iff.mp fits
  have above : ∀ other ∈ earlier, other.data.nesting ≤ options.maxNestingDepth :=
    fun other member => fitting other (by simp [methods, member])
  have table := symbols_reached base program earlier above
  have enough : stmtsNesting method.data.body ≤ room := by
    have own := fitting method within.member
    rw [Method.nesting, limit] at own
    omega
  have kept := (stmts_levels method.data.body).none_refused enough
  have body := (stmts_render method.data.body).complete room enough
  have place : stmtsScript method.data.body room =
      front ++ (visit.node.script visit.before.room ++ tail) := within.place
  -- A refusal of this visit would be one of the method, and there is none.
  rw [place, refusals_append, refusals_append] at kept
  have mention : actions (visit.node.script visit.before.room) = [.mention name] := by
    rw [node] at kept ⊢
    exact identifier_actions (by simp only [Node.script] at kept; omega)
  have before := within.inside_before
  have after := within.inside_after
  rw [table] at before after
  rw [mention] at after
  refine ⟨_, _, _, actions tail ++ .leave :: later.flatMap fun method => method.data.outline,
    ?_, before, after⟩
  rw [place, actions_append, actions_append, mention] at body
  simp [Program.outline, methods, Method.outline, scopeAround, ← body]

end Session

/-- The declaration that gives a local its type is marked by a use if and only if its scope is still
open then, or if it was used before. If its scope does not declare the name again, it is unused in
the end if and only if no mention refers to it. -/
theorem use_recorded_iff_open {symbols : Symbols} (reachable : symbols.Reachable)
    {options : Options} {program : Program} (fits : program.nesting ≤ options.maxNestingDepth)
    {visit : Visit} (visits : (Session.start symbols options).Visits program visit)
    {pos : Position} {name : String} (node : visit.node = .expr ⟨pos, .identifier name⟩)
    {env : LocalEnv} {type : Ty} (locals : visit.before.currentLocals = some env)
    (found : env.find? name = some type) :
    ∃ (supplier : Supplier program name) (slot : Nat),
      type = .ofName supplier.ty ∧
        visit.before.symbols = symbols.acts supplier.past ∧
        supplier.slot? symbols = some slot ∧
        visit.after.symbols.entries[slot]? = some (supplier.entry symbols
          (Referenced supplier.between name ∨ StaysOpen supplier.between)) ∧
        (¬ Redeclared supplier.rest name →
          ((Session.start symbols options).analyse program).symbols.entries[slot]? =
            some (supplier.entry symbols (Referenced supplier.rest name))) := by
  obtain ⟨past, context, inside, later, outline, before, after⟩ := visits.mentioned fits node
  obtain ⟨known, foundKnown, types⟩ := before.env
  have same : known = env := by
    have here : visit.before.currentLocals = some known := by
      simp [Session.currentLocals, before.current, foundKnown]
    exact Option.some.inj (here.symm.trans locals)
  rw [same] at types
  rw [types] at found
  obtain ⟨front, ty, line, between, rfl, last, ofName⟩ := overlay_supplied found
  have place : program.outline = (past ++ .enter :: front) ++
      .declare name ty line :: (between ++ .mention name :: later) := by
    rw [outline]
    simp
  let supplier : Supplier program name := ⟨past ++ .enter :: front, ty, line, between, later,
    place, last⟩
  obtain ⟨slot, stored, marked, ended⟩ := supplier.recorded reachable
  have reached : symbols.acts supplier.past = visit.before.symbols := by
    rw [before.symbols, ← Symbols.acts_append]
    simp [supplier, Supplier.past]
  have left : symbols.acts (supplier.past ++ [.mention name]) = visit.after.symbols := by
    rw [after.symbols, ← Symbols.acts_append]
    simp [supplier, Supplier.past]
  rw [left] at marked
  rw [← Session.symbols_analyse symbols fits] at ended
  exact ⟨supplier, slot, ofName, reached.symm, stored, marked, ended⟩

/-- A loop whose condition reads what its body declares. -/
def ready : Located Method :=
  let body : Located Stmt := .place 3 12 (.block [.place 4 13
    (.declare "boolean" "done" false (some (.place 4 28 (.literal "boolean" "true"))))])
  .place 2 5
    { returnTy := "void", name := "run", params := [],
      body := [.place 3 9 (.doWhileLoop body (.place 5 18 (.identifier "done")))] }

def readyOnly : Program :=
  ⟨[.place 1 1 ⟨"Main", "", [.place 2 5 (.method ready.data)]⟩]⟩

theorem condition_visited :
    ∃ visit, (Session.start .empty {}).Visits readyOnly visit ∧
      visit.node = .expr (.place 5 18 (.identifier "done")) ∧
      (visit.before.currentLocals.bind fun env => env.find? "done") = some (.primitive .boolean) ∧
      visit.after.symbols.entries = [⟨"done", "boolean", 4, false, 2⟩] := by
  have methods : readyOnly.methods = [] ++ ready :: [] := rfl
  have loop : (Session.start .empty {}).Visits readyOnly _ :=
    .body methods rfl (by decide) List.mem_cons_self
  have condition := loop.part (by decide) (List.mem_cons_of_mem _ List.mem_cons_self)
  exact ⟨_, condition, rfl, by decide, by decide⟩

/-- The condition has the type of the local and leaves it unused. -/
theorem loop_condition_unmarked :
    (∃ visit, (Session.start .empty {}).Visits readyOnly visit ∧
      visit.node = .expr (.place 5 18 (.identifier "done")) ∧
      (visit.before.currentLocals.bind fun env => env.find? "done") = some (.primitive .boolean) ∧
      visit.after.symbols.entries = [⟨"done", "boolean", 4, false, 2⟩]) ∧
      ((Session.start .empty {}).analyse readyOnly).symbols.unused = ["done (line 4)"] := by
  have fits : readyOnly.nesting ≤ 256 := by decide
  refine ⟨condition_visited, ?_⟩
  rw [Session.symbols_analyse .empty fits]
  decide

theorem loop_condition_out_of_scope :
    ∃ supplier : Supplier readyOnly "done",
      supplier.ty = "boolean" ∧ ¬ StaysOpen supplier.between := by
  obtain ⟨visit, visits, node, resolved, entries⟩ := condition_visited
  obtain ⟨env, locals, found⟩ := Option.bind_eq_some_iff.mp resolved
  have fits : readyOnly.nesting ≤ 256 := by decide
  obtain ⟨supplier, slot, -, -, -, marked, -⟩ :=
    use_recorded_iff_open .empty fits visits node locals found
  rw [entries] at marked
  cases slot with
  | zero =>
      have entry := Option.some.inj marked
      have closed := congrArg Variable.used entry
      refine ⟨supplier, (congrArg Variable.ty entry).symm, fun stays => ?_⟩
      simp [Supplier.entry, stays] at closed
  | succ slot => cases marked

end Sema
