import Sema.Proofs.Walk.Program
import Sema.Proofs.Symbols.Recorded

/-!
# Unused variables

With enough room for every node an analysis does to the table what the outline of the program says.
So if no scope declares a name twice, the table ends with the old entries, marked by the free
mentions of the program, and one entry for each declaration, which is unused if nothing refers to
it.
-/

namespace Sema

theorem Method.lawful_outline (method : Method) : Lawful method.outline := by
  apply Closed.lawful_scope
  apply (parameters_closed method.params).append
  exact (stmts_render method.body).closed

theorem Program.lawful_outline (program : Program) : Lawful program.outline := by
  unfold Program.outline
  induction program.methods with
  | nil => exact lawful_nil
  | cons method rest induction =>
      rw [List.flatMap_cons]
      exact method.data.lawful_outline.append induction

/-! ### Tables -/

namespace Session

variable {base : Symbols} {options : Options} {session : Session}

/-- With enough room nothing of the outline is left out. -/
theorem Between.symbols_visit (between : session.Between base options) {method : Located Method}
    (fits : method.data.nesting ≤ options.maxNestingDepth) :
    (session.visitMethod method).symbols = session.symbols.acts method.data.outline := by
  rw [Method.nesting] at fits
  obtain ⟨room, limit, left⟩ := between.room_left (Nat.lt_of_succ_le (by omega))
  have enough : stmtsNesting method.data.body ≤ room := by omega
  have body : actions (method.data.script room) = stmtsOutline method.data.body :=
    (stmts_render method.data.body).complete room enough
  rw [symbols_visitMethod left, body]
  rfl

theorem Between.symbols_visits (between : session.Between base options)
    (methods : List (Located Method))
    (fits : ∀ method ∈ methods, method.data.nesting ≤ options.maxNestingDepth) :
    (methods.foldl visitMethod session).symbols =
      session.symbols.acts (methods.flatMap fun method => method.data.outline) := by
  induction methods generalizing session with
  | nil => rfl
  | cons method rest induction =>
      have first := fits method List.mem_cons_self
      have later : ∀ other ∈ rest, other.data.nesting ≤ options.maxNestingDepth :=
        fun other member => fits other (List.mem_cons_of_mem method member)
      rw [List.foldl_cons, List.flatMap_cons, Symbols.acts_append,
        induction (between.visit method) later, between.symbols_visit first]

/-- With enough room the methods so far have done what their outlines say. -/
theorem symbols_reached (base : Symbols) {options : Options} (program : Program)
    (methods : List (Located Method))
    (fits : ∀ method ∈ methods, method.data.nesting ≤ options.maxNestingDepth) :
    (methods.foldl visitMethod ((start base options).prepare program)).symbols =
      base.acts (methods.flatMap fun method => method.data.outline) := by
  have between := between_prepare base options program
  rw [between.symbols_visits methods fits, (alike_prepare (start base options) program).symbols]
  rfl

/-- What an analysis does to the table can be read off the syntax. -/
theorem symbols_analyse (base : Symbols) {options : Options} {program : Program}
    (fits : program.nesting ≤ options.maxNestingDepth) :
    ((start base options).analyse program).symbols = base.acts program.outline :=
  symbols_reached base program program.methods (nesting_le_iff.mp fits)

end Session

/-! ### Entries -/

/-- The line of the list of unused variables for a declaration. -/
def Declaration.listing (declaration : Declaration) : String :=
  declaration.name ++ " (line " ++ toString declaration.line.toNat ++ ")"

theorem unused_declarations (depth : Nat) (items : List Declaration) :
    ((items.map (Declaration.entry depth)).filter fun entry => !entry.used).map
        Symbols.unusedEntry =
      (items.filter fun declaration => ¬ Referenced declaration.rest declaration.name).map
        Declaration.listing := by
  rw [List.filter_map, List.map_map]
  simp [Declaration.entry, Function.comp_def, Symbols.unusedEntry, Declaration.listing]

/-- Every declaration of a program has one entry, which is unused if no mention refers to it. -/
theorem unused_is_lexical {symbols : Symbols} (reachable : symbols.Reachable) (options : Options)
    {program : Program} (fits : program.nesting ≤ options.maxNestingDepth)
    (once : DeclaresOnce program.outline) :
    ((Session.start symbols options).analyse program).symbols.entries =
        (symbols.marked program.outline).entries ++
          (declarations program.outline).map (Declaration.entry symbols.scopeDepth) ∧
      ((Session.start symbols options).analyse program).symbols.unused =
        (symbols.marked program.outline).unused ++
          ((declarations program.outline).filter fun declaration =>
            ¬ Referenced declaration.rest declaration.name).map Declaration.listing := by
  have lawful := program.lawful_outline
  obtain ⟨opened, recorded⟩ := Symbols.acts_recorded reachable.in_store lawful once
  rw [Session.symbols_analyse symbols fits]
  constructor
  · exact recorded.stored
  · rw [Symbols.unused, recorded.stored, List.filter_append, List.map_append, unused_declarations]
    rfl

/-- A parameter that is hidden where its name is mentioned, and a local that a path starts with. -/
def shadowing : Program :=
  let inside : List (Located Stmt) :=
    [.place 5 9 (.declare "long" "first" false (some (.place 5 22 (.identifier "first")))),
      .place 6 9 (.expression (.place 6 9 (.member ["second", "length"])))]
  let method : Method :=
    { returnTy := "void", name := "hide", params := [.place 3 12 { ty := "int", name := "first" }],
      body := [.place 4 5 (.declare "String" "second" false none), .place 5 5 (.block inside),
        .place 7 5 (.expression (.place 7 5 (.identifier "total")))] }
  ⟨[.place 1 1 ⟨"Sample", "", [.place 3 1 (.method method)]⟩]⟩

/-- The fields of the sample as variables of the root scope. -/
def sampleFields : Symbols :=
  (Symbols.empty.declare "spare" "int" 2).declare "total" "int" 2

theorem shadowed_parameter_unused :
    ((Session.start sampleFields {}).analyse shadowing).symbols.unused =
      ["spare (line 2)", "first (line 3)"] := by
  have reachable : sampleFields.Reachable := (Symbols.Reachable.empty.declare _ _ _).declare _ _ _
  have fits : shadowing.nesting ≤ 256 := by decide
  have once : DeclaresOnce shadowing.outline := by decide
  obtain ⟨-, unused⟩ := unused_is_lexical reachable {} fits once
  rw [unused]
  decide

end Sema
