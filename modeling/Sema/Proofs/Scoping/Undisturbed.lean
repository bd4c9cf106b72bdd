import Sema.Proofs.Symbols.Extension
import Sema.Proofs.Walk.Program

/-!
# The table of the caller

An analysis works on the table of its caller, whatever scopes that has open. All declarations of the
analysis stand in scopes of its own, which it closes, so the caller finds its variables where they
were.
-/

namespace Sema

/-- An analysis takes no variable from its caller and gives no name another meaning. -/
theorem table_undisturbed (session : Session) (reachable : session.symbols.Reachable)
    (program : Program) : session.symbols.Undisturbed (session.analyse program).symbols := by
  have excursion := Session.excursion_analyse session program
  exact excursion.undisturbed reachable

/-- The table of a caller that has a scope open. -/
def callerTable : Symbols :=
  ((Symbols.empty.declare "total" "int" 1).enter.declare "count" "int" 2).addToken
    ⟨"Keyword", "class", 1, 1⟩

/-- A method that declares the names of the caller and mentions one of them before. -/
def recount : Program :=
  let method : Method :=
    { returnTy := "void", name := "recount",
      params := [.place 5 14 { ty := "long", name := "total" }],
      body := [.place 6 5 (.expression (.place 6 5 (.identifier "count"))),
        .place 7 5 (.declare "long" "count" false (some (.place 7 18 (.identifier "total"))))] }
  ⟨[.place 4 1 ⟨"Sample", "", [.place 5 1 (.method method)]⟩]⟩

theorem caller_finds_total :
    callerTable.Undisturbed ((Session.start callerTable {}).analyse recount).symbols ∧
      ((Session.start callerTable {}).analyse recount).symbols.lookup? "total" =
        some ⟨"total", "int", 1, false, 0⟩ ∧
      ((Session.start callerTable {}).analyse recount).symbols.entries =
        [⟨"total", "int", 1, false, 0⟩, ⟨"count", "int", 2, true, 1⟩,
          ⟨"total", "long", 5, true, 2⟩, ⟨"count", "long", 7, false, 2⟩] := by
  have reachable : callerTable.Reachable :=
    (((Symbols.Reachable.empty.declare _ _ _).enter).declare _ _ _).addToken _
  have undisturbed := table_undisturbed (Session.start callerTable {}) reachable recount
  exact ⟨undisturbed, by decide, by decide⟩

end Sema
