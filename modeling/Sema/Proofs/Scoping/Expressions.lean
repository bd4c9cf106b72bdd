import Sema.Proofs.Scoping.Fields
import Sema.Proofs.Symbols.Alone

/-!
# What the visit of an expression does

An expression is examined node by node: a node marks the variable that it reads, and the check that
it calls for adds messages. A mark changes no type, so all checks see what was known at the start,
and it makes no difference which of them come before a visit. So the visit of an expression for
which there is room is the examination of its nodes, in the order of the syntax.
-/

namespace Sema

namespace Expr

/-- The expressions that stand directly in an expression. -/
def operands : Expr → List (Located Expr)
  | .binary _ lhs rhs => [lhs, rhs]
  | .unary _ operand _ => [operand]
  | .call _ args | .memberCall _ _ args => args
  | .literal _ _ | .identifier _ | .member _ => []

/-- The check that an expression itself calls for. -/
def check? : Expr → Option Check
  | .binary op lhs rhs => some (.binary op lhs.data rhs.data)
  | .call name args => some (.call name args)
  | .literal _ _ | .identifier _ | .unary _ _ _ | .member _ | .memberCall _ _ _ => none

end Expr

mutual

/-- An expression and all that stands in it, however deep. -/
def exprNodes : Located Expr → List (Located Expr)
  | ⟨pos, expr⟩ => ⟨pos, expr⟩ :: expr.nodes

def Expr.nodes : Expr → List (Located Expr)
  | .literal _ _ | .identifier _ | .member _ => []
  | .binary _ lhs rhs => exprNodes lhs ++ exprNodes rhs
  | .unary _ operand _ => exprNodes operand
  | .call _ args => exprsNodes args
  | .memberCall _ _ args => exprsNodes args

def exprsNodes : List (Located Expr) → List (Located Expr)
  | [] => []
  | expr :: rest => exprNodes expr ++ exprsNodes rest

end

/-- The names of the variables that nodes read. -/
def readNames (nodes : List (Located Expr)) : List String :=
  nodes.filterMap fun node => node.data.reads?

/-- The messages of the checks that nodes call for. -/
def Context.reports (context : Context) (nodes : List (Located Expr)) : FindingLog :=
  nodes.flatMap fun node => node.data.check?.elim [] (context.findings node.line)

/-- Marks what the nodes read, and reports what their checks find. -/
def Session.examine (session : Session) (nodes : List (Located Expr)) : Session :=
  { session with
    symbols := (readNames nodes).foldl Symbols.markUsed session.symbols
    log := session.log ++ session.context.reports nodes }

/-- A session that has gained marks for some names and some messages, and nothing besides. -/
structure Session.Gains (before : Session) (names : List String) (messages : FindingLog)
    (after : Session) : Prop where
  scopes : after.symbols.scopes = before.symbols.scopes
  entries : after.symbols.entries.map Variable.unmarked =
    before.symbols.entries.map Variable.unmarked
  used : ∀ (slot : Nat) old new, before.symbols.entries[slot]? = some old →
    after.symbols.entries[slot]? = some new →
      (new.used = true ↔
        old.used = true ∨ ∃ name ∈ names, before.symbols.scopes.visible? name = some slot)
  tokens : after.symbols.tokens = before.symbols.tokens
  locals : after.locals = before.locals
  catalogue : after.catalogue = before.catalogue
  current : after.current = before.current
  options : after.options = before.options
  depth : after.depth = before.depth
  log : after.log = before.log ++ messages

/-! ### Operands -/

mutual

/-- What holds of an expression if it holds of its operands holds of all expressions. -/
theorem operand_induction {motive : Located Expr → Prop}
    (step : ∀ expr : Located Expr, (∀ operand ∈ expr.data.operands, motive operand) → motive expr) :
    ∀ expr, motive expr
  | ⟨pos, expr⟩ => step ⟨pos, expr⟩ (each_operand step expr)

theorem each_operand {motive : Located Expr → Prop}
    (step : ∀ expr : Located Expr, (∀ operand ∈ expr.data.operands, motive operand) → motive expr) :
    ∀ expr : Expr, ∀ operand ∈ expr.operands, motive operand
  | .literal _ _ | .identifier _ | .member _ => List.forall_mem_nil _
  | .binary _ lhs rhs =>
      List.forall_mem_cons.mpr ⟨operand_induction step lhs,
        List.forall_mem_singleton.mpr (operand_induction step rhs)⟩
  | .unary _ operand _ => List.forall_mem_singleton.mpr (operand_induction step operand)
  | .call _ args | .memberCall _ _ args => each_listed step args

theorem each_listed {motive : Located Expr → Prop}
    (step : ∀ expr : Located Expr, (∀ operand ∈ expr.data.operands, motive operand) → motive expr) :
    ∀ exprs : List (Located Expr), ∀ expr ∈ exprs, motive expr
  | [] => List.forall_mem_nil _
  | expr :: rest => List.forall_mem_cons.mpr ⟨operand_induction step expr, each_listed step rest⟩

end

theorem exprNesting_eq (expr : Located Expr) :
    exprNesting expr = exprsNesting expr.data.operands + 1 := by
  obtain ⟨pos, expr⟩ := expr
  cases expr <;> simp [exprNesting, Expr.nesting, Expr.operands, exprsNesting]

theorem exprNodes_eq (expr : Located Expr) :
    exprNodes expr = expr :: exprsNodes expr.data.operands := by
  obtain ⟨pos, expr⟩ := expr
  cases expr <;> simp [exprNodes, Expr.nodes, Expr.operands, exprsNodes]

/-! ### Marks of several names -/

namespace Symbols

variable {symbols : Symbols}

theorem tokens_marks (symbols : Symbols) (names : List String) :
    (names.foldl markUsed symbols).tokens = symbols.tokens := by
  induction names generalizing symbols with
  | nil => rfl
  | cons name rest induction => rw [List.foldl_cons, induction, tokens_markUsed]

theorem unmarked_marks (symbols : Symbols) (names : List String) :
    (names.foldl markUsed symbols).entries.map Variable.unmarked =
      symbols.entries.map Variable.unmarked := by
  apply List.ext_getElem?
  intro slot
  rw [List.getElem?_map, List.getElem?_map, entry_marks, Option.map_map]
  congr 1
  funext entry
  simp only [Function.comp_apply]
  split <;> rfl

theorem used_marks (names : List String) {slot : Nat} {old new : Variable}
    (before : symbols.entries[slot]? = some old)
    (after : (names.foldl markUsed symbols).entries[slot]? = some new) :
    new.used = true ↔
      old.used = true ∨ ∃ name ∈ names, symbols.scopes.visible? name = some slot := by
  rw [entry_marks, before, Option.map_some] at after
  obtain rfl := Option.some.inj after
  by_cases meant : ∃ name ∈ names, symbols.scopes.visible? name = some slot
  · simp [meant]
  · simp [meant]

theorem typeOf_marks (symbols : Symbols) (names : List String) :
    (names.foldl markUsed symbols).typeOf? = symbols.typeOf? := by
  funext name
  apply typeOf_eq_of_unmarked
  rw [lookup?, lookup?, scopes_marks]
  cases symbols.scopes.visible? name with
  | none => rfl
  | some slot =>
      have same := congrArg (fun entries => entries[slot]?) (unmarked_marks symbols names)
      simpa only [Option.bind_some, List.getElem?_map] using same

end Symbols

/-! ### Examinations -/

namespace Session

variable {session : Session}

theorem context_examine (session : Session) (nodes : List (Located Expr)) :
    (session.examine nodes).context = session.context := by
  have types := Symbols.typeOf_marks session.symbols (readNames nodes)
  have resolved : (session.examine nodes).resolve? = session.resolve? := by
    funext name
    have same := congrFun types name
    simp only [Symbols.typeOf?] at same
    simp only [resolve?, currentLocals, examine, same]
  rw [context, resolved]
  rfl

theorem examine_nil (session : Session) : session.examine [] = session := by
  simp [examine, readNames, Context.reports]

theorem examine_append (session : Session) (front rest : List (Located Expr)) :
    session.examine (front ++ rest) = (session.examine front).examine rest := by
  -- What the first nodes mark is not seen by the checks of the others.
  have context := context_examine session front
  simp only [examine] at context ⊢
  rw [context, readNames, List.filterMap_append, List.foldl_append, Context.reports,
    List.flatMap_append, List.append_assoc]
  rfl

theorem gains_examine (session : Session) (nodes : List (Located Expr)) :
    session.Gains (readNames nodes) (session.context.reports nodes) (session.examine nodes) where
  scopes := Symbols.scopes_marks session.symbols (readNames nodes)
  entries := Symbols.unmarked_marks session.symbols (readNames nodes)
  used _ _ _ before after := Symbols.used_marks (readNames nodes) before after
  tokens := Symbols.tokens_marks session.symbols (readNames nodes)
  locals := rfl
  catalogue := rfl
  current := rfl
  options := rfl
  depth := rfl
  log := rfl

theorem examine_node (session : Session) (node : Located Expr) :
    session.examine [node] =
      { session with
        symbols := node.data.reads?.elim session.symbols session.symbols.markUsed
        log := session.log ++ node.data.check?.elim [] (session.context.findings node.line) } := by
  rw [examine, Context.reports, List.flatMap_singleton, readNames]
  cases reads : node.data.reads? <;> simp [reads]

theorem analyse_expr_own (session : Session) (pos : Position) (expr : Expr) :
    analyseExpr expr pos.line session =
      visitExprs expr.operands (session.examine [⟨pos, expr⟩]) := by
  rw [examine_node]
  cases expr with
  | binary | call =>
      simp only [analyseExpr]
      rfl
  | literal | identifier | unary =>
      simp only [analyseExpr, Expr.check?, Option.elim_none, List.append_nil]
      rfl
  | member path | memberCall path =>
      simp only [analyseExpr, Expr.check?, Option.elim_none, List.append_nil]
      cases path <;> rfl

/-- One level deeper the expression itself is examined and its operands are visited. -/
theorem visit_expr_own (expr : Located Expr)
    (allowed : session.depth < session.options.maxNestingDepth) :
    visitExpr expr session =
      { visitExprs expr.data.operands (session.deeper.examine [expr]) with
        depth := (visitExprs expr.data.operands (session.deeper.examine [expr])).depth - 1 } := by
  obtain ⟨pos, expr⟩ := expr
  have within : ¬ session.options.maxNestingDepth < session.depth + 1 := Nat.not_lt.mpr allowed
  rw [← analyse_expr_own, visitExpr, visit]
  simp only [if_neg within]
  rfl

/-- Each expression of a list finds the room that the first finds. -/
theorem visit_exprs_examine {exprs : List (Located Expr)}
    (each : ∀ expr ∈ exprs, ∀ session : Session, exprNesting expr ≤ session.room →
      visitExpr expr session = session.examine (exprNodes expr))
    (fits : exprsNesting exprs ≤ session.room) :
    visitExprs exprs session = session.examine (exprsNodes exprs) := by
  induction exprs generalizing session with
  | nil =>
      rw [visitExprs, exprsNodes]
      exact (examine_nil session).symm
  | cons expr rest induction =>
      obtain ⟨own, later⟩ := List.forall_mem_cons.mp each
      obtain ⟨first, others⟩ := Nat.max_le.mp fits
      have room : (session.examine (exprNodes expr)).room = session.room := rfl
      rw [visitExprs, own session first, induction later (room ▸ others), exprsNodes,
        examine_append]

theorem operands_fit {expr : Located Expr} (fits : exprNesting expr ≤ session.room) :
    session.depth < session.options.maxNestingDepth ∧
      exprsNesting expr.data.operands ≤ session.deeper.room := by
  have below : session.deeper.room = session.options.maxNestingDepth - (session.depth + 1) := rfl
  rw [exprNesting_eq, room] at fits
  omega

/-- With enough room the visit of an expression is the examination of its nodes. -/
theorem visit_expr_examine (expr : Located Expr) : ∀ session : Session,
    exprNesting expr ≤ session.room →
      visitExpr expr session = session.examine (exprNodes expr) := by
  induction expr using operand_induction with
  | step expr each =>
      intro session fits
      obtain ⟨allowed, inside⟩ := operands_fit fits
      have visited : visitExprs expr.data.operands (session.deeper.examine [expr]) =
          (session.deeper.examine [expr]).examine (exprsNodes expr.data.operands) :=
        visit_exprs_examine each inside
      rw [visit_expr_own expr allowed, visited, ← examine_append, List.singleton_append,
        ← exprNodes_eq]
      rfl

theorem context_visit_exprs {exprs : List (Located Expr)}
    (fits : exprsNesting exprs ≤ session.room) :
    (visitExprs exprs session).context = session.context := by
  rw [visit_exprs_examine (fun expr _ => visit_expr_examine expr) fits, context_examine]

end Session

/-- In any session with enough room the visit of an expression adds the messages of its nodes, marks
the variables that they read, and leaves everything else as it was. So the types of all expressions
stay, and a check finds the same before and after the visit, and before and after the visits of the
operands in it. -/
theorem visit_marks_and_reports (session : Session) {expr : Located Expr}
    (fits : exprNesting expr ≤ session.room) :
    session.Gains (readNames (exprNodes expr)) (session.context.reports (exprNodes expr))
        (visitExpr expr session) ∧
      (∀ other, (visitExpr expr session).typeOf other = session.typeOf other) ∧
      ∀ line check,
        (visitExpr expr session).context.findings line check =
            session.context.findings line check ∧
          (visitExprs expr.data.operands session.deeper).context.findings line check =
            session.context.findings line check := by
  have whole := Session.visit_expr_examine expr session fits
  have context : (visitExpr expr session).context = session.context := by
    rw [whole, Session.context_examine]
  have operands : (visitExprs expr.data.operands session.deeper).context = session.context :=
    Session.context_visit_exprs (Session.operands_fit fits).2
  refine ⟨?_, ?_, ?_⟩
  · rw [whole]
    exact Session.gains_examine session (exprNodes expr)
  · intro other
    rw [Session.typeOf, Session.typeOf, context]
  · intro line check
    rw [context, operands]
    exact ⟨rfl, rfl⟩

/-- A call that stands as deep as the limit allows, in a block that hides a parameter. -/
def deepCall : Located Expr :=
  .place 5 7 (.call "run" [.place 5 11 (.memberCall ["history", "total"] "add"
    [.place 5 29 (.unary .neg (.place 5 30 (.identifier "total")) true),
      .place 5 37 (.binary .mul (.place 5 37 (.identifier "extra"))
        (.place 5 45 (.literal "boolean" "true")))])])

def retally : Located Method :=
  .place 2 3
    { returnTy := "void", name := "run",
      params := [.place 2 12 { ty := "int", name := "total" },
        .place 2 23 { ty := "int", name := "extra" }],
      body := [.place 3 5 (.block [.place 4 7 (.declare "long" "total" false none),
        .place 5 7 (.expression deepCall)])] }

def hidingParameter : Program :=
  ⟨[.place 1 1 ⟨"Main", "", [.place 2 3 (.method retally.data)]⟩]⟩

theorem deep_call_visited :
    ∃ visit, (Session.start .empty ⟨false, 7⟩).Visits hidingParameter visit ∧
      visit.node = .expr deepCall ∧ exprNesting deepCall = visit.before.room ∧
      visit.before.context.reports (exprNodes deepCall) =
        [.error (some 5) (.argumentCount "run" 2 1),
          .error (some 5) (.arithmeticOperand .mul .right (.primitive .boolean))] ∧
      visit.before.symbols.entries = [⟨"total", "int", 2, false, 1⟩, ⟨"extra", "int", 2, false, 1⟩,
        ⟨"total", "long", 4, false, 2⟩] ∧
      visit.after.symbols.entries = [⟨"total", "int", 2, false, 1⟩, ⟨"extra", "int", 2, true, 1⟩,
        ⟨"total", "long", 4, true, 2⟩] := by
  have methods : hidingParameter.methods = [] ++ retally :: [] := rfl
  have block : (Session.start .empty ⟨false, 7⟩).Visits hidingParameter _ :=
    .body methods rfl (by decide) List.mem_cons_self
  have statement := block.part (by decide) (List.mem_cons_of_mem _ List.mem_cons_self)
  have call := statement.part (by decide) List.mem_cons_self
  exact ⟨_, call, rfl, by decide, by decide, by decide, by decide⟩

/-- The call marks the parameter that it reads and the local, not the parameter that this hides. -/
theorem hidden_parameter_unmarked :
    ∃ visit, (Session.start .empty ⟨false, 7⟩).Visits hidingParameter visit ∧
      visit.node = .expr deepCall ∧ exprNesting deepCall = visit.before.room ∧
      visit.before.Gains ["history", "total", "extra"]
        [.error (some 5) (.argumentCount "run" 2 1),
          .error (some 5) (.arithmeticOperand .mul .right (.primitive .boolean))] visit.after ∧
      visit.before.symbols.entries = [⟨"total", "int", 2, false, 1⟩, ⟨"extra", "int", 2, false, 1⟩,
        ⟨"total", "long", 4, false, 2⟩] ∧
      visit.after.symbols.entries = [⟨"total", "int", 2, false, 1⟩, ⟨"extra", "int", 2, true, 1⟩,
        ⟨"total", "long", 4, true, 2⟩] := by
  obtain ⟨visit, visits, node, level, reports, before, after⟩ := deep_call_visited
  have names : readNames (exprNodes deepCall) = ["history", "total", "extra"] := by decide
  have visited : visit.after = visitExpr deepCall visit.before := by
    rw [Visit.after, node]
    rfl
  have gained := (visit_marks_and_reports visit.before level.le).1
  rw [names, reports, ← visited] at gained
  exact ⟨visit, visits, node, level, gained, before, after⟩

end Sema
