import Sema.Proofs.Typing.Rules
import Sema.Proofs.Walk.MethodVisit

/-!
# The walk accepts what is well typed

A script is quiet if nothing in it is refused and every check is silent. Piece by piece a quiet
script is the same as a rule that holds, if the room is enough for the piece. An analysis without
messages has quiet bodies and no redeclaration, and nothing else is asked of a well-typed program.
-/

namespace Sema

def Remark.Silent (signature? : String → Option Signature) : Remark → Prop
  | .refused => False
  | .checked site => site.findings signature? = []

def Quiet (signature? : String → Option Signature) (method : MethodContext) (types : Typing)
    (script : List Step) : Prop :=
  ∀ remark ∈ remarks types method script, remark.Silent signature?

variable {signature? : String → Option Signature} {method : MethodContext} {types : Typing}

/-! ### Quiet scripts -/

theorem quiet_nil : Quiet signature? method types [] := by simp [Quiet, remarks]

theorem quiet_append {front rest : List Step} :
    Quiet signature? method types (front ++ rest) ↔ Quiet signature? method types front ∧
      Quiet signature? method (overlay types (actions front)) rest := by
  simp only [Quiet, remarks_append, List.mem_append, or_imp, forall_and]

theorem quiet_check {line : UInt64} {check : Check} {rest : List Step} :
    Quiet signature? method types (.check line check :: rest) ↔
      Context.findings ⟨types, signature?, some method⟩ line check = [] ∧
        Quiet signature? method types rest := by
  simp [Quiet, remarks, Remark.Silent, Site.findings]

theorem quiet_act {action : Action} {rest : List Step} :
    Quiet signature? method types (.act action :: rest) ↔
      Quiet signature? method (action.declareIn types) rest := Iff.rfl

theorem quiet_visit {node : Node} {inside : Nat → List Step} {room : Nat} :
    Quiet signature? method types (visitScript node inside (room + 1)) ↔
      Quiet signature? method types (inside room) := by
  have ended : Quiet signature? method (overlay types (actions (inside room))) [.done] := by
    simp [Quiet, remarks]
  have whole : Quiet signature? method types (visitScript node inside (room + 1)) ↔
      Quiet signature? method types (inside room ++ [.done]) := Iff.rfl
  rw [whole, quiet_append, and_iff_left ended]

theorem quiet_scope {inner : List Step} :
    Quiet signature? method types (scopeScript inner) ↔
      Quiet signature? method types inner := by
  have ended : Quiet signature? method (overlay types (actions inner)) [.act .leave] := by
    simp [Quiet, remarks]
  have whole : Quiet signature? method types (scopeScript inner) ↔
      Quiet signature? method types (inner ++ [.act .leave]) := Iff.rfl
  rw [whole, quiet_append, and_iff_left ended]

/-! ### Types after a piece -/

theorem overlay_scope (types : Typing) (inner : List Action) :
    overlay types (scopeAround inner) = overlay types inner := by
  have entered : overlay types (scopeAround inner) = overlay types (inner ++ [.leave]) := rfl
  rw [entered, overlay_concat]
  rfl

theorem overlay_mentions {history : List Action}
    (mentions : ∀ action ∈ history, ∃ name, action = .mention name) (types : Typing) :
    overlay types history = types := by
  induction history with
  | nil => rfl
  | cons action rest induction =>
      obtain ⟨name, rfl⟩ := mentions action List.mem_cons_self
      exact induction fun later member => mentions later (List.mem_cons_of_mem _ member)

/-- Expressions declare nothing. -/
theorem overlay_expr (expr : Located Expr) {room : Nat} (fits : exprNesting expr ≤ room)
    (types : Typing) : overlay types (actions (exprScript expr room)) = types := by
  rw [(expr_renders expr).complete room fits]
  exact overlay_mentions (expr_outline_mentions expr) types

theorem overlay_condition {construct : Construct} {line : UInt64} {cond : Located Expr} {room : Nat}
    (fits : exprNesting cond ≤ room) (types : Typing) :
    overlay types (actions (conditionScript construct line cond room)) = types :=
  overlay_expr cond fits types

theorem overlay_optional_condition {line : UInt64} {cond : Option (Located Expr)} {room : Nat}
    (fits : optionalExprNesting cond ≤ room) (types : Typing) :
    overlay types (actions (optionalConditionScript line cond room)) = types := by
  cases cond with
  | none => rfl
  | some cond => exact overlay_condition fits types

theorem overlay_path (path : List String) (types : Typing) :
    overlay types (actions (pathScript path)) = types := by
  rw [(path_renders path).complete 0 (Nat.le_refl 0)]
  exact overlay_mentions (path_outline_mentions path) types

/-! ### Expressions -/

theorem path_quiet (path : List String) : Quiet signature? method types (pathScript path) := by
  cases path with
  | nil => exact quiet_nil
  | cons head rest => exact quiet_act.mpr quiet_nil

mutual

theorem expr_quiet : ∀ (expr : Located Expr) (room : Nat), exprNesting expr ≤ room →
    (Quiet signature? method types (exprScript expr room) ↔ ExprOk signature? types expr.data)
  | ⟨pos, expr⟩, 0, fits => absurd fits (by simp [exprNesting])
  | ⟨pos, expr⟩, room + 1, fits => by
      rw [exprScript, quiet_visit]
      exact expr_inside_quiet expr pos.line room (Nat.le_of_succ_le_succ fits)

theorem expr_inside_quiet : ∀ (expr : Expr) (line : UInt64) (room : Nat), expr.nesting ≤ room →
    (Quiet signature? method types (expr.script line room) ↔ ExprOk signature? types expr)
  | .literal ty value, _, _, _ => iff_of_true quiet_nil (.literal ty value)
  | .identifier name, _, _, _ => iff_of_true (quiet_act.mpr quiet_nil) (.identifier name)
  | .binary op lhs rhs, line, room, fits => by
      obtain ⟨left, right⟩ := Nat.max_le.mp fits
      rw [Expr.script, quiet_check, quiet_append, overlay_expr lhs left,
        expr_quiet lhs room left, expr_quiet rhs room right]
      constructor
      · rintro ⟨operands, first, second⟩
        exact .binary (Context.binary_silent.mp operands) first second
      · intro ok
        cases ok with
        | binary operands first second =>
            exact ⟨Context.binary_silent.mpr operands, first, second⟩
  | .unary op operand leading, _, room, fits => by
      rw [Expr.script, expr_quiet operand room fits]
      constructor
      · exact fun inner => .unary op leading inner
      · intro ok
        cases ok with
        | unary _ _ inner => exact inner
  | .call name args, line, room, fits => by
      rw [Expr.script, quiet_check, exprs_quiet args room fits]
      constructor
      · rintro ⟨call, inner⟩
        exact .call (Context.call_silent.mp call) inner
      · intro ok
        cases ok with
        | call call inner => exact ⟨Context.call_silent.mpr call, inner⟩
  | .member path, _, _, _ => iff_of_true (path_quiet path) (.member path)
  | .memberCall path name args, _, room, fits => by
      rw [Expr.script, quiet_append, overlay_path, exprs_quiet args room fits]
      constructor
      · exact fun ⟨_, inner⟩ => .memberCall path name inner
      · intro ok
        cases ok with
        | memberCall _ _ inner => exact ⟨path_quiet path, inner⟩

theorem exprs_quiet : ∀ (exprs : List (Located Expr)) (room : Nat), exprsNesting exprs ≤ room →
    (Quiet signature? method types (exprsScript exprs room) ↔
      ∀ expr ∈ exprs, ExprOk signature? types expr.data)
  | [], _, _ => iff_of_true quiet_nil (by simp)
  | expr :: rest, room, fits => by
      obtain ⟨first, later⟩ := Nat.max_le.mp fits
      rw [exprsScript, quiet_append, overlay_expr expr first, expr_quiet expr room first,
        exprs_quiet rest room later, List.forall_mem_cons]

end

/-! ### Statements -/

theorem condition_quiet (construct : Construct) (line : UInt64) (cond : Located Expr) {room : Nat}
    (fits : exprNesting cond ≤ room) :
    Quiet signature? method types (conditionScript construct line cond room) ↔
      ConditionOk signature? types cond.data := by
  rw [conditionScript, quiet_check, expr_quiet cond room fits]
  exact and_congr_left' Context.condition_silent

theorem optional_condition_quiet (line : UInt64) (cond : Option (Located Expr)) {room : Nat}
    (fits : optionalExprNesting cond ≤ room) :
    Quiet signature? method types (optionalConditionScript line cond room) ↔
      ∀ expr ∈ cond, ConditionOk signature? types expr.data := by
  cases cond with
  | none => exact iff_of_true quiet_nil (by simp)
  | some cond =>
      rw [optionalConditionScript, condition_quiet .forLoop line cond fits]
      simp

theorem initializer_quiet (name ty : String) (line : UInt64) (init : Option (Located Expr))
    {room : Nat} (fits : optionalExprNesting init ≤ room) :
    Quiet signature? method types (initializerScript name ty line init room) ↔
      ∀ value ∈ init, InitialOk signature? types (.ofName ty) value.data := by
  cases init with
  | none => exact iff_of_true quiet_nil (by simp)
  | some value =>
      have own : Quiet signature? method types (initializerScript name ty line (some value) room) ↔
          InitialOk signature? types (.ofName ty) value.data := by
        rw [initializerScript, quiet_check, expr_quiet value room fits]
        exact and_congr_left' Context.initializer_silent
      rw [own]
      simp

theorem returning_quiet (line : UInt64) (value : Option (Located Expr)) {room : Nat}
    (fits : optionalExprNesting value ≤ room) :
    Quiet signature? method types
        (.check line (.returning (value.map Located.data)) :: optionalExprScript value room) ↔
      ReturnOk method types value ∧ ∀ returned ∈ value, ExprOk signature? types returned.data := by
  have inner : Quiet signature? method types (optionalExprScript value room) ↔
      ∀ returned ∈ value, ExprOk signature? types returned.data := by
    cases value with
    | none => exact iff_of_true quiet_nil (by simp)
    | some returned =>
        rw [optionalExprScript, expr_quiet returned room fits]
        simp
  have check : Context.returning ⟨types, signature?, some method⟩ (value.map Located.data) line =
      [] ↔ ReturnOk method types value := Context.returning_silent rfl
  rw [quiet_check, inner]
  exact and_congr_left' check

mutual

theorem stmt_quiet : ∀ (stmt : Located Stmt) (types : Typing) (room : Nat),
    stmtNesting stmt ≤ room →
    (Quiet signature? method types (stmtScript stmt room) ↔
      StmtOk signature? method types stmt.data)
  | ⟨pos, stmt⟩, _, 0, fits => absurd fits (by simp [stmtNesting])
  | ⟨pos, stmt⟩, types, room + 1, fits => by
      rw [stmtScript, quiet_visit]
      exact stmt_inside_quiet stmt pos.line types room (Nat.le_of_succ_le_succ fits)

theorem stmt_inside_quiet : ∀ (stmt : Stmt) (line : UInt64) (types : Typing) (room : Nat),
    stmt.nesting ≤ room →
    (Quiet signature? method types (stmt.script line room) ↔ StmtOk signature? method types stmt)
  | .declare ty name isArray init, line, types, room, fits => by
      rw [Stmt.script, quiet_act, initializer_quiet name ty line init fits]
      constructor
      · exact fun inner => .declare isArray inner
      · intro ok
        cases ok with
        | declare _ inner => exact inner
  | .assign target value, line, types, room, fits => by
      rw [Stmt.script, quiet_check, expr_quiet value room fits]
      constructor
      · rintro ⟨check, inner⟩
        obtain ⟨ty, found, accepts⟩ := Context.assignment_silent.mp check
        exact .assign found accepts inner
      · intro ok
        cases ok with
        | assign found accepts inner =>
            exact ⟨Context.assignment_silent.mpr ⟨_, found, accepts⟩, inner⟩
  | .ifElse cond thenBranch elseBranch, line, types, room, fits => by
      obtain ⟨condFits, branches⟩ := Nat.max_le.mp fits
      obtain ⟨thenFits, elseFits⟩ := Nat.max_le.mp branches
      rw [Stmt.script, quiet_append, quiet_append, condition_quiet .ifElse line cond condFits,
        overlay_condition condFits, stmt_quiet thenBranch types room thenFits,
        (stmt_renders thenBranch).complete room thenFits,
        optional_stmt_quiet elseBranch _ room elseFits]
      constructor
      · rintro ⟨condition, first, second⟩
        exact .ifElse condition first second
      · intro ok
        cases ok with
        | ifElse condition first second => exact ⟨condition, first, second⟩
  | .whileLoop cond body, line, types, room, fits => by
      obtain ⟨condFits, bodyFits⟩ := Nat.max_le.mp fits
      rw [Stmt.script, quiet_append, condition_quiet .whileLoop line cond condFits,
        overlay_condition condFits, stmt_quiet body types room bodyFits]
      constructor
      · rintro ⟨condition, inner⟩
        exact .whileLoop condition inner
      · intro ok
        cases ok with
        | whileLoop condition inner => exact ⟨condition, inner⟩
  | .doWhileLoop body cond, line, types, room, fits => by
      obtain ⟨bodyFits, condFits⟩ := Nat.max_le.mp fits
      rw [Stmt.script, quiet_append, stmt_quiet body types room bodyFits,
        (stmt_renders body).complete room bodyFits,
        condition_quiet .doWhileLoop line cond condFits]
      constructor
      · rintro ⟨inner, condition⟩
        exact .doWhileLoop inner condition
      · intro ok
        cases ok with
        | doWhileLoop inner condition => exact ⟨inner, condition⟩
  | .forLoop init cond update body, line, types, room, fits => by
      obtain ⟨initFits, afterInit⟩ := Nat.max_le.mp fits
      obtain ⟨condFits, afterCond⟩ := Nat.max_le.mp afterInit
      obtain ⟨updateFits, bodyFits⟩ := Nat.max_le.mp afterCond
      rw [Stmt.script, quiet_scope, quiet_append, quiet_append, quiet_append,
        overlay_optional_condition condFits, (optional_stmt_renders init).complete room initFits,
        (optional_stmt_renders update).complete room updateFits,
        optional_stmt_quiet init types room initFits, optional_condition_quiet line cond condFits,
        optional_stmt_quiet update _ room updateFits, stmt_quiet body _ room bodyFits]
      constructor
      · rintro ⟨first, condition, last, inner⟩
        exact .forLoop rfl rfl first condition last inner
      · intro ok
        cases ok with
        | forLoop started updated first condition last inner =>
            subst updated started
            exact ⟨first, condition, last, inner⟩
  | .switch scrutinee arms otherwise, _, types, room, fits => by
      obtain ⟨scrutineeFits, parts⟩ := Nat.max_le.mp fits
      obtain ⟨armsFit, otherwiseFits⟩ := Nat.max_le.mp parts
      rw [Stmt.script, quiet_append, quiet_append, overlay_expr scrutinee scrutineeFits,
        (arms_render arms).complete room armsFit, expr_quiet scrutinee room scrutineeFits,
        arms_quiet arms types room armsFit, otherwise_quiet otherwise _ room otherwiseFits]
      constructor
      · rintro ⟨value, first, last⟩
        exact .switch value first last
      · intro ok
        cases ok with
        | switch value first last => exact ⟨value, first, last⟩
  | .returning value, line, types, room, fits => by
      rw [Stmt.script, returning_quiet line value fits]
      constructor
      · rintro ⟨returns, inner⟩
        exact .returning returns inner
      · intro ok
        cases ok with
        | returning returns inner => exact ⟨returns, inner⟩
  | .breaking, _, types, _, _ => iff_of_true quiet_nil (.breaking types)
  | .continuing, _, types, _, _ => iff_of_true quiet_nil (.continuing types)
  | .block statements, _, types, room, fits => by
      rw [Stmt.script, quiet_scope, stmts_quiet statements types room fits]
      constructor
      · exact .block
      · intro ok
        cases ok with
        | block inner => exact inner
  | .expression value, _, types, room, fits => by
      rw [Stmt.script, expr_quiet value room fits]
      constructor
      · exact .expression
      · intro ok
        cases ok with
        | expression inner => exact inner

theorem stmts_quiet : ∀ (stmts : List (Located Stmt)) (types : Typing) (room : Nat),
    stmtsNesting stmts ≤ room →
    (Quiet signature? method types (stmtsScript stmts room) ↔
      StmtsOk signature? method types stmts)
  | [], types, _, _ => iff_of_true quiet_nil (.nil types)
  | stmt :: rest, types, room, fits => by
      obtain ⟨first, later⟩ := Nat.max_le.mp fits
      rw [stmtsScript, quiet_append, stmt_quiet stmt types room first,
        (stmt_renders stmt).complete room first,
        stmts_quiet rest _ room later]
      constructor
      · rintro ⟨head, tail⟩
        exact .cons head tail
      · intro ok
        cases ok with
        | cons head tail => exact ⟨head, tail⟩

theorem optional_stmt_quiet : ∀ (stmt : Option (Located Stmt)) (types : Typing) (room : Nat),
    optionalStmtNesting stmt ≤ room →
    (Quiet signature? method types (optionalStmtScript stmt room) ↔
      ∀ inner ∈ stmt, StmtOk signature? method types inner.data)
  | none, _, _, _ => iff_of_true quiet_nil (by simp)
  | some stmt, types, room, fits => by
      rw [optionalStmtScript, stmt_quiet stmt types room fits]
      simp

theorem arms_quiet : ∀ (arms : List (Located (Arm Stmt))) (types : Typing) (room : Nat),
    armsNesting arms ≤ room →
    (Quiet signature? method types (armsScript arms room) ↔ ArmsOk signature? method types arms)
  | [], types, _, _ => iff_of_true quiet_nil (.nil types)
  | ⟨_, value, body⟩ :: rest, types, room, fits => by
      obtain ⟨head, later⟩ := Nat.max_le.mp fits
      obtain ⟨valueFits, bodyFits⟩ := Nat.max_le.mp head
      rw [armsScript, quiet_append, quiet_append, quiet_scope, actions_append, overlay_append,
        overlay_expr value valueFits, actions_scope_script, overlay_scope,
        (stmts_render body).complete room bodyFits, expr_quiet value room valueFits,
        stmts_quiet body types room bodyFits, arms_quiet rest _ room later]
      constructor
      · rintro ⟨⟨selects, inner⟩, others⟩
        exact .cons selects inner others
      · intro ok
        cases ok with
        | cons selects inner others => exact ⟨⟨selects, inner⟩, others⟩

theorem otherwise_quiet : ∀ (otherwise : Option (Located (List (Located Stmt)))) (types : Typing)
    (room : Nat), otherwiseNesting otherwise ≤ room →
    (Quiet signature? method types (otherwiseScript otherwise room) ↔
      ∀ block ∈ otherwise, StmtsOk signature? method types block.data)
  | none, _, _, _ => iff_of_true quiet_nil (by simp)
  | some ⟨_, statements⟩, types, room, fits => by
      rw [otherwiseScript, quiet_scope, stmts_quiet statements types room fits]
      simp

end

/-! ### Programs -/

theorem remark_findings_nil {limit : Nat} {remark : Remark} :
    remark.findings limit signature? = [] ↔ remark.Silent signature? := by
  cases remark with
  | refused => exact iff_of_false (List.cons_ne_nil _ _) id
  | checked site => exact Iff.rfl

theorem messages_nil {place : Placed} {limit : Nat} (fits : place.method.data.nesting ≤ limit) :
    place.messages types limit signature? = [] ↔
      MethodOk signature? types place.method.data := by
  cases limit with
  | zero => exact absurd fits (by simp [Method.nesting])
  | succ room =>
      have body : Quiet signature? place.method.data.context
          (overlay types (parametersOutline place.method.data.params))
          (place.method.data.script room) ↔ MethodOk signature? types place.method.data :=
        stmts_quiet place.method.data.body _ room (Nat.le_of_succ_le_succ fits)
      rw [← body, Placed.messages, List.flatMap_eq_nil_iff]
      exact forall₂_congr fun remark _ => remark_findings_nil

theorem log_nil_iff (log : FindingLog) : log.errors = [] ∧ log.warnings = [] ↔ log = [] := by
  cases log with
  | nil => exact iff_of_true ⟨rfl, rfl⟩ rfl
  | cons message rest =>
      cases message <;> simp [Log.errors, Log.warnings, Log.atLevel, Message.level]

theorem method_of_placed {program : Program} {place : Placed} (member : place ∈ program.placed) :
    place.method ∈ program.methods := by
  obtain ⟨front, later, split, -⟩ := mem_placed.mp member
  simp [split]

/-- Enough room for every node: then no messages and well-typed are the same. -/
theorem accepts_iff_well_typed {symbols : Symbols} (reachable : symbols.Reachable)
    (options : Options) {program : Program}
    (fits : program.nesting ≤ options.maxNestingDepth) :
    (((Session.start symbols options).analyse program).log.errors = [] ∧
        ((Session.start symbols options).analyse program).log.warnings = []) ↔
      program.WellTyped symbols.typeOf? options.resolveForwardCalls := by
  have stored := reachable.in_store
  have room := nesting_le_iff.mp fits
  have bodies : ∀ place ∈ program.placed, ∀ signature?,
      place.messages symbols.typeOf? options.maxNestingDepth signature? = [] ↔
        MethodOk signature? symbols.typeOf? place.method.data :=
    fun place member signature? => messages_nil (room _ (method_of_placed member))
  have distinct : (∀ place ∈ program.placed, place.redeclaration = []) ↔
      (program.methods.map fun method => method.data.name).Nodup := by
    rw [Program.placed, placed_redeclarations]
    simp
  rw [log_nil_iff]
  rcases Nat.eq_zero_or_pos options.maxNestingDepth with none | positive
  · have empty : program.methods = [] := by
      rw [List.eq_nil_iff_forall_not_mem]
      intro method member
      have above := room method member
      rw [none, Method.nesting] at above
      omega
    refine iff_of_true ?_ ⟨by simp [empty], by simp [Program.placed, empty, placed]⟩
    simp [Session.analyse, empty, Session.start]
  · cases mode : options.resolveForwardCalls with
    | false =>
        rw [(Session.log_single mode positive stored program).2, List.flatMap_eq_nil_iff]
        constructor
        · intro silent
          have parts := fun place member => List.append_eq_nil_iff.mp (silent place member)
          exact ⟨distinct.mp fun place member => (parts place member).1,
            fun place member => (bodies place member _).mp (parts place member).2⟩
        · intro typed place member
          rw [List.append_eq_nil_iff]
          exact ⟨distinct.mpr typed.distinct place member,
            (bodies place member _).mpr (typed.bodies place member)⟩
    | true =>
        rw [(Session.log_ahead mode stored program).2, List.append_eq_nil_iff,
          List.flatMap_eq_nil_iff, List.flatMap_eq_nil_iff, distinct]
        constructor
        · rintro ⟨names, silent⟩
          exact ⟨names, fun place member => (bodies place member _).mp (silent place member)⟩
        · intro typed
          exact ⟨typed.distinct,
            fun place member => (bodies place member _).mpr (typed.bodies place member)⟩

/-- Two methods, of which the upper one calls the lower one. -/
def callDown : Program :=
  let call := Located.place 2 5 (Expr.call "lower" [.place 2 11 (.identifier "count")])
  let upper : Method :=
    { returnTy := "void", name := "upper", params := [.place 1 12 { ty := "int", name := "count" }],
      body := [.place 2 5 (.expression call)] }
  let lower : Method :=
    { returnTy := "void", name := "lower", params := [.place 4 12 { ty := "long", name := "size" }],
      body := [] }
  ⟨[.place 1 1 ⟨"Sample", "", [.place 1 1 (.method upper), .place 4 1 (.method lower)]⟩]⟩

/-- A call down is well typed with a first pass only. -/
theorem well_typed_call_down :
    callDown.WellTyped Symbols.empty.typeOf? true ∧
      ¬ callDown.WellTyped Symbols.empty.typeOf? false := by
  have fits : callDown.nesting ≤ 256 := by decide
  constructor
  · exact (accepts_iff_well_typed .empty { resolveForwardCalls := true } fits).mp
      ⟨by decide, by decide⟩
  · intro typed
    have silent := (accepts_iff_well_typed .empty {} fits).mpr typed
    exact absurd silent.2 (by decide)

end Sema
