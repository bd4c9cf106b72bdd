import Sema.Proofs.Walk.Script

/-!
# Depths of nodes

The depths of a piece of a program list the depth of each of its nodes, given the depth at which the
piece stands. A method has depth one, and a statement or expression is one deeper than the node it
belongs to; blocks, arms of a switch and its last arm are no nodes of their own.

`Levels` relates the depths to the script of the same piece: a script refuses as many visits as
there are nodes just below its room, and with room for all of them it does not depend on the room.
-/

namespace Sema

/-! ### Expressions -/

mutual

def exprDepths : Located Expr → Nat → List Nat
  | ⟨_, expr⟩, level => level :: expr.depths (level + 1)

/-- The depths of what belongs to an expression, if that stands at the given depth. -/
def Expr.depths : Expr → Nat → List Nat
  | .literal _ _, _ => []
  | .identifier _, _ => []
  | .binary _ lhs rhs, level => exprDepths lhs level ++ exprDepths rhs level
  | .unary _ operand _, level => exprDepths operand level
  | .call _ args, level => exprsDepths args level
  | .member _, _ => []
  | .memberCall _ _ args, level => exprsDepths args level

def exprsDepths : List (Located Expr) → Nat → List Nat
  | [], _ => []
  | expr :: rest, level => exprDepths expr level ++ exprsDepths rest level

end

def optionalExprDepths : Option (Located Expr) → Nat → List Nat
  | none, _ => []
  | some expr, level => exprDepths expr level

/-! ### Statements -/

mutual

def stmtDepths : Located Stmt → Nat → List Nat
  | ⟨_, stmt⟩, level => level :: stmt.depths (level + 1)

/-- The depths of what belongs to a statement, if that stands at the given depth. -/
def Stmt.depths : Stmt → Nat → List Nat
  | .declare _ _ _ init, level => optionalExprDepths init level
  | .assign _ value, level => exprDepths value level
  | .ifElse cond thenBranch elseBranch, level =>
      exprDepths cond level ++ (stmtDepths thenBranch level ++ optionalStmtDepths elseBranch level)
  | .whileLoop cond body, level => exprDepths cond level ++ stmtDepths body level
  | .doWhileLoop body cond, level => stmtDepths body level ++ exprDepths cond level
  | .forLoop init cond update body, level =>
      optionalStmtDepths init level ++ (optionalExprDepths cond level ++
        (optionalStmtDepths update level ++ stmtDepths body level))
  | .switch scrutinee arms otherwise, level =>
      exprDepths scrutinee level ++ (armsDepths arms level ++ otherwiseDepths otherwise level)
  | .returning value, level => optionalExprDepths value level
  | .breaking, _ => []
  | .continuing, _ => []
  | .block statements, level => stmtsDepths statements level
  | .expression value, level => exprDepths value level

def stmtsDepths : List (Located Stmt) → Nat → List Nat
  | [], _ => []
  | stmt :: rest, level => stmtDepths stmt level ++ stmtsDepths rest level

def optionalStmtDepths : Option (Located Stmt) → Nat → List Nat
  | none, _ => []
  | some stmt, level => stmtDepths stmt level

def armsDepths : List (Located (Arm Stmt)) → Nat → List Nat
  | [], _ => []
  | ⟨_, value, body⟩ :: rest, level =>
      (exprDepths value level ++ stmtsDepths body level) ++ armsDepths rest level

def otherwiseDepths : Option (Located (List (Located Stmt))) → Nat → List Nat
  | none, _ => []
  | some ⟨_, statements⟩, level => stmtsDepths statements level

end

/-! ### Methods and programs -/

def Method.depths (method : Method) : List Nat := 1 :: stmtsDepths method.body 2

def Program.depths (program : Program) : List Nat :=
  program.methods.flatMap fun method => method.data.depths

/-! ### Refusals -/

def Step.refuses : Step → Bool
  | .refuse => true
  | .visit _ | .done | .act _ | .check _ _ => false

/-- How many visits a script refuses. -/
def refusals (script : List Step) : Nat := script.countP Step.refuses

theorem refusals_append (front rest : List Step) :
    refusals (front ++ rest) = refusals front + refusals rest := List.countP_append

theorem refusals_cons (step : Step) (rest : List Step) :
    refusals (step :: rest) = refusals [step] + refusals rest := refusals_append [step] rest

theorem refusals_eq_zero {script : List Step} :
    refusals script = 0 ↔ ∀ step ∈ script, step.refuses = false := by
  simp [refusals, List.countP_eq_zero]

/-! ### Depths and scripts -/

structure Levels (nesting : Nat) (depths : Nat → List Nat) (script : Nat → List Step) : Prop where
  mem_iff : ∀ level depth, depth ∈ depths level ↔ level ≤ depth ∧ depth < level + nesting
  refused : ∀ level room, refusals (script room) = (depths level).count (level + room)
  settled : ∀ room, nesting ≤ room → script room = script nesting

namespace Levels

variable {nesting other : Nat} {depths later : Nat → List Nat} {script next : Nat → List Step}

/-- With enough room nothing is refused. -/
theorem none_refused (levels : Levels nesting depths script) {room : Nat} (fits : nesting ≤ room) :
    refusals (script room) = 0 := by
  rw [levels.refused 0 room, List.count_eq_zero]
  intro member
  have below := ((levels.mem_iff 0 _).mp member).2
  omega

theorem nil : Levels 0 (fun _ => []) fun _ => [] where
  mem_iff level depth := by simp
  refused _ _ := rfl
  settled _ _ := rfl

theorem act (levels : Levels nesting depths script) (action : Action) :
    Levels nesting depths fun room => .act action :: script room where
  mem_iff := levels.mem_iff
  refused level room := by
    rw [refusals_cons, levels.refused level room]
    exact Nat.zero_add _
  settled room fits := by rw [levels.settled room fits]

theorem check (levels : Levels nesting depths script) (line : UInt64) (check : Check) :
    Levels nesting depths fun room => .check line check :: script room where
  mem_iff := levels.mem_iff
  refused level room := by
    rw [refusals_cons, levels.refused level room]
    exact Nat.zero_add _
  settled room fits := by rw [levels.settled room fits]

theorem append (first : Levels nesting depths script) (second : Levels other later next) :
    Levels (max nesting other) (fun level => depths level ++ later level)
      fun room => script room ++ next room where
  mem_iff level depth := by
    rw [List.mem_append, first.mem_iff, second.mem_iff]
    omega
  refused level room := by
    rw [refusals_append, first.refused level room, second.refused level room, List.count_append]
  settled room fits := by
    rw [first.settled room (by omega), second.settled room (by omega),
      first.settled (max nesting other) (by omega), second.settled (max nesting other) (by omega)]

theorem scope (levels : Levels nesting depths script) :
    Levels nesting depths fun room => scopeScript (script room) where
  mem_iff := levels.mem_iff
  refused level room := by
    rw [scopeScript, refusals_append, refusals_cons, levels.refused level room]
    exact Nat.zero_add _
  settled room fits := by rw [levels.settled room fits]

/-- Without room the node itself is refused, and nothing inside it is looked at. -/
theorem visit (levels : Levels nesting depths script) (node : Node) :
    Levels (nesting + 1) (fun level => level :: depths (level + 1)) (visitScript node script) where
  mem_iff level depth := by
    rw [List.mem_cons, levels.mem_iff]
    omega
  refused level room := by
    cases room with
    | zero =>
        have deeper : level ∉ depths (level + 1) := by
          rw [levels.mem_iff]
          omega
        rw [Nat.add_zero, List.count_cons_self, List.count_eq_zero.mpr deeper]
        rfl
    | succ room =>
        have inside : level + (room + 1) = level + 1 + room := by omega
        rw [List.count_cons_of_ne (by omega), inside, ← levels.refused (level + 1) room]
        rw [visitScript, List.cons_append, refusals_cons, refusals_append]
        exact Nat.zero_add _
  settled room fits := by
    cases room with
    | zero => omega
    | succ room => rw [visitScript, visitScript, levels.settled room (by omega)]

end Levels

theorem path_levels (path : List String) : Levels 0 (fun _ => []) fun _ => pathScript path := by
  cases path with
  | nil => exact .nil
  | cons head rest => exact Levels.nil.act (.mention head)

mutual

theorem expr_levels : ∀ expr, Levels (exprNesting expr) (exprDepths expr) (exprScript expr)
  | ⟨pos, expr⟩ => (expr_inside_levels expr pos.line).visit _

theorem expr_inside_levels :
    ∀ (expr : Expr) (line : UInt64), Levels expr.nesting expr.depths (expr.script line)
  | .literal _ _, _ => .nil
  | .identifier name, _ => Levels.nil.act (.mention name)
  | .binary op lhs rhs, line =>
      ((expr_levels lhs).append (expr_levels rhs)).check line (.binary op lhs.data rhs.data)
  | .unary _ operand _, _ => expr_levels operand
  | .call name args, line => (exprs_levels args).check line (.call name args)
  | .member path, _ => path_levels path
  | .memberCall path _ args, _ => by
      have both := (path_levels path).append (exprs_levels args)
      rwa [Nat.zero_max] at both

theorem exprs_levels : ∀ exprs, Levels (exprsNesting exprs) (exprsDepths exprs) (exprsScript exprs)
  | [] => .nil
  | expr :: rest => (expr_levels expr).append (exprs_levels rest)

end

theorem optional_expr_levels : ∀ expr,
    Levels (optionalExprNesting expr) (optionalExprDepths expr) (optionalExprScript expr)
  | none => .nil
  | some expr => expr_levels expr

theorem initializer_levels (name ty : String) (line : UInt64) : ∀ init,
    Levels (optionalExprNesting init) (optionalExprDepths init)
      (initializerScript name ty line init)
  | none => .nil
  | some value => (expr_levels value).check line (.initializer name (.ofName ty) value.data)

theorem condition_levels (construct : Construct) (line : UInt64) (cond : Located Expr) :
    Levels (exprNesting cond) (exprDepths cond) (conditionScript construct line cond) :=
  (expr_levels cond).check line (.condition cond.data construct)

theorem optional_condition_levels (line : UInt64) : ∀ cond,
    Levels (optionalExprNesting cond) (optionalExprDepths cond)
      (optionalConditionScript line cond)
  | none => .nil
  | some cond => condition_levels .forLoop line cond

mutual

theorem stmt_levels : ∀ stmt, Levels (stmtNesting stmt) (stmtDepths stmt) (stmtScript stmt)
  | ⟨pos, stmt⟩ => (stmt_inside_levels stmt pos.line).visit _

theorem stmt_inside_levels :
    ∀ (stmt : Stmt) (line : UInt64), Levels stmt.nesting stmt.depths (stmt.script line)
  | .declare ty name _ init, line =>
      (initializer_levels name ty line init).act (.declare name ty line)
  | .assign target value, line => (expr_levels value).check line (.assignment target value.data)
  | .ifElse cond thenBranch elseBranch, line =>
      (condition_levels .ifElse line cond).append
        ((stmt_levels thenBranch).append (optional_stmt_levels elseBranch))
  | .whileLoop cond body, line =>
      (condition_levels .whileLoop line cond).append (stmt_levels body)
  | .doWhileLoop body cond, line =>
      (stmt_levels body).append (condition_levels .doWhileLoop line cond)
  | .forLoop init cond update body, line =>
      ((optional_stmt_levels init).append ((optional_condition_levels line cond).append
        ((optional_stmt_levels update).append (stmt_levels body)))).scope
  | .switch scrutinee arms otherwise, _ =>
      (expr_levels scrutinee).append ((arms_levels arms).append (otherwise_levels otherwise))
  | .returning value, line =>
      (optional_expr_levels value).check line (.returning (value.map Located.data))
  | .breaking, _ => .nil
  | .continuing, _ => .nil
  | .block statements, _ => (stmts_levels statements).scope
  | .expression value, _ => expr_levels value

theorem stmts_levels : ∀ stmts, Levels (stmtsNesting stmts) (stmtsDepths stmts) (stmtsScript stmts)
  | [] => .nil
  | stmt :: rest => (stmt_levels stmt).append (stmts_levels rest)

theorem optional_stmt_levels : ∀ stmt,
    Levels (optionalStmtNesting stmt) (optionalStmtDepths stmt) (optionalStmtScript stmt)
  | none => .nil
  | some stmt => stmt_levels stmt

theorem arms_levels : ∀ arms, Levels (armsNesting arms) (armsDepths arms) (armsScript arms)
  | [] => .nil
  | ⟨_, value, body⟩ :: rest =>
      ((expr_levels value).append (stmts_levels body).scope).append (arms_levels rest)

theorem otherwise_levels : ∀ otherwise,
    Levels (otherwiseNesting otherwise) (otherwiseDepths otherwise) (otherwiseScript otherwise)
  | none => .nil
  | some ⟨_, statements⟩ => (stmts_levels statements).scope

end

/-! ### Whole programs -/

theorem method_depths_iff (method : Method) (depth : Nat) :
    depth ∈ method.depths ↔ 1 ≤ depth ∧ depth ≤ method.nesting := by
  rw [Method.depths, List.mem_cons, (stmts_levels method.body).mem_iff, Method.nesting]
  omega

/-- A program has nodes at every depth from one to its nesting, and at no other. -/
theorem program_depths_iff (program : Program) (depth : Nat) :
    depth ∈ program.depths ↔ 1 ≤ depth ∧ depth ≤ program.nesting := by
  have deep : depth ≤ program.nesting ↔ depth = 0 ∨
      ∃ method ∈ program.methods, depth ≤ method.data.nesting := by
    cases depth with
    | zero => simp
    | succ depth =>
        rw [Nat.succ_le_iff, ← Nat.not_le, nesting_le_iff]
        simp only [Nat.add_one_ne_zero, false_or, Nat.succ_le_iff, not_forall, Nat.not_le,
          exists_prop]
  simp only [Program.depths, List.mem_flatMap, method_depths_iff, deep]
  constructor
  · rintro ⟨method, member, positive, within⟩
    exact ⟨positive, .inr ⟨method, member, within⟩⟩
  · rintro ⟨positive, rfl | ⟨method, member, within⟩⟩
    · omega
    · exact ⟨method, member, positive, within⟩

end Sema
