import Sema.Checker.Analysis
import Sema.Proofs.Walk.Outline

/-!
# Scripts

The script of a node lists, one after the other, the elementary steps of its visit: the visits that
begin and end, what is done to the symbol table, and the checks. It depends on the syntax and on the
room, the number of levels that the nesting limit leaves; without room a visit is refused.

`Renders` relates a script to the outline of the same piece: visits and scopes are bracketed in it,
it does what the outline says but for the closed pieces that a refusal leaves out, and with enough
room nothing is left out.
-/

namespace Sema

inductive Check where
  | assignment (target : String) (value : Expr)
  | initializer (name : String) (target : Ty) (value : Expr)
  | binary (op : BinaryOp) (lhs rhs : Expr)
  | condition (cond : Expr) (construct : Construct)
  | returning (value : Option Expr)
  | call (name : String) (args : List (Located Expr))

inductive Node where
  | expr (expr : Located Expr)
  | stmt (stmt : Located Stmt)

inductive Step where
  | visit (node : Node)
  | done
  /-- The visited node is nested too deep. -/
  | refuse
  | act (action : Action)
  | check (line : UInt64) (check : Check)

def Step.action? : Step → Option Action
  | .act action => some action
  | .visit _ | .done | .refuse | .check _ _ => none

/-- What a script does to the symbol table. -/
def actions (script : List Step) : List Action := script.filterMap Step.action?

def scopeScript (inner : List Step) : List Step := .act .enter :: inner ++ [.act .leave]

def visitScript (node : Node) (inside : Nat → List Step) : Nat → List Step
  | 0 => [.visit node, .refuse, .done]
  | room + 1 => .visit node :: inside room ++ [.done]

/-! ### Expressions -/

def pathScript (path : List String) : List Step := (pathOutline path).map .act

mutual

def exprScript : Located Expr → Nat → List Step
  | ⟨pos, expr⟩ => visitScript (.expr ⟨pos, expr⟩) (expr.script pos.line)

def Expr.script : Expr → UInt64 → Nat → List Step
  | .literal _ _, _, _ => []
  | .identifier name, _, _ => [.act (.mention name)]
  | .binary op lhs rhs, line, room =>
      .check line (.binary op lhs.data rhs.data) :: (exprScript lhs room ++ exprScript rhs room)
  | .unary _ operand _, _, room => exprScript operand room
  | .call name args, line, room => .check line (.call name args) :: exprsScript args room
  | .member path, _, _ => pathScript path
  | .memberCall path _ args, _, room => pathScript path ++ exprsScript args room

def exprsScript : List (Located Expr) → Nat → List Step
  | [], _ => []
  | expr :: rest, room => exprScript expr room ++ exprsScript rest room

end

def optionalExprScript : Option (Located Expr) → Nat → List Step
  | none, _ => []
  | some expr, room => exprScript expr room

/-- An initial value is checked against the declared type before it is visited. -/
def initializerScript (name ty : String) (line : UInt64) :
    Option (Located Expr) → Nat → List Step
  | none, _ => []
  | some value, room =>
      .check line (.initializer name (.ofName ty) value.data) :: exprScript value room

def conditionScript (construct : Construct) (line : UInt64) (cond : Located Expr) (room : Nat) :
    List Step :=
  .check line (.condition cond.data construct) :: exprScript cond room

def optionalConditionScript (line : UInt64) : Option (Located Expr) → Nat → List Step
  | none, _ => []
  | some cond, room => conditionScript .forLoop line cond room

/-! ### Statements -/

mutual

def stmtScript : Located Stmt → Nat → List Step
  | ⟨pos, stmt⟩ => visitScript (.stmt ⟨pos, stmt⟩) (stmt.script pos.line)

def Stmt.script : Stmt → UInt64 → Nat → List Step
  | .declare ty name _ init, line, room =>
      .act (.declare name ty line) :: initializerScript name ty line init room
  | .assign target value, line, room =>
      .check line (.assignment target value.data) :: exprScript value room
  | .ifElse cond thenBranch elseBranch, line, room =>
      conditionScript .ifElse line cond room ++
        (stmtScript thenBranch room ++ optionalStmtScript elseBranch room)
  | .whileLoop cond body, line, room =>
      conditionScript .whileLoop line cond room ++ stmtScript body room
  | .doWhileLoop body cond, line, room =>
      stmtScript body room ++ conditionScript .doWhileLoop line cond room
  | .forLoop init cond update body, line, room =>
      scopeScript (optionalStmtScript init room ++ (optionalConditionScript line cond room ++
        (optionalStmtScript update room ++ stmtScript body room)))
  | .switch scrutinee arms otherwise, _, room =>
      exprScript scrutinee room ++ (armsScript arms room ++ otherwiseScript otherwise room)
  | .returning value, line, room =>
      .check line (.returning (value.map Located.data)) :: optionalExprScript value room
  | .breaking, _, _ => []
  | .continuing, _, _ => []
  | .block statements, _, room => scopeScript (stmtsScript statements room)
  | .expression value, _, room => exprScript value room

def stmtsScript : List (Located Stmt) → Nat → List Step
  | [], _ => []
  | stmt :: rest, room => stmtScript stmt room ++ stmtsScript rest room

def optionalStmtScript : Option (Located Stmt) → Nat → List Step
  | none, _ => []
  | some stmt, room => stmtScript stmt room

def armsScript : List (Located (Arm Stmt)) → Nat → List Step
  | [], _ => []
  | ⟨_, value, body⟩ :: rest, room =>
      (exprScript value room ++ scopeScript (stmtsScript body room)) ++ armsScript rest room

def otherwiseScript : Option (Located (List (Located Stmt))) → Nat → List Step
  | none, _ => []
  | some ⟨_, statements⟩, room => scopeScript (stmtsScript statements room)

end

def Node.script : Node → Nat → List Step
  | .expr visited => exprScript visited
  | .stmt visited => stmtScript visited

/-! ### Brackets and refusals -/

@[simp] theorem actions_nil : actions [] = [] := rfl

@[simp] theorem actions_append (front rest : List Step) :
    actions (front ++ rest) = actions front ++ actions rest := List.filterMap_append

@[simp] theorem actions_act (action : Action) (rest : List Step) :
    actions (.act action :: rest) = action :: actions rest := rfl

@[simp] theorem actions_visit (node : Node) (rest : List Step) :
    actions (.visit node :: rest) = actions rest := rfl

@[simp] theorem actions_done (rest : List Step) : actions (.done :: rest) = actions rest := rfl

@[simp] theorem actions_refuse (rest : List Step) : actions (.refuse :: rest) = actions rest := rfl

@[simp] theorem actions_check (line : UInt64) (check : Check) (rest : List Step) :
    actions (.check line check :: rest) = actions rest := rfl

@[simp] theorem actions_scope_script (inner : List Step) :
    actions (scopeScript inner) = scopeAround (actions inner) := by
  simp [scopeScript, scopeAround]

theorem actions_visit_script (node : Node) (inside : Nat → List Step) (room : Nat) :
    actions (visitScript node inside (room + 1)) = actions (inside room) := by
  simp [visitScript]

/-- Visits end in the order opposite to that in which they begin, and so do scopes. -/
inductive Bracketed : List Step → Prop
  | nil : Bracketed []
  | mention (name : String) : Bracketed [.act (.mention name)]
  | declare (name ty : String) (line : UInt64) : Bracketed [.act (.declare name ty line)]
  | check (line : UInt64) (check : Check) : Bracketed [.check line check]
  | refuse : Bracketed [.refuse]
  | visit (node : Node) {inner : List Step} :
      Bracketed inner → Bracketed (.visit node :: inner ++ [.done])
  | scope {inner : List Step} : Bracketed inner → Bracketed (scopeScript inner)
  | append {front rest : List Step} :
      Bracketed front → Bracketed rest → Bracketed (front ++ rest)

theorem Bracketed.closed {script : List Step} (bracketed : Bracketed script) :
    Closed (actions script) := by
  induction bracketed with
  | nil | check | refuse => exact closed_nil
  | mention name => exact closed_mention name
  | declare name ty line => exact closed_declare name ty line
  | visit node _ closed => simpa using closed
  | scope _ closed => simpa only [actions_scope_script] using closed.scope
  | append _ _ first second => simpa using first.append second

/-! ### Scripts and outlines -/

structure Renders (nesting : Nat) (outline : List Action) (script : Nat → List Step) : Prop where
  bracketed : ∀ room, Bracketed (script room)
  thinned : ∀ room, Thinned outline (actions (script room))
  complete : ∀ room, nesting ≤ room → actions (script room) = outline

namespace Renders

variable {nesting other : Nat} {outline later : List Action} {script next : Nat → List Step}

theorem closed (renders : Renders nesting outline script) : Closed outline := by
  rw [← renders.complete nesting (Nat.le_refl nesting)]
  exact (renders.bracketed nesting).closed

theorem nil : Renders 0 [] fun _ => [] where
  bracketed _ := .nil
  thinned _ := .nil
  complete _ _ := rfl

theorem mention (name : String) : Renders 0 [.mention name] fun _ => [.act (.mention name)] where
  bracketed _ := .mention name
  thinned _ := .refl _
  complete _ _ := rfl

theorem declare (name ty : String) (line : UInt64) :
    Renders 0 [.declare name ty line] fun _ => [.act (.declare name ty line)] where
  bracketed _ := .declare name ty line
  thinned _ := .refl _
  complete _ _ := rfl

theorem append (first : Renders nesting outline script) (second : Renders other later next) :
    Renders (max nesting other) (outline ++ later) fun room => script room ++ next room where
  bracketed room := (first.bracketed room).append (second.bracketed room)
  thinned room := by
    rw [actions_append]
    exact (first.thinned room).append (second.thinned room)
  complete room fits := by
    rw [actions_append, first.complete room (by omega), second.complete room (by omega)]

theorem act (renders : Renders nesting outline script) (name ty : String) (line : UInt64) :
    Renders nesting (.declare name ty line :: outline)
      fun room => .act (.declare name ty line) :: script room := by
  simpa using (declare name ty line).append renders

theorem check (renders : Renders nesting outline script) (line : UInt64) (check : Check) :
    Renders nesting outline fun room => .check line check :: script room where
  bracketed room := Bracketed.append (.check line check) (renders.bracketed room)
  thinned room := renders.thinned room
  complete room fits := renders.complete room fits

theorem scope (renders : Renders nesting outline script) :
    Renders nesting (scopeAround outline) fun room => scopeScript (script room) where
  bracketed room := (renders.bracketed room).scope
  thinned room := by
    rw [actions_scope_script]
    exact .keep .enter ((renders.thinned room).append (.refl [.leave]))
  complete room fits := by rw [actions_scope_script, renders.complete room fits]

/-- A refused visit leaves out all that the outline says of the node. -/
theorem visit (renders : Renders nesting outline script) (node : Node) :
    Renders (nesting + 1) outline (visitScript node script) where
  bracketed room := by
    cases room with
    | zero => exact .visit node .refuse
    | succ room => exact .visit node (renders.bracketed room)
  thinned room := by
    cases room with
    | zero =>
        have nothing : Thinned (outline ++ []) [] := .drop renders.closed .nil
        rw [List.append_nil] at nothing
        exact nothing
    | succ room =>
        rw [actions_visit_script]
        exact renders.thinned room
  complete room fits := by
    cases room with
    | zero => omega
    | succ room => rw [actions_visit_script, renders.complete room (by omega)]

end Renders

theorem path_renders (path : List String) :
    Renders 0 (pathOutline path) fun _ => pathScript path := by
  cases path with
  | nil => exact .nil
  | cons head rest => exact .mention head

mutual

theorem expr_renders :
    ∀ expr, Renders (exprNesting expr) (exprOutline expr) (exprScript expr)
  | ⟨pos, expr⟩ => (expr_inside_renders expr pos.line).visit _

theorem expr_inside_renders :
    ∀ (expr : Expr) (line : UInt64), Renders expr.nesting expr.outline (expr.script line)
  | .literal _ _, _ => .nil
  | .identifier name, _ => .mention name
  | .binary op lhs rhs, line =>
      ((expr_renders lhs).append (expr_renders rhs)).check line (.binary op lhs.data rhs.data)
  | .unary _ operand _, _ => expr_renders operand
  | .call name args, line => (exprs_render args).check line (.call name args)
  | .member path, _ => path_renders path
  | .memberCall path _ args, _ => by
      have both := (path_renders path).append (exprs_render args)
      rwa [Nat.zero_max] at both

theorem exprs_render :
    ∀ exprs, Renders (exprsNesting exprs) (exprsOutline exprs) (exprsScript exprs)
  | [] => .nil
  | expr :: rest => (expr_renders expr).append (exprs_render rest)

end

theorem optional_expr_renders : ∀ expr,
    Renders (optionalExprNesting expr) (optionalExprOutline expr) (optionalExprScript expr)
  | none => .nil
  | some expr => expr_renders expr

theorem initializer_renders (name ty : String) (line : UInt64) : ∀ init,
    Renders (optionalExprNesting init) (optionalExprOutline init)
      (initializerScript name ty line init)
  | none => .nil
  | some value =>
      (expr_renders value).check line (.initializer name (.ofName ty) value.data)

theorem condition_renders (construct : Construct) (line : UInt64) (cond : Located Expr) :
    Renders (exprNesting cond) (exprOutline cond) (conditionScript construct line cond) :=
  (expr_renders cond).check line (.condition cond.data construct)

theorem optional_condition_renders (line : UInt64) : ∀ cond,
    Renders (optionalExprNesting cond) (optionalExprOutline cond)
      (optionalConditionScript line cond)
  | none => .nil
  | some cond => condition_renders .forLoop line cond

mutual

theorem stmt_renders :
    ∀ stmt, Renders (stmtNesting stmt) (stmtOutline stmt) (stmtScript stmt)
  | ⟨pos, stmt⟩ => (stmt_inside_renders stmt pos.line).visit _

theorem stmt_inside_renders :
    ∀ (stmt : Stmt) (line : UInt64), Renders stmt.nesting (stmt.outline line) (stmt.script line)
  | .declare ty name _ init, line => (initializer_renders name ty line init).act name ty line
  | .assign target value, line => (expr_renders value).check line (.assignment target value.data)
  | .ifElse cond thenBranch elseBranch, line =>
      (condition_renders .ifElse line cond).append
        ((stmt_renders thenBranch).append (optional_stmt_renders elseBranch))
  | .whileLoop cond body, line =>
      (condition_renders .whileLoop line cond).append (stmt_renders body)
  | .doWhileLoop body cond, line =>
      (stmt_renders body).append (condition_renders .doWhileLoop line cond)
  | .forLoop init cond update body, line =>
      ((optional_stmt_renders init).append ((optional_condition_renders line cond).append
        ((optional_stmt_renders update).append (stmt_renders body)))).scope
  | .switch scrutinee arms otherwise, _ =>
      (expr_renders scrutinee).append ((arms_render arms).append (otherwise_renders otherwise))
  | .returning value, line =>
      (optional_expr_renders value).check line (.returning (value.map Located.data))
  | .breaking, _ => .nil
  | .continuing, _ => .nil
  | .block statements, _ => (stmts_render statements).scope
  | .expression value, _ => expr_renders value

theorem stmts_render :
    ∀ stmts, Renders (stmtsNesting stmts) (stmtsOutline stmts) (stmtsScript stmts)
  | [] => .nil
  | stmt :: rest => (stmt_renders stmt).append (stmts_render rest)

theorem optional_stmt_renders : ∀ stmt,
    Renders (optionalStmtNesting stmt) (optionalStmtOutline stmt) (optionalStmtScript stmt)
  | none => .nil
  | some stmt => stmt_renders stmt

theorem arms_render :
    ∀ arms, Renders (armsNesting arms) (armsOutline arms) (armsScript arms)
  | [] => .nil
  | ⟨_, value, body⟩ :: rest =>
      ((expr_renders value).append (stmts_render body).scope).append (arms_render rest)

theorem otherwise_renders : ∀ otherwise,
    Renders (otherwiseNesting otherwise) (otherwiseOutline otherwise) (otherwiseScript otherwise)
  | none => .nil
  | some ⟨_, statements⟩ => (stmts_render statements).scope

end

end Sema
