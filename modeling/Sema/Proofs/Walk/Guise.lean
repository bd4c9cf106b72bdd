import Sema.Proofs.Walk.Run

/-!
# Guises

A guise is another look of a program. It puts an image in the place of every line, and it changes
what no check looks at: columns, the positions of classes and of the arms of a switch, texts that
name nothing, the marks of arrays, the side of a unary operator, what follows the first name of a
path, and the fields. The same guise for a session changes the lines that the session holds, the
marks of arrays in its signatures, and the tokens.
-/

namespace Sema

structure Guise where
  line : UInt64 → UInt64
  column : UInt64 → UInt64
  /-- The positions of classes and of the arms of a switch. -/
  place : Position → Position
  /-- Names of classes, modifiers, the texts of literals, and the methods called on a path. -/
  label : String → String
  array : Bool → Bool
  leading : Bool → Bool
  tail : List String → List String
  field : Located Field → Option (Located Field)
  tokens : List TokenEntry → List TokenEntry

namespace Guise

/-- Nothing is left of what no check looks at. -/
def bare : Guise where
  line := id
  column _ := 0
  place _ := ⟨0, 0⟩
  label _ := ""
  array _ := false
  leading _ := false
  tail _ := []
  field _ := none
  tokens := id

/-- Every line gives way to its image, and nothing else changes. -/
def lines (image : UInt64 → UInt64) : Guise where
  line := image
  column := id
  place pos := { pos with line := image pos.line }
  label := id
  array := id
  leading := id
  tail := id
  field field := some { field with pos.line := image field.pos.line }
  tokens tokens := tokens.map fun token => { token with line := image token.line }

/-- Only the tokens of the table give way to others. -/
def withTokens (tokens : List TokenEntry) : Guise where
  line := id
  column := id
  place := id
  label := id
  array := id
  leading := id
  tail := id
  field := some
  tokens _ := tokens

end Guise

variable (guise : Guise)

def Position.inGuise (pos : Position) : Position := ⟨guise.line pos.line, guise.column pos.column⟩

def Located.inGuise {Node : Type} (change : Node → Node) (node : Located Node) : Located Node :=
  ⟨node.pos.inGuise guise, change node.data⟩

/-! ### Expressions -/

def pathInGuise : List String → List String
  | [] => []
  | head :: rest => head :: guise.tail rest

mutual

def exprInGuise : Located Expr → Located Expr
  | ⟨pos, expr⟩ => ⟨pos.inGuise guise, expr.inGuise⟩

def Expr.inGuise : Expr → Expr
  | .literal ty value => .literal ty (guise.label value)
  | .identifier name => .identifier name
  | .binary op lhs rhs => .binary op (exprInGuise lhs) (exprInGuise rhs)
  | .unary op operand leading => .unary op (exprInGuise operand) (guise.leading leading)
  | .call name args => .call name (exprsInGuise args)
  | .member path => .member (pathInGuise guise path)
  | .memberCall path name args =>
      .memberCall (pathInGuise guise path) (guise.label name) (exprsInGuise args)

def exprsInGuise : List (Located Expr) → List (Located Expr)
  | [] => []
  | expr :: rest => exprInGuise expr :: exprsInGuise rest

end

/-! ### Statements -/

mutual

def stmtInGuise : Located Stmt → Located Stmt
  | ⟨pos, stmt⟩ => ⟨pos.inGuise guise, stmt.inGuise⟩

def Stmt.inGuise : Stmt → Stmt
  | .declare ty name isArray init =>
      .declare ty name (guise.array isArray) (init.map (exprInGuise guise))
  | .assign target value => .assign target (exprInGuise guise value)
  | .ifElse cond thenBranch elseBranch =>
      .ifElse (exprInGuise guise cond) (stmtInGuise thenBranch) (optionalStmtInGuise elseBranch)
  | .whileLoop cond body => .whileLoop (exprInGuise guise cond) (stmtInGuise body)
  | .doWhileLoop body cond => .doWhileLoop (stmtInGuise body) (exprInGuise guise cond)
  | .forLoop init cond update body =>
      .forLoop (optionalStmtInGuise init) (cond.map (exprInGuise guise))
        (optionalStmtInGuise update) (stmtInGuise body)
  | .switch scrutinee arms otherwise =>
      .switch (exprInGuise guise scrutinee) (armsInGuise arms) (otherwiseInGuise otherwise)
  | .returning value => .returning (value.map (exprInGuise guise))
  | .breaking => .breaking
  | .continuing => .continuing
  | .block statements => .block (stmtsInGuise statements)
  | .expression value => .expression (exprInGuise guise value)

def stmtsInGuise : List (Located Stmt) → List (Located Stmt)
  | [] => []
  | stmt :: rest => stmtInGuise stmt :: stmtsInGuise rest

def optionalStmtInGuise : Option (Located Stmt) → Option (Located Stmt)
  | none => none
  | some stmt => some (stmtInGuise stmt)

def armsInGuise : List (Located (Arm Stmt)) → List (Located (Arm Stmt))
  | [] => []
  | ⟨pos, value, body⟩ :: rest =>
      ⟨guise.place pos, exprInGuise guise value, stmtsInGuise body⟩ :: armsInGuise rest

def otherwiseInGuise :
    Option (Located (List (Located Stmt))) → Option (Located (List (Located Stmt)))
  | none => none
  | some ⟨pos, statements⟩ => some ⟨guise.place pos, stmtsInGuise statements⟩

end

/-! ### Programs -/

def Parameter.inGuise (parameter : Parameter) : Parameter :=
  { parameter with isArray := guise.array parameter.isArray }

def Method.inGuise (method : Method) : Method where
  modifiers := guise.label method.modifiers
  returnTy := method.returnTy
  name := method.name
  params := method.params.map (Located.inGuise guise (Parameter.inGuise guise))
  body := stmtsInGuise guise method.body

def methodInGuise (method : Located Method) : Located Method :=
  method.inGuise guise (Method.inGuise guise)

def memberInGuise? : Located Member → Option (Located Member)
  | ⟨pos, .method method⟩ => some ⟨pos.inGuise guise, .method (method.inGuise guise)⟩
  | ⟨pos, .field field⟩ =>
      (guise.field ⟨pos, field⟩).map fun field => ⟨field.pos, .field field.data⟩

def ClassDecl.inGuise (decl : ClassDecl) : ClassDecl where
  name := guise.label decl.name
  modifiers := guise.label decl.modifiers
  members := decl.members.filterMap (memberInGuise? guise)

def Program.inGuise (program : Program) : Program :=
  ⟨program.classes.map fun decl => ⟨guise.place decl.pos, decl.data.inGuise guise⟩⟩

/-! ### Sessions -/

def Variable.inGuise (entry : Variable) : Variable := { entry with line := guise.line entry.line }

def Symbols.inGuise (symbols : Symbols) : Symbols :=
  { symbols with
    entries := symbols.entries.map (Variable.inGuise guise)
    tokens := guise.tokens symbols.tokens }

def ParameterType.inGuise (parameter : ParameterType) : ParameterType :=
  { parameter with isArray := guise.array parameter.isArray }

def Signature.inGuise (signature : Signature) : Signature :=
  { signature with
    params := signature.params.map (ParameterType.inGuise guise)
    line := guise.line signature.line }

/-- The same keys with other values. -/
def Bindings.mapValues {Key Value Other : Type} (change : Value → Other)
    (bindings : Bindings Key Value) : Bindings Key Other :=
  ⟨bindings.entries.map fun (key, value) => (key, change value)⟩

def Catalogue.inGuise (catalogue : Catalogue) : Catalogue :=
  ⟨catalogue.signatures.mapValues (Signature.inGuise guise)⟩

/-- A redeclaration tells of the line where the name was declared first. -/
def Violation.inGuise : Violation → Violation
  | .duplicateMethod name firstLine => .duplicateMethod name (guise.line firstLine)
  | cause => cause

def messageInGuise : Message Violation Doubt → Message Violation Doubt
  | .error line cause => .error (line.map guise.line) (cause.inGuise guise)
  | .warning line cause => .warning (line.map guise.line) cause

def logInGuise (log : FindingLog) : FindingLog := log.map (messageInGuise guise)

def Session.inGuise (session : Session) : Session :=
  { session with
    symbols := session.symbols.inGuise guise
    catalogue := session.catalogue.inGuise guise
    log := logInGuise guise session.log }

/-! ### Other tokens only -/

namespace Guise

variable (tokens : List TokenEntry)

mutual

theorem expr_with_tokens : ∀ expr, exprInGuise (withTokens tokens) expr = expr
  | ⟨pos, expr⟩ => congrArg (Located.mk pos) (data_with_tokens expr)

theorem data_with_tokens : ∀ expr : Expr, expr.inGuise (withTokens tokens) = expr
  | .literal _ _ => rfl
  | .identifier _ => rfl
  | .binary op lhs rhs => congrArg₂ (Expr.binary op) (expr_with_tokens lhs) (expr_with_tokens rhs)
  | .unary op operand leading =>
      congrArg (fun operand => Expr.unary op operand leading) (expr_with_tokens operand)
  | .call name args => congrArg (Expr.call name) (exprs_with_tokens args)
  | .member [] => rfl
  | .member (_ :: _) => rfl
  | .memberCall [] name args => congrArg (Expr.memberCall [] name) (exprs_with_tokens args)
  | .memberCall (head :: tail) name args =>
      congrArg (Expr.memberCall (head :: tail) name) (exprs_with_tokens args)

theorem exprs_with_tokens : ∀ exprs, exprsInGuise (withTokens tokens) exprs = exprs
  | [] => rfl
  | expr :: rest => congrArg₂ List.cons (expr_with_tokens expr) (exprs_with_tokens rest)

end

theorem optional_expr_with_tokens (expr : Option (Located Expr)) :
    expr.map (exprInGuise (withTokens tokens)) = expr := by
  rw [funext (expr_with_tokens tokens)]
  exact congrFun Option.map_id expr

mutual

theorem stmt_with_tokens : ∀ stmt, stmtInGuise (withTokens tokens) stmt = stmt
  | ⟨pos, stmt⟩ => congrArg (Located.mk pos) (stmt_data_with_tokens stmt)

theorem stmt_data_with_tokens : ∀ stmt : Stmt, stmt.inGuise (withTokens tokens) = stmt
  | .declare ty name isArray init =>
      congrArg (Stmt.declare ty name isArray) (optional_expr_with_tokens tokens init)
  | .assign target value => congrArg (Stmt.assign target) (expr_with_tokens tokens value)
  | .ifElse cond thenBranch elseBranch => by
      rw [Stmt.inGuise, expr_with_tokens, stmt_with_tokens, optional_stmt_with_tokens]
  | .whileLoop cond body => by rw [Stmt.inGuise, expr_with_tokens, stmt_with_tokens]
  | .doWhileLoop body cond => by rw [Stmt.inGuise, expr_with_tokens, stmt_with_tokens]
  | .forLoop init cond update body => by
      rw [Stmt.inGuise, optional_expr_with_tokens, optional_stmt_with_tokens init,
        optional_stmt_with_tokens update, stmt_with_tokens]
  | .switch scrutinee arms otherwise => by
      rw [Stmt.inGuise, expr_with_tokens, arms_with_tokens, otherwise_with_tokens]
  | .returning value => congrArg Stmt.returning (optional_expr_with_tokens tokens value)
  | .breaking => rfl
  | .continuing => rfl
  | .block statements => congrArg Stmt.block (stmts_with_tokens statements)
  | .expression value => congrArg Stmt.expression (expr_with_tokens tokens value)

theorem stmts_with_tokens : ∀ stmts, stmtsInGuise (withTokens tokens) stmts = stmts
  | [] => rfl
  | stmt :: rest => congrArg₂ List.cons (stmt_with_tokens stmt) (stmts_with_tokens rest)

theorem optional_stmt_with_tokens : ∀ stmt, optionalStmtInGuise (withTokens tokens) stmt = stmt
  | none => rfl
  | some stmt => congrArg some (stmt_with_tokens stmt)

theorem arms_with_tokens : ∀ arms, armsInGuise (withTokens tokens) arms = arms
  | [] => rfl
  | ⟨pos, value, body⟩ :: rest => by
      rw [armsInGuise, expr_with_tokens, stmts_with_tokens, arms_with_tokens]
      rfl

theorem otherwise_with_tokens : ∀ otherwise,
    otherwiseInGuise (withTokens tokens) otherwise = otherwise
  | none => rfl
  | some ⟨pos, statements⟩ => by
      rw [otherwiseInGuise, stmts_with_tokens]
      rfl

end

theorem member_with_tokens (member : Located Member) :
    memberInGuise? (withTokens tokens) member = some member := by
  obtain ⟨pos, member⟩ := member
  cases member with
  | field field => rfl
  | method method =>
      have params : method.params.map
          (Located.inGuise (withTokens tokens) (Parameter.inGuise (withTokens tokens))) =
            method.params := List.map_id _
      have same : method.inGuise (withTokens tokens) = method := by
        rw [Method.inGuise, params, stmts_with_tokens]
        rfl
      rw [memberInGuise?, same]
      rfl

theorem program_with_tokens (program : Program) :
    program.inGuise (withTokens tokens) = program := by
  have each : ∀ decl : Located ClassDecl,
      (⟨decl.pos, decl.data.inGuise (withTokens tokens)⟩ : Located ClassDecl) = decl := by
    intro decl
    have members : decl.data.members.filterMap (memberInGuise? (withTokens tokens)) =
        decl.data.members := by
      rw [funext (member_with_tokens tokens), List.filterMap_some]
    rw [ClassDecl.inGuise, members]
    rfl
  have classes := congrArg (program.classes.map ·) (funext each)
  exact congrArg Program.mk (classes.trans (List.map_id _))

end Guise

end Sema
