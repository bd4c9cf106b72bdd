import Sema.Proofs.Json.Record
import Sema.Tokens.Json
import Sema.Tree.Decode
import Sema.Tree.Encode

/-!
# Trees decoded

Every decoder gives back what its encoder wrote. For expressions and statements the induction is on
the tree, for any bound that the nesting of what was written does not exceed: a variant takes one
level of the bound, and its content has at least one level less.
-/

namespace Sema

open Json (record variantWith)

@[simp] theorem TokenEntry.ofJson_toJson (token : TokenEntry) :
    ofJson? token.toJson = some token := by
  simp [ofJson?, toJson]

@[simp] theorem Position.ofJson_toJson (position : Position) :
    ofJson? position.toJson = some position := by
  simp [ofJson?, toJson]

theorem Located.ofJson_record {Node : Type} {decode : Json → Option Node} {json : Json}
    {data : Node} (decoded : decode json = some data) (pos : Position) :
    ofJson? decode (record [("pos", pos.toJson), ("data", json)]) = some ⟨pos, data⟩ := by
  simp [ofJson?, decoded]

theorem Located.ofJson_toJson {Node : Type} {encode : Node → Json} {decode : Json → Option Node}
    (reads : ∀ node, decode (encode node) = some node) (node : Located Node) :
    ofJson? decode (toJson encode node) = some node :=
  ofJson_record (reads node.data) node.pos

@[simp] theorem BinaryOp.ofJson_symbol (op : BinaryOp) : ofJson? (.text op.symbol) = some op := by
  simp [ofJson?, ofSymbol?_symbol]

@[simp] theorem UnaryOp.ofJson_symbol (op : UnaryOp) : ofJson? (.text op.symbol) = some op := by
  simp [ofJson?, ofSymbol?_symbol]

/-! ### Expressions -/

namespace Expr

theorem within_variant {name : String} {content : Json} {expr : Expr} {bound : Nat}
    (enough : (variantWith name content).depth ≤ bound)
    (holds : ∀ less, content.depth ≤ less →
      ofVariant? (ofJsonWithin? less) name content = some expr) :
    ofJsonWithin? bound (variantWith name content) = some expr := by
  obtain ⟨less, same, enough⟩ := Json.depth_variant_le enough
  rw [same, ofJsonWithin?, Json.variant_with]
  exact holds less enough

theorem callOfJson_ofCall {decode : Json → Option Expr} {args : List (Located Expr)}
    (decoded : (exprsToJson args).mapM (Located.ofJson? decode) = some args) (name : String) :
    callOfJson? decode (.ofCall name (exprsToJson args)) = some (name, args) := by
  simp [callOfJson?, Json.ofCall, decoded]

end Expr

theorem paths_decoded (path : List String) :
    Json.list? Json.string? (.ofList .text path) = some path :=
  Json.list_ofList Json.string_text path

mutual

theorem expr_decoded : ∀ (expr : Expr) (bound : Nat), expr.toJson.depth ≤ bound →
    Expr.ofJsonWithin? bound expr.toJson = some expr
  | .literal ty value, bound, enough => by
      apply Expr.within_variant enough
      intro less _
      simp [Expr.ofVariant?, Expr.literalOfJson?]
  | .identifier name, bound, enough => by
      apply Expr.within_variant enough
      intro less _
      simp [Expr.ofVariant?]
  | .binary op lhs rhs, bound, enough => by
      apply Expr.within_variant enough
      intro less inside
      obtain ⟨-, leftDepth, rightDepth⟩ := Json.depth_record_le inside
      have left := located_expr_decoded lhs less leftDepth
      have right := located_expr_decoded rhs less rightDepth
      simp [Expr.ofVariant?, Expr.binaryOfJson?, left, right]
  | .unary op operand leading, bound, enough => by
      apply Expr.within_variant enough
      intro less inside
      obtain ⟨-, depth, -⟩ := Json.depth_record_le inside
      have decoded := located_expr_decoded operand less depth
      simp [Expr.ofVariant?, Expr.unaryOfJson?, decoded]
  | .call name args, bound, enough => by
      apply Expr.within_variant enough
      intro less inside
      obtain ⟨-, depth⟩ := Json.depth_record_le inside
      have decoded := exprs_decoded args less (Json.depth_array_le depth)
      simp [Expr.ofVariant?, Expr.callOfJson_ofCall decoded]
  | .member path, bound, enough => by
      apply Expr.within_variant enough
      intro less _
      simp [Expr.ofVariant?, Expr.memberOfJson?, paths_decoded]
  | .memberCall path name args, bound, enough => by
      apply Expr.within_variant enough
      intro less inside
      obtain ⟨-, callDepth⟩ := Json.depth_record_le inside
      obtain ⟨-, depth⟩ := Json.depth_record_le callDepth
      have decoded := exprs_decoded args less (Json.depth_array_le depth)
      have ending := Json.optional_decoded (Expr.callOfJson_ofCall decoded name)
        (Json.record_ne_null _)
      simp [Expr.ofVariant?, Expr.memberOfJson?, paths_decoded, ending]

theorem located_expr_decoded : ∀ (expr : Located Expr) (bound : Nat),
    (exprToJson expr).depth ≤ bound →
      Located.ofJson? (Expr.ofJsonWithin? bound) (exprToJson expr) = some expr
  | ⟨pos, expr⟩, bound, enough => by
      obtain ⟨-, depth⟩ := Json.depth_record_le enough
      exact Located.ofJson_record (expr_decoded expr bound depth) pos

theorem exprs_decoded : ∀ (exprs : List (Located Expr)) (bound : Nat),
    (∀ json ∈ exprsToJson exprs, json.depth ≤ bound) →
      (exprsToJson exprs).mapM (Located.ofJson? (Expr.ofJsonWithin? bound)) = some exprs
  | [], _, _ => rfl
  | expr :: rest, bound, enough => by
      rw [exprsToJson, List.forall_mem_cons] at enough
      rw [exprsToJson, List.mapM_cons, located_expr_decoded expr bound enough.1,
        exprs_decoded rest bound enough.2]
      rfl

end

/-! ### Statements -/

theorem exprToJson_eq (expr : Located Expr) :
    exprToJson expr = Located.toJson Expr.toJson expr := by
  cases expr
  rfl

@[simp] theorem located_expr_read (expr : Located Expr) :
    Located.ofJson? Expr.ofJson? (exprToJson expr) = some expr := by
  rw [exprToJson_eq]
  apply Located.ofJson_toJson
  intro data
  exact expr_decoded data _ (Nat.le_refl _)

theorem exprToJson_ne_null (expr : Located Expr) : exprToJson expr ≠ .null := by
  rw [exprToJson_eq]
  exact Json.record_ne_null _

@[simp] theorem optional_expr_read (expr : Option (Located Expr)) :
    Json.optional? (Located.ofJson? Expr.ofJson?) (optionalExprToJson expr) = some expr := by
  cases expr with
  | none => rfl
  | some expr =>
      exact Json.optional_decoded (located_expr_read expr) (exprToJson_ne_null expr)

namespace Stmt

theorem within_variant {name : String} {content : Json} {stmt : Stmt} {bound : Nat}
    (enough : (variantWith name content).depth ≤ bound) (full : ofEmptyVariant? name = none)
    (holds : ∀ less, content.depth ≤ less →
      ofVariant? (ofJsonWithin? less) name content = some stmt) :
    ofJsonWithin? bound (variantWith name content) = some stmt := by
  obtain ⟨less, same, enough⟩ := Json.depth_variant_le enough
  have none : (variantWith name content).emptyVariant?.bind ofEmptyVariant? = none := by
    cases Json.emptyVariant_with name content with
    | inl absent => rw [absent, Option.bind_none]
    | inr here => rw [here, Option.bind_some, full]
  rw [same, ofJsonWithin?, none, Json.variant_with]
  exact holds less enough

theorem within_empty {name : String} {stmt : Stmt} {bound : Nat}
    (enough : (Json.text name).depth ≤ bound) (empty : ofEmptyVariant? name = some stmt) :
    ofJsonWithin? bound (.text name) = some stmt := by
  rw [Json.text, Json.depth] at enough
  obtain ⟨less, same⟩ := Nat.exists_eq_add_of_le' enough
  rw [same, ofJsonWithin?, Json.emptyVariant_text, Option.bind_some, empty]

theorem blockOfJson_ofBlock {decode : Json → Option Stmt} {stmts : List (Located Stmt)}
    (decoded : (stmtsToJson stmts).mapM (Located.ofJson? decode) = some stmts) :
    blockOfJson? decode (.ofBlock (stmtsToJson stmts)) = some stmts := by
  simp [blockOfJson?, Json.ofBlock, decoded]

end Stmt

theorem stmtToJson_eq (stmt : Located Stmt) :
    stmtToJson stmt = Located.toJson Stmt.toJson stmt := by
  cases stmt
  rfl

theorem stmtToJson_ne_null (stmt : Located Stmt) : stmtToJson stmt ≠ .null := by
  rw [stmtToJson_eq]
  exact Json.record_ne_null _

mutual

theorem stmt_decoded : ∀ (stmt : Stmt) (bound : Nat), stmt.toJson.depth ≤ bound →
    Stmt.ofJsonWithin? bound stmt.toJson = some stmt
  | .declare ty name isArray init, bound, enough => by
      apply Stmt.within_variant enough rfl
      intro less _
      simp [Stmt.ofVariant?, Stmt.declareOfJson?]
  | .assign target value, bound, enough => by
      apply Stmt.within_variant enough rfl
      intro less _
      simp [Stmt.ofVariant?, Stmt.assignOfJson?]
  | .ifElse cond thenBranch elseBranch, bound, enough => by
      apply Stmt.within_variant enough rfl
      intro less inside
      obtain ⟨-, thenDepth, elseDepth⟩ := Json.depth_record_le inside
      have taken := located_stmt_decoded thenBranch less thenDepth
      have other := optional_stmt_decoded elseBranch less elseDepth
      simp [Stmt.ofVariant?, Stmt.ifElseOfJson?, taken, other]
  | .whileLoop cond body, bound, enough => by
      apply Stmt.within_variant enough rfl
      intro less inside
      obtain ⟨-, depth⟩ := Json.depth_record_le inside
      have decoded := located_stmt_decoded body less depth
      simp [Stmt.ofVariant?, Stmt.whileOfJson?, decoded]
  | .doWhileLoop body cond, bound, enough => by
      apply Stmt.within_variant enough rfl
      intro less inside
      obtain ⟨depth, -⟩ := Json.depth_record_le inside
      have decoded := located_stmt_decoded body less depth
      simp [Stmt.ofVariant?, Stmt.doWhileOfJson?, decoded]
  | .forLoop init cond update body, bound, enough => by
      apply Stmt.within_variant enough rfl
      intro less inside
      obtain ⟨initDepth, -, updateDepth, depth⟩ := Json.depth_record_le inside
      have first := optional_stmt_decoded init less initDepth
      have next := optional_stmt_decoded update less updateDepth
      have decoded := located_stmt_decoded body less depth
      simp [Stmt.ofVariant?, Stmt.forOfJson?, first, next, decoded]
  | .switch scrutinee arms otherwise, bound, enough => by
      apply Stmt.within_variant enough rfl
      intro less inside
      obtain ⟨-, armsDepth, otherwiseDepth⟩ := Json.depth_record_le inside
      have decoded := arms_decoded arms less (Json.depth_array_le armsDepth)
      have other := otherwise_decoded otherwise less otherwiseDepth
      simp [Stmt.ofVariant?, Stmt.switchOfJson?, decoded, other]
  | .returning value, bound, enough => by
      apply Stmt.within_variant enough rfl
      intro less _
      simp [Stmt.ofVariant?]
  | .breaking, bound, enough => Stmt.within_empty enough rfl
  | .continuing, bound, enough => Stmt.within_empty enough rfl
  | .block stmts, bound, enough => by
      apply Stmt.within_variant enough rfl
      intro less inside
      have depth : (Json.array (stmtsToJson stmts)).depth ≤ less := Json.depth_record_le inside
      have decoded := stmts_decoded stmts less (Json.depth_array_le depth)
      simp [Stmt.ofVariant?, Stmt.blockOfJson_ofBlock decoded]
  | .expression value, bound, enough => by
      apply Stmt.within_variant enough rfl
      intro less _
      simp [Stmt.ofVariant?]

theorem located_stmt_decoded : ∀ (stmt : Located Stmt) (bound : Nat),
    (stmtToJson stmt).depth ≤ bound →
      Located.ofJson? (Stmt.ofJsonWithin? bound) (stmtToJson stmt) = some stmt
  | ⟨pos, stmt⟩, bound, enough => by
      obtain ⟨-, depth⟩ := Json.depth_record_le enough
      exact Located.ofJson_record (stmt_decoded stmt bound depth) pos

theorem stmts_decoded : ∀ (stmts : List (Located Stmt)) (bound : Nat),
    (∀ json ∈ stmtsToJson stmts, json.depth ≤ bound) →
      (stmtsToJson stmts).mapM (Located.ofJson? (Stmt.ofJsonWithin? bound)) = some stmts
  | [], _, _ => rfl
  | stmt :: rest, bound, enough => by
      rw [stmtsToJson, List.forall_mem_cons] at enough
      rw [stmtsToJson, List.mapM_cons, located_stmt_decoded stmt bound enough.1,
        stmts_decoded rest bound enough.2]
      rfl

theorem optional_stmt_decoded : ∀ (stmt : Option (Located Stmt)) (bound : Nat),
    (optionalStmtToJson stmt).depth ≤ bound →
      Json.optional? (Located.ofJson? (Stmt.ofJsonWithin? bound)) (optionalStmtToJson stmt) =
        some stmt
  | none, _, _ => rfl
  | some stmt, bound, enough =>
      Json.optional_decoded (located_stmt_decoded stmt bound enough) (stmtToJson_ne_null stmt)

theorem arms_decoded : ∀ (arms : List (Located (Arm Stmt))) (bound : Nat),
    (∀ json ∈ armsToJson arms, json.depth ≤ bound) →
      (armsToJson arms).mapM
        (Located.ofJson? (Stmt.armOfJson? (Stmt.ofJsonWithin? bound))) = some arms
  | [], _, _ => rfl
  | ⟨pos, value, body⟩ :: rest, bound, enough => by
      rw [armsToJson, List.forall_mem_cons] at enough
      obtain ⟨-, armDepth⟩ := Json.depth_record_le enough.1
      obtain ⟨-, depth⟩ := Json.depth_record_le armDepth
      have decoded := stmts_decoded body bound (Json.depth_array_le depth)
      have arm : Stmt.armOfJson? (Stmt.ofJsonWithin? bound)
          (record [("value", exprToJson value), ("body", .array (stmtsToJson body))]) =
            some ⟨value, body⟩ := by
        simp [Stmt.armOfJson?, decoded]
      rw [armsToJson, List.mapM_cons, Located.ofJson_record arm pos,
        arms_decoded rest bound enough.2]
      rfl

theorem otherwise_decoded : ∀ (otherwise : Option (Located (List (Located Stmt)))) (bound : Nat),
    (otherwiseToJson otherwise).depth ≤ bound →
      Json.optional? (Located.ofJson? (Stmt.blockOfJson? (Stmt.ofJsonWithin? bound)))
        (otherwiseToJson otherwise) = some otherwise
  | none, _, _ => rfl
  | some ⟨pos, stmts⟩, bound, enough => by
      obtain ⟨-, blockDepth⟩ := Json.depth_record_le enough
      have depth : (Json.array (stmtsToJson stmts)).depth ≤ bound :=
        Json.depth_record_le blockDepth
      have decoded := stmts_decoded stmts bound (Json.depth_array_le depth)
      have block := Stmt.blockOfJson_ofBlock decoded
      exact Json.optional_decoded (Located.ofJson_record block pos) (Json.record_ne_null _)

end

theorem located_stmt_read (stmt : Located Stmt) :
    Located.ofJson? Stmt.ofJson? (stmtToJson stmt) = some stmt := by
  rw [stmtToJson_eq]
  apply Located.ofJson_toJson
  intro data
  exact stmt_decoded data _ (Nat.le_refl _)

theorem stmtsToJson_eq (stmts : List (Located Stmt)) :
    stmtsToJson stmts = stmts.map stmtToJson := by
  induction stmts with
  | nil => rfl
  | cons stmt rest induction => rw [stmtsToJson, induction, List.map_cons]

/-! ### Programs -/

@[simp] theorem Parameter.ofJson_toJson (parameter : Parameter) :
    ofJson? parameter.toJson = some parameter := by
  simp [ofJson?, toJson]

@[simp] theorem Field.ofJson_toJson (field : Field) : ofJson? field.toJson = some field := by
  simp [ofJson?, toJson]

@[simp] theorem Method.ofJson_toJson (method : Method) : ofJson? method.toJson = some method := by
  have params := Json.list_ofList (Located.ofJson_toJson Parameter.ofJson_toJson) method.params
  have body : (stmtsToJson method.body).mapM (Located.ofJson? Stmt.ofJson?) = some method.body := by
    rw [stmtsToJson_eq]
    exact Json.mapM_back fun stmt _ => located_stmt_read stmt
  simp [ofJson?, toJson, params, body]

theorem Member.ofJson_toJson (member : Member) : ofJson? member.toJson = some member := by
  cases member with
  | field content => simp [ofJson?, toJson]
  | method content => simp [ofJson?, toJson]

theorem ClassDecl.ofJson_toJson (decl : ClassDecl) : ofJson? decl.toJson = some decl := by
  have members := Json.list_ofList (Located.ofJson_toJson Member.ofJson_toJson) decl.members
  simp [ofJson?, toJson, members]

theorem Program.ofJson_toJson (program : Program) : ofJson? program.toJson = some program := by
  have classes := Json.list_ofList (Located.ofJson_toJson ClassDecl.ofJson_toJson) program.classes
  simp [ofJson?, toJson, classes]

end Sema
