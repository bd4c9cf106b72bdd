import Sema.Cli.Document
import Sema.Proofs.Json.Roundtrip
import Sema.Proofs.Tree.Decoded

/-!
# The wire form of trees

Trees are written without fractions and exponents, so the reader finds in the text of a tree the
value that was written, and the decoder finds the tree in this value.
-/

namespace Sema

open Json (Integral)

/-! ### What is written -/

@[simp] theorem Position.integral_toJson (position : Position) : Integral position.toJson := by
  simp [toJson]

theorem Located.integral_toJson {Node : Type} {encode : Node → Json}
    (integral : ∀ node, Integral (encode node)) (node : Located Node) :
    Integral (toJson encode node) := by
  simp [toJson, integral]

theorem TokenEntry.integral_toJson (token : TokenEntry) : Integral token.toJson := by
  simp [toJson]

mutual

theorem expr_integral : ∀ expr : Expr, Integral expr.toJson
  | .literal ty value => by simp [Expr.toJson]
  | .identifier name => by simp [Expr.toJson]
  | .binary op lhs rhs => by
      have left := located_expr_integral lhs
      have right := located_expr_integral rhs
      simp [Expr.toJson, left, right]
  | .unary op operand leading => by
      have inside := located_expr_integral operand
      simp [Expr.toJson, inside]
  | .call name args => by
      have inside := exprs_integral args
      simp [Expr.toJson, Json.ofCall, inside]
  | .member path => by
      have names := Json.integral_ofList Json.integral_text path
      simp [Expr.toJson, Json.ofMember, names]
  | .memberCall path name args => by
      have names := Json.integral_ofList Json.integral_text path
      have inside := exprs_integral args
      simp [Expr.toJson, Json.ofMember, Json.ofCall, names, inside]

theorem located_expr_integral : ∀ expr : Located Expr, Integral (exprToJson expr)
  | ⟨pos, expr⟩ => by
      have inside := expr_integral expr
      simp [exprToJson, inside]

theorem exprs_integral : ∀ exprs : List (Located Expr), Integral (.array (exprsToJson exprs))
  | [] => Json.integral_nil
  | expr :: rest => Json.integral_cons.mpr ⟨located_expr_integral expr, exprs_integral rest⟩

end

theorem optional_expr_integral (expr : Option (Located Expr)) :
    Integral (optionalExprToJson expr) := by
  cases expr with
  | none => exact .null
  | some expr => exact located_expr_integral expr

mutual

theorem stmt_integral : ∀ stmt : Stmt, Integral stmt.toJson
  | .declare ty name isArray init => by
      have value := optional_expr_integral init
      simp [Stmt.toJson, value]
  | .assign target value => by
      have inside := located_expr_integral value
      simp [Stmt.toJson, inside]
  | .ifElse cond thenBranch elseBranch => by
      have test := located_expr_integral cond
      have taken := located_stmt_integral thenBranch
      have other := optional_stmt_integral elseBranch
      simp [Stmt.toJson, test, taken, other]
  | .whileLoop cond body => by
      have test := located_expr_integral cond
      have inside := located_stmt_integral body
      simp [Stmt.toJson, test, inside]
  | .doWhileLoop body cond => by
      have inside := located_stmt_integral body
      have test := located_expr_integral cond
      simp [Stmt.toJson, inside, test]
  | .forLoop init cond update body => by
      have first := optional_stmt_integral init
      have test := optional_expr_integral cond
      have next := optional_stmt_integral update
      have inside := located_stmt_integral body
      simp [Stmt.toJson, first, test, next, inside]
  | .switch scrutinee arms otherwise => by
      have value := located_expr_integral scrutinee
      have inside := arms_integral arms
      have other := otherwise_integral otherwise
      simp [Stmt.toJson, value, inside, other]
  | .returning value => by
      have inside := optional_expr_integral value
      simp [Stmt.toJson, inside]
  | .breaking => Json.integral_text _
  | .continuing => Json.integral_text _
  | .block stmts => by
      have inside := stmts_integral stmts
      simp [Stmt.toJson, Json.ofBlock, inside]
  | .expression value => by
      have inside := located_expr_integral value
      simp [Stmt.toJson, inside]

theorem located_stmt_integral : ∀ stmt : Located Stmt, Integral (stmtToJson stmt)
  | ⟨pos, stmt⟩ => by
      have inside := stmt_integral stmt
      simp [stmtToJson, inside]

theorem stmts_integral : ∀ stmts : List (Located Stmt), Integral (.array (stmtsToJson stmts))
  | [] => Json.integral_nil
  | stmt :: rest => Json.integral_cons.mpr ⟨located_stmt_integral stmt, stmts_integral rest⟩

theorem optional_stmt_integral : ∀ stmt : Option (Located Stmt), Integral (optionalStmtToJson stmt)
  | none => .null
  | some stmt => located_stmt_integral stmt

theorem arms_integral : ∀ arms : List (Located (Arm Stmt)), Integral (.array (armsToJson arms))
  | [] => Json.integral_nil
  | ⟨pos, value, body⟩ :: rest => by
      have test := located_expr_integral value
      have inside := stmts_integral body
      have others := arms_integral rest
      simp [armsToJson, Json.integral_cons, test, inside, others]

theorem otherwise_integral : ∀ otherwise : Option (Located (List (Located Stmt))),
    Integral (otherwiseToJson otherwise)
  | none => .null
  | some ⟨pos, stmts⟩ => by
      have inside := stmts_integral stmts
      simp [otherwiseToJson, Json.ofBlock, inside]

end

theorem Parameter.integral_toJson (parameter : Parameter) : Integral parameter.toJson := by
  simp [toJson]

theorem Field.integral_toJson (field : Field) : Integral field.toJson := by
  simp [toJson]

theorem Method.integral_toJson (method : Method) : Integral method.toJson := by
  have params := Json.integral_ofList (Located.integral_toJson Parameter.integral_toJson)
    method.params
  have body := stmts_integral method.body
  simp [toJson, params, body]

theorem Member.integral_toJson (member : Member) : Integral member.toJson := by
  cases member with
  | field content => exact Json.integral_variant.mpr content.integral_toJson
  | method content => exact Json.integral_variant.mpr content.integral_toJson

theorem ClassDecl.integral_toJson (decl : ClassDecl) : Integral decl.toJson := by
  have members := Json.integral_ofList (Located.integral_toJson Member.integral_toJson) decl.members
  simp [toJson, members]

theorem Program.integral_toJson (program : Program) : Integral program.toJson := by
  have classes := Json.integral_ofList (Located.integral_toJson ClassDecl.integral_toJson)
    program.classes
  simp [toJson, classes]

/-! ### What is read -/

/-- The value that a decoder finds in a text. -/
def Json.read? {Value : Type} (decode : Json → Option Value) (text : String) : Option Value :=
  (Json.parse? text).bind decode

/-- The text of a value stands for this value and for no other. -/
structure Lossless {Value : Type} (encode : Value → Json) (decode : Json → Option Value) :
    Prop where
  back : ∀ value, Json.read? decode (encode value).render = some value
  apart : ∀ value other, (encode value).render = (encode other).render → value = other
  /-- However a value came to be written, its own text is read as it was. -/
  again : ∀ text value, Json.read? decode text = some value →
    Json.read? decode (encode value).render = Json.read? decode text

theorem lossless_of_decoded {Value : Type} {encode : Value → Json} {decode : Json → Option Value}
    (integral : ∀ value, Integral (encode value))
    (reads : ∀ value, decode (encode value) = some value) : Lossless encode decode := by
  have back : ∀ value, Json.read? decode (encode value).render = some value := by
    intro value
    rw [Json.read?, Json.parse_render (integral value), Option.bind_some, reads]
  constructor
  · exact back
  · intro value other same
    have both := back value
    rw [same, back other] at both
    exact (Option.some.inj both).symm
  · intro text value read
    rw [back, read]

/-- The command line gets the program and the tokens that were written for it. -/
theorem document_read (program : Program) (tokens : List TokenEntry) :
    Cli.Document.parse? (Json.record [("program", program.toJson),
      ("tokens", .ofList TokenEntry.toJson tokens)]).render = some ⟨program, tokens⟩ := by
  have integral := Json.integral_ofList TokenEntry.integral_toJson tokens
  have written : Integral (Json.record [("program", program.toJson),
      ("tokens", .ofList TokenEntry.toJson tokens)]) := by
    simp [program.integral_toJson, integral]
  have found := Json.list_ofList TokenEntry.ofJson_toJson tokens
  rw [Cli.Document.parse?, Json.parse_render written, Option.bind_some, Cli.Document.ofJson?]
  · simp [Program.ofJson_toJson, found]
  · exact fun _ => nofun

/-- What is written for a tree, a part of one, an operator or a token loses nothing of it. -/
theorem wire_form_lossless :
    Lossless Program.toJson Program.ofJson? ∧
    Lossless (Located.toJson ClassDecl.toJson) (Located.ofJson? ClassDecl.ofJson?) ∧
    Lossless (Located.toJson Member.toJson) (Located.ofJson? Member.ofJson?) ∧
    Lossless stmtToJson (Located.ofJson? Stmt.ofJson?) ∧
    Lossless exprToJson (Located.ofJson? Expr.ofJson?) ∧
    Lossless Position.toJson Position.ofJson? ∧
    Lossless (fun op : BinaryOp => .text op.symbol) BinaryOp.ofJson? ∧
    Lossless (fun op : UnaryOp => .text op.symbol) UnaryOp.ofJson? ∧
    Lossless TokenEntry.toJson TokenEntry.ofJson? := by
  refine ⟨?_, ?_, ?_, ?_, ?_, ?_, ?_, ?_, ?_⟩
  · exact lossless_of_decoded Program.integral_toJson Program.ofJson_toJson
  · exact lossless_of_decoded (Located.integral_toJson ClassDecl.integral_toJson)
      (Located.ofJson_toJson ClassDecl.ofJson_toJson)
  · exact lossless_of_decoded (Located.integral_toJson Member.integral_toJson)
      (Located.ofJson_toJson Member.ofJson_toJson)
  · exact lossless_of_decoded located_stmt_integral located_stmt_read
  · exact lossless_of_decoded located_expr_integral located_expr_read
  · exact lossless_of_decoded Position.integral_toJson Position.ofJson_toJson
  · exact lossless_of_decoded (fun _ => Json.integral_text _) BinaryOp.ofJson_symbol
  · exact lossless_of_decoded (fun _ => Json.integral_text _) UnaryOp.ofJson_symbol
  · exact lossless_of_decoded TokenEntry.integral_toJson TokenEntry.ofJson_toJson

end Sema
