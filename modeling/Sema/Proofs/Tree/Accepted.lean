import Sema.Proofs.Json.Documents
import Sema.Proofs.Tree.Lossless
import Sema.Proofs.Tree.ProgramForm
import Sema.Proofs.Tree.Respelling

/-!
# Accepted texts

A text is read as a tree if it is one document, with blanks around it, and its value spells the
tree. Both are said without the reader and the decoders, so what is accepted and what it means is
settled by the grammar and the forms.
-/

namespace Sema

open Json (Document)

/-- The form tells of every text whether it is read, and as what. -/
structure Governs {Value : Type} (form : Form) (encode : Value → Json)
    (decode : Json → Option Value) : Prop where
  exactly : ∀ text value, Json.read? decode text = some value ↔
    ∃ json, Document json text.toList ∧ Spells form json (encode value)
  /-- There is one way to take a text apart, and one value that the result spells. -/
  unique : ∀ (text : String) json other value result,
    Document json text.toList → Spells form json (encode value) →
    Document other text.toList → Spells form other (encode result) → json = other ∧ value = result
  /-- Texts with other spellings of one value are read alike, also where neither is accepted. -/
  alike : ∀ (text changed : String) json other,
    Document json text.toList → Document other changed.toList →
    Relation.EqvGen (Respells form) json other →
    Json.read? decode text = Json.read? decode changed

theorem Json.document_unique {text : String} {json other : Json} (first : Document json text.toList)
    (second : Document other text.toList) : json = other := by
  have parsed := (parse_iff_document text json).mpr first
  rw [(parse_iff_document text other).mpr second] at parsed
  exact (Option.some.inj parsed).symm

theorem Json.read_of_document {Value : Type} {text : String} {json : Json}
    (document : Document json text.toList) (decode : Json → Option Value) :
    Json.read? decode text = decode json := by
  rw [read?, (parse_iff_document text json).mpr document, Option.bind_some]

/-- A decoder that follows its form at every depth needs no more than that. -/
theorem governs_of_follows {Value : Type} {form : Form} {encode : Value → Json}
    {decode : Json → Option Value} (distinct : form.distinct = true)
    (follows : ∀ bound, Follows bound form encode decode) : Governs form encode decode := by
  have decided : ∀ json value, decode json = some value ↔ Spells form json (encode value) :=
    fun json value => follows json.depth json value (Nat.le_refl _)
  constructor
  · intro text value
    rw [Json.read?, Option.bind_eq_some_iff]
    apply exists_congr
    intro json
    rw [Json.parse_iff_document, decided]
  · intro text json other value result first spells second spelled
    obtain rfl := Json.document_unique first second
    have found := (decided json value).mpr spells
    rw [(decided json result).mpr spelled] at found
    exact ⟨rfl, (Option.some.inj found).symm⟩
  · intro text changed json other first second steps
    rw [Json.read_of_document first, Json.read_of_document second]
    apply Option.ext
    intro value
    rw [decided, decided]
    exact spells_respelled distinct steps (encode value)

/-- A tree, a part of one, an operator or a token is read from its spellings and nothing else. -/
theorem wire_form_accepted :
    Governs .program Program.toJson Program.ofJson? ∧
    Governs .classDecl ClassDecl.toJson ClassDecl.ofJson? ∧
    Governs (.located .classDecl) (Located.toJson ClassDecl.toJson)
      (Located.ofJson? ClassDecl.ofJson?) ∧
    Governs .classMember Member.toJson Member.ofJson? ∧
    Governs (.located .classMember) (Located.toJson Member.toJson)
      (Located.ofJson? Member.ofJson?) ∧
    Governs (.nested .stmt) Stmt.toJson Stmt.ofJson? ∧
    Governs .stmt stmtToJson (Located.ofJson? Stmt.ofJson?) ∧
    Governs (.nested .expr) Expr.toJson Expr.ofJson? ∧
    Governs .expr exprToJson (Located.ofJson? Expr.ofJson?) ∧
    Governs .position Position.toJson Position.ofJson? ∧
    Governs .binaryOp (fun op : BinaryOp => .text op.symbol) BinaryOp.ofJson? ∧
    Governs .unaryOp (fun op : UnaryOp => .text op.symbol) UnaryOp.ofJson? ∧
    Governs .token TokenEntry.toJson TokenEntry.ofJson? := by
  refine ⟨?_, ?_, ?_, ?_, ?_, ?_, ?_, ?_, ?_, ?_, ?_, ?_, ?_⟩
  · exact governs_of_follows (by decide) Program.followed
  · exact governs_of_follows (by decide) ClassDecl.followed
  · exact governs_of_follows (by decide) fun bound =>
      Located.followed (ClassDecl.followed bound) nofun
  · exact governs_of_follows (by decide) Member.followed
  · exact governs_of_follows (by decide) fun bound => Located.followed (Member.followed bound) nofun
  · exact governs_of_follows rfl Stmt.followed
  · exact governs_of_follows (by decide) located_stmt_followed
  · exact governs_of_follows rfl Expr.followed
  · exact governs_of_follows (by decide) located_expr_followed
  · exact governs_of_follows (by decide) Position.followed
  · exact governs_of_follows (by decide) BinaryOp.followed
  · exact governs_of_follows (by decide) UnaryOp.followed
  · exact governs_of_follows (by decide) TokenEntry.followed

end Sema
