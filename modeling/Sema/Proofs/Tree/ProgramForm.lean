import Sema.Proofs.Tree.StmtForm

/-!
# Programs that follow their form

Nothing above a statement contains itself, so the forms of declarations build on each other up to
the whole program.
-/

namespace Sema

open Json (variantWith)

theorem Parameter.followed (bound : Nat) : Follows bound .parameter toJson ofJson? := by
  intro json parameter enough
  obtain ⟨ty, name, isArray⟩ := parameter
  refine record_followed (by exact rfl) enough ?_
  intro slots length _
  match slots, length with
  | [first, second, third], _ => simp [Option.bind_eq_some_iff, -Bool.exists_bool]

theorem Field.followed (bound : Nat) : Follows bound .field toJson ofJson? := by
  intro json field enough
  obtain ⟨modifiers, ty, name, isArray⟩ := field
  refine record_followed (by exact rfl) enough ?_
  intro slots length _
  match slots, length with
  | [first, second, third, fourth], _ => simp [Option.bind_eq_some_iff, -Bool.exists_bool]

theorem Method.followed (bound : Nat) : Follows bound .method toJson ofJson? := by
  intro json method enough
  obtain ⟨modifiers, returnTy, name, params, body⟩ := method
  refine record_followed (by exact rfl) enough ?_
  intro slots length small
  match slots, length with
  | [first, second, third, fourth, fifth], _ =>
      have given := (Located.followed (Parameter.followed bound) nofun).list.required nofun fourth
        params (small fourth (by simp))
      have inner := (Stmt.body_followed (located_stmt_followed bound)).required nofun fifth body
        (small fifth (by simp))
      simp [Option.bind_eq_some_iff, given, inner]

namespace Member

def tag : Member → String
  | .field _ => "Field"
  | .method _ => "Method"

def contentForm : Member → Form
  | .field _ => .field
  | .method _ => .method

/-- What is written below the name of the variant. -/
def content : Member → Json
  | .field content => content.toJson
  | .method content => content.toJson

/-- What is found below the name of a variant. -/
def ofVariant? (name : String) (content : Json) : Option Member :=
  if name = "Field" then (Field.ofJson? content).map .field
  else if name = "Method" then (Method.ofJson? content).map .method
  else none

theorem toJson_eq (member : Member) : member.toJson = variantWith member.tag member.content := by
  cases member <;> rfl

theorem variant_yields (name : String) (json : Json) :
    Yields (fun member => member.tag = name) (ofVariant? name json) := by
  unfold ofVariant?
  split_ifs with field method
  · exact yields_map fun _ => field.symm
  · exact yields_map fun _ => method.symm
  · exact yields_none

theorem known (member : Member) (form : Form) :
    (member.tag, some form) ∈ Form.memberVariants ↔ form = member.contentForm := by
  cases member <;> simp [Form.memberVariants, tag, contentForm]

theorem content_followed (member : Member) (json : Json) :
    ofVariant? member.tag json = some member ↔ Spells member.contentForm json member.content := by
  cases member with
  | field content =>
      have read := Field.followed json.depth json content (Nat.le_refl _)
      simp [ofVariant?, tag, contentForm, Member.content, ← read]
  | method content =>
      have read := Method.followed json.depth json content (Nat.le_refl _)
      simp [ofVariant?, tag, contentForm, Member.content, ← read]

theorem followed (bound : Nat) : Follows bound .classMember toJson ofJson? := by
  intro json member _
  rw [toJson_eq]
  exact choice_followed variant_yields member.known fun content _ =>
    content_followed member content

end Member

theorem ClassDecl.followed (bound : Nat) : Follows bound .classDecl toJson ofJson? := by
  intro json decl enough
  obtain ⟨name, modifiers, members⟩ := decl
  refine record_followed (by exact rfl) enough ?_
  intro slots length small
  match slots, length with
  | [first, second, third], _ =>
      have inner := (Located.followed (Member.followed bound) nofun).list.required nofun third
        members (small third (by simp))
      simp [Option.bind_eq_some_iff, inner]

theorem Program.followed (bound : Nat) : Follows bound .program toJson ofJson? := by
  intro json program enough
  obtain ⟨classes⟩ := program
  refine record_followed (by exact rfl) enough ?_
  intro slots length small
  match slots, length with
  | [first], _ =>
      have inner := (Located.followed (ClassDecl.followed bound) nofun).list.required nofun first
        classes (small first (by simp))
      simp [Option.bind_eq_some_iff, inner]

end Sema
