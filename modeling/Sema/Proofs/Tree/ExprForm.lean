import Sema.Proofs.Tree.Conformity

/-!
# Expressions that follow their form

The name of a variant tells what form the content below it has. The induction is on the bound within
which an expression is read: the content of a variant is read within one level less.
-/

namespace Sema

open Json (required? optionalSlot? optional? list? record variantWith)

theorem exprsToJson_eq (exprs : List (Located Expr)) :
    exprsToJson exprs = exprs.map exprToJson := by
  induction exprs with
  | nil => rfl
  | cons expr rest induction => rw [exprsToJson, induction, List.map_cons]

namespace Expr

def tag : Expr → String
  | .literal _ _ => "Literal"
  | .identifier _ => "Identifier"
  | .binary _ _ _ => "Binary"
  | .unary _ _ _ => "Unary"
  | .call _ _ => "MethodCall"
  | .member _ => "MemberAccess"
  | .memberCall _ _ _ => "MemberAccess"

def contentForm : Expr → Form
  | .literal _ _ => .literal
  | .identifier _ => .text
  | .binary _ _ _ => .binary
  | .unary _ _ _ => .unary
  | .call _ _ => .call
  | .member _ => .member
  | .memberCall _ _ _ => .member

/-- What is written below the name of the variant. -/
def content : Expr → Json
  | .literal ty value => record [("ty", .text ty), ("value", .text value)]
  | .identifier name => .text name
  | .binary op lhs rhs =>
      record [("op", .text op.symbol), ("lhs", exprToJson lhs), ("rhs", exprToJson rhs)]
  | .unary op operand leading =>
      record [("op", .text op.symbol), ("operand", exprToJson operand), ("prefix", .bool leading)]
  | .call name args => .ofCall name (exprsToJson args)
  | .member path => record [("path", .ofList .text path), ("call", .null)]
  | .memberCall path name args =>
      record [("path", .ofList .text path), ("call", .ofCall name (exprsToJson args))]

theorem toJson_eq (expr : Expr) : expr.toJson = variantWith expr.tag expr.content := by
  cases expr <;> rfl

theorem variant_yields (decode : Json → Option Expr) (name : String) (json : Json) :
    Yields (fun expr => expr.tag = name) (ofVariant? decode name json) := by
  unfold ofVariant?
  split_ifs with literal identifier binary unary call member
  · refine yields_bind fun slots => ?_
    split
    · exact yields_bind fun _ => yields_bind fun _ => yields_some literal.symm
    · exact yields_none
  · exact yields_map fun _ => identifier.symm
  · refine yields_bind fun slots => ?_
    split
    · exact yields_bind fun _ => yields_bind fun _ => yields_bind fun _ => yields_some binary.symm
    · exact yields_none
  · refine yields_bind fun slots => ?_
    split
    · exact yields_bind fun _ => yields_bind fun _ => yields_bind fun _ => yields_some unary.symm
    · exact yields_none
  · exact yields_map fun _ => call.symm
  · refine yields_bind fun slots => ?_
    split
    · refine yields_bind fun _ => yields_bind fun ending => ?_
      split
      · exact yields_some member.symm
      · exact yields_some member.symm
    · exact yields_none
  · exact yields_none

variable {bound : Nat} {decode : Json → Option Expr}

theorem args_followed (follows : Follows bound .expr exprToJson (Located.ofJson? decode)) :
    Follows bound (.list .expr) (fun args => .array (exprsToJson args))
      (list? (Located.ofJson? decode)) := by
  have each : (fun args => Json.array (exprsToJson args)) = Json.ofList exprToJson := by
    funext args
    exact congrArg Json.array (exprsToJson_eq args)
  rw [each]
  exact follows.list

theorem literal_followed (json : Json) (enough : json.depth ≤ bound) (ty value : String) :
    literalOfJson? json = some (.literal ty value) ↔
      Spells .literal json (record [("ty", .text ty), ("value", .text value)]) := by
  refine record_followed (by exact rfl) enough ?_
  intro slots length small
  match slots, length with
  | [first, second], _ => simp [Option.bind_eq_some_iff]

theorem binary_followed (follows : Follows bound .expr exprToJson (Located.ofJson? decode))
    (json : Json) (enough : json.depth ≤ bound) (op : BinaryOp) (lhs rhs : Located Expr) :
    binaryOfJson? decode json = some (.binary op lhs rhs) ↔
      Spells .binary json
        (record [("op", .text op.symbol), ("lhs", exprToJson lhs), ("rhs", exprToJson rhs)]) := by
  refine record_followed (by exact rfl) enough ?_
  intro slots length small
  match slots, length with
  | [first, second, third], _ =>
      have left := follows.required nofun second lhs (small second (by simp))
      have right := follows.required nofun third rhs (small third (by simp))
      simp [Option.bind_eq_some_iff, left, right]

theorem unary_followed (follows : Follows bound .expr exprToJson (Located.ofJson? decode))
    (json : Json) (enough : json.depth ≤ bound) (op : UnaryOp) (operand : Located Expr)
    (leading : Bool) :
    unaryOfJson? decode json = some (.unary op operand leading) ↔
      Spells .unary json (record [("op", .text op.symbol), ("operand", exprToJson operand),
        ("prefix", .bool leading)]) := by
  refine record_followed (by exact rfl) enough ?_
  intro slots length small
  match slots, length with
  | [first, second, third], _ =>
      have inner := follows.required nofun second operand (small second (by simp))
      simp [Option.bind_eq_some_iff, inner, -Bool.exists_bool]

theorem call_followed (follows : Follows bound .expr exprToJson (Located.ofJson? decode)) :
    Follows bound .call (fun call => .ofCall call.1 (exprsToJson call.2))
      (callOfJson? decode) := by
  intro json call enough
  obtain ⟨name, args⟩ := call
  refine record_followed (by exact rfl) enough ?_
  intro slots length small
  match slots, length with
  | [called, given], _ =>
      have inner := (args_followed follows).required nofun given args (small given (by simp))
      simp [Option.bind_eq_some_iff, inner]

/-- A path with a call at its end or without one. -/
def access (path : List String) : Option (String × List (Located Expr)) → Expr
  | none => .member path
  | some (name, args) => .memberCall path name args

theorem access_inj {path other : List String}
    {call ending : Option (String × List (Located Expr))} :
    access path call = access other ending ↔ path = other ∧ call = ending := by
  cases call <;> cases ending <;> simp [access, Prod.ext_iff]

theorem member_followed (follows : Follows bound .expr exprToJson (Located.ofJson? decode))
    (json : Json) (enough : json.depth ≤ bound) (path : List String)
    (call : Option (String × List (Located Expr))) :
    memberOfJson? decode json = some (access path call) ↔
      Spells .member json (record [("path", .ofList .text path),
        ("call", Json.ofOption (fun call => .ofCall call.1 (exprsToJson call.2)) call)]) := by
  refine record_followed (by exact rfl) enough ?_
  intro slots length small
  match slots, length with
  | [first, second], _ =>
      have names := (text_followed bound).list.required nofun first path (small first (by simp))
      have written : ∀ call : String × List (Located Expr),
          Json.ofCall call.1 (exprsToJson call.2) ≠ .null := fun _ => Json.record_ne_null _
      have optional := (call_followed follows).optional written fun _ => record_not_null
      have ending := optional.slot written second call (small second (by simp))
      simp only [spells_slots_cons, spells_slots_nil, ← names, ← ending, and_true]
      constructor
      · intro found
        obtain ⟨other, given, found⟩ := Option.bind_eq_some_iff.mp found
        obtain ⟨ended, behind, same⟩ := Option.bind_eq_some_iff.mp found
        have accessed : access other ended = access path call := by
          cases ended <;> exact Option.some.inj same
        obtain ⟨rfl, rfl⟩ := access_inj.mp accessed
        exact ⟨given, behind⟩
      · intro parts
        apply Option.bind_eq_some_iff.mpr
        refine ⟨path, parts.1, Option.bind_eq_some_iff.mpr ⟨call, parts.2, ?_⟩⟩
        cases call <;> rfl

/-- What is found below the name of a variant spells what is written there. -/
theorem content_followed (follows : Follows bound .expr exprToJson (Located.ofJson? decode))
    (expr : Expr) (json : Json) (enough : json.depth ≤ bound) :
    ofVariant? decode expr.tag json = some expr ↔ Spells expr.contentForm json expr.content := by
  cases expr with
  | literal ty value => exact literal_followed json enough ty value
  | identifier name =>
      have read := text_followed bound json name enough
      simp [ofVariant?, tag, contentForm, content, ← read]
  | binary op lhs rhs => exact binary_followed follows json enough op lhs rhs
  | unary op operand leading => exact unary_followed follows json enough op operand leading
  | call name args =>
      have read := call_followed follows json (name, args) enough
      simp [ofVariant?, tag, contentForm, content, ← read]
  | member path => exact member_followed follows json enough path none
  | memberCall path name args => exact member_followed follows json enough path (some (name, args))

theorem known (expr : Expr) (form : Form) :
    (expr.tag, some form) ∈ Form.exprVariants ↔ form = expr.contentForm := by
  cases expr <;> simp [Form.exprVariants, tag, contentForm]

theorem located_followed
    (follows : Follows bound (.nested .expr) toJson (ofJsonWithin? bound)) :
    Follows bound .expr exprToJson (Located.ofJson? (ofJsonWithin? bound)) := by
  have located := Located.followed follows nofun
  rw [← funext exprToJson_eq] at located
  exact located

theorem within_followed (bound : Nat) :
    Follows bound (.nested .expr) toJson (ofJsonWithin? bound) := by
  induction bound with
  | zero =>
      intro json expr enough
      exact absurd enough (Nat.not_le.mpr json.depth_pos)
  | succ bound induction =>
      intro json expr enough
      rw [spells_nested, toJson_eq]
      refine choice_followed (variant_yields _) expr.known ?_
      intro content whole
      have less := Json.depth_content whole enough
      exact content_followed (located_followed induction) expr content less

/-- An expression of any depth is read within the bound that its own nesting gives. -/
theorem followed (bound : Nat) : Follows bound (.nested .expr) toJson ofJson? :=
  fun json expr _ => within_followed json.depth json expr (Nat.le_refl _)

end Expr

theorem located_expr_followed (bound : Nat) :
    Follows bound .expr exprToJson (Located.ofJson? Expr.ofJson?) := by
  have located := Located.followed (Expr.followed bound) nofun
  rw [← funext exprToJson_eq] at located
  exact located

theorem optional_expr_followed (bound : Nat) :
    Follows bound (.optional .expr) optionalExprToJson
      (optional? (Located.ofJson? Expr.ofJson?)) :=
  (located_expr_followed bound).optional exprToJson_ne_null fun _ => record_not_null

@[simp] theorem expr_slot {slot : Option Json} (expr : Located Expr) :
    required? (Located.ofJson? Expr.ofJson?) slot = some expr ↔
      Fills .expr (exprToJson expr) slot :=
  required_iff located_expr_followed nofun expr

@[simp] theorem optional_expr_slot {slot : Option Json} (expr : Option (Located Expr)) :
    optionalSlot? (Located.ofJson? Expr.ofJson?) slot = some expr ↔
      Fills (.optional .expr) (optionalExprToJson expr) slot :=
  optional_iff optional_expr_followed exprToJson_ne_null expr

end Sema
