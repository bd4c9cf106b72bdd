import Sema.Proofs.Tree.ExprForm

/-!
# Statements that follow their form

Most statements are read as expressions are, by the form below the name of the variant. Those that
hold nothing are known by their names alone, and are tried first.
-/

namespace Sema

open Json (required? optionalSlot? optional? list? record variantWith)

namespace Stmt

def tag : Stmt → String
  | .declare _ _ _ _ => "VariableDeclaration"
  | .assign _ _ => "Assignment"
  | .ifElse _ _ _ => "If"
  | .whileLoop _ _ => "While"
  | .doWhileLoop _ _ => "DoWhile"
  | .forLoop _ _ _ _ => "For"
  | .switch _ _ _ => "Switch"
  | .returning _ => "Return"
  | .breaking => "Break"
  | .continuing => "Continue"
  | .block _ => "Block"
  | .expression _ => "Expression"

/-- The form below the name of the variant, and what is written there. -/
def content : Stmt → Option (Form × Json)
  | .declare ty name isArray init =>
      some (.declare, record [("ty", .text ty), ("name", .text name), ("is_array", .bool isArray),
        ("init", optionalExprToJson init)])
  | .assign target value =>
      some (.assign, record [("target", .text target), ("value", exprToJson value)])
  | .ifElse cond thenBranch elseBranch =>
      some (.ifElse, record [("cond", exprToJson cond), ("then_branch", stmtToJson thenBranch),
        ("else_branch", optionalStmtToJson elseBranch)])
  | .whileLoop cond body =>
      some (.whileLoop, record [("cond", exprToJson cond), ("body", stmtToJson body)])
  | .doWhileLoop body cond =>
      some (.doWhileLoop, record [("body", stmtToJson body), ("cond", exprToJson cond)])
  | .forLoop init cond update body =>
      some (.forLoop, record [("init", optionalStmtToJson init), ("cond", optionalExprToJson cond),
        ("update", optionalStmtToJson update), ("body", stmtToJson body)])
  | .switch scrutinee arms otherwise =>
      some (.switch, record [("scrutinee", exprToJson scrutinee),
        ("cases", .array (armsToJson arms)), ("default", otherwiseToJson otherwise)])
  | .returning value => some (.optional .expr, optionalExprToJson value)
  | .breaking => none
  | .continuing => none
  | .block statements => some (.block, .ofBlock (stmtsToJson statements))
  | .expression value => some (.expr, exprToJson value)

theorem toJson_eq (stmt : Stmt) :
    stmt.toJson = match stmt.content with
      | none => .text stmt.tag
      | some (_, plain) => variantWith stmt.tag plain := by
  cases stmt <;> rfl

theorem known (stmt : Stmt) {form : Form} {plain : Json} (holds : stmt.content = some (form, plain))
    (other : Form) : (stmt.tag, some other) ∈ Form.stmtVariants ↔ other = form := by
  cases stmt <;> cases holds <;> simp [Form.stmtVariants, tag]

theorem known_empty (stmt : Stmt) (empty : stmt.content = none) :
    (stmt.tag, none) ∈ Form.stmtVariants := by
  cases stmt <;> cases empty <;> simp [Form.stmtVariants, tag]

theorem empty_yields (name : String) :
    Yields (fun stmt => stmt.tag = name ∧ stmt.content = none) (ofEmptyVariant? name) := by
  unfold ofEmptyVariant?
  split_ifs with breaking continuing
  · exact yields_some ⟨breaking.symm, rfl⟩
  · exact yields_some ⟨continuing.symm, rfl⟩
  · exact yields_none

theorem empty_found (stmt : Stmt) (empty : stmt.content = none) :
    ofEmptyVariant? stmt.tag = some stmt := by
  cases stmt <;> cases empty <;> rfl

theorem yields_content {stmt : Stmt} {name : String} {content : Form × Json}
    (named : name = stmt.tag) (holds : stmt.content = some content) :
    Yields (fun stmt => stmt.tag = name ∧ stmt.content ≠ none) (some stmt) := by
  apply yields_some
  rw [holds]
  exact ⟨named.symm, Option.some_ne_none content⟩

theorem variant_yields (decode : Json → Option Stmt) (name : String) (json : Json) :
    Yields (fun stmt => stmt.tag = name ∧ stmt.content ≠ none) (ofVariant? decode name json) := by
  unfold ofVariant?
  split_ifs with declare assign ifElse whileLoop doWhileLoop forLoop switch returning block
    expression
  · refine yields_bind fun slots => ?_
    split
    · exact yields_bind fun _ => yields_bind fun _ => yields_bind fun _ => yields_bind fun _ =>
        yields_content declare rfl
    · exact yields_none
  · refine yields_bind fun slots => ?_
    split
    · exact yields_bind fun _ => yields_bind fun _ => yields_content assign rfl
    · exact yields_none
  · refine yields_bind fun slots => ?_
    split
    · exact yields_bind fun _ => yields_bind fun _ => yields_bind fun _ =>
        yields_content ifElse rfl
    · exact yields_none
  · refine yields_bind fun slots => ?_
    split
    · exact yields_bind fun _ => yields_bind fun _ => yields_content whileLoop rfl
    · exact yields_none
  · refine yields_bind fun slots => ?_
    split
    · exact yields_bind fun _ => yields_bind fun _ => yields_content doWhileLoop rfl
    · exact yields_none
  · refine yields_bind fun slots => ?_
    split
    · exact yields_bind fun _ => yields_bind fun _ => yields_bind fun _ => yields_bind fun _ =>
        yields_content forLoop rfl
    · exact yields_none
  · refine yields_bind fun slots => ?_
    split
    · exact yields_bind fun _ => yields_bind fun _ => yields_bind fun _ =>
        yields_content switch rfl
    · exact yields_none
  · exact yields_map fun _ => ⟨returning.symm, Option.some_ne_none _⟩
  · exact yields_map fun _ => ⟨block.symm, Option.some_ne_none _⟩
  · exact yields_map fun _ => ⟨expression.symm, Option.some_ne_none _⟩
  · exact yields_none

variable {bound : Nat} {decode : Json → Option Stmt}

theorem body_followed (follows : Follows bound .stmt stmtToJson (Located.ofJson? decode)) :
    Follows bound (.list .stmt) (fun body => .array (stmtsToJson body))
      (list? (Located.ofJson? decode)) := by
  have each : (fun body => Json.array (stmtsToJson body)) = Json.ofList stmtToJson := by
    funext body
    exact congrArg Json.array (stmtsToJson_eq body)
  rw [each]
  exact follows.list

theorem optional_slot (follows : Follows bound .stmt stmtToJson (Located.ofJson? decode)) :
    FollowsSlot bound (.optional .stmt) optionalStmtToJson
      (optionalSlot? (Located.ofJson? decode)) := by
  have each : optionalStmtToJson = Json.ofOption stmtToJson := by
    funext stmt
    cases stmt <;> rfl
  rw [each]
  exact (follows.optional stmtToJson_ne_null fun _ => record_not_null).slot stmtToJson_ne_null

theorem block_followed (follows : Follows bound .stmt stmtToJson (Located.ofJson? decode)) :
    Follows bound .block (fun statements => .ofBlock (stmtsToJson statements))
      (blockOfJson? decode) := by
  intro json statements enough
  refine record_followed (by exact rfl) enough ?_
  intro slots length small
  match slots, length with
  | [first], _ =>
      have inner := (body_followed follows).required nofun first statements (small first (by simp))
      simp [inner]

theorem arm_followed (follows : Follows bound .stmt stmtToJson (Located.ofJson? decode)) :
    Follows bound .arm
      (fun arm : Arm Stmt =>
        record [("value", exprToJson arm.value), ("body", .array (stmtsToJson arm.body))])
      (armOfJson? decode) := by
  intro json arm enough
  obtain ⟨value, body⟩ := arm
  refine record_followed (by exact rfl) enough ?_
  intro slots length small
  match slots, length with
  | [first, second], _ =>
      have inner := (body_followed follows).required nofun second body (small second (by simp))
      simp [Option.bind_eq_some_iff, inner]

theorem arms_followed (follows : Follows bound .stmt stmtToJson (Located.ofJson? decode)) :
    Follows bound (.list (.located .arm)) (fun arms => .array (armsToJson arms))
      (list? (Located.ofJson? (armOfJson? decode))) := by
  have each : (fun arms => Json.array (armsToJson arms)) = Json.ofList (Located.toJson fun arm =>
      record [("value", exprToJson arm.value), ("body", .array (stmtsToJson arm.body))]) := by
    funext arms
    apply congrArg Json.array
    induction arms with
    | nil => rfl
    | cons arm rest induction => rw [armsToJson, induction, List.map_cons, Located.toJson]
  rw [each]
  exact (Located.followed (arm_followed follows) nofun).list

theorem otherwise_slot (follows : Follows bound .stmt stmtToJson (Located.ofJson? decode)) :
    FollowsSlot bound (.optional (.located .block)) otherwiseToJson
      (optionalSlot? (Located.ofJson? (blockOfJson? decode))) := by
  have each : otherwiseToJson = Json.ofOption (Located.toJson
      fun statements => .ofBlock (stmtsToJson statements)) := by
    funext otherwise
    cases otherwise <;> rfl
  have written : ∀ block : Located (List (Located Stmt)),
      block.toJson (fun statements => .ofBlock (stmtsToJson statements)) ≠ .null :=
    fun _ => Json.record_ne_null _
  rw [each]
  exact ((Located.followed (block_followed follows) nofun).optional written
    fun _ => record_not_null).slot written

theorem declare_followed (json : Json) (enough : json.depth ≤ bound) (ty name : String)
    (isArray : Bool) (init : Option (Located Expr)) :
    declareOfJson? json = some (.declare ty name isArray init) ↔
      Spells .declare json (record [("ty", .text ty), ("name", .text name),
        ("is_array", .bool isArray), ("init", optionalExprToJson init)]) := by
  refine record_followed (by exact rfl) enough ?_
  intro slots length _
  match slots, length with
  | [first, second, third, fourth], _ => simp [Option.bind_eq_some_iff, -Bool.exists_bool]

theorem assign_followed (json : Json) (enough : json.depth ≤ bound) (target : String)
    (value : Located Expr) :
    assignOfJson? json = some (.assign target value) ↔
      Spells .assign json (record [("target", .text target), ("value", exprToJson value)]) := by
  refine record_followed (by exact rfl) enough ?_
  intro slots length _
  match slots, length with
  | [first, second], _ => simp [Option.bind_eq_some_iff]

section Inner

variable (follows : Follows bound .stmt stmtToJson (Located.ofJson? decode)) (json : Json)
  (enough : json.depth ≤ bound)

include follows enough

theorem ifElse_followed (cond : Located Expr) (thenBranch : Located Stmt)
    (elseBranch : Option (Located Stmt)) :
    ifElseOfJson? decode json = some (.ifElse cond thenBranch elseBranch) ↔
      Spells .ifElse json (record [("cond", exprToJson cond),
        ("then_branch", stmtToJson thenBranch),
        ("else_branch", optionalStmtToJson elseBranch)]) := by
  refine record_followed (by exact rfl) enough ?_
  intro slots length small
  match slots, length with
  | [first, second, third], _ =>
      have taken := follows.required nofun second thenBranch (small second (by simp))
      have other := optional_slot follows third elseBranch (small third (by simp))
      simp [Option.bind_eq_some_iff, taken, other]

theorem while_followed (cond : Located Expr) (body : Located Stmt) :
    whileOfJson? decode json = some (.whileLoop cond body) ↔
      Spells .whileLoop json (record [("cond", exprToJson cond), ("body", stmtToJson body)]) := by
  refine record_followed (by exact rfl) enough ?_
  intro slots length small
  match slots, length with
  | [first, second], _ =>
      have inner := follows.required nofun second body (small second (by simp))
      simp [Option.bind_eq_some_iff, inner]

theorem doWhile_followed (body : Located Stmt) (cond : Located Expr) :
    doWhileOfJson? decode json = some (.doWhileLoop body cond) ↔
      Spells .doWhileLoop json (record [("body", stmtToJson body), ("cond", exprToJson cond)]) := by
  refine record_followed (by exact rfl) enough ?_
  intro slots length small
  match slots, length with
  | [first, second], _ =>
      have inner := follows.required nofun first body (small first (by simp))
      simp [Option.bind_eq_some_iff, inner]

theorem for_followed (init : Option (Located Stmt)) (cond : Option (Located Expr))
    (update : Option (Located Stmt)) (body : Located Stmt) :
    forOfJson? decode json = some (.forLoop init cond update body) ↔
      Spells .forLoop json (record [("init", optionalStmtToJson init),
        ("cond", optionalExprToJson cond), ("update", optionalStmtToJson update),
        ("body", stmtToJson body)]) := by
  refine record_followed (by exact rfl) enough ?_
  intro slots length small
  match slots, length with
  | [first, second, third, fourth], _ =>
      have begun := optional_slot follows first init (small first (by simp))
      have next := optional_slot follows third update (small third (by simp))
      have inner := follows.required nofun fourth body (small fourth (by simp))
      simp [Option.bind_eq_some_iff, begun, next, inner]

theorem switch_followed (scrutinee : Located Expr) (arms : List (Located (Arm Stmt)))
    (otherwise : Option (Located (List (Located Stmt)))) :
    switchOfJson? decode json = some (.switch scrutinee arms otherwise) ↔
      Spells .switch json (record [("scrutinee", exprToJson scrutinee),
        ("cases", .array (armsToJson arms)), ("default", otherwiseToJson otherwise)]) := by
  refine record_followed (by exact rfl) enough ?_
  intro slots length small
  match slots, length with
  | [first, second, third], _ =>
      have inner := (arms_followed follows).required nofun second arms (small second (by simp))
      have other := otherwise_slot follows third otherwise (small third (by simp))
      simp [Option.bind_eq_some_iff, inner, other]

/-- What is found below the name of a variant spells what is written there. -/
theorem content_followed (stmt : Stmt) {form : Form} {plain : Json}
    (holds : stmt.content = some (form, plain)) :
    ofVariant? decode stmt.tag json = some stmt ↔ Spells form json plain := by
  cases stmt <;> cases holds
  case declare ty name isArray init => exact declare_followed json enough ty name isArray init
  case assign target value => exact assign_followed json enough target value
  case ifElse cond thenBranch elseBranch =>
    exact ifElse_followed follows json enough cond thenBranch elseBranch
  case whileLoop cond body => exact while_followed follows json enough cond body
  case doWhileLoop body cond => exact doWhile_followed follows json enough body cond
  case forLoop init cond update body =>
    exact for_followed follows json enough init cond update body
  case switch scrutinee arms otherwise =>
    exact switch_followed follows json enough scrutinee arms otherwise
  case returning value =>
    have read := optional_expr_followed bound json value enough
    simp [ofVariant?, tag, ← read]
  case block statements =>
    have read := block_followed follows json statements enough
    simp [ofVariant?, tag, ← read]
  case expression value =>
    have read := located_expr_followed bound json value enough
    simp [ofVariant?, tag, ← read]

end Inner

theorem located_followed
    (follows : Follows bound (.nested .stmt) toJson (ofJsonWithin? bound)) :
    Follows bound .stmt stmtToJson (Located.ofJson? (ofJsonWithin? bound)) := by
  have located := Located.followed follows nofun
  rw [← funext stmtToJson_eq] at located
  exact located

/-- A statement that holds nothing is known by its name. -/
theorem empty_followed (stmt : Stmt) (empty : stmt.content = none) (json : Json) :
    ofJsonWithin? (bound + 1) json = some stmt ↔ json.emptyVariant? = some stmt.tag := by
  rw [ofJsonWithin?]
  constructor
  · intro found
    split at found
    · rename_i other named
      cases found
      obtain ⟨name, whole, named⟩ := Option.bind_eq_some_iff.mp named
      rw [(empty_yields name stmt named).1, whole]
    · split at found
      · exact absurd empty (variant_yields _ _ _ _ found).2
      · cases found
  · intro named
    rw [named, Option.bind_some, empty_found stmt empty]

/-- A name with content behind it is none of a statement that holds nothing. -/
theorem no_empty {stmt : Stmt} (holds : stmt.content ≠ none) {json content : Json}
    (whole : json.variant? = some (stmt.tag, some content)) :
    json.emptyVariant?.bind ofEmptyVariant? = none := by
  cases named : json.emptyVariant? with
  | none => rfl
  | some name =>
      have same : name = stmt.tag := by
        cases empty_variant_iff.mp named with
        | inl other =>
            rw [whole] at other
            cases other
        | inr other =>
            rw [whole] at other
            cases other
            rfl
      rw [same, Option.bind_some]
      cases stmt <;> first | rfl | exact absurd rfl holds

theorem variant_followed (follows : Follows bound (.nested .stmt) toJson (ofJsonWithin? bound))
    (stmt : Stmt) {form : Form} {plain : Json} (holds : stmt.content = some (form, plain))
    (json : Json) (enough : json.depth ≤ bound + 1) :
    ofJsonWithin? (bound + 1) json = some stmt ↔
      Spells (.choice Form.stmtVariants) json (variantWith stmt.tag plain) := by
  have present : stmt.content ≠ none := by
    rw [holds]
    exact Option.some_ne_none _
  have only : ∀ name content,
      Yields (fun stmt => stmt.tag = name) (ofVariant? (ofJsonWithin? bound) name content) :=
    fun name content stmt found => (variant_yields _ name content stmt found).1
  have inner : ∀ content, json.variant? = some (stmt.tag, some content) →
      (ofVariant? (ofJsonWithin? bound) stmt.tag content = some stmt ↔
        Spells form content plain) := by
    intro content whole
    have less := Json.depth_content whole enough
    exact content_followed (located_followed follows) content less stmt holds
  have chosen := choice_followed only (stmt.known holds) inner
  rw [ofJsonWithin?]
  constructor
  · intro found
    split at found
    · rename_i other named
      cases found
      obtain ⟨name, _, named⟩ := Option.bind_eq_some_iff.mp named
      exact absurd (empty_yields name stmt named).2 present
    · exact chosen.mp found
  · intro spells
    obtain ⟨content, whole, -⟩ := (spells_variant (stmt.known holds)).mp spells
    rw [no_empty present whole]
    exact chosen.mpr spells

theorem within_followed (bound : Nat) :
    Follows bound (.nested .stmt) toJson (ofJsonWithin? bound) := by
  induction bound with
  | zero =>
      intro json stmt enough
      exact absurd enough (Nat.not_le.mpr json.depth_pos)
  | succ bound induction =>
      intro json stmt enough
      rw [spells_nested, toJson_eq]
      cases holds : stmt.content with
      | none =>
          rw [empty_followed stmt holds]
          exact (spells_empty (stmt.known_empty holds)).symm
      | some content =>
          exact variant_followed induction stmt holds json enough

theorem followed (bound : Nat) : Follows bound (.nested .stmt) toJson ofJson? :=
  fun json stmt _ => within_followed json.depth json stmt (Nat.le_refl _)

end Stmt

theorem located_stmt_followed (bound : Nat) :
    Follows bound .stmt stmtToJson (Located.ofJson? Stmt.ofJson?) := by
  have located := Located.followed (Stmt.followed bound) nofun
  rw [← funext stmtToJson_eq] at located
  exact located

end Sema
