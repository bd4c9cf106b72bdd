import Sema.Proofs.Typing.Judgement
import Mathlib.Data.List.Forall2

/-!
# Checks and rules

A check is silent if and only if the rule that it stands for holds.
-/

namespace Sema

variable {types : Typing}

/-! ### Types of expressions -/

theorem typeOfLocated_eq (types : Typing) (expr : Located Expr) :
    typeOfLocated types expr = expr.data.typeIn types := by
  cases expr
  rfl

theorem typeIn_unary (types : Typing) {op : UnaryOp} (operand : Located Expr) (leading : Bool)
    (other : op ≠ .not) :
    Expr.typeIn types (.unary op operand leading) = operand.data.typeIn types := by
  rw [← typeOfLocated_eq]
  cases op with
  | not => exact absurd rfl other
  | neg | plus | increment | decrement | bitNot => simp [Expr.typeIn]

theorem wider_of_ranks {left right : Primitive} {low high : Nat} (leftRank : left.rank? = some low)
    (rightRank : right.rank? = some high) :
    Ty.wider (.primitive left) (.primitive right) =
      .primitive (if high ≤ low then left else right) := by
  simp only [Ty.wider, leftRank, rightRank]
  split <;> rfl

theorem HasType.typeIn {expr : Expr} {ty : Ty} (typed : HasType types expr ty) :
    expr.typeIn types = ty ∧ ty ≠ .unknown := by
  induction typed with
  | literal ty value known => exact ⟨rfl, known⟩
  | identifier found known => exact ⟨by simp [Expr.typeIn, found], known⟩
  | comparison lhs rhs truth => exact ⟨by simp [Expr.typeIn, truth], by simp [Ty.boolean]⟩
  | promotion promotes _ _ leftRank rightRank left right =>
      refine ⟨?_, by simp⟩
      rw [← wider_of_ranks leftRank rightRank, ← left.1, ← right.1]
      simp [Expr.typeIn, promotes, typeOfLocated_eq]
  | negation operand leading => exact ⟨by simp [Expr.typeIn], by simp [Ty.boolean]⟩
  | @unary op operand ty leading other _ induction =>
      rw [typeIn_unary types operand leading other]
      exact induction

/-- A promotion has a type only if both operands are numeric. -/
theorem ranks_of_wider {left right : Ty} (known : Ty.wider left right ≠ .unknown) :
    ∃ first second low high, left = .primitive first ∧ right = .primitive second ∧
      first.rank? = some low ∧ second.rank? = some high := by
  cases left with
  | void | named | unknown => exact absurd rfl known
  | primitive first =>
      cases right with
      | void | named | unknown => exact absurd rfl known
      | primitive second =>
          cases leftRank : first.rank? with
          | none => simp [Ty.wider, leftRank] at known
          | some low =>
              cases rightRank : second.rank? with
              | none => simp [Ty.wider, leftRank, rightRank] at known
              | some high => exact ⟨first, second, low, high, rfl, rfl, leftRank, rightRank⟩

mutual

theorem has_type_typeIn (types : Typing) :
    ∀ expr : Expr, expr.typeIn types ≠ .unknown → HasType types expr (expr.typeIn types)
  | .literal ty value, known => .literal ty value known
  | .identifier name, known => by
      cases found : types name with
      | none => simp [Expr.typeIn, found] at known
      | some ty =>
          have type : Expr.typeIn types (.identifier name) = ty := by simp [Expr.typeIn, found]
          rw [type] at known ⊢
          exact .identifier found known
  | .binary op lhs rhs, known => by
      cases truth : op.yieldsBoolean with
      | true =>
          have type : Expr.typeIn types (.binary op lhs rhs) = .boolean := by
            simp [Expr.typeIn, truth]
          rw [type]
          exact .comparison lhs rhs truth
      | false =>
          have type : Expr.typeIn types (.binary op lhs rhs) =
              Ty.wider (typeOfLocated types lhs) (typeOfLocated types rhs) := by
            simp [Expr.typeIn, truth]
          rw [type] at known ⊢
          obtain ⟨left, right, low, high, leftType, rightType, leftRank, rightRank⟩ :=
            ranks_of_wider known
          have first := located_has_type types lhs (by simp [leftType])
          have second := located_has_type types rhs (by simp [rightType])
          rw [leftType] at first ⊢
          rw [rightType] at second ⊢
          rw [wider_of_ranks leftRank rightRank]
          exact .promotion truth first second leftRank rightRank
  | .unary op operand leading, known => by
      by_cases negates : op = .not
      · subst negates
        have type : Expr.typeIn types (.unary .not operand leading) = .boolean := by
          simp [Expr.typeIn]
        rw [type]
        exact .negation operand leading
      · rw [typeIn_unary types operand leading negates, ← typeOfLocated_eq] at known ⊢
        exact .unary leading negates (located_has_type types operand known)
  | .call _ _, known => absurd (by simp [Expr.typeIn]) known
  | .member _, known => absurd (by simp [Expr.typeIn]) known
  | .memberCall _ _ _, known => absurd (by simp [Expr.typeIn]) known

theorem located_has_type (types : Typing) :
    ∀ expr : Located Expr, typeOfLocated types expr ≠ .unknown →
      HasType types expr.data (typeOfLocated types expr)
  | ⟨_, expr⟩, known => has_type_typeIn types expr known

end

theorem has_type_iff {expr : Expr} {ty : Ty} :
    HasType types expr ty ↔ expr.typeIn types = ty ∧ ty ≠ .unknown := by
  constructor
  · exact HasType.typeIn
  · rintro ⟨rfl, known⟩
    exact has_type_typeIn types expr known

theorem accepts_iff {target : Ty} {value : Expr} :
    Accepts types target value ↔
      value.typeIn types ≠ .unknown ∧ (value.typeIn types).assignable target = true := by
  constructor
  · rintro ⟨source, typed, fits⟩
    obtain ⟨rfl, known⟩ := has_type_iff.mp typed
    exact ⟨known, fits⟩
  · rintro ⟨known, fits⟩
    exact ⟨_, has_type_typeIn types value known, fits⟩

theorem forall_has_type {value : Expr} {motive : Ty → Prop} :
    (∀ ty, HasType types value ty → motive ty) ↔
      (value.typeIn types ≠ .unknown → motive (value.typeIn types)) := by
  constructor
  · intro all known
    exact all _ (has_type_typeIn types value known)
  · intro own ty typed
    obtain ⟨rfl, known⟩ := has_type_iff.mp typed
    exact own known

/-! ### Silent checks -/

theorem errorAt_ne_nil (line : UInt64) (cause : Violation) : errorAt line cause ≠ [] :=
  List.cons_ne_nil _ _

theorem warningAt_ne_nil (line : UInt64) (cause : Doubt) : warningAt line cause ≠ [] :=
  List.cons_ne_nil _ _

/-- What is common to the checks that want a known type that fits. -/
theorem silent_iff {unknown fits : Bool} {warning failure : FindingLog} (warns : warning ≠ [])
    (fails : failure ≠ []) :
    (if unknown then warning else if fits then [] else failure) = [] ↔
      unknown = false ∧ fits = true := by
  cases unknown <;> cases fits <;> simp [warns, fails]

namespace Context

variable {context : Context} {value : Expr} {line : UInt64}

theorem assignment_silent {name : String} :
    context.assignment name value line = [] ↔ ∃ ty, context.variableType? name = some ty ∧
      Accepts context.variableType? ty value := by
  unfold assignment
  cases context.variableType? name with
  | none => simp [errorAt_ne_nil]
  | some target =>
      simp only [silent_iff (warningAt_ne_nil _ _) (errorAt_ne_nil _ _), accepts_iff]
      simp [typeOf, Ty.isUnknown]

theorem initializer_silent {name : String} {target : Ty} :
    context.initializer name target value line = [] ↔
      ∀ source, HasType context.variableType? value source → source.assignable target = true := by
  rw [forall_has_type]
  unfold initializer typeOf
  by_cases unknown : value.typeIn context.variableType? = .unknown
  · simp [unknown, Ty.isUnknown]
  · cases fits : (value.typeIn context.variableType?).assignable target <;>
      simp [unknown, fits, Ty.isUnknown, errorAt_ne_nil]

theorem condition_silent {construct : Construct} :
    context.condition value construct line = [] ↔
      HasType context.variableType? value .boolean := by
  unfold condition typeOf
  rw [silent_iff (warningAt_ne_nil _ _) (errorAt_ne_nil _ _), has_type_iff, Ty.isBoolean,
    beq_iff_eq]
  constructor
  · rintro ⟨-, truth⟩
    exact ⟨truth, by simp [Ty.boolean]⟩
  · rintro ⟨truth, -⟩
    exact ⟨by rw [truth]; rfl, truth⟩

theorem operands_silent {op : BinaryOp} {left right : Ty} :
    Rule.operands op left right line = [] ↔ OperandsOk op left right := by
  unfold Rule.operands OperandsOk
  cases op.family with
  | relational =>
      cases left.isNumeric <;> cases right.isNumeric <;> simp [errorAt_ne_nil]
  | equality =>
      cases left.assignable right <;> cases right.assignable left <;> simp [warningAt_ne_nil]
  | logical =>
      have operand : ∀ (side : Side) (ty : Ty),
          Rule.logicalOperand op side ty line = [] ↔ ty = .boolean := by
        intro side ty
        unfold Rule.logicalOperand
        cases truth : ty.isBoolean <;> simp_all [errorAt_ne_nil, Ty.isBoolean, Ty.boolean]
      rw [List.append_eq_nil_iff, operand, operand]
  | arithmetic =>
      have operand : ∀ (side : Side) (ty : Ty),
          Rule.arithmeticOperand op side ty line = [] ↔
            (ty.isNumeric = true ∨ ty.isString = true) := by
        intro side ty
        unfold Rule.arithmeticOperand
        cases ty.isNumeric <;> cases ty.isString <;> simp [errorAt_ne_nil]
      rw [List.append_eq_nil_iff, operand, operand]
  | bitwise => simp

theorem binary_silent {op : BinaryOp} {lhs rhs : Expr} :
    context.binary op lhs rhs line = [] ↔
      ∀ left right, HasType context.variableType? lhs left →
        HasType context.variableType? rhs right → OperandsOk op left right := by
  have one : (∀ left right, HasType context.variableType? lhs left →
        HasType context.variableType? rhs right → OperandsOk op left right) ↔
      (lhs.typeIn context.variableType? ≠ .unknown → rhs.typeIn context.variableType? ≠ .unknown →
        OperandsOk op (lhs.typeIn context.variableType?) (rhs.typeIn context.variableType?)) := by
    constructor
    · intro all left right
      exact all _ _ (has_type_typeIn _ lhs left) (has_type_typeIn _ rhs right)
    · intro own left right leftTyped rightTyped
      obtain ⟨rfl, leftKnown⟩ := has_type_iff.mp leftTyped
      obtain ⟨rfl, rightKnown⟩ := has_type_iff.mp rightTyped
      exact own leftKnown rightKnown
  rw [one, ← @operands_silent line]
  unfold binary typeOf
  by_cases left : lhs.typeIn context.variableType? = .unknown
  · simp [left, Ty.isUnknown]
  · by_cases right : rhs.typeIn context.variableType? = .unknown
    · simp [right, Ty.isUnknown]
    · simp [left, right, Ty.isUnknown]

theorem returning_silent {method : MethodContext} {value : Option (Located Expr)}
    (inside : context.method = some method) :
    context.returning (value.map Located.data) line = [] ↔
      ReturnOk method context.variableType? value := by
  unfold returning ReturnOk
  rw [inside]
  by_cases void : method.returnTy = .void
  · cases value <;> simp [void, errorAt_ne_nil]
  · cases value with
    | none => simp [beq_eq_false_iff_ne.mpr void, void, errorAt_ne_nil]
    | some returned =>
        simp only [Option.map_some, beq_eq_false_iff_ne.mpr void, returnedValue,
          silent_iff (warningAt_ne_nil _ _) (errorAt_ne_nil _ _)]
        simp [void, accepts_iff, typeOf, Ty.isUnknown]

theorem arguments_silent {name : String} {args : List (Located Expr)} (position : Nat)
    {params : List ParameterType} (arity : params.length = args.length) :
    context.arguments name line position params args = [] ↔
      List.Forall₂ (fun param arg => Accepts context.variableType? param.ty arg.data)
        params args := by
  induction params generalizing args position with
  | nil =>
      cases args with
      | nil => simp [arguments]
      | cons arg args => simp at arity
  | cons param params induction =>
      cases args with
      | nil => simp at arity
      | cons arg args =>
          rw [arguments, List.append_eq_nil_iff, List.forall₂_cons,
            induction (position + 1) (Nat.succ.inj arity), argument,
            silent_iff (warningAt_ne_nil _ _) (errorAt_ne_nil _ _), accepts_iff]
          simp [typeOf, Ty.isUnknown]

theorem call_silent {name : String} {args : List (Located Expr)} :
    context.call name args line = [] ↔
      CallOk context.signature? context.variableType? name args := by
  unfold call CallOk
  cases context.signature? name with
  | none => simp [warningAt_ne_nil]
  | some signature =>
      by_cases arity : signature.params.length = args.length
      · simp [arity, arguments_silent 1 arity]
      · have mismatch : ¬ List.Forall₂
            (fun param arg => Accepts context.variableType? param.ty arg.data)
            signature.params args := fun pairs => arity pairs.length_eq
        simp [arity, mismatch, errorAt_ne_nil]

end Context

end Sema
