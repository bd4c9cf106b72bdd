import Sema.Proofs.Walk.Findings

/-!
# Unknown types in errors

An error shows types of two kinds: those that expressions were found to have, and those that were
declared and are asked for. No error shows that an expression has an unknown type. What is asked for
is not looked at in this way: an error shows the unknown type if and only if that type was declared
by its name and something known is held against it, or a result of it is missing.
-/

namespace Sema

namespace Violation

/-- The types of expressions that a message shows. -/
@[simp] def found : Violation → List Ty
  | .assignmentMismatch _ source _ | .initializerMismatch _ source _ => [source]
  | .relationalOperands _ lhs rhs => [lhs, rhs]
  | .logicalOperand _ _ ty | .arithmeticOperand _ _ ty | .conditionNotBoolean _ ty => [ty]
  | .returnMismatch _ _ actual | .argumentMismatch _ _ _ actual => [actual]
  | .undeclaredVariable _ | .returnOutsideMethod | .voidReturnsValue _ | .missingReturnValue _ _
  | .argumentCount _ _ _ | .duplicateMethod _ _ => []

/-- The declared types that a message shows. -/
@[simp] def asked : Violation → List Ty
  | .assignmentMismatch _ _ target | .initializerMismatch _ _ target => [target]
  | .missingReturnValue _ ty => [ty]
  | .returnMismatch _ expected _ | .argumentMismatch _ _ expected _ => [expected]
  | .undeclaredVariable _ | .relationalOperands _ _ _ | .logicalOperand _ _ _
  | .arithmeticOperand _ _ _ | .conditionNotBoolean _ _ | .returnOutsideMethod
  | .voidReturnsValue _ | .argumentCount _ _ _ | .duplicateMethod _ _ => []

def types (cause : Violation) : List Ty := cause.found ++ cause.asked

end Violation

/-- All errors show known types of expressions, and ask for allowed types only. -/
def Justified (allowed : Ty → Prop) (log : FindingLog) : Prop :=
  ∀ line cause, .error line cause ∈ log →
    .unknown ∉ cause.found ∧ ∀ type ∈ cause.asked, allowed type

/-- Some error shows the type. -/
def Carries (type : Ty) (log : FindingLog) : Prop :=
  ∃ line cause, .error line cause ∈ log ∧ type ∈ cause.types

section Justified

variable {allowed : Ty → Prop}

theorem justified_nil : Justified allowed [] := by simp [Justified]

theorem justified_warning (line : Option UInt64) (doubt : Doubt) :
    Justified allowed [.warning line doubt] := by simp [Justified]

theorem justified_error {line : UInt64} {cause : Violation} (known : .unknown ∉ cause.found)
    (asked : ∀ type ∈ cause.asked, allowed type) : Justified allowed (errorAt line cause) := by
  intro place other member
  obtain ⟨-, rfl⟩ := Message.error.inj (List.mem_singleton.mp member)
  exact ⟨known, asked⟩

theorem Justified.append {front rest : FindingLog} (first : Justified allowed front)
    (second : Justified allowed rest) : Justified allowed (front ++ rest) := by
  intro line cause member
  rcases List.mem_append.mp member with inFront | inRest
  · exact first line cause inFront
  · exact second line cause inRest

theorem Justified.weaken {other : Ty → Prop} {log : FindingLog} (justified : Justified allowed log)
    (implies : ∀ type, allowed type → other type) : Justified other log := by
  intro line cause member
  obtain ⟨known, asked⟩ := justified line cause member
  exact ⟨known, fun type shown => implies type (asked type shown)⟩

theorem justified_unless {fits : Bool} {failure : FindingLog}
    (fails : Justified allowed failure) : Justified allowed (if fits then [] else failure) := by
  cases fits with
  | true => exact justified_nil
  | false => exact fails

/-- The shape of the rules that look at one type: only a known type makes an error. -/
theorem justified_known {source : Ty} {fits : Bool} {warning failure : FindingLog}
    (warns : Justified allowed warning) (fails : .unknown ≠ source → Justified allowed failure) :
    Justified allowed (if source.isUnknown then warning else if fits then [] else failure) := by
  by_cases unknown : source = .unknown
  · simpa [unknown, Ty.isUnknown] using warns
  · simpa [unknown, Ty.isUnknown] using justified_unless (fails (Ne.symm unknown))

end Justified

/-! ### What the rules ask for -/

namespace Context

/-- The declared types against which a check holds what it finds. -/
def Asks (context : Context) (type : Ty) : Check → Prop
  | .assignment name _ => context.variableType? name = some type
  | .initializer _ target _ => target = type
  | .returning _ => ∃ method, context.method = some method ∧ method.returnTy = type
  | .call name _ => ∃ signature, context.signature? name = some signature ∧
      ∃ param ∈ signature.params, param.ty = type
  | .binary _ _ _ | .condition _ _ => False

variable (context : Context) (line : UInt64) {allowed : Ty → Prop}

theorem assignment_justified {name : String}
    (asks : ∀ type, context.variableType? name = some type → allowed type) (value : Expr) :
    Justified allowed (context.assignment name value line) := by
  unfold assignment
  cases found : context.variableType? name with
  | none => exact justified_error (by simp) (by simp)
  | some target =>
      apply justified_known (justified_warning _ _)
      intro known
      exact justified_error (by simpa using known)
        (by simpa using asks target found)

theorem initializer_justified (name : String) {target : Ty} (asks : allowed target)
    (value : Expr) : Justified allowed (context.initializer name target value line) := by
  unfold initializer
  dsimp only
  split
  · exact justified_nil
  · rename_i known
    simp only [Bool.or_eq_true, not_or, Ty.isUnknown, beq_iff_eq] at known
    exact justified_error (by simpa using Ne.symm known.1)
      (by simpa using asks)

theorem operands_justified (op : BinaryOp) {left right : Ty} (leftKnown : .unknown ≠ left)
    (rightKnown : .unknown ≠ right) : Justified allowed (Rule.operands op left right line) := by
  have logical : ∀ side ty, .unknown ≠ ty → Justified allowed
      (Rule.logicalOperand op side ty line) := fun side ty known =>
    justified_unless (justified_error (by simpa using known) (by simp))
  have arithmetic : ∀ side ty, .unknown ≠ ty → Justified allowed
      (Rule.arithmeticOperand op side ty line) := fun side ty known =>
    justified_unless (justified_error (by simpa using known) (by simp))
  unfold Rule.operands
  cases op.family with
  | relational =>
      exact justified_unless (justified_error (by simp [leftKnown, rightKnown]) (by simp))
  | equality => exact justified_unless (justified_warning _ _)
  | logical => exact (logical .left left leftKnown).append (logical .right right rightKnown)
  | arithmetic =>
      exact (arithmetic .left left leftKnown).append (arithmetic .right right rightKnown)
  | bitwise => exact justified_nil

theorem binary_justified (op : BinaryOp) (lhs rhs : Expr) :
    Justified allowed (context.binary op lhs rhs line) := by
  unfold binary
  dsimp only
  split
  · exact justified_nil
  · rename_i known
    simp only [Bool.or_eq_true, not_or, Ty.isUnknown, beq_iff_eq] at known
    exact operands_justified line op (Ne.symm known.1) (Ne.symm known.2)

theorem condition_justified (cond : Expr) (construct : Construct) :
    Justified allowed (context.condition cond construct line) := by
  apply justified_known (justified_warning _ _)
  intro known
  exact justified_error (by simpa using known) (by simp)

theorem returning_justified
    (asks : ∀ method, context.method = some method → allowed method.returnTy)
    (value : Option Expr) : Justified allowed (context.returning value line) := by
  unfold returning
  cases inside : context.method with
  | none => exact justified_error (by simp) (by simp)
  | some method =>
      have result := asks method inside
      dsimp only
      split
      · exact justified_error (by simp) (by simp)
      · exact justified_nil
      · exact justified_error (by simp) (by simpa using result)
      · apply justified_known (justified_warning _ _)
        intro known
        exact justified_error (by simpa using known)
          (by simpa using result)

theorem arguments_justified (name : String) (position : Nat) {params : List ParameterType}
    (asks : ∀ param ∈ params, allowed param.ty) (args : List (Located Expr)) :
    Justified allowed (context.arguments name line position params args) := by
  induction params generalizing position args with
  | nil => exact justified_nil
  | cons param params induction =>
      cases args with
      | nil => exact justified_nil
      | cons arg args =>
          obtain ⟨own, later⟩ := List.forall_mem_cons.mp asks
          refine Justified.append ?_ (induction (position + 1) later args)
          apply justified_known (justified_warning _ _)
          intro known
          exact justified_error (by simpa using known)
            (by simpa using own)

theorem call_justified {name : String}
    (asks : ∀ signature, context.signature? name = some signature →
      ∀ param ∈ signature.params, allowed param.ty)
    (args : List (Located Expr)) : Justified allowed (context.call name args line) := by
  unfold call
  cases found : context.signature? name with
  | none => exact justified_warning _ _
  | some signature =>
      dsimp only
      split
      · exact context.arguments_justified line name 1 (asks signature found) args
      · exact justified_error (by simp) (by simp)

theorem findings_justified (check : Check) :
    Justified (fun type => context.Asks type check) (context.findings line check) := by
  cases check with
  | assignment name value => exact context.assignment_justified line (fun _ found => found) value
  | initializer name target value => exact context.initializer_justified line name rfl value
  | binary op lhs rhs => exact context.binary_justified line op lhs rhs
  | condition cond construct => exact context.condition_justified line cond construct
  | returning value =>
      exact context.returning_justified line (fun method inside => ⟨method, inside, rfl⟩) value
  | call name args =>
      exact context.call_justified line
        (fun signature found param member => ⟨signature, found, param, member, rfl⟩) args

/-! ### Errors that show the unknown type -/

/-- A declaration asks for the unknown type, and something known is held against it or nothing is
there. -/
def MeetsUnknown (context : Context) : Check → Prop
  | .assignment name value =>
      context.variableType? name = some .unknown ∧ context.typeOf value ≠ .unknown
  | .initializer _ target value => target = .unknown ∧ context.typeOf value ≠ .unknown
  | .returning value => ∃ method, context.method = some method ∧ method.returnTy = .unknown ∧
      ∀ expr ∈ value, context.typeOf expr ≠ .unknown
  | .call name args => ∃ signature, context.signature? name = some signature ∧
      signature.params.length = args.length ∧
      ∃ pair ∈ signature.params.zip args,
        pair.1.ty = .unknown ∧ context.typeOf pair.2.data ≠ .unknown
  | .binary _ _ _ | .condition _ _ => False

end Context

section Carries

variable {type : Ty}

@[simp] theorem not_carries_nil : ¬ Carries type [] := by simp [Carries]

@[simp] theorem not_carries_warning (line : UInt64) (doubt : Doubt) :
    ¬ Carries type (warningAt line doubt) := by simp [Carries, warningAt]

@[simp] theorem carries_error (line : UInt64) (cause : Violation) :
    Carries type (errorAt line cause) ↔ type ∈ cause.types := by
  simp [Carries, errorAt]

@[simp] theorem carries_append {front rest : FindingLog} :
    Carries type (front ++ rest) ↔ Carries type front ∨ Carries type rest := by
  simp only [Carries, List.mem_append, or_and_right, exists_or]

theorem assignable_unknown {source : Ty} : source.assignable .unknown = true ↔ source = .unknown := by
  cases source <;> simp [Ty.assignable]

/-- A value against a declared type: an unknown one is not held against any, and a known one fits no
unknown type. -/
theorem value_carries {source target : Ty} {line : UInt64} {silent : FindingLog}
    {cause : Violation} (quiet : ¬ Carries .unknown silent)
    (shown : cause.types = [source, target]) :
    Carries .unknown (if source.isUnknown then silent
      else if source.assignable target then [] else errorAt line cause) ↔
        target = .unknown ∧ source ≠ .unknown := by
  by_cases unknown : source = .unknown
  · simp [unknown, quiet, Ty.isUnknown]
  · by_cases fits : source.assignable target = true
    · have known : target ≠ .unknown := by
        rintro rfl
        exact unknown (assignable_unknown.mp fits)
      simp [unknown, fits, known, Ty.isUnknown]
    · simp [unknown, Ne.symm unknown, fits, shown, Ty.isUnknown, @eq_comm _ Ty.unknown target]

/-- What shows known expressions only and does not ask for the unknown type does not show it. -/
theorem Justified.not_carries {allowed : Ty → Prop} {log : FindingLog}
    (justified : Justified allowed log) (apart : ¬ allowed .unknown) : ¬ Carries .unknown log := by
  rintro ⟨line, cause, member, shown⟩
  obtain ⟨known, asked⟩ := justified line cause member
  rcases List.mem_append.mp shown with found | declared
  · exact known found
  · exact apart (asked .unknown declared)

end Carries

namespace Context

variable (context : Context) (line : UInt64)

theorem arguments_carry (name : String) (position : Nat) (params : List ParameterType)
    (args : List (Located Expr)) :
    Carries .unknown (context.arguments name line position params args) ↔
      ∃ pair ∈ params.zip args, pair.1.ty = .unknown ∧ context.typeOf pair.2.data ≠ .unknown := by
  induction params generalizing position args with
  | nil => simp [arguments]
  | cons param params induction =>
      cases args with
      | nil => simp [arguments]
      | cons arg args =>
          rw [arguments, carries_append, induction, List.zip_cons_cons, List.exists_mem_cons_iff]
          exact or_congr_left (value_carries (not_carries_warning _ _) rfl)

theorem assignment_carries (name : String) (value : Expr) :
    Carries .unknown (context.assignment name value line) ↔
      context.variableType? name = some .unknown ∧ context.typeOf value ≠ .unknown := by
  unfold assignment
  cases context.variableType? name with
  | none => simp [Violation.types]
  | some target =>
      rw [Option.some.injEq]
      exact value_carries (not_carries_warning _ _) rfl

theorem initializer_carries (name : String) (target : Ty) (value : Expr) :
    Carries .unknown (context.initializer name target value line) ↔
      target = .unknown ∧ context.typeOf value ≠ .unknown := by
  have split : context.initializer name target value line =
      if (context.typeOf value).isUnknown then []
      else if (context.typeOf value).assignable target then []
      else errorAt line (.initializerMismatch name (context.typeOf value) target) := by
    unfold initializer
    dsimp only
    cases (context.typeOf value).isUnknown <;> simp
  rw [split]
  exact value_carries not_carries_nil rfl

theorem returning_carries (value : Option Expr) :
    Carries .unknown (context.returning value line) ↔
      ∃ method, context.method = some method ∧ method.returnTy = .unknown ∧
        ∀ expr ∈ value, context.typeOf expr ≠ .unknown := by
  unfold returning
  cases context.method with
  | none => simp [Violation.types]
  | some method =>
      simp only [Option.some.injEq, exists_eq_left']
      by_cases void : method.returnTy = .void
      · cases value <;> simp [void, Violation.types]
      · have other : (method.returnTy == .void) = false := beq_eq_false_iff_ne.mpr void
        cases value with
        | none => simp [other, Violation.types, @eq_comm _ Ty.unknown method.returnTy]
        | some value =>
            have meets : Carries .unknown (context.returnedValue method value line) ↔ _ :=
              value_carries (not_carries_warning _ _) rfl
            simp [other, meets]

theorem call_carries (name : String) (args : List (Located Expr)) :
    Carries .unknown (context.call name args line) ↔
      ∃ signature, context.signature? name = some signature ∧
        signature.params.length = args.length ∧ ∃ pair ∈ signature.params.zip args,
          pair.1.ty = .unknown ∧ context.typeOf pair.2.data ≠ .unknown := by
  unfold call
  cases context.signature? name with
  | none => simp
  | some signature =>
      simp only [Option.some.injEq, exists_eq_left']
      by_cases count : signature.params.length = args.length
      · rw [if_pos count, arguments_carry, and_iff_right count]
      · simp [count, Violation.types]

/-- An error shows the unknown type exactly where a check meets it as a declared type. -/
theorem carries_unknown_iff (check : Check) :
    Carries .unknown (context.findings line check) ↔ context.MeetsUnknown check := by
  cases check with
  | assignment name value => exact context.assignment_carries line name value
  | initializer name target value => exact context.initializer_carries line name target value
  | binary op lhs rhs =>
      exact iff_of_false
        ((context.findings_justified line (.binary op lhs rhs)).not_carries id) id
  | condition cond construct =>
      exact iff_of_false
        ((context.findings_justified line (.condition cond construct)).not_carries id) id
  | returning value => exact context.returning_carries line value
  | call name args => exact context.call_carries line name args

end Context

end Sema
