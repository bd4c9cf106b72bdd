import Sema.Proofs.Walk.Run

/-!
# What a check can report

Every check has its own kinds of messages. None of them tells of a redeclaration or of a node that
was not analysed, and only the check of a return, outside of a method, finds that it stands outside.
-/

namespace Sema

namespace Check

/-- The kinds of messages of a check. -/
def raises : Check → Message Violation Doubt → Bool
  | .assignment _ _, .error _ (.undeclaredVariable _) => true
  | .assignment _ _, .error _ (.assignmentMismatch _ _ _) => true
  | .assignment _ _, .warning _ (.untypedAssignment _) => true
  | .initializer _ _ _, .error _ (.initializerMismatch _ _ _) => true
  | .binary _ _ _, .error _ (.relationalOperands _ _ _) => true
  | .binary _ _ _, .error _ (.logicalOperand _ _ _) => true
  | .binary _ _ _, .error _ (.arithmeticOperand _ _ _) => true
  | .binary _ _ _, .warning _ (.unrelatedOperands _ _) => true
  | .condition _ _, .error _ (.conditionNotBoolean _ _) => true
  | .condition _ _, .warning _ (.untypedCondition _) => true
  | .returning _, .error _ .returnOutsideMethod => true
  | .returning _, .error _ (.voidReturnsValue _) => true
  | .returning _, .error _ (.missingReturnValue _ _) => true
  | .returning _, .error _ (.returnMismatch _ _ _) => true
  | .returning _, .warning _ .untypedReturn => true
  | .call _ _, .error _ (.argumentCount _ _ _) => true
  | .call _ _, .error _ (.argumentMismatch _ _ _ _) => true
  | .call _ _, .warning _ (.untypedArgument _ _) => true
  | .call _ _, .warning _ (.methodNotFound _) => true
  | _, _ => false

end Check

namespace Message

/-- A node was not analysed. -/
def gaveUp : Message Violation Doubt → Bool
  | .warning _ (.notAnalysed _) => true
  | _ => false

def returnsOutside : Message Violation Doubt → Bool
  | .error _ .returnOutsideMethod => true
  | _ => false

def redeclares : Message Violation Doubt → Bool
  | .error _ (.duplicateMethod _ _) => true
  | _ => false

def unresolved : Message Violation Doubt → Bool
  | .warning _ (.methodNotFound _) => true
  | _ => false

end Message

/-! ### Logs of one kind -/

def Only (keep : Message Violation Doubt → Bool) (log : FindingLog) : Prop :=
  ∀ message ∈ log, keep message = true

section Only

variable {keep : Message Violation Doubt → Bool}

theorem only_nil : Only keep [] := by simp [Only]

theorem only_one {message : Message Violation Doubt} (kept : keep message = true) :
    Only keep [message] := by simpa [Only] using kept

theorem Only.append {front rest : FindingLog} (first : Only keep front)
    (second : Only keep rest) : Only keep (front ++ rest) :=
  List.forall_mem_append.mpr ⟨first, second⟩

theorem Only.weaken {other : Message Violation Doubt → Bool} {log : FindingLog}
    (only : Only keep log) (implies : ∀ message, keep message = true → other message = true) :
    Only other log := fun message member => implies message (only message member)

/-- A log of one kind has no message of another. -/
theorem Only.filter_eq_nil {other : Message Violation Doubt → Bool} {log : FindingLog}
    (only : Only keep log) (apart : ∀ message, keep message = true → other message = false) :
    log.filter other = [] := by
  rw [List.filter_eq_nil_iff]
  intro message member
  simp [apart message (only message member)]

/-- The shape of the rules that look at one type: a warning if it is not known, an error if it does
not fit. -/
theorem only_known {unknown fits : Bool} {warning failure : FindingLog}
    (warns : Only keep warning) (fails : Only keep failure) :
    Only keep (if unknown then warning else if fits then [] else failure) := by
  cases unknown <;> cases fits <;> simp [only_nil, warns, fails]

end Only

/-! ### Rules -/

namespace Rule

theorem operands_raised (op : BinaryOp) (lhs rhs : Expr) (left right : Ty) (line : UInt64) :
    Only (Check.binary op lhs rhs).raises (operands op left right line) := by
  have logical : ∀ side ty, Only (Check.binary op lhs rhs).raises
      (logicalOperand op side ty line) := by
    intro side ty
    unfold logicalOperand
    split
    · exact only_nil
    · exact only_one rfl
  have arithmetic : ∀ side ty, Only (Check.binary op lhs rhs).raises
      (arithmeticOperand op side ty line) := by
    intro side ty
    unfold arithmeticOperand
    split
    · exact only_nil
    · exact only_one rfl
  unfold operands
  cases op.family with
  | relational | equality =>
      dsimp only
      split
      · exact only_nil
      · exact only_one rfl
  | logical => exact (logical .left left).append (logical .right right)
  | arithmetic => exact (arithmetic .left left).append (arithmetic .right right)
  | bitwise => exact only_nil

end Rule

namespace Context

variable (context : Context) (line : UInt64)

theorem assignment_raised (target : String) (value : Expr) :
    Only (Check.assignment target value).raises (context.assignment target value line) := by
  unfold assignment
  cases context.variableType? target with
  | none => exact only_one rfl
  | some ty => exact only_known (only_one rfl) (only_one rfl)

theorem initializer_raised (name : String) (target : Ty) (value : Expr) :
    Only (Check.initializer name target value).raises
      (context.initializer name target value line) := by
  unfold initializer
  dsimp only
  split
  · exact only_nil
  · exact only_one rfl

theorem binary_raised (op : BinaryOp) (lhs rhs : Expr) :
    Only (Check.binary op lhs rhs).raises (context.binary op lhs rhs line) := by
  unfold binary
  dsimp only
  split
  · exact only_nil
  · exact Rule.operands_raised op lhs rhs _ _ line

theorem condition_raised (cond : Expr) (construct : Construct) :
    Only (Check.condition cond construct).raises (context.condition cond construct line) :=
  only_known (only_one rfl) (only_one rfl)

/-- A return inside of a method does not find itself outside. -/
theorem returning_inside {method : MethodContext} (inside : context.method = some method)
    (value : Option Expr) :
    Only (fun message => (Check.returning value).raises message && !message.returnsOutside)
      (context.returning value line) := by
  unfold returning
  rw [inside]
  dsimp only
  split
  · exact only_one rfl
  · exact only_nil
  · exact only_one rfl
  · exact only_known (only_one rfl) (only_one rfl)

theorem returning_raised (value : Option Expr) :
    Only (Check.returning value).raises (context.returning value line) := by
  cases method : context.method with
  | none =>
      unfold returning
      rw [method]
      exact only_one rfl
  | some inside =>
      apply (context.returning_inside line method value).weaken
      intro message kept
      exact (Bool.and_eq_true_iff.mp kept).1

/-- Messages about single arguments. -/
theorem only_arguments {keep : Message Violation Doubt → Bool} {name : String}
    (untyped : ∀ position, keep (.warning (some line) (.untypedArgument position name)) = true)
    (mismatch : ∀ position expected actual,
      keep (.error (some line) (.argumentMismatch position name expected actual)) = true)
    (position : Nat) (params : List ParameterType) (args : List (Located Expr)) :
    Only keep (context.arguments name line position params args) := by
  induction params generalizing position args with
  | nil => exact only_nil
  | cons param params induction =>
      cases args with
      | nil => exact only_nil
      | cons arg args =>
          have first : Only keep (context.argument name position param arg.data line) :=
            only_known (only_one (untyped position)) (only_one (mismatch position _ _))
          exact first.append (induction (position + 1) args)

/-- The call of a method with a signature finds the method. -/
theorem call_resolved {name : String} {signature : Signature}
    (found : context.signature? name = some signature) (args : List (Located Expr)) :
    Only (fun message => (Check.call name args).raises message && !message.unresolved)
      (context.call name args line) := by
  unfold call
  rw [found]
  dsimp only
  split
  · exact context.only_arguments line (fun _ => rfl) (fun _ _ _ => rfl) 1 signature.params args
  · exact only_one rfl

theorem call_raised (name : String) (args : List (Located Expr)) :
    Only (Check.call name args).raises (context.call name args line) := by
  cases found : context.signature? name with
  | none =>
      unfold call
      rw [found]
      exact only_one rfl
  | some signature =>
      apply (context.call_resolved line found args).weaken
      intro message kept
      exact (Bool.and_eq_true_iff.mp kept).1

theorem findings_raised (check : Check) : Only check.raises (context.findings line check) := by
  cases check with
  | assignment target value => exact context.assignment_raised line target value
  | initializer name target value => exact context.initializer_raised line name target value
  | binary op lhs rhs => exact context.binary_raised line op lhs rhs
  | condition cond construct => exact context.condition_raised line cond construct
  | returning value => exact context.returning_raised line value
  | call name args => exact context.call_raised line name args

end Context

/-! ### Kinds that no check reports -/

theorem Check.raises_not_gaveUp {check : Check} {message : Message Violation Doubt}
    (raised : check.raises message = true) : message.gaveUp = false := by
  cases message with
  | error line cause => rfl
  | warning line doubt =>
      cases doubt with
      | notAnalysed reason => cases check <;> cases raised
      | _ => rfl

theorem Check.raises_not_redeclares {check : Check} {message : Message Violation Doubt}
    (raised : check.raises message = true) : message.redeclares = false := by
  cases message with
  | warning line doubt => rfl
  | error line cause =>
      cases cause with
      | duplicateMethod name first => cases check <;> cases raised
      | _ => rfl

theorem Check.raises_unresolved {check : Check} {message : Message Violation Doubt}
    (raised : check.raises message = true) (unresolved : message.unresolved = true) :
    ∃ name args, check = .call name args := by
  cases message with
  | error line cause => cases unresolved
  | warning line doubt =>
      cases doubt with
      | methodNotFound name =>
          cases check with
          | call name args => exact ⟨name, args, rfl⟩
          | _ => cases raised
      | _ => cases unresolved

theorem Check.raises_returnsOutside {check : Check} {message : Message Violation Doubt}
    (raised : check.raises message = true) (outside : message.returnsOutside = true) :
    ∃ value, check = .returning value := by
  cases message with
  | warning line doubt => cases outside
  | error line cause =>
      cases cause with
      | returnOutsideMethod =>
          cases check with
          | returning value => exact ⟨value, rfl⟩
          | _ => cases raised
      | _ => cases outside

/-- Inside of a method no check reports a return outside of one. -/
theorem Context.findings_inside {context : Context} {method : MethodContext}
    (inside : context.method = some method) (line : UInt64) (check : Check) :
    Only (fun message => !message.returnsOutside) (context.findings line check) := by
  intro message member
  have raised := context.findings_raised line check message member
  cases outside : message.returnsOutside with
  | false => simp [outside]
  | true =>
      obtain ⟨value, rfl⟩ := Check.raises_returnsOutside raised outside
      have kept := context.returning_inside line inside value message member
      simp [outside] at kept

end Sema
