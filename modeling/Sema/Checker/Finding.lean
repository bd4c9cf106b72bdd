import Sema.Report.Log
import Sema.Tree.Operator
import Sema.Types.Basic

/-!
What a check can find wrong, by cause, and the words for it. A warning tells of something that may
be right but could not be followed; a node that could not be analysed at all is one of these.
-/

namespace Sema

inductive Side where
  | left
  | right
  deriving DecidableEq, Repr

namespace Side

def display : Side → String
  | .left => "left"
  | .right => "right"

end Side

/-- The statements that have a condition. -/
inductive Construct where
  | ifElse
  | whileLoop
  | doWhileLoop
  | forLoop
  deriving DecidableEq, Repr

namespace Construct

def display : Construct → String
  | .ifElse => "if"
  | .whileLoop => "while"
  | .doWhileLoop => "do-while"
  | .forLoop => "for"

end Construct

/-- Why the analysis of a single node was given up. -/
inductive Obstacle where
  | nestingTooDeep (limit : Nat)
  | scopeUnderflow
  | missingLocals (method : String)
  deriving DecidableEq, Repr

inductive Violation where
  | undeclaredVariable (name : String)
  | assignmentMismatch (name : String) (source target : Ty)
  | initializerMismatch (name : String) (source target : Ty)
  | relationalOperands (op : BinaryOp) (lhs rhs : Ty)
  | logicalOperand (op : BinaryOp) (side : Side) (ty : Ty)
  | arithmeticOperand (op : BinaryOp) (side : Side) (ty : Ty)
  | conditionNotBoolean (construct : Construct) (ty : Ty)
  | returnOutsideMethod
  | voidReturnsValue (method : String)
  | missingReturnValue (method : String) (ty : Ty)
  | returnMismatch (method : String) (expected actual : Ty)
  | argumentCount (method : String) (expected actual : Nat)
  /-- Positions count from one. -/
  | argumentMismatch (position : Nat) (method : String) (expected actual : Ty)
  | duplicateMethod (name : String) (firstLine : UInt64)
  deriving DecidableEq, Repr

inductive Doubt where
  | untypedAssignment (name : String)
  | untypedCondition (construct : Construct)
  | untypedReturn
  | untypedArgument (position : Nat) (method : String)
  | methodNotFound (name : String)
  | unrelatedOperands (lhs rhs : Ty)
  | notAnalysed (reason : Obstacle)
  deriving DecidableEq, Repr

namespace Obstacle

def message : Obstacle → String
  | .nestingTooDeep limit => "nesting deeper than " ++ toString limit ++ " levels"
  | .scopeUnderflow => "cannot leave the global scope"
  | .missingLocals method =>
      "no local variable environment for method '" ++ method ++ "'"

end Obstacle

namespace Violation

def message : Violation → String
  | .undeclaredVariable name => "Variable '" ++ name ++ "' not declared"
  | .assignmentMismatch name source target =>
      "Type mismatch: cannot assign " ++ source.display ++ " to " ++ target.display ++
        " in variable '" ++ name ++ "'"
  | .initializerMismatch name source target =>
      "Type mismatch in initialization of '" ++ name ++ "': cannot assign " ++ source.display ++
        " to " ++ target.display
  | .relationalOperands op lhs rhs =>
      "Relational operator '" ++ op.symbol ++ "' requires numeric operands, got " ++ lhs.display ++
        " and " ++ rhs.display
  | .logicalOperand op side ty =>
      "Logical operator '" ++ op.symbol ++ "' requires boolean operands, " ++ side.display ++
        " operand is " ++ ty.display
  | .arithmeticOperand op side ty =>
      "Arithmetic operator '" ++ op.symbol ++ "' requires numeric operands, " ++ side.display ++
        " operand is " ++ ty.display
  | .conditionNotBoolean construct ty =>
      construct.display ++ " condition must be boolean, got " ++ ty.display
  | .returnOutsideMethod => "Return statement outside of method"
  | .voidReturnsValue method => "void method '" ++ method ++ "' cannot return a value"
  | .missingReturnValue method ty =>
      "Method '" ++ method ++ "' must return a value of type '" ++ ty.display ++ "'"
  | .returnMismatch method expected actual =>
      "Incompatible return type. Expected '" ++ expected.display ++ "' but got '" ++
        actual.display ++ "' in method '" ++ method ++ "'"
  | .argumentCount method expected actual =>
      "Method '" ++ method ++ "' expects " ++ toString expected ++ " argument(s) but got " ++
        toString actual
  | .argumentMismatch position method expected actual =>
      "Argument " ++ toString position ++ " of method '" ++ method ++ "': expected '" ++
        expected.display ++ "' but got '" ++ actual.display ++ "'"
  | .duplicateMethod name firstLine =>
      "Method '" ++ name ++ "' already declared at line " ++ toString firstLine.toNat

end Violation

namespace Doubt

def message : Doubt → String
  | .untypedAssignment name =>
      "Cannot determine type of expression in assignment to '" ++ name ++ "'"
  | .untypedCondition construct =>
      "Cannot determine type of " ++ construct.display ++ " condition"
  | .untypedReturn => "Cannot determine type of return expression"
  | .untypedArgument position method =>
      "Cannot determine type of argument " ++ toString position ++ " in call to '" ++ method ++ "'"
  | .methodNotFound name => "Method '" ++ name ++ "' not found or not yet declared"
  | .unrelatedOperands lhs rhs =>
      "Comparing incompatible types: " ++ lhs.display ++ " and " ++ rhs.display
  | .notAnalysed reason => "Error analyzing node: " ++ reason.message

end Doubt

instance : Described Violation := ⟨Violation.message⟩

instance : Described Doubt := ⟨Doubt.message⟩

/-- The log of a semantic check. -/
abbrev FindingLog := Log Violation Doubt

end Sema
