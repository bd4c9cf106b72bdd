import Sema.Report.Terminal

/-!
The log of a check: errors and warnings in the order in which they were found, each with its line if
it has one. The report lists the errors before the warnings; the summary is one line. A cause is
worded by the instance of `Described` for its type.
-/

namespace Sema

class Described (Cause : Type) where
  describe : Cause → String

export Described (describe)

instance : Described String := ⟨id⟩

inductive Message (Failure Caution : Type) where
  | error (line : Option UInt64) (cause : Failure)
  | warning (line : Option UInt64) (cause : Caution)
  deriving DecidableEq, Repr

inductive Level where
  | error
  | warning
  deriving DecidableEq, Repr

namespace Level

def colour : Level → Colour
  | .error => .red
  | .warning => .yellow

def title : Level → String
  | .error => "TYPE ERRORS:"
  | .warning => "TYPE WARNINGS:"

end Level

namespace Message

variable {Failure Caution : Type}

def level : Message Failure Caution → Level
  | .error _ _ => .error
  | .warning _ _ => .warning

def line : Message Failure Caution → Option UInt64
  | .error line _ | .warning line _ => line

variable [Described Failure] [Described Caution]

def text : Message Failure Caution → String
  | .error _ cause => describe cause
  | .warning _ cause => describe cause

def display (message : Message Failure Caution) : String :=
  match message.line with
  | some line => "Line " ++ toString line.toNat ++ ": " ++ message.text
  | none => message.text

end Message

abbrev Log (Failure Caution : Type) := List (Message Failure Caution)

namespace Log

variable {Failure Caution : Type}

def atLevel (log : Log Failure Caution) (level : Level) : Log Failure Caution :=
  log.filter fun message => message.level == level

def errors (log : Log Failure Caution) : Log Failure Caution := log.atLevel .error

def warnings (log : Log Failure Caution) : Log Failure Caution := log.atLevel .warning

def hasErrors (log : Log Failure Caution) : Bool := !log.errors.isEmpty

variable [Described Failure] [Described Caution]

/-- The messages of one level under a heading. A level without messages has no part. -/
def levelPart (log : Log Failure Caution) (level : Level) : List Part :=
  match log.atLevel level with
  | [] => []
  | messages => [.listing level.colour level.title (messages.map Message.display)]

def report (log : Log Failure Caution) : List Part :=
  match log with
  | [] => [.notice .green "No type errors found!"]
  | log => levelPart log .error ++ levelPart log .warning

/-- How many errors a failed check has, in words. -/
def errorCount : Nat → String
  | 1 => "an error"
  | count => toString count ++ " errors"

def furtherWarnings : Nat → String
  | 0 => ""
  | 1 => " and a warning"
  | count => " and " ++ toString count ++ " warnings"

def warningCount : Nat → String
  | 0 => "without warnings"
  | 1 => "with a warning"
  | count => "with " ++ toString count ++ " warnings"

def summaryText (log : Log Failure Caution) : String :=
  if log.hasErrors then
    "Analysis failed with " ++ errorCount log.errors.length ++
      furtherWarnings log.warnings.length
  else "Analysis finished successfully " ++ warningCount log.warnings.length

def summaryColour (log : Log Failure Caution) : Colour :=
  if log.hasErrors then .red else .green

/-- The line that sums up a check, bold before it has its colour. -/
def summary (log : Log Failure Caution) : List Part :=
  [.styled [.style ⟨true, none⟩, .style ⟨true, some log.summaryColour⟩,
    .text (log.summaryText ++ "\n")]]

end Log

/-- The list of unused variables. -/
def unusedReport (entries : List String) : List Part :=
  match entries with
  | [] => [.notice .green "No unused variables!"]
  | entries => [.listing .yellow "UNUSED VARIABLES:" entries]

end Sema
