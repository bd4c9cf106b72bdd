import Sema.Checker.Session
import Sema.Cli.Argument

/-!
What a command line asks for: the file to check, and options before or after it. An option with a
value takes what is attached to it or else the next argument.
-/

namespace Sema.Cli

/-- What is asked for apart from the file. Without an output the report goes to standard output. -/
structure Settings where
  output : Option String := none
  options : Options := {}
  noFields : Bool := false
  unused : Bool := false
  tokens : Bool := false
  statistics : Bool := false
  deriving DecidableEq, Repr

structure Invocation where
  file : String
  settings : Settings
  deriving DecidableEq, Repr

/-- A count in decimal digits, with a plus sign in front or not, that fits in 64 bits. -/
def count? (text : String) : Option Nat :=
  let digits := match text.toList with
    | '+' :: rest => rest
    | all => all
  if digits.isEmpty || !digits.all Char.isDigit then none
  else
    let value := Nat.ofDigitChars 10 digits 0
    if value < UInt64.size then some value else none

namespace Settings

def withDepth? (settings : Settings) (value : String) : Option Settings :=
  (count? value).map fun depth =>
    { settings with options := { settings.options with maxNestingDepth := depth } }

def withOutput (settings : Settings) (path : String) : Settings :=
  { settings with output := some path }

/-- The settings with a flag raised. -/
def withFlag? (settings : Settings) (name : String) : Option Settings :=
  if name = "--unused" then some { settings with unused := true }
  else if name = "--tokens" then some { settings with tokens := true }
  else if name = "--statistics" then some { settings with statistics := true }
  else if name = "--no-fields" then some { settings with noFields := true }
  else if name = "--resolve-forward-calls" then
    some { settings with options := { settings.options with resolveForwardCalls := true } }
  else none

end Settings

/-- The options that have a value. -/
inductive Valued where
  | output
  | maxNestingDepth
  deriving DecidableEq, Repr

namespace Valued

def ofName? (name : String) : Option Valued :=
  if name = "-o" ∨ name = "--output" then some .output
  else if name = "--max-nesting-depth" then some .maxNestingDepth
  else none

def set? (option : Valued) (value : String) (settings : Settings) : Option Settings :=
  match option with
  | .output => some (settings.withOutput value)
  | .maxNestingDepth => settings.withDepth? value

/-- Without an output there is nothing to fall back on, but there is always a depth. -/
def hasDefault : Valued → Bool
  | .output => false
  | .maxNestingDepth => true

end Valued

/-- Reads the arguments after a part in which the given file and settings were found. A flag ignores
what is attached to it. An option that lacks its value leaves the settings as they are, but where no
other option follows it must have a default. -/
def readArguments? (file : Option String) (settings : Settings) :
    List Argument → Option Invocation
  | [] => file.map fun file => ⟨file, settings⟩
  | .file path :: rest => if file.isNone then readArguments? (some path) settings rest else none
  | .endOfOptions :: rest => readArguments? file settings rest
  | .option name attached :: rest =>
      match Valued.ofName? name with
      | none => (settings.withFlag? name).bind (readArguments? file · rest)
      | some option =>
          match attached with
          | some value => (option.set? value settings).bind (readArguments? file · rest)
          | none =>
              match rest with
              | .file value :: rest =>
                  (option.set? value settings).bind (readArguments? file · rest)
              | .option next attached :: rest =>
                  readArguments? file settings (.option next attached :: rest)
              | .endOfOptions :: rest =>
                  if option.hasDefault then readArguments? file settings rest else none
              | [] => if option.hasDefault then readArguments? file settings [] else none

namespace Invocation

def ofArguments? (arguments : List String) : Option Invocation :=
  readArguments? none {} (Argument.ofTexts arguments)

end Invocation

end Sema.Cli
