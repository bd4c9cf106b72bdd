import Sema.Checker.Analysis
import Sema.Cli.Directory
import Sema.Cli.Document
import Sema.Cli.Invocation
import Sema.Symbols.Fields
import Sema.Text.Quoted
import Sema.Tokens.Table

/-!
One run of the command line. The input is read, decoded and checked; then the report is written,
followed by the unused variables, the tokens and the summary as far as they are asked for. The run
fails if the check finds an error or if the input or the output cannot be used.
-/

namespace Sema.Cli

inductive Failure where
  | cannotOpen (file : String) (cause : FileError)
  | cannotDecode (file : String)
  | cannotWrite (file : String) (cause : FileError)
  deriving DecidableEq, Repr

namespace Failure

/-- The lines that tell of a failure: what failed, and why if that is known. -/
def lines : Failure → List String
  | .cannotOpen file cause =>
      ["error: cannot open input file " ++ Text.quoted file, "caused by: " ++ cause.message]
  | .cannotDecode file => ["error: cannot decode syntax tree in " ++ Text.quoted file]
  | .cannotWrite file cause =>
      ["error: cannot write report to File(" ++ Text.quoted file ++ ")",
        "caused by: " ++ cause.message]

def text (failure : Failure) : String := String.join (failure.lines.map fun line => line ++ "\n")

end Failure

namespace Settings

/-- The symbol table that a check starts with. -/
def symbols (settings : Settings) (document : Document) : Symbols :=
  let fields :=
    if settings.noFields then Symbols.empty else Symbols.empty.declareFields document.program
  document.tokens.foldl Symbols.addToken fields

def check (settings : Settings) (document : Document) : Session :=
  (Session.start (settings.symbols document) settings.options).analyse document.program

def unusedPart (settings : Settings) (session : Session) : List Part :=
  if settings.unused then unusedReport session.symbols.unused else []

def tokenPart (settings : Settings) (session : Session) : List Part :=
  if settings.tokens && !session.symbols.tokens.isEmpty then
    [.bare (TokenTable.render session.symbols.tokens ++ "\n")]
  else []

def summaryPart (settings : Settings) (session : Session) : List Part :=
  if settings.statistics then session.log.summary else []

def report (settings : Settings) (session : Session) : List Part :=
  session.log.report ++ settings.unusedPart session ++ settings.tokenPart session ++
    settings.summaryPart session

end Settings

namespace Invocation

/-- The check of the document that the input holds. -/
def examine (invocation : Invocation) (content : Except FileError ByteArray) :
    Except Failure Session :=
  match content with
  | .error cause => .error (.cannotOpen invocation.file cause)
  | .ok bytes =>
      match String.fromUTF8? bytes with
      | none => .error (.cannotOpen invocation.file .notText)
      | some text =>
          match Document.parse? text with
          | none => .error (.cannotDecode invocation.file)
          | some document => .ok (invocation.settings.check document)

end Invocation

/-- What a run leaves behind. The output is kept as events, since only its receiver knows whether
it shows styles. -/
structure Result where
  exitCode : Nat
  output : List Event
  errorText : String
  directory : Directory

namespace Result

def ofFailure (failure : Failure) (directory : Directory) : Result :=
  ⟨1, [], failure.text, directory⟩

end Result

def exitCode (session : Session) : Nat := if session.log.hasErrors then 1 else 0

/-- Sends the report where it is asked for. Styles are kept only if no output is named. -/
def deliver (settings : Settings) (session : Session) (directory : Directory) : Result :=
  let events := (Terminal.unlimited.sendParts (settings.report session)).2.received
  match settings.output with
  | none => ⟨exitCode session, events, "", directory⟩
  | some path =>
      let plain := Event.render false events
      match directory.destination path with
      | .error cause => .ofFailure (.cannotWrite path cause) directory
      | .ok destination =>
          { exitCode := exitCode session
            output := if destination = .standardOutput then [.text plain] else []
            errorText := if destination = .standardError then plain else ""
            directory := directory.receive plain.toUTF8 destination }

def run (invocation : Invocation) (directory : Directory) : Result :=
  match invocation.examine (directory.read invocation.file) with
  | .error failure => .ofFailure failure directory
  | .ok session => deliver invocation.settings session directory

end Sema.Cli
