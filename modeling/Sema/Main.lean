import Sema.Cli.Run

/-!
The command itself: it reads the input from disk, prints or stores the report, and exits with the
run's code. What is printed shows styles if the terminal has them.
-/

namespace Sema.Cli

def usage : String :=
  "usage: sema [--resolve-forward-calls] [--max-nesting-depth N] [--no-fields] [--unused] " ++
    "[--tokens] [--statistics] [-o PATH] FILE"

namespace FileError

/-- The error of a system code, which some calls give with the opposite sign. -/
def ofCode (code : UInt32) (detail : String) : FileError :=
  let codes := [(6, noDevice), (20, notDirectory), (21, isDirectory), (28, noSpace),
    (36, nameTooLong)]
  (codes.lookup (min code (-code))).getD (.other detail)

def ofError (error : IO.Error) : FileError :=
  match error with
  | .noFileOrDirectory _ _ _ => .notFound
  | .inappropriateType _ code detail => ofCode code detail
  | .invalidArgument _ code detail => ofCode code detail
  | .noSuchThing _ code detail => ofCode code detail
  | .resourceExhausted _ code detail => ofCode code detail
  | _ => .other (toString error)

end FileError

def attempt {Value : Type} (action : IO Value) : IO (Except FileError Value) := do
  try return .ok (← action)
  catch error => return .error (.ofError error)

/-- Writes a file to its end, so that a device without room is noticed. -/
def replaceContent (path content : String) : IO Unit :=
  IO.FS.withFile path .write fun file => do
    file.putStr content
    file.flush

def showsStyles : IO Bool := do
  let refused := (← IO.getEnv "NO_COLOR").isSome
  match ← IO.getEnv "TERM" with
  | none => return false
  | some terminal => return !refused && terminal != "dumb"

def fail (failure : Failure) : IO UInt32 := do
  IO.eprint failure.text
  return 1

def finish (settings : Settings) (session : Session) : IO UInt32 := do
  let parts := settings.report session
  let code := UInt32.ofNat (exitCode session)
  match settings.output with
  | none =>
      IO.print (renderParts (← showsStyles) parts)
      return code
  | some path =>
      match ← attempt (replaceContent path (renderParts false parts)) with
      | .error cause => fail (.cannotWrite path cause)
      | .ok _ => return code

def perform (arguments : List String) : IO UInt32 := do
  match Invocation.ofArguments? arguments with
  | none =>
      IO.eprintln usage
      return 1
  | some invocation =>
      match invocation.examine (← attempt (IO.FS.readBinFile invocation.file)) with
      | .error failure => fail failure
      | .ok session => finish invocation.settings session

end Sema.Cli

def main (arguments : List String) : IO UInt32 := Sema.Cli.perform arguments
