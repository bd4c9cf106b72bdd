import Sema.Json.Reader
import Sema.Tokens.Json
import Sema.Tree.Decode

/-!
The input of the command line: a record of a program and the tokens of its file. The tokens may be
missing, in an array too, but not `null`.
-/

namespace Sema.Cli

structure Document where
  program : Program
  tokens : List TokenEntry

namespace Document

open Json (required? list?)

def ofJson? (json : Json) : Option Document :=
  match json with
  | .array [program] => (Program.ofJson? program).map fun program => ⟨program, []⟩
  | json => do
      let [program, tokens] ← json.slots? ["program", "tokens"] | none
      let program ← required? Program.ofJson? program
      match tokens with
      | none => some ⟨program, []⟩
      | some tokens => some ⟨program, ← list? TokenEntry.ofJson? tokens⟩

def parse? (text : String) : Option Document := (Json.parse? text).bind ofJson?

end Document

end Sema.Cli
