import Sema.Json.Record
import Sema.Tokens.Basic

/-!
Tokens in JSON: a record of kind, lexeme, line and column.
-/

namespace Sema.TokenEntry

open Json (required? string? word?)

def toJson (token : TokenEntry) : Json :=
  Json.record [("kind", .text token.kind), ("lexeme", .text token.lexeme),
    ("line", .nat token.line.toNat), ("column", .nat token.column.toNat)]

def ofJson? (json : Json) : Option TokenEntry := do
  let [kind, lexeme, line, column] ← json.slots? ["kind", "lexeme", "line", "column"] | none
  some ⟨← required? string? kind, ← required? string? lexeme, ← required? word? line,
    ← required? word? column⟩

end Sema.TokenEntry
