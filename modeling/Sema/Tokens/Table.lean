import Sema.Text.Blank
import Sema.Text.Pad
import Sema.Tokens.Basic

/-!
The table of a file's tokens: a title, a header, a rule, one row per token in order, and the rule
again. The bars of a row stand under the crosses of the rule unless a cell is too wide.
-/

namespace Sema

namespace TokenTable

def title : String := "========== SYMBOL TABLE =========="

def rule : String := "------+---------------------+------------------------+------+--------"

/-- A row of five cells: number, kind and lexeme at the left, line and column at the right. -/
def row (number kind lexeme line column : String) : String :=
  " " ++ Text.padRight 4 number ++ " | " ++ Text.padRight 19 kind ++ " | " ++
    Text.padRight 22 lexeme ++ " | " ++ Text.padLeft 4 line ++ " | " ++ Text.padLeft 6 column

def header : String := row "#" "KIND" "LEXEME" "LINE" "COLUMN"

/-- A lexeme that spans lines is shown on one. -/
def tokenRow (number : Nat) (token : TokenEntry) : String :=
  row (toString number) token.kind (Text.collapse token.lexeme) (toString token.line.toNat)
    (toString token.column.toNat)

/-- The rows of tokens, numbered from the given number on. -/
def rowsFrom (number : Nat) : List TokenEntry → List String
  | [] => []
  | token :: rest => tokenRow number token :: rowsFrom (number + 1) rest

def lines (tokens : List TokenEntry) : List String :=
  title :: header :: rule :: (rowsFrom 1 tokens ++ [rule])

/-- The table's lines with a line feed between neighbours. -/
def render (tokens : List TokenEntry) : String := "\n".intercalate (lines tokens)

end TokenTable

end Sema
