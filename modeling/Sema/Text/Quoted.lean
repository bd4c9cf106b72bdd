import Sema.Text.Unseen

/-!
A name in double quotes, as messages show it. Quotes, backslashes and the usual controls have short
escapes, and what cannot be seen is shown by its code point, so the whole name stays on one line.
-/

namespace Sema.Text

/-- A code point in lower-case hexadecimal between braces. -/
def escapedCodePoint (char : Char) : List Char :=
  ['\\', 'u', '{'] ++ Nat.toDigits 16 char.toNat ++ ['}']

def quotedChar (char : Char) : List Char :=
  if char = '\x00' then ['\\', '0']
  else if char = '\t' then ['\\', 't']
  else if char = '\r' then ['\\', 'r']
  else if char = '\n' then ['\\', 'n']
  else if char = '"' ∨ char = '\\' then ['\\', char]
  else if isUnseen char then escapedCodePoint char
  else [char]

def quoted (name : String) : String :=
  String.ofList ('"' :: (name.toList.flatMap quotedChar ++ ['"']))

end Sema.Text
