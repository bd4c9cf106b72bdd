import Sema.Json.Basic

/-!
Writing a value as JSON text without blanks. A string is written as it is, except for the quote,
the backslash, the characters below U+0020 and halves of surrogate pairs, which are escaped.
-/

namespace Sema

namespace Piece

def hexDigit (value : Nat) : Char := (Nat.digitChar (value % 16))

/-- A code unit as an escape with four hexadecimal digits. -/
def escapedUnit (unit : Nat) : List Char :=
  ['\\', 'u', hexDigit (unit / 4096), hexDigit (unit / 256), hexDigit (unit / 16), hexDigit unit]

def write : Piece → List Char
  | .char c =>
      if c = '"' then ['\\', '"']
      else if c = '\\' then ['\\', '\\']
      else if c = '\x08' then ['\\', 'b']
      else if c = '\x0c' then ['\\', 'f']
      else if c = '\n' then ['\\', 'n']
      else if c = '\r' then ['\\', 'r']
      else if c = '\t' then ['\\', 't']
      else if c.toNat < 0x20 then escapedUnit c.toNat
      else [c]
  | .half true bits => escapedUnit (0xD800 + bits.val)
  | .half false bits => escapedUnit (0xDC00 + bits.val)

/-- The literal of a string, put in front of what follows it. -/
def writeAll (pieces : List Piece) (rest : List Char) : List Char :=
  '"' :: pieces.foldr (fun piece rest => piece.write ++ rest) ('"' :: rest)

end Piece

namespace Numeral

def write (literal : Numeral) : List Char :=
  (if literal.negative then ['-'] else []) ++ Nat.toDigits 10 literal.whole ++ literal.tail

end Numeral

namespace Json

mutual

/-- The text of a value, put in front of what follows it. -/
def write : Json → List Char → List Char
  | .null, rest => 'n' :: 'u' :: 'l' :: 'l' :: rest
  | .bool true, rest => 't' :: 'r' :: 'u' :: 'e' :: rest
  | .bool false, rest => 'f' :: 'a' :: 'l' :: 's' :: 'e' :: rest
  | .number literal, rest => literal.write ++ rest
  | .string pieces, rest => Piece.writeAll pieces rest
  | .array items, rest => '[' :: writeItems items (']' :: rest)
  | .object fields, rest => '{' :: writeFields fields ('}' :: rest)

def writeItems : List Json → List Char → List Char
  | [], rest => rest
  | [item], rest => item.write rest
  | item :: items, rest => item.write (',' :: writeItems items rest)

def writeFields : List (List Piece × Json) → List Char → List Char
  | [], rest => rest
  | [(name, value)], rest => Piece.writeAll name (':' :: value.write rest)
  | (name, value) :: fields, rest =>
      Piece.writeAll name (':' :: value.write (',' :: writeFields fields rest))

end

def render (value : Json) : String := String.ofList (value.write [])

end Json

end Sema
