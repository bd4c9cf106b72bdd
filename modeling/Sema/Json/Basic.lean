/-!
Values of JSON documents, with nothing of the document lost but its blanks and the spelling of
its strings. A number keeps its literal, since `1`, `1.0` and `1e0` are told apart by readers that
count. A string is a list of pieces, because an escape can spell half of a surrogate pair on its
own: such a string is a valid part of a document but has no text.
-/

namespace Sema

/-- A number as it is written. The tail holds the fraction and the exponent, and is empty in an
integer literal. -/
structure Numeral where
  negative : Bool
  whole : Nat
  tail : List Char
  deriving DecidableEq, Repr

namespace Numeral

def ofNat (value : Nat) : Numeral := ⟨false, value, []⟩

def ofInt (value : Int) : Numeral := ⟨value < 0, value.natAbs, []⟩

/-- The value of an integer literal without a sign. -/
def toNat? (numeral : Numeral) : Option Nat :=
  if numeral.negative || numeral.tail ≠ [] then none else some numeral.whole

/-- The value of an integer literal. -/
def toInt? (numeral : Numeral) : Option Int :=
  if numeral.tail ≠ [] then none
  else some (if numeral.negative then -(numeral.whole : Int) else numeral.whole)

end Numeral

/-- One unit of a string: a character, or one half of a surrogate pair with its ten bits. -/
inductive Piece where
  | char (char : Char)
  | half (leading : Bool) (bits : Fin 1024)
  deriving DecidableEq, Repr

namespace Piece

/-- The character that a leading and a trailing half make together. -/
def paired (high low : Fin 1024) : Char := Char.ofNat (0x10000 + high.val * 1024 + low.val)

/-- The text of a string: two halves in order are one character, any other half is none. -/
def chars? : List Piece → Option (List Char)
  | [] => some []
  | .char c :: rest => (chars? rest).map (c :: ·)
  | .half true high :: .half false low :: rest => (chars? rest).map (paired high low :: ·)
  | .half _ _ :: _ => none

def text? (pieces : List Piece) : Option String := (chars? pieces).map String.ofList

def ofText (text : String) : List Piece := text.toList.map .char

end Piece

/-- An object keeps its fields in order and may name a field twice. -/
inductive Json where
  | null
  | bool (value : Bool)
  | number (literal : Numeral)
  | string (pieces : List Piece)
  | array (items : List Json)
  | object (fields : List (List Piece × Json))

namespace Json

def text (value : String) : Json := .string (Piece.ofText value)

def nat (value : Nat) : Json := .number (.ofNat value)

def int (value : Int) : Json := .number (.ofInt value)

def ofOption {Value : Type} (encode : Value → Json) : Option Value → Json
  | none => .null
  | some value => encode value

def ofList {Value : Type} (encode : Value → Json) (values : List Value) : Json :=
  .array (values.map encode)

/-- An object from field names and values. -/
def record (fields : List (String × Json)) : Json :=
  .object (fields.map fun (name, value) => (Piece.ofText name, value))

mutual

/-- How many arrays and objects stand around the innermost value, counting its own level. -/
def depth : Json → Nat
  | .array items => depthOfItems items + 1
  | .object fields => depthOfFields fields + 1
  | .null | .bool _ | .number _ | .string _ => 1

def depthOfItems : List Json → Nat
  | [] => 0
  | item :: rest => max item.depth (depthOfItems rest)

def depthOfFields : List (List Piece × Json) → Nat
  | [] => 0
  | (_, value) :: rest => max value.depth (depthOfFields rest)

end

end Json

end Sema
