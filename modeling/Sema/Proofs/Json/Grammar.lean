import Sema.Proofs.Json.Literals

/-!
# The grammar of documents

A document is one value with blanks around it. Each part of the grammar relates what it stands for
to a text that starts with it and to the text that is left behind it, so no rule has to say where a
text is cut. Numbers keep their literal, and an escape may spell half of a surrogate pair.
-/

namespace Sema.Json

/-- Blanks in front of a text, as many as there are or fewer. -/
inductive Blanks : List Char → List Char → Prop where
  | none (text : List Char) : Blanks text text
  | more {char : Char} {text rest : List Char} (space : isSpace char = true)
      (blanks : Blanks text rest) : Blanks (char :: text) rest

/-- The pieces of a string and its closing quote. -/
inductive Body : List Piece → List Char → List Char → Prop where
  | close (rest : List Char) : Body [] ('"' :: rest) rest
  | plain {char : Char} {pieces : List Piece} {text rest : List Char} (shown : 0x20 ≤ char.toNat)
      (noQuote : char ≠ '"') (noEscape : char ≠ '\\') (body : Body pieces text rest) :
      Body (.char char :: pieces) (char :: text) rest
  | escape {letter char : Char} {pieces : List Piece} {text rest : List Char}
      (stands : escaped? letter = some char) (body : Body pieces text rest) :
      Body (.char char :: pieces) ('\\' :: letter :: text) rest
  | unit {a b c d : Char} {unit : Nat} {pieces : List Piece} {text rest : List Char}
      (stands : codeUnit? a b c d = some unit) (body : Body pieces text rest) :
      Body (pieceOfCodeUnit unit :: pieces) ('\\' :: 'u' :: a :: b :: c :: d :: text) rest

/-! ### Numbers -/

structure Digits (digits : List Char) : Prop where
  some : digits ≠ []
  each : ∀ digit ∈ digits, digit.isDigit = true

/-- A whole part is a zero alone or starts with another digit. -/
inductive Whole : Nat → List Char → List Char → Prop where
  | zero (rest : List Char) : Whole 0 ('0' :: rest) rest
  | digits {digits : List Char} (run : Digits digits) (nonzero : digits.head? ≠ some '0')
      (rest : List Char) : Whole (Nat.ofDigitChars 10 digits 0) (digits ++ rest) rest

inductive Fraction : List Char → List Char → List Char → Prop where
  | none (text : List Char) : Fraction [] text text
  | point {digits : List Char} (run : Digits digits) (rest : List Char) :
      Fraction ('.' :: digits) ('.' :: (digits ++ rest)) rest

inductive Exponent : List Char → List Char → List Char → Prop where
  | none (text : List Char) : Exponent [] text text
  | power {mark : Char} {sign digits : List Char} (marks : mark = 'e' ∨ mark = 'E')
      (signs : sign = [] ∨ sign = ['+'] ∨ sign = ['-']) (run : Digits digits) (rest : List Char) :
      Exponent (mark :: (sign ++ digits)) (mark :: (sign ++ (digits ++ rest))) rest

/-- A number without its sign. -/
inductive Magnitude (negative : Bool) : Numeral → List Char → List Char → Prop where
  | parts {whole : Nat} {fraction exponent text afterWhole afterFraction rest : List Char}
      (first : Whole whole text afterWhole) (second : Fraction fraction afterWhole afterFraction)
      (third : Exponent exponent afterFraction rest) :
      Magnitude negative ⟨negative, whole, fraction ++ exponent⟩ text rest

inductive Number : Numeral → List Char → List Char → Prop where
  | positive {literal : Numeral} {text rest : List Char}
      (magnitude : Magnitude false literal text rest) : Number literal text rest
  | negative {literal : Numeral} {text rest : List Char}
      (magnitude : Magnitude true literal text rest) : Number literal ('-' :: text) rest

/-! ### Values -/

mutual

inductive Value : Json → List Char → List Char → Prop where
  | null (rest : List Char) : Value .null ('n' :: 'u' :: 'l' :: 'l' :: rest) rest
  | yes (rest : List Char) : Value (.bool true) ('t' :: 'r' :: 'u' :: 'e' :: rest) rest
  | no (rest : List Char) : Value (.bool false) ('f' :: 'a' :: 'l' :: 's' :: 'e' :: rest) rest
  | number {literal : Numeral} {text rest : List Char} (number : Number literal text rest) :
      Value (.number literal) text rest
  | string {pieces : List Piece} {text rest : List Char} (body : Body pieces text rest) :
      Value (.string pieces) ('"' :: text) rest
  | emptyArray {text rest : List Char} (blanks : Blanks text (']' :: rest)) :
      Value (.array []) ('[' :: text) rest
  | array {item : Json} {items : List Json} {text first after rest : List Char}
      (blanks : Blanks text first) (value : Value item first after)
      (others : Items items after rest) :
      Value (.array (item :: items)) ('[' :: text) rest
  | emptyObject {text rest : List Char} (blanks : Blanks text ('}' :: rest)) :
      Value (.object []) ('{' :: text) rest
  | object {name : List Piece} {value : Json} {fields : List (List Piece × Json)}
      {text after rest : List Char} (first : Field name value text after)
      (others : Fields fields after rest) :
      Value (.object ((name, value) :: fields)) ('{' :: text) rest

/-- The items after one of an array, and the end of the array. -/
inductive Items : List Json → List Char → List Char → Prop where
  | close {text rest : List Char} (blanks : Blanks text (']' :: rest)) : Items [] text rest
  | more {item : Json} {items : List Json} {text next first after rest : List Char}
      (comma : Blanks text (',' :: next)) (blanks : Blanks next first)
      (value : Value item first after) (others : Items items after rest) :
      Items (item :: items) text rest

/-- A name and its value, with the colon between them. -/
inductive Field : List Piece → Json → List Char → List Char → Prop where
  | named {name : List Piece} {value : Json} {text body after next first rest : List Char}
      (quote : Blanks text ('"' :: body)) (spelled : Body name body after)
      (colon : Blanks after (':' :: next)) (blanks : Blanks next first)
      (holds : Value value first rest) : Field name value text rest

/-- The fields after one of an object, and the end of the object. -/
inductive Fields : List (List Piece × Json) → List Char → List Char → Prop where
  | close {text rest : List Char} (blanks : Blanks text ('}' :: rest)) : Fields [] text rest
  | more {name : List Piece} {value : Json} {fields : List (List Piece × Json)}
      {text next after rest : List Char} (comma : Blanks text (',' :: next))
      (first : Field name value next after) (others : Fields fields after rest) :
      Fields ((name, value) :: fields) text rest

end

/-- A text that is one value with blanks around it. -/
inductive Document (value : Json) : List Char → Prop where
  | padded {text first rest : List Char} (before : Blanks text first)
      (holds : Value value first rest) (behind : Blanks rest []) : Document value text

end Sema.Json
