import Sema.Json.Basic

/-!
The tokens of a JSON text. `Token.next?` takes one token off the front, blanks before it included,
and what it leaves is shorter than what it was given (`next?_shorter`).
-/

namespace Sema.Json

inductive Token where
  | openArray
  | closeArray
  | openObject
  | closeObject
  | colon
  | comma
  | null
  | bool (value : Bool)
  | number (literal : Numeral)
  | string (pieces : List Piece)
  deriving DecidableEq

/-- The characters that may stand between tokens. -/
def isSpace (char : Char) : Bool := char == ' ' || char == '\t' || char == '\n' || char == '\r'

def hexValue? (char : Char) : Option Nat :=
  if '0' ≤ char && char ≤ '9' then some (char.toNat - '0'.toNat)
  else if 'a' ≤ char && char ≤ 'f' then some (char.toNat - 'a'.toNat + 10)
  else if 'A' ≤ char && char ≤ 'F' then some (char.toNat - 'A'.toNat + 10)
  else none

/-- The code unit of four hexadecimal digits. -/
def codeUnit? (a b c d : Char) : Option Nat := do
  let a ← hexValue? a
  let b ← hexValue? b
  let c ← hexValue? c
  let d ← hexValue? d
  some (((a * 16 + b) * 16 + c) * 16 + d)

/-- The code units from D800 to DBFF are leading halves, those from DC00 to DFFF trailing ones. -/
def pieceOfCodeUnit (unit : Nat) : Piece :=
  if 0xD800 ≤ unit ∧ unit < 0xDC00 then .half true (Fin.ofNat 1024 unit)
  else if 0xDC00 ≤ unit ∧ unit < 0xE000 then .half false (Fin.ofNat 1024 unit)
  else .char (Char.ofNat unit)

/-- The character that a backslash and a letter stand for. -/
def escaped? (letter : Char) : Option Char :=
  if letter = '"' ∨ letter = '\\' ∨ letter = '/' then some letter
  else if letter = 'b' then some '\x08'
  else if letter = 'f' then some '\x0c'
  else if letter = 'n' then some '\n'
  else if letter = 'r' then some '\r'
  else if letter = 't' then some '\t'
  else none

/-- A string literal after its opening quote, with the pieces read so far in reverse. -/
def stringFrom? (read : List Piece) : List Char → Option (List Piece × List Char)
  | [] => none
  | '"' :: rest => some (read.reverse, rest)
  | '\\' :: 'u' :: a :: b :: c :: d :: rest =>
      match codeUnit? a b c d with
      | none => none
      | some unit => stringFrom? (pieceOfCodeUnit unit :: read) rest
  | '\\' :: letter :: rest =>
      match escaped? letter with
      | none => none
      | some char => stringFrom? (.char char :: read) rest
  | char :: rest =>
      if char.toNat < 0x20 ∨ char = '\\' then none else stringFrom? (.char char :: read) rest

/-- A run of digits that may not be empty. -/
def digits? (text : List Char) : Option (List Char × List Char) :=
  if (text.takeWhile Char.isDigit).isEmpty then none
  else some (text.takeWhile Char.isDigit, text.dropWhile Char.isDigit)

/-- The part of a number after its point, if there is a point. -/
def fraction? : List Char → Option (List Char × List Char)
  | '.' :: rest => (digits? rest).map fun (digits, rest) => ('.' :: digits, rest)
  | text => some ([], text)

/-- The sign of an exponent, if there is one. -/
def exponentSign : List Char → List Char × List Char
  | '+' :: rest => (['+'], rest)
  | '-' :: rest => (['-'], rest)
  | text => ([], text)

def exponent? : List Char → Option (List Char × List Char)
  | mark :: rest =>
      if mark = 'e' ∨ mark = 'E' then
        let (sign, rest) := exponentSign rest
        (digits? rest).map fun (digits, rest) => (mark :: (sign ++ digits), rest)
      else some ([], mark :: rest)
  | [] => some ([], [])

/-- A whole part is a zero alone or starts with another digit. -/
def wholePart? : List Char → Option (Nat × List Char)
  | '0' :: rest => some (0, rest)
  | text => (digits? text).map fun (digits, rest) => (Nat.ofDigitChars 10 digits 0, rest)

def numeral? (negative : Bool) (text : List Char) : Option (Numeral × List Char) := do
  let (whole, rest) ← wholePart? text
  let (fraction, rest) ← fraction? rest
  let (exponent, rest) ← exponent? rest
  some (⟨negative, whole, fraction ++ exponent⟩, rest)

namespace Token

/-- The token that starts with the given character. -/
def startingWith? (first : Char) (rest : List Char) : Option (Token × List Char) :=
  match first, rest with
  | '[', rest => some (.openArray, rest)
  | ']', rest => some (.closeArray, rest)
  | '{', rest => some (.openObject, rest)
  | '}', rest => some (.closeObject, rest)
  | ':', rest => some (.colon, rest)
  | ',', rest => some (.comma, rest)
  | 'n', 'u' :: 'l' :: 'l' :: rest => some (.null, rest)
  | 't', 'r' :: 'u' :: 'e' :: rest => some (.bool true, rest)
  | 'f', 'a' :: 'l' :: 's' :: 'e' :: rest => some (.bool false, rest)
  | '"', rest => (stringFrom? [] rest).map fun (pieces, rest) => (.string pieces, rest)
  | '-', rest => (numeral? true rest).map fun (literal, rest) => (.number literal, rest)
  | first, rest => (numeral? false (first :: rest)).map fun (literal, rest) => (.number literal, rest)

/-- The first token of a text and what follows it. The outer `none` refuses the text, the inner
one says that nothing but blanks is left. -/
def next? : List Char → Option (Option (Token × List Char))
  | [] => some none
  | char :: rest => if isSpace char then next? rest else (startingWith? char rest).map some

end Token

/-! ### What is left is shorter -/

theorem stringFrom?_shorter {text rest : List Char} {read pieces : List Piece}
    (found : stringFrom? read text = some (pieces, rest)) : rest.length < text.length := by
  fun_induction stringFrom? read text <;> simp_all <;> omega

theorem digits?_shorter {text digits rest : List Char} (found : digits? text = some (digits, rest)) :
    rest.length < text.length := by
  unfold digits? at found
  split at found
  · simp at found
  · next some_digit =>
      cases found
      have split := congrArg List.length (List.takeWhile_append_dropWhile (p := Char.isDigit) (l := text))
      have := List.length_pos_iff.2 (by simpa using some_digit : text.takeWhile Char.isDigit ≠ [])
      rw [List.length_append] at split
      omega

theorem fraction?_shorter {text fraction rest : List Char}
    (found : fraction? text = some (fraction, rest)) : rest.length ≤ text.length := by
  fun_cases fraction? text <;> grind [fraction?, → digits?_shorter, Option.map_eq_some_iff]

theorem exponentSign_shorter (text : List Char) : (exponentSign text).2.length ≤ text.length := by
  fun_cases exponentSign text <;> grind [exponentSign]

theorem exponent?_shorter {text exponent rest : List Char}
    (found : exponent? text = some (exponent, rest)) : rest.length ≤ text.length := by
  fun_cases exponent? text <;> grind [exponent?, → digits?_shorter, exponentSign_shorter, Option.map_eq_some_iff]

theorem wholePart?_shorter {text rest : List Char} {whole : Nat}
    (found : wholePart? text = some (whole, rest)) : rest.length < text.length := by
  fun_cases wholePart? text <;> grind [wholePart?, → digits?_shorter, Option.map_eq_some_iff]

theorem numeral?_shorter {text rest : List Char} {negative : Bool} {literal : Numeral}
    (found : numeral? negative text = some (literal, rest)) : rest.length < text.length := by
  simp only [numeral?, Option.bind_eq_bind, Option.bind_eq_some_iff] at found
  obtain ⟨⟨_, afterWhole⟩, whole, ⟨_, afterFraction⟩, fraction, ⟨_, afterExponent⟩, exponent, same⟩ :=
    found
  cases same
  calc
    afterExponent.length ≤ afterFraction.length := exponent?_shorter exponent
    _ ≤ afterWhole.length := fraction?_shorter fraction
    _ < text.length := wholePart?_shorter whole

namespace Token

theorem startingWith?_shorter {first : Char} {text rest : List Char} {token : Token}
    (found : startingWith? first text = some (token, rest)) : rest.length ≤ text.length := by
  unfold startingWith? at found
  split at found
  case h_10 =>
    obtain ⟨_, read, same⟩ := Option.map_eq_some_iff.1 found
    cases same
    exact Nat.le_of_lt (stringFrom?_shorter read)
  case h_11 =>
    obtain ⟨_, read, same⟩ := Option.map_eq_some_iff.1 found
    cases same
    exact Nat.le_of_lt (numeral?_shorter read)
  case h_12 =>
    obtain ⟨_, read, same⟩ := Option.map_eq_some_iff.1 found
    cases same
    exact Nat.le_of_lt_succ (numeral?_shorter read)
  all_goals grind

theorem next?_shorter {text rest : List Char} {token : Token}
    (found : next? text = some (some (token, rest))) : rest.length < text.length := by
  induction text with
  | nil => simp [next?] at found
  | cons char text induction =>
      rw [next?] at found
      split at found
      · have := induction found
        simp only [List.length_cons]
        omega
      · obtain ⟨_, started, same⟩ := Option.map_eq_some_iff.1 found
        cases same
        have := startingWith?_shorter started
        simp only [List.length_cons]
        omega

end Token

end Sema.Json
