import Sema.Json.Printer
import Sema.Json.Token

/-!
# Literals read back

The first token of a written string is that string: what is escaped comes back from its escape, a
character or a half of a pair by itself. The first token of an integer literal is that literal,
provided that the text behind it does not go on with the number.
-/

namespace Sema

open Json

/-! ### Strings -/

namespace Piece

theorem hexValue_digitChar : ∀ value < 16, hexValue? (Nat.digitChar value) = some value := by decide

theorem hexValue_hexDigit (value : Nat) : hexValue? (hexDigit value) = some (value % 16) :=
  hexValue_digitChar _ (Nat.mod_lt value (by decide))

/-- The four digits of an escape give the code unit again. -/
theorem codeUnit_hexDigits {unit : Nat} (bound : unit < 0x10000) :
    codeUnit? (hexDigit (unit / 4096)) (hexDigit (unit / 256)) (hexDigit (unit / 16))
      (hexDigit unit) = some unit := by
  simp only [codeUnit?, hexValue_hexDigit, Option.bind_eq_bind, Option.bind_some, Option.some.injEq]
  omega

theorem stringFrom_escapedUnit {unit : Nat} (bound : unit < 0x10000) (read : List Piece)
    (rest : List Char) :
    stringFrom? read (escapedUnit unit ++ rest) =
      stringFrom? (pieceOfCodeUnit unit :: read) rest := by
  simp only [escapedUnit, List.cons_append, List.nil_append, stringFrom?, codeUnit_hexDigits bound]

theorem pieceOfCodeUnit_leading (bits : Fin 1024) :
    pieceOfCodeUnit (0xD800 + bits.val) = .half true bits := by
  have bound := bits.isLt
  rw [pieceOfCodeUnit, if_pos (by omega)]
  congr 1
  apply Fin.ext
  rw [Fin.val_ofNat]
  omega

theorem pieceOfCodeUnit_trailing (bits : Fin 1024) :
    pieceOfCodeUnit (0xDC00 + bits.val) = .half false bits := by
  have bound := bits.isLt
  rw [pieceOfCodeUnit, if_neg (by omega), if_pos (by omega)]
  congr 1
  apply Fin.ext
  rw [Fin.val_ofNat]
  omega

theorem pieceOfCodeUnit_control {c : Char} (control : c.toNat < 0x20) :
    pieceOfCodeUnit c.toNat = .char c := by
  rw [pieceOfCodeUnit, if_neg (by omega), if_neg (by omega), Char.ofNat_toNat]

theorem stringFrom_escape {letter c : Char} (stands : escaped? letter = some c)
    (read : List Piece) (rest : List Char) :
    stringFrom? read ('\\' :: letter :: rest) = stringFrom? (.char c :: read) rest := by
  have noUnit : letter ≠ 'u' := by
    intro same
    rw [same] at stands
    cases stands
  rw [stringFrom?, stands]
  intro a b c d rest same
  exact absurd same noUnit

/-- What is written for a piece is read as this piece. -/
theorem stringFrom_write (piece : Piece) (read : List Piece) (rest : List Char) :
    stringFrom? read (piece.write ++ rest) = stringFrom? (piece :: read) rest := by
  cases piece with
  | half leading bits =>
      have bound := bits.isLt
      cases leading with
      | true => rw [write, stringFrom_escapedUnit (by omega), pieceOfCodeUnit_leading]
      | false => rw [write, stringFrom_escapedUnit (by omega), pieceOfCodeUnit_trailing]
  | char c =>
      rw [write]
      -- The seven short escapes come first.
      iterate 7
        split
        · rename_i same
          rw [same]
          exact stringFrom_escape rfl read rest
      split
      · rename_i control
        rw [stringFrom_escapedUnit (by omega), pieceOfCodeUnit_control control]
      · rw [List.singleton_append, stringFrom?, if_neg]
        all_goals simp_all

theorem stringFrom_writeAll (pieces read : List Piece) (rest : List Char) :
    stringFrom? read (pieces.foldr (fun piece rest => piece.write ++ rest) ('"' :: rest)) =
      some (read.reverse ++ pieces, rest) := by
  induction pieces generalizing read with
  | nil => rw [List.foldr_nil, stringFrom?, List.append_nil]
  | cons piece pieces induction =>
      rw [List.foldr_cons, stringFrom_write, induction, List.reverse_cons, List.append_assoc,
        List.singleton_append]

theorem next_writeAll (pieces : List Piece) (rest : List Char) :
    Token.next? (writeAll pieces rest) = some (some (.string pieces, rest)) := by
  have literal := stringFrom_writeAll pieces [] rest
  rw [List.reverse_nil, List.nil_append] at literal
  rw [writeAll, Token.next?, if_neg (by decide), Token.startingWith?, literal]
  rfl

end Piece

/-! ### Numbers -/

namespace Numeral

/-- The text does not go on with a number in front of it. -/
def Ends (text : List Char) : Prop :=
  ∀ next ∈ text.head?, ¬ next.isDigit ∧ next ≠ '.' ∧ next ≠ 'e' ∧ next ≠ 'E'

variable {rest : List Char}

theorem ends_nil : Ends [] := by
  intro next member
  cases member

theorem ends_cons {next : Char}
    (other : ¬ next.isDigit ∧ next ≠ '.' ∧ next ≠ 'e' ∧ next ≠ 'E') : Ends (next :: rest) := by
  intro first member
  rw [← Option.some.inj member]
  exact other

theorem digit_of_mem {value : Nat} {char : Char} (member : char ∈ Nat.toDigits 10 value) :
    char.isDigit = true := Nat.isDigit_of_mem_toDigits (by decide) (by decide) member

/-- Only the number zero starts with a zero. -/
theorem toDigits_first (value : Nat) :
    ∃ first digits, Nat.toDigits 10 value = first :: digits ∧ (0 < value → first ≠ '0') := by
  induction value using Nat.strongRecOn with
  | ind value induction =>
      by_cases small : value < 10
      · have each : ∀ digit < 10, 0 < digit → Nat.digitChar digit ≠ '0' := by decide
        exact ⟨_, [], Nat.toDigits_of_lt_base small, each value small⟩
      · obtain ⟨first, digits, shown, nonzero⟩ := induction (value / 10) (by omega)
        refine ⟨first, digits ++ [(value % 10).digitChar], ?_, fun _ => nonzero (by omega)⟩
        rw [Nat.toDigits_of_base_le (by decide) (by omega), shown, List.cons_append]

/-- The text does not start with a digit. -/
def NoDigit (text : List Char) : Prop := ∀ next ∈ text.head?, next.isDigit = false

theorem no_digit_of_ends (ends : Ends rest) : NoDigit rest :=
  fun next first => Bool.eq_false_iff.mpr (ends next first).1

/-- All digits at the start of a text are read together. -/
theorem digits_append {digits : List Char} (nonempty : digits ≠ [])
    (each : ∀ digit ∈ digits, digit.isDigit = true) (ends : NoDigit rest) :
    digits? (digits ++ rest) = some (digits, rest) := by
  have none : rest.takeWhile Char.isDigit = [] ∧ rest.dropWhile Char.isDigit = rest := by
    cases rest with
    | nil => exact ⟨rfl, rfl⟩
    | cons next rest =>
        have other := ends next rfl
        simp [other]
  rw [digits?, List.takeWhile_append_of_pos each, List.dropWhile_append_of_pos each, none.1,
    none.2, List.append_nil, if_neg]
  rw [List.isEmpty_iff]
  exact nonempty

theorem digits_toDigits (ends : Ends rest) (value : Nat) :
    digits? (Nat.toDigits 10 value ++ rest) = some (Nat.toDigits 10 value, rest) :=
  digits_append Nat.toDigits_ne_nil (fun _ => digit_of_mem) (no_digit_of_ends ends)

theorem wholePart_toDigits (ends : Ends rest) (value : Nat) :
    wholePart? (Nat.toDigits 10 value ++ rest) = some (value, rest) := by
  cases Nat.eq_zero_or_pos value with
  | inl zero =>
      rw [zero, Nat.toDigits_zero]
      rfl
  | inr positive =>
      have digits := digits_toDigits ends value
      have back : Nat.ofDigitChars 10 (Nat.toDigits 10 value) 0 = value :=
        Nat.ofDigitChars_toDigits (by decide) (by decide)
      rw [wholePart?, digits, Option.map_some]
      · exact congrArg (fun whole => some (whole, rest)) back
      · intro other same
        obtain ⟨first, others, shown, nonzero⟩ := toDigits_first value
        rw [shown, List.cons_append, List.cons.injEq] at same
        exact nonzero positive same.1

theorem numeral_toDigits (ends : Ends rest) (negative : Bool) (value : Nat) :
    numeral? negative (Nat.toDigits 10 value ++ rest) = some (⟨negative, value, []⟩, rest) := by
  have tail : fraction? rest = some ([], rest) ∧ exponent? rest = some ([], rest) := by
    cases rest with
    | nil => exact ⟨rfl, rfl⟩
    | cons next rest =>
        obtain ⟨-, noPoint, noMark⟩ := ends next rfl
        constructor
        · rw [fraction?]
          intro other same
          exact noPoint (List.cons.inj same).1
        · rw [exponent?, if_neg]
          exact not_or.mpr noMark
  simp [numeral?, wholePart_toDigits ends, tail.1, tail.2]

/-- A token that starts with a digit is a number. -/
theorem startingWith_digit {first : Char} (digit : first.isDigit = true) (rest : List Char) :
    Token.startingWith? first rest =
      (numeral? false (first :: rest)).map fun (literal, rest) => (.number literal, rest) := by
  rw [Token.startingWith?]
  all_goals
    intros
    subst_vars
    exact absurd digit (by decide)

theorem not_space_of_digit {char : Char} (digit : char.isDigit = true) : isSpace char = false := by
  cases space : isSpace char with
  | false => rfl
  | true =>
      simp only [isSpace, Bool.or_eq_true, beq_iff_eq] at space
      obtain ((blank | blank) | blank) | blank := space
      all_goals
        subst blank
        exact absurd digit (by decide)

/-- An integer literal is the first token of its text. -/
theorem next_write (literal : Numeral) (whole : literal.tail = []) (ends : Ends rest) :
    Token.next? (literal.write ++ rest) = some (some (.number literal, rest)) := by
  obtain ⟨negative, value, tail⟩ := literal
  subst whole
  have number := numeral_toDigits ends negative value
  cases negative with
  | true =>
      have text : write ⟨true, value, []⟩ ++ rest = '-' :: (Nat.toDigits 10 value ++ rest) := by
        simp [write]
      rw [text, Token.next?, if_neg (by decide), Token.startingWith?, number]
      rfl
  | false =>
      have text : write ⟨false, value, []⟩ ++ rest = Nat.toDigits 10 value ++ rest := by
        simp [write]
      obtain ⟨first, digits, shown, -⟩ := toDigits_first value
      have digit : first.isDigit = true := digit_of_mem (shown ▸ List.mem_cons_self)
      rw [shown, List.cons_append] at text number
      rw [text, Token.next?, if_neg, startingWith_digit digit, number]
      · rfl
      · simp [not_space_of_digit digit]

end Numeral

end Sema
