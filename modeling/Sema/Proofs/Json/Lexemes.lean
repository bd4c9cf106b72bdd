import Sema.Proofs.Json.Grammar

/-!
# Tokens of the grammar

The first token of a text is what the grammar calls for at its start, and the other way round. Only
a number has to be told where it ends, since its digits may go on.
-/

namespace Sema.Json

open Numeral (NoDigit)

/-- The texts that a token stands for. -/
inductive Lexeme : Token → List Char → List Char → Prop where
  | openArray (rest : List Char) : Lexeme .openArray ('[' :: rest) rest
  | closeArray (rest : List Char) : Lexeme .closeArray (']' :: rest) rest
  | openObject (rest : List Char) : Lexeme .openObject ('{' :: rest) rest
  | closeObject (rest : List Char) : Lexeme .closeObject ('}' :: rest) rest
  | colon (rest : List Char) : Lexeme .colon (':' :: rest) rest
  | comma (rest : List Char) : Lexeme .comma (',' :: rest) rest
  | null (rest : List Char) : Lexeme .null ('n' :: 'u' :: 'l' :: 'l' :: rest) rest
  | yes (rest : List Char) : Lexeme (.bool true) ('t' :: 'r' :: 'u' :: 'e' :: rest) rest
  | no (rest : List Char) : Lexeme (.bool false) ('f' :: 'a' :: 'l' :: 's' :: 'e' :: rest) rest
  | number {literal : Numeral} {text rest : List Char} (number : Number literal text rest) :
      Lexeme (.number literal) text rest
  | string {pieces : List Piece} {text rest : List Char} (body : Body pieces text rest) :
      Lexeme (.string pieces) ('"' :: text) rest

/-! ### Strings -/

theorem body_of_string {read pieces : List Piece} {text rest : List Char}
    (found : stringFrom? read text = some (pieces, rest)) :
    ∃ later, pieces = read.reverse ++ later ∧ Body later text rest := by
  fun_induction stringFrom? read text with
  | case1 => cases found
  | case2 read text =>
      cases found
      exact ⟨[], (List.append_nil _).symm, .close rest⟩
  | case3 => cases found
  | case4 read a b c d text unit stands induction =>
      obtain ⟨later, same, body⟩ := induction found
      refine ⟨pieceOfCodeUnit unit :: later, ?_, .unit stands body⟩
      rw [same, List.reverse_cons, List.append_assoc, List.singleton_append]
  | case5 => cases found
  | case6 read letter text _ char stands induction =>
      obtain ⟨later, same, body⟩ := induction found
      refine ⟨.char char :: later, ?_, .escape stands body⟩
      rw [same, List.reverse_cons, List.append_assoc, List.singleton_append]
  | case7 => cases found
  | case8 read char text noQuote _ _ allowed induction =>
      obtain ⟨later, same, body⟩ := induction found
      obtain ⟨shown, noEscape⟩ := not_or.mp allowed
      refine ⟨.char char :: later, ?_, .plain (Nat.le_of_not_lt shown) noQuote noEscape body⟩
      rw [same, List.reverse_cons, List.append_assoc, List.singleton_append]

theorem string_of_body {later : List Piece} {text rest : List Char} (body : Body later text rest)
    (read : List Piece) : stringFrom? read text = some (read.reverse ++ later, rest) := by
  induction body generalizing read with
  | close rest => rw [stringFrom?, List.append_nil]
  | plain shown noQuote noEscape body induction =>
      have allowed : ¬ (_ < 0x20 ∨ _ = '\\') := not_or.mpr ⟨Nat.not_lt.mpr shown, noEscape⟩
      rw [stringFrom?, if_neg allowed, induction, List.reverse_cons, List.append_assoc,
        List.singleton_append]
      all_goals intros; contradiction
  | escape stands body induction =>
      rw [Piece.stringFrom_escape stands, induction, List.reverse_cons, List.append_assoc,
        List.singleton_append]
  | unit stands body induction =>
      rw [stringFrom?, stands]
      dsimp only
      rw [induction, List.reverse_cons, List.append_assoc, List.singleton_append]

/-! ### Numbers -/

variable {text rest : List Char}

theorem digits_of_run {digits : List Char} (found : digits? text = some (digits, rest)) :
    Digits digits ∧ text = digits ++ rest := by
  unfold digits? at found
  split at found
  · cases found
  · rename_i some
    cases found
    refine ⟨⟨?_, ?_⟩, (List.takeWhile_append_dropWhile).symm⟩
    · intro empty
      exact some (List.isEmpty_iff.mpr empty)
    · exact List.all_eq_true.mp List.all_takeWhile

theorem run_of_digits {digits : List Char} (run : Digits digits) (ends : NoDigit rest) :
    digits? (digits ++ rest) = some (digits, rest) :=
  Numeral.digits_append run.some run.each ends

theorem whole_sound {whole : Nat} (found : wholePart? text = some (whole, rest)) :
    Whole whole text rest := by
  unfold wholePart? at found
  split at found
  · cases found
    exact .zero rest
  · rename_i noZero
    obtain ⟨⟨digits, after⟩, run, same⟩ := Option.map_eq_some_iff.mp found
    cases same
    obtain ⟨run, split⟩ := digits_of_run run
    rw [split]
    apply Whole.digits run
    intro zero
    obtain ⟨others, first⟩ := List.head?_eq_some_iff.mp zero
    apply noZero (others ++ rest)
    rw [split, first, List.cons_append]

theorem whole_complete {whole : Nat} (part : Whole whole text rest) (ends : NoDigit rest) :
    wholePart? text = some (whole, rest) := by
  cases part with
  | zero => rfl
  | @digits digits run nonzero =>
      have found := run_of_digits run ends
      rw [wholePart?, found]
      · rfl
      · intro others zero
        cases digits with
        | nil => exact absurd rfl run.some
        | cons first digits => exact nonzero (congrArg some (List.cons.inj zero).1)

theorem fraction_sound {fraction : List Char} (found : fraction? text = some (fraction, rest)) :
    Fraction fraction text rest := by
  unfold fraction? at found
  split at found
  · obtain ⟨⟨digits, after⟩, run, same⟩ := Option.map_eq_some_iff.mp found
    cases same
    obtain ⟨run, split⟩ := digits_of_run run
    rw [split]
    exact .point run _
  · cases found
    exact .none _

theorem fraction_complete {fraction : List Char} (part : Fraction fraction text rest)
    (ends : NoDigit rest) (noPoint : rest.head? ≠ some '.') :
    fraction? text = some (fraction, rest) := by
  cases part with
  | none =>
      rw [fraction?]
      intro others point
      exact noPoint (List.head?_eq_some_iff.mpr ⟨others, point⟩)
  | point run => rw [fraction?, run_of_digits run ends, Option.map_some]

theorem sign_split (text : List Char) :
    text = (exponentSign text).1 ++ (exponentSign text).2 := by
  fun_cases exponentSign text <;> rfl

theorem sign_known (text : List Char) :
    (exponentSign text).1 = [] ∨ (exponentSign text).1 = ['+'] ∨ (exponentSign text).1 = ['-'] := by
  fun_cases exponentSign text with
  | case1 => exact .inr (.inl rfl)
  | case2 => exact .inr (.inr rfl)
  | case3 => exact .inl rfl

theorem sign_append {sign digits : List Char} (signs : sign = [] ∨ sign = ['+'] ∨ sign = ['-'])
    (run : Digits digits) (rest : List Char) :
    exponentSign (sign ++ (digits ++ rest)) = (sign, digits ++ rest) := by
  obtain ⟨some, each⟩ := run
  cases digits with
  | nil => exact absurd rfl some
  | cons first digits =>
      have digit : first.isDigit = true := each first List.mem_cons_self
      obtain rfl | rfl | rfl := signs
      · rw [List.nil_append, List.cons_append, exponentSign]
        all_goals
          intro others same
          rw [(List.cons.inj same).1] at digit
          cases digit
      · rfl
      · rfl

theorem exponent_sound {exponent : List Char} (found : exponent? text = some (exponent, rest)) :
    Exponent exponent text rest := by
  unfold exponent? at found
  split at found
  · rename_i mark after
    split at found
    · rename_i marks
      have known := sign_known after
      have whole := sign_split after
      cases signed : exponentSign after with
      | mk sign behind =>
          rw [signed] at found known whole
          obtain ⟨⟨digits, _⟩, run, same⟩ := Option.map_eq_some_iff.mp found
          cases same
          obtain ⟨run, split⟩ := digits_of_run run
          rw [whole, split]
          exact .power marks known run rest
    · cases found
      exact .none _
  · cases found
    exact .none []

theorem exponent_complete {exponent : List Char} (part : Exponent exponent text rest)
    (ends : Numeral.Ends rest) : exponent? text = some (exponent, rest) := by
  cases part with
  | none =>
      cases text with
      | nil => rfl
      | cons next rest =>
          obtain ⟨-, -, noMark⟩ := ends next rfl
          rw [exponent?, if_neg (not_or.mpr noMark)]
  | power marks signs run =>
      rw [exponent?, if_pos marks, sign_append signs run]
      dsimp only
      rw [run_of_digits run (Numeral.no_digit_of_ends ends), Option.map_some]

theorem magnitude_sound {negative : Bool} {literal : Numeral}
    (found : numeral? negative text = some (literal, rest)) :
    Magnitude negative literal text rest := by
  simp only [numeral?, Option.bind_eq_bind, Option.bind_eq_some_iff] at found
  obtain ⟨⟨_, afterWhole⟩, whole, ⟨_, afterFraction⟩, fraction, found⟩ := found
  obtain ⟨⟨_, afterExponent⟩, exponent, same⟩ := found
  cases same
  exact .parts (whole_sound whole) (fraction_sound fraction) (exponent_sound exponent)

/-- What comes behind the whole part is no digit, and behind the fraction there is no point. -/
theorem Exponent.starts {exponent : List Char} (part : Exponent exponent text rest)
    (ends : Numeral.Ends rest) : NoDigit text ∧ text.head? ≠ some '.' := by
  cases part with
  | none =>
      refine ⟨Numeral.no_digit_of_ends ends, ?_⟩
      intro point
      exact (ends '.' point).2.1 rfl
  | power marks =>
      constructor
      · intro char first
        cases first
        obtain rfl | rfl := marks <;> rfl
      · intro point
        cases point
        cases marks with
        | inl mark => cases mark
        | inr mark => cases mark

theorem Fraction.starts {fraction : List Char} (part : Fraction fraction text rest)
    (ends : NoDigit rest) : NoDigit text := by
  cases part with
  | none => exact ends
  | point =>
      intro char first
      cases first
      rfl

theorem magnitude_complete {negative : Bool} {literal : Numeral}
    (magnitude : Magnitude negative literal text rest) (ends : Numeral.Ends rest) :
    numeral? negative text = some (literal, rest) := by
  cases magnitude with
  | parts first second third =>
      obtain ⟨noDigit, noPoint⟩ := third.starts ends
      have whole := whole_complete first (second.starts noDigit)
      have fraction := fraction_complete second noDigit noPoint
      have exponent := exponent_complete third ends
      simp [numeral?, whole, fraction, exponent]

/-- A number without a sign starts with a digit. -/
theorem Magnitude.starts {negative : Bool} {literal : Numeral}
    (magnitude : Magnitude negative literal text rest) :
    ∃ first others, text = first :: others ∧ first.isDigit = true := by
  cases magnitude with
  | parts first =>
      cases first with
      | zero => exact ⟨_, _, rfl, rfl⟩
      | @digits digits run =>
          cases digits with
          | nil => exact absurd rfl run.some
          | cons first digits => exact ⟨first, _, rfl, run.each first List.mem_cons_self⟩

/-! ### Tokens -/

theorem next_of_blanks {first : List Char} (blanks : Blanks text first) :
    Token.next? text = Token.next? first := by
  induction blanks with
  | none => rfl
  | more space blanks induction => rw [Token.next?, if_pos space, induction]

/-- A token that starts where no blank is comes first. -/
theorem next_of_start {first : Char} {others : List Char} {token : Token}
    (noSpace : isSpace first = false)
    (starts : Token.startingWith? first others = some (token, rest)) :
    Token.next? (first :: others) = some (some (token, rest)) := by
  rw [Token.next?, if_neg (Bool.eq_false_iff.mp noSpace), starts, Option.map_some]

theorem lexeme_next {token : Token} (lexeme : Lexeme token text rest)
    (ends : Numeral.Ends rest ∨ ∀ literal, token ≠ .number literal) :
    Token.next? text = some (some (token, rest)) := by
  cases lexeme with
  | openArray | closeArray | openObject | closeObject | colon | comma | null | yes | no => rfl
  | string body =>
      have read := string_of_body body []
      apply next_of_start rfl
      rw [Token.startingWith?, read]
      rfl
  | number number =>
      have stop : Numeral.Ends rest := ends.resolve_right fun other => other _ rfl
      cases number with
      | positive magnitude =>
          have read := magnitude_complete magnitude stop
          obtain ⟨first, others, split, digit⟩ := magnitude.starts
          rw [split] at read ⊢
          apply next_of_start (Numeral.not_space_of_digit digit)
          rw [Numeral.startingWith_digit digit, read, Option.map_some]
      | negative magnitude =>
          have read := magnitude_complete magnitude stop
          apply next_of_start rfl
          rw [Token.startingWith?, read, Option.map_some]

theorem start_lexeme {first : Char} {others : List Char} {token : Token}
    (starts : Token.startingWith? first others = some (token, rest)) :
    Lexeme token (first :: others) rest := by
  unfold Token.startingWith? at starts
  split at starts
  case h_10 =>
    obtain ⟨⟨pieces, _⟩, read, same⟩ := Option.map_eq_some_iff.mp starts
    cases same
    obtain ⟨later, whole, body⟩ := body_of_string read
    rw [whole]
    exact .string body
  case h_11 =>
    obtain ⟨⟨literal, _⟩, read, same⟩ := Option.map_eq_some_iff.mp starts
    cases same
    exact .number (.negative (magnitude_sound read))
  case h_12 =>
    obtain ⟨⟨literal, _⟩, read, same⟩ := Option.map_eq_some_iff.mp starts
    cases same
    exact .number (.positive (magnitude_sound read))
  all_goals
    cases starts
    constructor

theorem next_lexeme {token : Token} (found : Token.next? text = some (some (token, rest))) :
    ∃ first, Blanks text first ∧ Lexeme token first rest := by
  induction text with
  | nil => cases found
  | cons char text induction =>
      rw [Token.next?] at found
      split at found
      · rename_i space
        obtain ⟨first, blanks, lexeme⟩ := induction found
        exact ⟨first, .more space blanks, lexeme⟩
      · obtain ⟨_, starts, same⟩ := Option.map_eq_some_iff.mp found
        cases same
        exact ⟨_, .none _, start_lexeme starts⟩

theorem next_none_iff : Token.next? text = some none ↔ Blanks text [] := by
  constructor
  · intro found
    induction text with
    | nil => exact .none []
    | cons char text induction =>
        rw [Token.next?] at found
        split at found
        · rename_i space
          exact .more space (induction found)
        · obtain ⟨_, _, same⟩ := Option.map_eq_some_iff.mp found
          cases same
  · intro blanks
    rw [next_of_blanks blanks]
    rfl

end Sema.Json
