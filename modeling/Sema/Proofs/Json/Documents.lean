import Sema.Json.Reader
import Sema.Proofs.Json.Lexemes

/-!
# Readers of documents

Whatever containers are open, a reader expects a certain text. What it expects before a token is
what it expects after it, with the token in front. So a run ends with a value exactly if its text is
expected, and from the beginning that is a document of this value.
-/

namespace Sema.Json

variable {text rest : List Char} {token : Token} {outer : List Frame} {result : Json}

/-- The text goes on after a value and closes the containers around it, which makes the result. -/
def Closes : List Frame → Json → List Char → Json → Prop
  | [], value, text, result => Blanks text [] ∧ value = result
  | .array before :: outer, value, text, result =>
      ∃ items rest, Items items text rest ∧
        Closes outer (.array (before.reverse ++ value :: items)) rest result
  | .object before name :: outer, value, text, result =>
      ∃ fields rest, Fields fields text rest ∧
        Closes outer (.object (before.reverse ++ (name, value) :: fields)) rest result

/-- The text starts with a value in the containers. -/
def Begins (outer : List Frame) (text : List Char) (result : Json) : Prop :=
  ∃ value first rest, Blanks text first ∧ Value value first rest ∧ Closes outer value rest result

/-- The text starts with a field after others of an object. -/
def BeginsField (before : List (List Piece × Json)) (outer : List Frame) (text : List Char)
    (result : Json) : Prop :=
  ∃ name value rest,
    Field name value text rest ∧ Closes (.object before name :: outer) value rest result

namespace Reader

/-- The texts from which a reader gets the result. -/
def Expects (result : Json) : Reader → List Char → Prop
  | .awaitValue outer, text => Begins outer text result
  | .itemOrEnd outer, text =>
      (∃ rest, Blanks text (']' :: rest) ∧ Closes outer (.array []) rest result) ∨
        Begins (.array [] :: outer) text result
  | .nameOrEnd outer, text =>
      (∃ rest, Blanks text ('}' :: rest) ∧ Closes outer (.object []) rest result) ∨
        BeginsField [] outer text result
  | .awaitName fields outer, text => BeginsField fields outer text result
  | .awaitColon fields name outer, text =>
      ∃ next, Blanks text (':' :: next) ∧ Begins (.object fields name :: outer) next result
  | .complete value outer, text => Closes outer value text result

/-- What a first token has to be: one that the reader takes, in front of what is expected then. -/
def ExpectsToken (result : Json) (reader : Reader) : Option (Option (Token × List Char)) → Prop
  | none => False
  | some none => reader.result? = some result
  | some (some (token, rest)) =>
      ∃ later, reader.step? token = some later ∧ later.Expects result rest

end Reader

/-! ### A token taken off -/

theorem Blanks.ends {first : List Char} (blanks : Blanks text first) (ends : Numeral.Ends first) :
    Numeral.Ends text := by
  cases blanks with
  | none => exact ends
  | more space =>
      apply Numeral.ends_cons
      refine ⟨?_, ?_⟩
      · intro digit
        rw [Numeral.not_space_of_digit digit] at space
        cases space
      · refine ⟨?_, ?_, ?_⟩ <;>
        · rintro rfl
          cases space

theorem Closes.ends {value : Json} (closes : Closes outer value text result) :
    Numeral.Ends text := by
  cases outer with
  | nil => exact closes.1.ends Numeral.ends_nil
  | cons frame outer =>
      cases frame with
      | array before =>
          obtain ⟨items, rest, more, -⟩ := closes
          cases more with
          | close blanks => exact blanks.ends (Numeral.ends_cons (by decide))
          | more comma => exact comma.ends (Numeral.ends_cons (by decide))
      | object before name =>
          obtain ⟨fields, rest, more, -⟩ := closes
          cases more with
          | close blanks => exact blanks.ends (Numeral.ends_cons (by decide))
          | more comma => exact comma.ends (Numeral.ends_cons (by decide))

/-- A token behind blanks comes first, provided that a number ends where it should. -/
theorem next_of_lexeme {first : List Char} (blanks : Blanks text first)
    (lexeme : Lexeme token first rest)
    (ends : Numeral.Ends rest ∨ ∀ literal, token ≠ .number literal) :
    Token.next? text = some (some (token, rest)) := by
  rw [next_of_blanks blanks]
  exact lexeme_next lexeme ends

/-- Where a value begins, there is a token that begins it. -/
theorem begins_token (begins : Begins outer text result) :
    ∃ token rest later, Token.next? text = some (some (token, rest)) ∧ token ≠ .closeArray ∧
      Reader.begin? outer token = some later ∧ later.Expects result rest := by
  obtain ⟨value, first, rest, blanks, holds, closes⟩ := begins
  have ends := closes.ends
  cases holds with
  | null => exact ⟨_, _, _, next_of_lexeme blanks (.null _) (.inl ends), nofun, rfl, closes⟩
  | yes => exact ⟨_, _, _, next_of_lexeme blanks (.yes _) (.inl ends), nofun, rfl, closes⟩
  | no => exact ⟨_, _, _, next_of_lexeme blanks (.no _) (.inl ends), nofun, rfl, closes⟩
  | number number =>
      exact ⟨_, _, _, next_of_lexeme blanks (.number number) (.inl ends), nofun, rfl, closes⟩
  | string body =>
      exact ⟨_, _, _, next_of_lexeme blanks (.string body) (.inl ends), nofun, rfl, closes⟩
  | emptyArray inside =>
      refine ⟨_, _, _, next_of_lexeme blanks (.openArray _) (.inr nofun), nofun, rfl, ?_⟩
      exact .inl ⟨rest, inside, closes⟩
  | array inside value others =>
      refine ⟨_, _, _, next_of_lexeme blanks (.openArray _) (.inr nofun), nofun, rfl, ?_⟩
      exact .inr ⟨_, _, _, inside, value, _, rest, others, closes⟩
  | emptyObject inside =>
      refine ⟨_, _, _, next_of_lexeme blanks (.openObject _) (.inr nofun), nofun, rfl, ?_⟩
      exact .inl ⟨rest, inside, closes⟩
  | object field others =>
      refine ⟨_, _, _, next_of_lexeme blanks (.openObject _) (.inr nofun), nofun, rfl, ?_⟩
      exact .inr ⟨_, _, _, field, _, rest, others, closes⟩

theorem begins_field_token {before : List (List Piece × Json)}
    (begins : BeginsField before outer text result) :
    ∃ name rest, Token.next? text = some (some (.string name, rest)) ∧
      (Reader.awaitColon before name outer).Expects result rest := by
  obtain ⟨name, value, rest, field, closes⟩ := begins
  cases field with
  | named quote spelled colon blanks holds =>
      refine ⟨name, _, next_of_lexeme quote (.string spelled) (.inr nofun), ?_⟩
      exact ⟨_, colon, _, _, _, blanks, holds, closes⟩

theorem closes_token {value : Json} (closes : Closes outer value text result) :
    (Reader.complete value outer).ExpectsToken result (Token.next? text) := by
  cases outer with
  | nil =>
      obtain ⟨blanks, same⟩ := closes
      rw [next_none_iff.mpr blanks]
      exact congrArg some same
  | cons frame outer =>
      cases frame with
      | array before =>
          obtain ⟨items, rest, more, outside⟩ := closes
          cases more with
          | close blanks =>
              rw [next_of_lexeme blanks (.closeArray _) (.inr nofun)]
              rw [← List.reverse_cons] at outside
              exact ⟨_, rfl, outside⟩
          | more comma blanks holds others =>
              rw [next_of_lexeme comma (.comma _) (.inr nofun)]
              refine ⟨_, rfl, _, _, _, blanks, holds, _, rest, others, ?_⟩
              rw [List.reverse_cons, List.append_assoc]
              exact outside
      | object before name =>
          obtain ⟨fields, rest, more, outside⟩ := closes
          cases more with
          | close blanks =>
              rw [next_of_lexeme blanks (.closeObject _) (.inr nofun)]
              rw [← List.reverse_cons] at outside
              exact ⟨_, rfl, outside⟩
          | more comma first others =>
              rw [next_of_lexeme comma (.comma _) (.inr nofun)]
              refine ⟨_, rfl, _, _, _, first, _, rest, others, ?_⟩
              rw [List.reverse_cons, List.append_assoc]
              exact outside

theorem expects_token {reader : Reader} (expects : reader.Expects result text) :
    reader.ExpectsToken result (Token.next? text) := by
  cases reader with
  | awaitValue outer =>
      obtain ⟨token, rest, later, next, -, begun, further⟩ := begins_token expects
      rw [next]
      exact ⟨later, begun, further⟩
  | itemOrEnd outer =>
      cases expects with
      | inl ended =>
          obtain ⟨rest, blanks, closes⟩ := ended
          rw [next_of_lexeme blanks (.closeArray _) (.inr nofun)]
          exact ⟨_, rfl, closes⟩
      | inr begins =>
          obtain ⟨token, rest, later, next, noEnd, begun, further⟩ := begins_token begins
          rw [next]
          refine ⟨later, ?_, further⟩
          rw [Reader.step?]
          · exact begun
          · exact noEnd
  | nameOrEnd outer =>
      cases expects with
      | inl ended =>
          obtain ⟨rest, blanks, closes⟩ := ended
          rw [next_of_lexeme blanks (.closeObject _) (.inr nofun)]
          exact ⟨_, rfl, closes⟩
      | inr begins =>
          obtain ⟨name, rest, next, further⟩ := begins_field_token begins
          rw [next]
          exact ⟨_, rfl, further⟩
  | awaitName fields outer =>
      obtain ⟨name, rest, next, further⟩ := begins_field_token expects
      rw [next]
      exact ⟨_, rfl, further⟩
  | awaitColon fields name outer =>
      obtain ⟨next, blanks, begins⟩ := expects
      rw [next_of_lexeme blanks (.colon _) (.inr nofun)]
      exact ⟨_, rfl, begins⟩
  | complete value outer => exact closes_token expects

/-! ### A token put in front -/

variable {first : List Char} {later : Reader}

/-- A token that begins a value, in front of what is expected then. -/
theorem begins_of_token (blanks : Blanks text first) (lexeme : Lexeme token first rest)
    (begun : Reader.begin? outer token = some later) (expects : later.Expects result rest) :
    Begins outer text result := by
  cases lexeme with
  | null =>
      cases begun
      exact ⟨_, _, _, blanks, .null _, expects⟩
  | yes =>
      cases begun
      exact ⟨_, _, _, blanks, .yes _, expects⟩
  | no =>
      cases begun
      exact ⟨_, _, _, blanks, .no _, expects⟩
  | number number =>
      cases begun
      exact ⟨_, _, _, blanks, .number number, expects⟩
  | string body =>
      cases begun
      exact ⟨_, _, _, blanks, .string body, expects⟩
  | openArray =>
      cases begun
      cases expects with
      | inl ended =>
          obtain ⟨behind, inside, closes⟩ := ended
          exact ⟨_, _, _, blanks, .emptyArray inside, closes⟩
      | inr begins =>
          obtain ⟨item, start, after, inside, holds, items, behind, others, closes⟩ := begins
          exact ⟨_, _, _, blanks, .array inside holds others, closes⟩
  | openObject =>
      cases begun
      cases expects with
      | inl ended =>
          obtain ⟨behind, inside, closes⟩ := ended
          exact ⟨_, _, _, blanks, .emptyObject inside, closes⟩
      | inr begins =>
          obtain ⟨name, value, after, field, fields, behind, others, closes⟩ := begins
          exact ⟨_, _, _, blanks, .object field others, closes⟩
  | closeArray | closeObject | colon | comma => cases begun

theorem begins_field_of_token {before : List (List Piece × Json)} {name : List Piece}
    (blanks : Blanks text first) (lexeme : Lexeme (.string name) first rest)
    (expects : (Reader.awaitColon before name outer).Expects result rest) :
    BeginsField before outer text result := by
  cases lexeme with
  | string body =>
      obtain ⟨next, colon, value, start, behind, inside, holds, closes⟩ := expects
      exact ⟨name, value, behind, .named blanks body colon inside holds, closes⟩

theorem closes_of_token {value : Json} (blanks : Blanks text first)
    (lexeme : Lexeme token first rest)
    (step : (Reader.complete value outer).step? token = some later)
    (expects : later.Expects result rest) : Closes outer value text result := by
  cases outer with
  | nil => cases step
  | cons frame outer =>
      cases frame with
      | array before =>
          cases lexeme with
          | closeArray =>
              cases step
              refine ⟨[], _, .close blanks, ?_⟩
              rw [← List.reverse_cons]
              exact expects
          | comma =>
              cases step
              obtain ⟨item, start, after, inside, holds, items, behind, others, closes⟩ := expects
              refine ⟨item :: items, behind, .more blanks inside holds others, ?_⟩
              rw [List.reverse_cons, List.append_assoc] at closes
              exact closes
          | openArray | openObject | closeObject | colon | null | yes | no | number | string =>
              cases step
      | object before name =>
          cases lexeme with
          | closeObject =>
              cases step
              refine ⟨[], _, .close blanks, ?_⟩
              rw [← List.reverse_cons]
              exact expects
          | comma =>
              cases step
              obtain ⟨next, item, after, field, fields, behind, others, closes⟩ := expects
              refine ⟨(next, item) :: fields, behind, .more blanks field others, ?_⟩
              rw [List.reverse_cons, List.append_assoc] at closes
              exact closes
          | openArray | openObject | closeArray | colon | null | yes | no | number | string =>
              cases step

theorem expects_of_token {reader : Reader} (found : Token.next? text = some (some (token, rest)))
    (step : reader.step? token = some later) (expects : later.Expects result rest) :
    reader.Expects result text := by
  obtain ⟨first, blanks, lexeme⟩ := next_lexeme found
  cases reader with
  | awaitValue outer => exact begins_of_token blanks lexeme step expects
  | itemOrEnd outer =>
      by_cases ended : token = .closeArray
      · subst ended
        cases step
        cases lexeme
        exact .inl ⟨rest, blanks, expects⟩
      · rw [Reader.step?] at step
        · exact .inr (begins_of_token blanks lexeme step expects)
        · exact ended
  | nameOrEnd outer =>
      cases token with
      | closeObject =>
          cases step
          cases lexeme
          exact .inl ⟨rest, blanks, expects⟩
      | string name =>
          cases step
          exact .inr (begins_field_of_token blanks lexeme expects)
      | openArray | closeArray | openObject | colon | comma | null | bool | number => cases step
  | awaitName fields outer =>
      cases token with
      | string name =>
          cases step
          exact begins_field_of_token blanks lexeme expects
      | openArray | closeArray | openObject | closeObject | colon | comma | null | bool | number =>
          cases step
  | awaitColon fields name outer =>
      cases lexeme with
      | colon =>
          cases step
          exact ⟨rest, blanks, expects⟩
      | openArray | closeArray | openObject | closeObject | comma | null | yes | no | number
      | string => cases step
  | complete value outer => exact closes_of_token blanks lexeme step expects

/-! ### Runs -/

theorem expects_of_result {reader : Reader} (blanks : Blanks text [])
    (done : reader.result? = some result) : reader.Expects result text := by
  cases reader with
  | complete value outer =>
      cases outer with
      | nil => exact ⟨blanks, Option.some.inj done⟩
      | cons frame outer => cases done
  | awaitValue | itemOrEnd | nameOrEnd | awaitName | awaitColon => cases done

/-- A reader expects a text exactly if it takes the first token and then expects the rest. -/
theorem expects_iff (reader : Reader) :
    reader.Expects result text ↔ reader.ExpectsToken result (Token.next? text) := by
  refine ⟨expects_token, fun expects => ?_⟩
  cases found : Token.next? text with
  | none =>
      rw [found] at expects
      cases expects
  | some next =>
      rw [found] at expects
      cases next with
      | none => exact expects_of_result (next_none_iff.mp found) expects
      | some token =>
          obtain ⟨later, step, further⟩ := expects
          exact expects_of_token found step further

/-- A run gives a result exactly if its text is expected for it. The induction is on the tokens. -/
theorem run_iff_expects (reader : Reader) (text : List Char) (result : Json) :
    reader.run? text = some result ↔ reader.Expects result text := by
  fun_induction Reader.run? reader text with
  | case1 reader text found =>
      rw [expects_iff, found]
      exact ⟨nofun, False.elim⟩
  | case2 reader text found =>
      rw [expects_iff, found]
      exact Iff.rfl
  | case3 reader text token rest found refused =>
      rw [expects_iff, found]
      refine ⟨nofun, fun expects => ?_⟩
      obtain ⟨later, step, -⟩ := expects
      rw [refused] at step
      cases step
  | case4 reader text token rest found later step induction =>
      rw [expects_iff, found, induction]
      refine ⟨fun further => ⟨later, step, further⟩, fun expects => ?_⟩
      obtain ⟨other, stepped, further⟩ := expects
      rw [step] at stepped
      cases stepped
      exact further

/-- A text is read as a value exactly if it is a document of this value. -/
theorem parse_iff_document (text : String) (value : Json) :
    parse? text = some value ↔ Document value text.toList := by
  rw [parse?, run_iff_expects]
  constructor
  · intro begins
    obtain ⟨found, first, rest, before, holds, behind, same⟩ := begins
    rw [same] at holds
    exact .padded before holds behind
  · intro document
    cases document with
    | padded before holds behind => exact ⟨value, _, _, before, holds, behind, rfl⟩

end Sema.Json
