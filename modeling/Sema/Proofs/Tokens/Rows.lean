import Sema.Proofs.Symbols.Frame
import Sema.Proofs.Text.Lines
import Sema.Proofs.Text.Words
import Sema.Tokens.Table

/-!
# Rows of the token table

A lexeme is collapsed before it is shown, so a row is one line whatever the lexeme is, and the table
has as many rows as there are tokens. Cells that are not too wide are filled up to the widths of
their columns, which puts the bars of each row under the crosses of the rule.
-/

namespace Sema.TokenTable

/-- The table of tokens that are added one after another. -/
def ofAdded (tokens : List TokenEntry) : String :=
  render (tokens.foldl Symbols.addToken Symbols.empty).tokens

/-- No cell of the row is wider than its column. -/
structure Fits (number : Nat) (token : TokenEntry) : Prop where
  number : (toString number).length ≤ 4
  kind : token.kind.length ≤ 19
  lexeme : (Text.collapse token.lexeme).length ≤ 22
  line : (toString token.line.toNat).length ≤ 4
  column : (toString token.column.toNat).length ≤ 6

/-- The line has the width of the table, with bars at the places where the rule has crosses. -/
structure Aligned (line : String) : Prop where
  width : line.length = 68
  bars : ∀ offset : Nat, rule.toList[offset]? = some '+' → line.toList[offset]? = some '|'

/-! ### Lines of the table -/

theorem ofAdded_eq (tokens : List TokenEntry) : ofAdded tokens = render tokens := by
  rw [ofAdded, Symbols.addTokens_eq]
  rfl

theorem length_rowsFrom (start : Nat) (tokens : List TokenEntry) :
    (rowsFrom start tokens).length = tokens.length := by
  induction tokens generalizing start with
  | nil => rfl
  | cons token rest induction => exact congrArg Nat.succ (induction (start + 1))

theorem getElem?_rowsFrom {start index : Nat} {tokens : List TokenEntry} {token : TokenEntry}
    (found : tokens[index]? = some token) :
    (rowsFrom start tokens)[index]? = some (tokenRow (start + index) token) := by
  induction tokens generalizing start index with
  | nil => cases found
  | cons first rest induction =>
      cases index with
      | zero =>
          cases found
          rfl
      | succ index =>
          rw [rowsFrom, List.getElem?_cons_succ, induction found, Nat.add_right_comm]
          rfl

theorem oneLine_spaces (count : Nat) : Text.OneLine (Text.spaces count) := by
  intro member
  rw [Text.spaces, String.toList_ofList] at member
  cases List.eq_of_mem_replicate member

theorem oneLine_toString (value : Nat) : Text.OneLine (toString value) := by
  intro member
  rw [Nat.toString_eq_repr, Nat.toList_repr] at member
  have digit := Nat.isDigit_of_mem_toDigits (by decide) (by decide) member
  cases digit

theorem oneLine_collapse (text : String) : Text.OneLine (Text.collapse text) :=
  Text.not_mem_collapse (by decide) (by decide) text

theorem oneLine_row {number kind lexeme line column : String} (first : Text.OneLine number)
    (second : Text.OneLine kind) (third : Text.OneLine lexeme) (fourth : Text.OneLine line)
    (fifth : Text.OneLine column) : Text.OneLine (row number kind lexeme line column) := by
  have left {width : Nat} {cell : String} (own : Text.OneLine cell) :
      Text.OneLine (Text.padRight width cell) := own.append (oneLine_spaces _)
  have right {width : Nat} {cell : String} (own : Text.OneLine cell) :
      Text.OneLine (Text.padLeft width cell) := (oneLine_spaces _).append own
  have bar : Text.OneLine " | " := by decide
  have space : Text.OneLine " " := by decide
  exact ((((((((space.append (left first)).append bar).append (left second)).append bar).append
    (left third)).append bar).append (right fourth)).append bar).append (right fifth)

theorem oneLine_rowsFrom {tokens : List TokenEntry}
    (apart : ∀ token ∈ tokens, Text.OneLine token.kind) (start : Nat) :
    ∀ line ∈ rowsFrom start tokens, Text.OneLine line := by
  induction tokens generalizing start with
  | nil => exact fun line member => nomatch member
  | cons token rest induction =>
      obtain ⟨own, others⟩ := List.forall_mem_cons.mp apart
      have first : Text.OneLine (tokenRow start token) :=
        oneLine_row (oneLine_toString _) own (oneLine_collapse _) (oneLine_toString _)
          (oneLine_toString _)
      exact List.forall_mem_cons.mpr ⟨first, induction others (start + 1)⟩

theorem lines_render {tokens : List TokenEntry}
    (apart : ∀ token ∈ tokens, Text.OneLine token.kind) :
    Text.lines (render tokens) = lines tokens := by
  have above : ∀ line ∈ [title, header, rule], Text.OneLine line := by decide
  have below : ∀ line ∈ [rule], Text.OneLine line := by decide
  apply Text.lines_joined (List.cons_ne_nil _ _)
  exact List.forall_mem_append.mpr
    ⟨above, List.forall_mem_append.mpr ⟨oneLine_rowsFrom apart 1, below⟩⟩

theorem length_lines (tokens : List TokenEntry) : (lines tokens).length = tokens.length + 4 := by
  simp [lines, length_rowsFrom]

/-- Three lines stand above the rows. -/
theorem row_shown {tokens : List TokenEntry} {index : Nat} {token : TokenEntry}
    (found : tokens[index]? = some token) :
    (lines tokens)[index + 3]? = some (tokenRow (index + 1) token) := by
  have within : index < (rowsFrom 1 tokens).length := by
    rw [length_rowsFrom]
    exact (List.getElem?_eq_some_iff.mp found).1
  change (rowsFrom 1 tokens ++ [rule])[index]? = _
  rw [List.getElem?_append_left within, getElem?_rowsFrom found, Nat.add_comm]

theorem joined_last (front : List String) (last : String) :
    ∃ text, "\n".intercalate (front ++ [last]) = text ++ last := by
  induction front with
  | nil => exact ⟨"", by simp⟩
  | cons line rest induction =>
      obtain ⟨text, joined⟩ := induction
      have more : rest ++ [last] ≠ [] :=
        List.append_ne_nil_of_right_ne_nil _ (List.cons_ne_nil _ _)
      refine ⟨line ++ "\n" ++ text, ?_⟩
      rw [List.cons_append, String.intercalate_cons_of_ne_nil more, joined]
      simp only [String.append_assoc]

theorem render_last (tokens : List TokenEntry) : (render tokens).toList.getLast? = some '-' := by
  obtain ⟨text, joined⟩ := joined_last (title :: header :: rule :: rowsFrom 1 tokens) rule
  have shown : render tokens = text ++ rule := joined
  have last : rule.toList.getLast? = some '-' := by decide
  rw [shown, String.toList_append, List.getLast?_append, last]
  rfl

/-! ### Cells and bars -/

/-- A part of a row: its width and the places of its bars. -/
structure Barred (line : String) (width : Nat) (bars : List Nat) : Prop where
  width : line.length = width
  bars : ∀ place ∈ bars, line.toList[place]? = some '|'

/-- One more cell puts one more bar after a line, and leaves those before it in their places. -/
theorem Barred.cell {line cell : String} {width next : Nat} {bars : List Nat}
    (barred : Barred line width bars) (own : cell.length = next) :
    Barred (line ++ " | " ++ cell) (width + 3 + next) (bars ++ [width + 1]) := by
  have parts : (line ++ " | " ++ cell).toList =
      line.toList ++ (' ' :: '|' :: ' ' :: cell.toList) := by
    rw [String.append_assoc, String.toList_append, String.toList_append]
    rfl
  have front : line.toList.length = width := String.length_toList.trans barred.width
  constructor
  · rw [← String.length_toList, parts, List.length_append, front, ← own, ← String.length_toList]
    simp only [List.length_cons]
    omega
  · intro place member
    rw [parts]
    cases List.mem_append.mp member with
    | inl earlier =>
        have there := barred.bars place earlier
        rw [List.getElem?_append_left (List.getElem?_eq_some_iff.mp there).1, there]
    | inr last =>
        rw [List.mem_singleton.mp last, ← front, List.getElem?_append_right (Nat.le_add_right _ 1),
          Nat.add_sub_cancel_left]
        rfl

theorem length_padRight {width : Nat} {cell : String} (fits : cell.length ≤ width) :
    (Text.padRight width cell).length = width := by
  rw [Text.padRight, Text.spaces, String.length_append, String.length_ofList,
    List.length_replicate]
  omega

theorem length_padLeft {width : Nat} {cell : String} (fits : cell.length ≤ width) :
    (Text.padLeft width cell).length = width := by
  rw [Text.padLeft, Text.spaces, String.length_append, String.length_ofList,
    List.length_replicate]
  omega

/-- After a cell comes a space, which is that of the bar if the cell fills its column. -/
theorem padRight_start (width : Nat) (cell : String) :
    ∃ rest, Text.padRight width cell ++ " | " = cell ++ " " ++ rest := by
  unfold Text.padRight
  cases width - cell.length with
  | zero => exact ⟨"| ", by simp only [String.append_assoc]; rfl⟩
  | succ more =>
      have first : Text.spaces (more + 1) = " " ++ Text.spaces more := by
        apply String.toList_inj.mp
        simp [Text.spaces, List.replicate_succ]
      exact ⟨Text.spaces more ++ " | ", by rw [first]; simp only [String.append_assoc]⟩

theorem row_start (number kind lexeme line column : String) :
    ∃ rest, row number kind lexeme line column = " " ++ number ++ " " ++ rest := by
  obtain ⟨rest, same⟩ := padRight_start 4 number
  refine ⟨rest ++ Text.padRight 19 kind ++ " | " ++ Text.padRight 22 lexeme ++ " | " ++
    Text.padLeft 4 line ++ " | " ++ Text.padLeft 6 column, ?_⟩
  rw [row, @String.append_assoc " ", same]
  simp only [String.append_assoc]

/-- The crosses of the rule. -/
theorem cross_places :
    ∀ offset < 69, rule.toList[offset]? = some '+' → offset ∈ [6, 28, 53, 60] := by
  decide +kernel

theorem aligned_row {number kind lexeme line column : String} (first : number.length ≤ 4)
    (second : kind.length ≤ 19) (third : lexeme.length ≤ 22) (fourth : line.length ≤ 4)
    (fifth : column.length ≤ 6) : Aligned (row number kind lexeme line column) := by
  have start : Barred (" " ++ Text.padRight 4 number) 5 [] := by
    constructor
    · rw [String.length_append, length_padRight first]
      rfl
    · exact fun place member => nomatch member
  have barred := (((start.cell (length_padRight second)).cell (length_padRight third)).cell
    (length_padLeft fourth)).cell (length_padLeft fifth)
  constructor
  · exact barred.width
  · intro offset cross
    apply barred.bars
    exact cross_places offset (List.getElem?_eq_some_iff.mp cross).1 cross

/-- The table has one row for each token, in the order in which the tokens were added, whatever
their lexemes, lines and columns are. Rows whose cells fit have the same width and their bars under
the four crosses of the rule. -/
theorem rows_of_tokens (tokens : List TokenEntry)
    (apart : ∀ token ∈ tokens, Text.OneLine token.kind) :
    (Text.lines (ofAdded tokens)).length = tokens.length + 4 ∧
      (ofAdded tokens).toList.count '\n' = tokens.length + 3 ∧
      (ofAdded tokens).toList.getLast? ≠ some '\n' ∧
      (Text.lines (ofAdded tokens))[2]? = some rule ∧ rule.toList.count '+' = 4 ∧
      ∀ index token, tokens[index]? = some token →
        (Text.lines (ofAdded tokens))[index + 3]? = some (tokenRow (index + 1) token) ∧
        (∃ rest, tokenRow (index + 1) token = " " ++ toString (index + 1) ++ " " ++ rest) ∧
        (Fits (index + 1) token → Aligned (tokenRow (index + 1) token)) := by
  have shown : Text.lines (ofAdded tokens) = lines tokens := by
    rw [ofAdded_eq, lines_render apart]
  have counted := Text.length_lines (ofAdded tokens)
  rw [shown, length_lines] at counted
  rw [shown]
  refine ⟨length_lines tokens, (Nat.succ.inj counted).symm, ?_, rfl, by decide, ?_⟩
  · rw [ofAdded_eq, render_last]
    decide
  · intro index token found
    refine ⟨row_shown found, row_start _ _ _ _ _, ?_⟩
    intro fits
    exact aligned_row fits.number fits.kind fits.lexeme fits.line fits.column

/-- A lexeme on several lines. The second row is too wide. -/
def commented : List TokenEntry :=
  [⟨"COMMENT", "/* two\r\n lines\u2028 */", 2, 3⟩, ⟨"A KIND OF MANY CHARACTERS", "", 9999, 1234567⟩]

theorem rows_of_commented :
    (∀ token ∈ commented, Text.OneLine token.kind) ∧
      (Text.lines (ofAdded commented)).length = 6 ∧
      (Text.lines (ofAdded commented))[3]? =
        some " 1    | COMMENT             | /* two lines */        |    2 |      3" ∧
      Aligned " 1    | COMMENT             | /* two lines */        |    2 |      3" := by
  have apart : ∀ token ∈ commented, Text.OneLine token.kind := by decide
  obtain ⟨count, -, -, -, -, rows⟩ := rows_of_tokens commented apart
  have first := rows 0 ⟨"COMMENT", "/* two\r\n lines\u2028 */", 2, 3⟩ rfl
  have shown : tokenRow 1 ⟨"COMMENT", "/* two\r\n lines\u2028 */", 2, 3⟩ =
      " 1    | COMMENT             | /* two lines */        |    2 |      3" := by decide
  have fits : Fits 1 ⟨"COMMENT", "/* two\r\n lines\u2028 */", 2, 3⟩ := by
    constructor <;> decide
  rw [shown] at first
  exact ⟨apart, count, first.1, first.2.2 fits⟩

end Sema.TokenTable
