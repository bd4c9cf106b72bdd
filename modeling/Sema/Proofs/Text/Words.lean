import Sema.Text.Blank
import Mathlib.Data.List.Chain
import Mathlib.Data.List.Sort

/-!
# Words and white space

What the words of a text are is said by their places: a word is a run without white space that no
character beside it prolongs. A text that is split at white space has the words of its two parts,
and from this one equation follows that collapsing a text keeps its words and nothing else of it.
-/

namespace Sema.Text

/-- A word that starts at a place of a text, a longest run without white space. -/
structure WordAt (text : List Char) (start : Nat) (word : List Char) : Prop where
  place : ∃ front rest, text = front ++ (word ++ rest) ∧ front.length = start ∧
    (∀ char ∈ front.getLast?, isBlank char = true) ∧ ∀ char ∈ rest.head?, isBlank char = true
  present : word ≠ []
  solid : ∀ char ∈ word, isBlank char = false

/-- All words of a text, each once, in the order of their places. -/
def WordSequence (text : List Char) (sequence : List (List Char)) : Prop :=
  ∃ placed : List (Nat × List Char), placed.Pairwise (fun first second => first.1 < second.1) ∧
    (∀ start word, (start, word) ∈ placed ↔ WordAt text start word) ∧
    sequence = placed.map Prod.snd

/-- No white space but the space, none at either end, and never two of it side by side. -/
structure Spaced (text : List Char) : Prop where
  plain : ∀ char ∈ text, isBlank char = true → char = ' '
  first : ∀ char ∈ text.head?, isBlank char = false
  last : ∀ char ∈ text.getLast?, isBlank char = false
  single : text.IsChain fun char next => isBlank char = true → isBlank next = false

/-- The characters that end a line: line feed, line tabulation, form feed, carriage return, next
line, and the separators of lines and of paragraphs. -/
def lineBreaks : List Char := ['\n', '\x0b', '\x0c', '\r', '\x85', '\u2028', '\u2029']

/-! ### Texts that are split at white space -/

theorem wordsFrom_split (read front : List Char) {blank : Char} (isSplit : isBlank blank = true)
    (rest : List Char) :
    wordsFrom read (front ++ blank :: rest) = wordsFrom read front ++ words rest := by
  induction front generalizing read with
  | nil => simp [wordsFrom, isSplit, words]
  | cons char front induction =>
      rw [List.cons_append, wordsFrom, wordsFrom]
      split
      · rw [induction, List.append_assoc]
      · exact induction (char :: read)

theorem words_split (front : List Char) {blank : Char} (isSplit : isBlank blank = true)
    (rest : List Char) : words (front ++ blank :: rest) = words front ++ words rest :=
  wordsFrom_split [] front isSplit rest

theorem wordsFrom_solid (read : List Char) {text : List Char}
    (solid : ∀ char ∈ text, isBlank char = false) :
    wordsFrom read text = finished (text.reverse ++ read) := by
  induction text generalizing read with
  | nil => rfl
  | cons char rest induction =>
      obtain ⟨own, others⟩ := List.forall_mem_cons.mp solid
      rw [wordsFrom, if_neg (by simp [own]), induction (char :: read) others]
      simp

/-- A text without white space is one word, unless it is empty. -/
theorem words_solid {word : List Char} (present : word ≠ [])
    (solid : ∀ char ∈ word, isBlank char = false) : words word = [word] := by
  rw [words, wordsFrom_solid [] solid, List.append_nil]
  cases reversed : word.reverse with
  | nil => exact absurd (List.reverse_eq_nil_iff.mp reversed) present
  | cons char rest => rw [finished, ← reversed, List.reverse_reverse]

/-- What holds of texts without white space, and of two texts with white space between them if it
holds of both, holds of every text. -/
theorem blank_induction {motive : List Char → Prop}
    (solid : ∀ text, (∀ char ∈ text, isBlank char = false) → motive text)
    (split : ∀ front blank rest, isBlank blank = true → motive front → motive rest →
      motive (front ++ blank :: rest)) (text : List Char) : motive text := by
  cases found : text.find? isBlank with
  | none =>
      apply solid
      simpa using found
  | some blank =>
      obtain ⟨isSplit, front, rest, parts, before⟩ := List.find?_eq_some_iff_append.mp found
      have shorter : rest.length < text.length := by
        rw [parts, List.length_append, List.length_cons]
        omega
      have later := blank_induction solid split rest
      rw [parts]
      exact split front blank rest isSplit (solid front (by simpa using before)) later
termination_by text.length

theorem mem_words {text word : List Char} (member : word ∈ words text) :
    word ≠ [] ∧ ∀ char ∈ word, isBlank char = false := by
  induction text using blank_induction with
  | solid text solid =>
      by_cases empty : text = []
      · rw [empty] at member
        cases member
      · rw [words_solid empty solid, List.mem_singleton] at member
        rw [member]
        exact ⟨empty, solid⟩
  | split front blank rest isSplit first second =>
      rw [words_split front isSplit] at member
      exact (List.mem_append.mp member).elim first second

/-! ### Places of words -/

theorem word_at_solid {text : List Char} (solid : ∀ char ∈ text, isBlank char = false)
    {start : Nat} {word : List Char} :
    WordAt text start word ↔ start = 0 ∧ word = text ∧ text ≠ [] := by
  constructor
  · intro wordAt
    obtain ⟨front, rest, rfl, rfl, begins, ends⟩ := wordAt.place
    obtain ⟨frontSolid, later⟩ := List.forall_mem_append.mp solid
    obtain ⟨-, restSolid⟩ := List.forall_mem_append.mp later
    have noFront : front = [] := by
      by_contra some
      have last := List.getLast?_eq_some_getLast some
      have blank := begins _ last
      rw [frontSolid _ (List.mem_of_getLast? last)] at blank
      cases blank
    have noRest : rest = [] := by
      cases rest with
      | nil => rfl
      | cons char rest =>
          have blank := ends char rfl
          rw [restSolid char List.mem_cons_self] at blank
          cases blank
    subst noFront noRest
    simpa using wordAt.present
  · rintro ⟨rfl, rfl, present⟩
    exact ⟨⟨[], [], by simp⟩, present, solid⟩

/-- A word does not reach over white space, so it lies on one side of it. -/
theorem word_at_split {front rest : List Char} {blank : Char} (isSplit : isBlank blank = true)
    {start : Nat} {word : List Char} :
    WordAt (front ++ blank :: rest) start word ↔
      WordAt front start word ∨ ∃ inner, start = front.length + 1 + inner ∧
        WordAt rest inner word := by
  constructor
  · intro wordAt
    obtain ⟨before, after, parts, rfl, begins, ends⟩ := wordAt.place
    have noBlank : blank ∉ word := by
      intro inside
      rw [wordAt.solid blank inside] at isSplit
      cases isSplit
    rcases List.append_eq_append_iff.mp parts with ⟨gap, rfl, later⟩ | ⟨gap, rfl, later⟩
    · right
      rcases List.cons_eq_append_iff.mp later with ⟨rfl, starts⟩ | ⟨inner, rfl, rfl⟩
      · obtain ⟨char, tail, rfl⟩ := List.exists_cons_of_ne_nil wordAt.present
        obtain ⟨rfl, -⟩ := List.cons.inj starts
        exact absurd List.mem_cons_self noBlank
      · refine ⟨inner.length, by simp; omega, ⟨inner, after, rfl, rfl, ?_, ends⟩, wordAt.present,
          wordAt.solid⟩
        intro char last
        apply begins
        simp [List.getLast?_append, List.getLast?_cons, Option.mem_def.mp last]
    · left
      rcases List.append_eq_append_iff.mp later with ⟨inner, rfl, rest⟩ | ⟨inner, rfl, rest⟩
      · refine ⟨⟨before, inner, rfl, rfl, begins, ?_⟩, wordAt.present, wordAt.solid⟩
        intro char first
        apply ends
        simp [rest, Option.mem_def.mp first]
      · rcases List.cons_eq_append_iff.mp rest with ⟨rfl, -⟩ | ⟨tail, rfl, -⟩
        · exact ⟨⟨before, [], by simp, rfl, begins, by simp⟩, wordAt.present, wordAt.solid⟩
        · exact absurd (by simp) noBlank
  · rintro (⟨⟨before, after, rfl, rfl, begins, ends⟩, present, solid⟩ |
      ⟨inner, rfl, ⟨before, after, rfl, rfl, begins, ends⟩, present, solid⟩)
    · refine ⟨⟨before, after ++ blank :: rest, by simp, rfl, begins, ?_⟩, present, solid⟩
      cases after with
      | nil => simpa using isSplit
      | cons char after => exact ends
    · refine ⟨⟨front ++ blank :: before, after, by simp, by simp; omega, ?_, ends⟩, present, solid⟩
      rcases List.eq_nil_or_concat before with rfl | ⟨earlier, last, rfl⟩
      · simpa [List.getLast?_append] using isSplit
      · simpa [List.getLast?_append, List.getLast?_cons] using begins

/-- The words that a text is read into are its words. -/
theorem words_sequence (text : List Char) : WordSequence text (words text) := by
  induction text using blank_induction with
  | solid text solid =>
      by_cases empty : text = []
      · refine ⟨[], .nil, ?_, by rw [empty]; rfl⟩
        intro start word
        rw [word_at_solid solid]
        simp [empty]
      · refine ⟨[(0, text)], List.pairwise_singleton _ _, ?_, by rw [words_solid empty solid]; rfl⟩
        intro start word
        rw [word_at_solid solid]
        simp [empty]
  | split front blank rest isSplit first second =>
      obtain ⟨left, leftOrdered, leftPlaces, leftWords⟩ := first
      obtain ⟨right, rightOrdered, rightPlaces, rightWords⟩ := second
      let moved := right.map fun place => (front.length + 1 + place.1, place.2)
      refine ⟨left ++ moved, ?_, ?_, ?_⟩
      · apply List.pairwise_append.mpr
        refine ⟨leftOrdered, ?_, ?_⟩
        · apply List.pairwise_map.mpr
          exact rightOrdered.imp fun before => by simpa using before
        · intro place here other there
          obtain ⟨⟨before, after, parts, start, -⟩, -⟩ := (leftPlaces place.1 place.2).mp here
          obtain ⟨inner, -, rfl⟩ := List.mem_map.mp there
          have within := congrArg List.length parts
          simp only [List.length_append] at within ⊢
          omega
      · intro start word
        rw [word_at_split isSplit, ← leftPlaces, List.mem_append]
        apply or_congr_right
        simp only [moved, List.mem_map, Prod.mk.injEq, Prod.exists, ← rightPlaces]
        constructor
        · rintro ⟨inner, other, member, rfl, rfl⟩
          exact ⟨inner, rfl, member⟩
        · rintro ⟨inner, rfl, member⟩
          exact ⟨inner, word, member, rfl, rfl⟩
      · rw [words_split front isSplit, leftWords, rightWords, List.map_append, List.map_map]
        rfl

/-- There is one sequence only: two lists of the same places in the same order are equal. -/
theorem word_sequence_iff {text : List Char} {sequence : List (List Char)} :
    WordSequence text sequence ↔ sequence = words text := by
  constructor
  · rintro ⟨placed, ordered, places, rfl⟩
    obtain ⟨others, otherOrdered, otherPlaces, sequence⟩ := words_sequence text
    have same : placed = others := by
      apply List.Perm.eq_of_pairwise _ ordered otherOrdered
      · apply (List.perm_ext_iff_of_nodup _ _).mpr
        · intro place
          rw [places, otherPlaces]
        · exact ordered.imp fun before same => by simp [same] at before
        · exact otherOrdered.imp fun before same => by simp [same] at before
      · intro first second _ _ before after
        omega
    rw [same, sequence]
  · rintro rfl
    exact words_sequence text

/-! ### Collapsed texts -/

theorem toList_collapse (text : String) :
    (collapse text).toList = [' '].intercalate (words text.toList) := String.toList_ofList

theorem joined_cons (word next : List Char) (rest : List (List Char)) :
    [' '].intercalate (word :: next :: rest) = word ++ ' ' :: [' '].intercalate (next :: rest) := by
  rw [List.intercalate_cons_cons, List.append_assoc]
  rfl

/-- Words with spaces between them are read into the same words. -/
theorem words_joined {sequence : List (List Char)}
    (solid : ∀ word ∈ sequence, word ≠ [] ∧ ∀ char ∈ word, isBlank char = false) :
    words ([' '].intercalate sequence) = sequence := by
  induction sequence with
  | nil => rfl
  | cons word rest induction =>
      obtain ⟨⟨present, own⟩, others⟩ := List.forall_mem_cons.mp solid
      cases rest with
      | nil => rw [List.intercalate_singleton, words_solid present own]
      | cons next rest =>
          rw [joined_cons, words_split word rfl, induction others, words_solid present own]
          rfl

theorem words_collapse (text : String) : words (collapse text).toList = words text.toList := by
  rw [toList_collapse]
  exact words_joined fun word member => mem_words member

/-- Two texts collapse to the same text if and only if they have the same words. -/
theorem collapse_eq_iff {text other : String} :
    collapse text = collapse other ↔ words text.toList = words other.toList := by
  constructor
  · intro same
    rw [← words_collapse text, same, words_collapse]
  · intro same
    rw [collapse, same]
    rfl

theorem spaced_solid {word : List Char} (solid : ∀ char ∈ word, isBlank char = false) :
    Spaced word where
  plain := by
    intro char member blank
    rw [solid char member] at blank
    cases blank
  first char first := solid char (List.mem_of_mem_head? first)
  last char last := solid char (List.mem_of_getLast? last)
  single := by
    apply List.Pairwise.isChain
    apply List.pairwise_of_forall_mem_list
    intro char _ next member _
    exact solid next member

theorem Spaced.after_word {word rest : List Char} (present : word ≠ [])
    (solid : ∀ char ∈ word, isBlank char = false) (more : rest ≠ []) (spaced : Spaced rest) :
    Spaced (word ++ ' ' :: rest) where
  plain := by
    intro char member blank
    rcases List.mem_append.mp member with inside | after
    · exact (spaced_solid solid).plain char inside blank
    · rcases List.mem_cons.mp after with space | later
      · exact space
      · exact spaced.plain char later blank
  first := by
    intro char first
    obtain ⟨own, tail, rfl⟩ := List.exists_cons_of_ne_nil present
    exact (spaced_solid solid).first char first
  last := by
    intro char last
    obtain ⟨own, tail, rfl⟩ := List.exists_cons_of_ne_nil more
    exact spaced.last char (by simpa [List.getLast?_append, List.getLast?_cons] using last)
  single := by
    apply List.isChain_append.mpr
    refine ⟨(spaced_solid solid).single, List.isChain_cons.mpr ⟨?_, spaced.single⟩, ?_⟩
    · intro next first _
      exact spaced.first next first
    · intro char last _ _ blank
      rw [(spaced_solid solid).last char last] at blank
      cases blank

theorem spaced_joined {sequence : List (List Char)}
    (solid : ∀ word ∈ sequence, word ≠ [] ∧ ∀ char ∈ word, isBlank char = false) :
    Spaced ([' '].intercalate sequence) := by
  induction sequence with
  | nil => exact spaced_solid (by simp)
  | cons word rest induction =>
      obtain ⟨⟨present, own⟩, others⟩ := List.forall_mem_cons.mp solid
      cases rest with
      | nil =>
          rw [List.intercalate_singleton]
          exact spaced_solid own
      | cons next rest =>
          have more : [' '].intercalate (next :: rest) ≠ [] := by
            intro empty
            have read := words_joined others
            rw [empty] at read
            cases read
          rw [joined_cons]
          exact (induction others).after_word present own more

theorem spaced_collapse (text : String) : Spaced (collapse text).toList := by
  rw [toList_collapse]
  exact spaced_joined fun word member => mem_words member

/-- No character of white space but the space is left, so none that ends a line. -/
theorem not_mem_collapse {char : Char} (blank : isBlank char = true) (other : char ≠ ' ')
    (text : String) : char ∉ (collapse text).toList := by
  intro member
  exact other ((spaced_collapse text).plain char member blank)

/-- To collapse a text is to keep its words, with one space between neighbours, and nothing else. -/
theorem collapse_keeps_words (text : String) :
    (∃! sequence, WordSequence text.toList sequence) ∧
      (∀ sequence, WordSequence (collapse text).toList sequence ↔
        WordSequence text.toList sequence) ∧
      Spaced (collapse text).toList ∧
      collapse (collapse text) = collapse text ∧
      (∀ other, collapse text = collapse other ↔
        ∀ sequence, WordSequence text.toList sequence ↔ WordSequence other.toList sequence) ∧
      ∀ char ∈ lineBreaks, char ∉ (collapse text).toList := by
  refine ⟨⟨words text.toList, words_sequence _, fun _ => word_sequence_iff.mp⟩, ?_,
    spaced_collapse text, collapse_eq_iff.mpr (words_collapse text), ?_, ?_⟩
  · intro sequence
    rw [word_sequence_iff, word_sequence_iff, words_collapse]
  · intro other
    rw [collapse_eq_iff]
    constructor
    · intro same sequence
      rw [word_sequence_iff, word_sequence_iff, same]
    · intro same
      exact word_sequence_iff.mp ((same _).mp (words_sequence text.toList))
  · intro char ends
    have each : lineBreaks.all (fun char => isBlank char && char != ' ') = true := by decide
    have known := List.all_eq_true.mp each char ends
    rw [Bool.and_eq_true, bne_iff_ne] at known
    exact not_mem_collapse known.1 known.2 text

/-- Several kinds of white space at both ends and between the words. -/
example : collapse "\u2028 /* a\r\n\tb\u00a0*/\x85" = "/* a b */" := by decide

end Sema.Text
