import Mathlib.Data.List.Infix

/-!
# Lines of a text

The lines of a text are what stands before, between and after its line feeds. So a text has one line
more than it has line feeds, and a text that ends in a line feed has an empty last line. Lines that
were joined are read back, if none of them has a line feed of its own.
-/

namespace Sema.Text

def lines (text : String) : List String := (text.toList.splitOn '\n').map String.ofList

/-- The text has no line feed. -/
def OneLine (text : String) : Prop := '\n' ∉ text.toList

instance (text : String) : Decidable (OneLine text) := inferInstanceAs (Decidable (¬ _))

theorem OneLine.append {first second : String} (front : OneLine first) (rest : OneLine second) :
    OneLine (first ++ second) := by
  unfold OneLine
  rw [String.toList_append, List.mem_append]
  exact not_or.mpr ⟨front, rest⟩

theorem length_splitOn {Item : Type} [BEq Item] [LawfulBEq Item] (item : Item)
    (items : List Item) : (items.splitOn item).length = items.count item + 1 := by
  induction items with
  | nil => rfl
  | cons head rest induction =>
      rw [List.splitOn_cons_eq_if_modifyHead, List.count_cons]
      split
      · rw [List.length_cons, induction]
      · rw [List.length_modifyHead, induction]

/-- Each line feed ends a line, and one more line follows the last of them. -/
theorem length_lines (text : String) : (lines text).length = text.toList.count '\n' + 1 := by
  rw [lines, List.length_map, length_splitOn]

theorem lines_joined {joined : List String} (present : joined ≠ [])
    (apart : ∀ line ∈ joined, OneLine line) : lines ("\n".intercalate joined) = joined := by
  have chars : ("\n".intercalate joined).toList = ['\n'].intercalate (joined.map String.toList) :=
    String.toList_intercalate
  have read : ("\n".intercalate joined).toList.splitOn '\n' = joined.map String.toList := by
    rw [chars]
    apply List.splitOn_intercalate
    · exact List.forall_mem_map.mpr apart
    · exact fun empty => present (List.map_eq_nil_iff.mp empty)
  rw [lines, read, List.map_map]
  calc joined.map (String.ofList ∘ String.toList)
      = joined.map id := List.map_congr_left fun line _ => String.ofList_toList
    _ = joined := List.map_id joined

/-- Lines that are each ended by a line feed are followed by an empty one. -/
theorem join_ended (ended : List String) :
    String.join (ended.map fun line => line ++ "\n") = "\n".intercalate (ended ++ [""]) := by
  induction ended with
  | nil => rfl
  | cons line rest induction =>
      have more : rest ++ [""] ≠ [] := List.append_ne_nil_of_right_ne_nil _ (List.cons_ne_nil _ _)
      rw [List.map_cons, String.join_cons, induction, List.cons_append,
        String.intercalate_cons_of_ne_nil more]

theorem lines_ended {ended : List String} (apart : ∀ line ∈ ended, OneLine line) :
    lines (String.join (ended.map fun line => line ++ "\n")) = ended ++ [""] := by
  rw [join_ended]
  apply lines_joined
  · exact List.append_ne_nil_of_right_ne_nil _ (List.cons_ne_nil _ _)
  · exact List.forall_mem_append.mpr ⟨apart, by decide⟩

end Sema.Text
