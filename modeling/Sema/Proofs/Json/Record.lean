import Sema.Json.Record
import Mathlib.Data.List.Nodup

/-!
# Records read back

What the decoders of the library find in a value that was put together from texts, words, lists and
records with distinct field names. Most of it is for the simplifier, which takes a decoder through a
written record field by field.
-/

namespace Sema

theorem Piece.chars_map_char (chars : List Char) : chars? (chars.map .char) = some chars := by
  induction chars with
  | nil => rfl
  | cons char chars induction => rw [List.map_cons, chars?, induction, Option.map_some]

@[simp] theorem Piece.text_ofText (text : String) : text? (ofText text) = some text := by
  rw [text?, ofText, chars_map_char, Option.map_some, String.ofList_toList]

namespace Json

variable {Value : Type}

@[simp] theorem string_text (value : String) : (text value).string? = some value :=
  Piece.text_ofText value

@[simp] theorem bool_bool (value : Bool) : (bool value).bool? = some value := rfl

@[simp] theorem word_nat (value : UInt64) : (nat value.toNat).word? = some value := by
  have bound := value.toNat_lt
  simp [word?, nat, Numeral.toNat?, Numeral.ofNat, bound]

@[simp] theorem required_some (decode : Json → Option Value) (json : Json) :
    required? decode (some json) = decode json := rfl

section Lists

variable {Item Place Found : Type} {items : List Item} {place : Item → Place}

theorem mapM_placed {read : Place → Option Found} {found : Item → Found}
    (each : ∀ item ∈ items, read (place item) = some (found item)) :
    (items.map place).mapM read = some (items.map found) := by
  induction items with
  | nil => rfl
  | cons item items induction =>
      have first := each item List.mem_cons_self
      have others := induction fun later member => each later (.tail _ member)
      rw [List.map_cons, List.mapM_cons, first, others]
      rfl

/-- If every item comes back from where it was put, so does the list of them. -/
theorem mapM_back {read : Place → Option Item}
    (each : ∀ item ∈ items, read (place item) = some item) :
    (items.map place).mapM read = some items := by
  have all : (items.map place).mapM read = some (items.map fun item => item) := mapM_placed each
  rwa [List.map_id'] at all

end Lists

@[simp] theorem optionalSlot_some (decode : Json → Option Value) (json : Json) :
    optionalSlot? decode (some json) = optional? decode json := rfl

@[simp] theorem optional_null (decode : Json → Option Value) : optional? decode .null = some none :=
  rfl

theorem record_ne_null (fields : List (String × Json)) : record fields ≠ .null := nofun

theorem optional_decoded {decode : Json → Option Value} {json : Json} {value : Value}
    (decoded : decode json = some value) (present : json ≠ .null) :
    optional? decode json = some (some value) := by
  rw [optional?]
  · rw [decoded, Option.map_some]
  · exact present

/-! ### Fields -/

theorem named_record (fields : List (String × Json)) :
    named? (fields.map fun (name, value) => (Piece.ofText name, value)) = some fields := by
  apply mapM_back
  intro field _
  simp

theorem filter_named {fields : List (String × Json)} (distinct : (fields.map Prod.fst).Nodup)
    {field : String × Json} (member : field ∈ fields) :
    (fields.filter fun other => other.1 == field.1) = [field] := by
  induction fields with
  | nil => cases member
  | cons first fields induction =>
      rw [List.map_cons, List.nodup_cons] at distinct
      obtain ⟨new, distinct⟩ := distinct
      cases List.mem_cons.mp member with
      | inl here =>
          subst here
          have none : (fields.filter fun other => other.1 == field.1) = [] := by
            rw [List.filter_eq_nil_iff]
            intro other later same
            rw [beq_iff_eq] at same
            exact new (same ▸ List.mem_map_of_mem later)
          rw [List.filter_cons, if_pos (beq_self_eq_true _), none]
      | inr later =>
          rw [List.filter_cons_of_neg, induction distinct later]
          intro same
          rw [beq_iff_eq] at same
          exact new (same ▸ List.mem_map_of_mem later)

/-- The slots of a record are its own values in order. -/
@[simp] theorem slots_record {fields : List (String × Json)} {names : List String}
    (named : fields.map Prod.fst = names) (distinct : names.Nodup) :
    (record fields).slots? names = some (fields.map fun field => some field.2) := by
  subst named
  have found : (fields.map Prod.fst).mapM (atMostOnce? fields) =
      some (fields.map fun field => some field.2) := by
    apply mapM_placed
    intro field member
    rw [atMostOnce?, filter_named distinct member]
  rw [record, slots?, named_record]
  exact found

/-! ### Lists -/

@[simp] theorem list_array (decode : Json → Option Value) (items : List Json) :
    list? decode (.array items) = items.mapM decode := rfl

theorem list_ofList {encode : Value → Json} {decode : Json → Option Value}
    (reads : ∀ value, decode (encode value) = some value) (values : List Value) :
    list? decode (ofList encode values) = some values := by
  rw [ofList, list_array]
  exact mapM_back fun value _ => reads value

/-! ### Variants -/

@[simp] theorem variant_with (name : String) (content : Json) :
    (variantWith name content).variant? = some (name, some content) := by
  simp [variantWith, record, variant?]

@[simp] theorem variant_text (name : String) : (text name).variant? = some (name, none) := by
  simp [text, variant?]

/-- Whether the name of a variant with content could stand for an empty one is up to the content. -/
theorem emptyVariant_with (name : String) (content : Json) :
    (variantWith name content).emptyVariant? = none ∨
      (variantWith name content).emptyVariant? = some name := by
  rw [emptyVariant?, variant_with]
  cases content with
  | null => exact .inr rfl
  | bool | number | string | array | object => exact .inl rfl

@[simp] theorem emptyVariant_text (name : String) : (text name).emptyVariant? = some name := by
  rw [emptyVariant?, variant_text]

/-! ### Depths -/

theorem depthOfItems_le {items : List Json} {bound : Nat} (enough : depthOfItems items ≤ bound) :
    ∀ item ∈ items, item.depth ≤ bound := by
  induction items with
  | nil => exact List.forall_mem_nil _
  | cons item items induction =>
      rw [depthOfItems, Nat.max_le] at enough
      exact List.forall_mem_cons.mpr ⟨enough.1, induction enough.2⟩

theorem depthOfFields_le {fields : List (List Piece × Json)} {bound : Nat}
    (enough : depthOfFields fields ≤ bound) : ∀ field ∈ fields, field.2.depth ≤ bound := by
  induction fields with
  | nil => exact List.forall_mem_nil _
  | cons field fields induction =>
      rw [depthOfFields, Nat.max_le] at enough
      exact List.forall_mem_cons.mpr ⟨enough.1, induction enough.2⟩

/-- A bound on the depth of a record bounds the depth of each value. -/
theorem depth_record_le {fields : List (String × Json)} {bound : Nat}
    (enough : (record fields).depth ≤ bound) :
    fields.Forall fun field => field.2.depth ≤ bound := by
  rw [record, depth] at enough
  have each := depthOfFields_le (Nat.le_of_succ_le enough)
  rw [List.forall_mem_map] at each
  exact List.forall_iff_forall_mem.mpr each

theorem depth_array_le {items : List Json} {bound : Nat} (enough : (array items).depth ≤ bound) :
    ∀ item ∈ items, item.depth ≤ bound := by
  rw [depth] at enough
  exact depthOfItems_le (Nat.le_of_succ_le enough)

/-- Around its content a variant takes one level. -/
theorem depth_variant_le {name : String} {content : Json} {bound : Nat}
    (enough : (variantWith name content).depth ≤ bound) :
    ∃ less, bound = less + 1 ∧ content.depth ≤ less := by
  rw [variantWith, record, List.map_singleton, depth, depthOfFields, depthOfFields,
    Nat.max_zero] at enough
  exact ⟨bound - 1, by omega, by omega⟩

end Json

end Sema
