import Sema.Proofs.Json.Record
import Sema.Proofs.Tree.Form

/-!
# What spells a plain value

A value spells a plain one by the outermost part of this: a text, a word, a list, a record or a
variant. The slots of a record hold what the reader finds in them, and nothing lies deeper in a slot
than in the whole value.
-/

namespace Sema

open Json (string? bool? word? variantWith record)

/-! ### What a value presents -/

section Lists

variable {Item Found : Type}

/-- Two pairs of functions that agree item by item agree on lists. -/
theorem map_eq_map_iff {Image Other : Type} {left : Item → Image} {right : Found → Image}
    {left' : Item → Other} {right' : Found → Other}
    (each : ∀ item found, left item = right found ↔ left' item = right' found)
    (items : List Item) (found : List Found) :
    items.map left = found.map right ↔ items.map left' = found.map right' := by
  induction items generalizing found with
  | nil => cases found <;> simp
  | cons item items induction =>
      cases found with
      | nil => simp
      | cons first others =>
          rw [List.map_cons, List.map_cons, List.map_cons, List.map_cons, List.cons.injEq,
            List.cons.injEq, each, induction]

/-- A function finds something for each item exactly if these are its results one by one. -/
theorem mapM_some_iff {read : Item → Option Found} {items : List Item} {found : List Found} :
    items.mapM read = some found ↔ items.map read = found.map some := by
  induction items generalizing found with
  | nil => cases found <;> simp
  | cons item items induction =>
      cases found with
      | nil => simp [List.mapM_cons, Option.bind_eq_some_iff]
      | cons first others => simp [List.mapM_cons, Option.bind_eq_some_iff, induction]

end Lists

namespace Json

theorem named_isSome {fields : List (List Piece × Json)} :
    (named? fields).isSome = true ↔ ∀ field ∈ fields, (Piece.text? field.1).isSome = true := by
  unfold named?
  induction fields with
  | nil => exact ⟨fun _ => List.forall_mem_nil _, fun _ => rfl⟩
  | cons field fields induction =>
      obtain ⟨key, value⟩ := field
      rw [List.mapM_cons, List.forall_mem_cons, ← induction]
      cases text : Piece.text? key with
      | none => simp [text]
      | some name => simp [text, Option.isSome_iff_exists, Option.bind_eq_some_iff]

/-- The values under a name are found among the named fields. -/
theorem under_named {fields : List (List Piece × Json)} {named : List (String × Json)}
    (found : named? fields = some named) (name : String) :
    (named.filter fun field => field.1 == name).map Prod.snd = under name fields := by
  unfold named? at found
  unfold under
  induction fields generalizing named with
  | nil =>
      cases found
      rfl
  | cons field fields induction =>
      rw [List.mapM_cons] at found
      obtain ⟨first, read, found⟩ := Option.bind_eq_some_iff.mp found
      obtain ⟨others, rest, same⟩ := Option.bind_eq_some_iff.mp found
      obtain ⟨key, text, same'⟩ := Option.map_eq_some_iff.mp read
      cases same
      cases same'
      have later := induction rest
      by_cases here : key = name
      · simp [text, here, later]
      · simp [text, here, later]

theorem atMostOnce_iff {fields : List (List Piece × Json)} {named : List (String × Json)}
    (found : named? fields = some named) (name : String) (slot : Option Json) :
    atMostOnce? named name = some slot ↔ under name fields = slot.toList := by
  rw [← under_named found name]
  unfold atMostOnce?
  cases named.filter fun field => field.1 == name with
  | nil => cases slot <;> simp
  | cons first others =>
      cases others with
      | nil => cases slot <;> simp
      | cons second others => cases slot <;> simp

theorem slots_iff_presents {names : List String} {json : Json} {slots : List (Option Json)} :
    json.slots? names = some slots ↔ json.Presents names slots := by
  cases json with
  | null | bool | number | string => exact ⟨nofun, nofun⟩
  | array items =>
      rw [slots?]
      constructor
      · intro found
        split at found
        · rename_i each
          rw [← Option.some.inj found]
          exact .array each
        · cases found
      · intro presents
        cases presents with
        | array each => exact if_pos each
  | object fields =>
      rw [slots?, Option.bind_eq_bind, Option.bind_eq_some_iff]
      have once : ∀ named, named? fields = some named →
          (names.mapM (atMostOnce? named) = some slots ↔
            names.map (fun name => under name fields) = slots.map Option.toList) := by
        intro named found
        rw [mapM_some_iff]
        exact map_eq_map_iff (atMostOnce_iff found) names slots
      constructor
      · intro found
        obtain ⟨named, keys, found⟩ := found
        have texts := named_isSome.mp (Option.isSome_of_eq_some keys)
        exact .object texts ((once named keys).mp found)
      · intro presents
        cases presents with
        | object keys found =>
            obtain ⟨named, texts⟩ := Option.isSome_iff_exists.mp (named_isSome.mpr keys)
            exact ⟨named, texts, (once named texts).mpr found⟩

theorem slots_length {names : List String} {json : Json} {slots : List (Option Json)}
    (found : json.slots? names = some slots) : slots.length = names.length := by
  cases slots_iff_presents.mp found with
  | array each => rw [List.length_map, each]
  | object keys once =>
      have lengths := congrArg List.length once
      rw [List.length_map, List.length_map] at lengths
      exact lengths.symm

/-- What stands in a slot stands inside the value. -/
theorem slots_depth {names : List String} {json : Json} {slots : List (Option Json)} {bound : Nat}
    (found : json.slots? names = some slots) (enough : json.depth ≤ bound) :
    ∀ slot ∈ slots, ∀ inner ∈ slot, inner.depth ≤ bound := by
  intro slot member inner here
  cases here
  cases slots_iff_presents.mp found with
  | array each =>
      rw [List.mem_map] at member
      obtain ⟨item, inside, same⟩ := member
      cases same
      exact depth_array_le enough inner inside
  | @object fields _ keys once =>
      have given : [inner] ∈ slots.map Option.toList :=
        List.mem_map_of_mem (f := Option.toList) member
      rw [← once, List.mem_map] at given
      obtain ⟨name, -, values⟩ := given
      have present : inner ∈ under name fields := by
        rw [values]
        exact List.mem_singleton_self inner
      obtain ⟨field, kept, same⟩ := List.mem_map.mp present
      rw [depth] at enough
      rw [← same]
      exact depthOfFields_le (Nat.le_of_succ_le enough) field (List.mem_filter.mp kept).1

end Json

/-! ### Plain values -/

namespace Json

theorem text_inj {first second : String} : text first = text second ↔ first = second := by
  refine ⟨fun same => ?_, congrArg text⟩
  have pieces := congrArg string? same
  rw [string_text, string_text] at pieces
  exact Option.some.inj pieces

theorem record_inj {fields others : List (String × Json)} :
    record fields = record others ↔ fields = others := by
  refine ⟨fun same => ?_, congrArg record⟩
  have named := congrArg named? (Json.object.inj same)
  rw [named_record, named_record] at named
  exact Option.some.inj named

theorem variant_inj {name other : String} {content inner : Json} :
    variantWith name content = variantWith other inner ↔ name = other ∧ content = inner := by
  unfold variantWith
  rw [record_inj]
  simp

theorem toNat_some_iff {literal : Numeral} {value : Nat} :
    literal.toNat? = some value ↔ literal = .ofNat value := by
  obtain ⟨negative, whole, tail⟩ := literal
  cases negative <;> cases tail <;> simp [Numeral.toNat?, Numeral.ofNat]

end Json

/-! ### What spells a plain value -/

section Inversion

variable {json plain : Json}

theorem spells_text {value : String} :
    Spells .text json (.text value) ↔ json.string? = some value := by
  constructor
  · intro spells
    generalize same : Json.text value = plain at spells
    cases spells with
    | text reads =>
        rw [Json.text_inj.mp same]
        exact reads
  · intro read
    cases json with
    | string pieces => exact .text read
    | null | bool | number | array | object => cases read

theorem spells_word {value : UInt64} :
    Spells .word json (.nat value.toNat) ↔ json.word? = some value := by
  constructor
  · intro spells
    generalize same : Json.nat value.toNat = plain at spells
    cases spells with
    | word bound =>
        rw [← same]
        exact Json.word_nat value
  · intro read
    cases json with
    | number literal =>
        obtain ⟨whole, plain, small⟩ := Option.bind_eq_some_iff.mp read
        rw [Json.toNat_some_iff.mp plain]
        split at small
        · rename_i bound
          have same : (UInt64.ofNat whole).toNat = whole := UInt64.toNat_ofNat_of_lt' bound
          rw [← Option.some.inj small, same]
          exact .word bound
        · cases small
    | null | bool | string | array | object => cases read

theorem spells_flag {value : Bool} : Spells .flag json (.bool value) ↔ json.bool? = some value := by
  constructor
  · intro spells
    cases spells with
    | flag => rfl
  · intro read
    cases json with
    | bool found =>
        cases read
        exact .flag value
    | null | number | string | array | object => cases read

theorem spells_list {item : Form} {plains : List Json} :
    Spells (.list item) json (.array plains) ↔
      ∃ items, json = .array items ∧ SpellsEach item items plains := by
  constructor
  · intro spells
    cases spells with
    | list each => exact ⟨_, rfl, each⟩
  · intro found
    obtain ⟨items, rfl, each⟩ := found
    exact .list each

theorem spells_record {fields : List (String × Form)} {plains : List (String × Json)} :
    Spells (.record fields) json (record plains) ↔
      ∃ slots, json.slots? (fields.map Prod.fst) = some slots ∧
        SpellsSlots fields slots plains := by
  constructor
  · intro spells
    generalize same : record plains = plain at spells
    cases spells with
    | record presents each =>
        rw [Json.record_inj.mp same]
        exact ⟨_, Json.slots_iff_presents.mpr presents, each⟩
  · intro found
    obtain ⟨slots, found, each⟩ := found
    exact .record (Json.slots_iff_presents.mp found) each

/-- Only what may be left out is written as `null`. -/
theorem record_not_null {fields : List (String × Form)} : ¬ Spells (.record fields) json .null := by
  intro spells
  generalize same : Json.null = plain at spells
  cases spells with
  | record => exact Json.record_ne_null _ same.symm

/-- What a slot may hold for a field: a value, or nothing at all if the field is optional. -/
def Fills (form : Form) (plain : Json) : Option Json → Prop
  | some json => Spells form json plain
  | none => (∃ content, form = .optional content) ∧ plain = .null

theorem spells_slots_nil : SpellsSlots [] [] [] := .nil

theorem spells_slots_cons {name : String} {form : Form} {fields : List (String × Form)}
    {slot : Option Json} {slots : List (Option Json)} {plains : List (String × Json)} :
    SpellsSlots ((name, form) :: fields) (slot :: slots) ((name, plain) :: plains) ↔
      Fills form plain slot ∧ SpellsSlots fields slots plains := by
  constructor
  · intro spells
    cases spells with
    | filled first others => exact ⟨first, others⟩
    | missing others => exact ⟨⟨⟨_, rfl⟩, rfl⟩, others⟩
  · intro parts
    obtain ⟨first, others⟩ := parts
    cases slot with
    | some json => exact .filled first others
    | none =>
        obtain ⟨⟨content, rfl⟩, rfl⟩ := first
        exact .missing others

/-! ### Choices -/

theorem variant_named {name : String} {content : Json} :
    json.variant? = some (name, some content) ↔
      ∃ key, json = .object [(key, content)] ∧ Piece.text? key = some name := by
  constructor
  · intro found
    unfold Json.variant? at found
    split at found
    · obtain ⟨_, _, same⟩ := Option.map_eq_some_iff.mp found
      cases same
    · obtain ⟨_, reads, same⟩ := Option.map_eq_some_iff.mp found
      cases same
      exact ⟨_, rfl, reads⟩
    · cases found
  · intro named
    obtain ⟨key, rfl, reads⟩ := named
    rw [Json.variant?, reads, Option.map_some]

theorem variant_unnamed {name : String} :
    json.variant? = some (name, none) ↔
      ∃ pieces, json = .string pieces ∧ Piece.text? pieces = some name := by
  constructor
  · intro found
    unfold Json.variant? at found
    split at found
    · obtain ⟨_, reads, same⟩ := Option.map_eq_some_iff.mp found
      cases same
      exact ⟨_, rfl, reads⟩
    · obtain ⟨_, _, same⟩ := Option.map_eq_some_iff.mp found
      cases same
    · cases found
  · intro named
    obtain ⟨pieces, rfl, reads⟩ := named
    rw [Json.variant?, reads, Option.map_some]

theorem empty_variant_iff {name : String} :
    json.emptyVariant? = some name ↔
      json.variant? = some (name, none) ∨ json.variant? = some (name, some .null) := by
  constructor
  · intro found
    unfold Json.emptyVariant? at found
    split at found
    · rename_i whole
      cases found
      exact .inl whole
    · rename_i whole
      cases found
      exact .inr whole
    · cases found
  · intro named
    unfold Json.emptyVariant?
    cases named with
    | inl whole => rw [whole]
    | inr whole => rw [whole]

theorem spells_empty {variants : List (String × Option Form)} {name : String}
    (empty : (name, none) ∈ variants) :
    Spells (.choice variants) json (.text name) ↔ json.emptyVariant? = some name := by
  rw [empty_variant_iff, variant_unnamed, variant_named]
  constructor
  · intro spells
    generalize same : Json.text name = plain at spells
    cases spells with
    | name reads _ =>
        rw [Json.text_inj.mp same]
        exact .inl ⟨_, rfl, reads⟩
    | bare reads _ =>
        rw [Json.text_inj.mp same]
        exact .inr ⟨_, rfl, reads⟩
    | variant => cases same
  · intro named
    cases named with
    | inl whole =>
        obtain ⟨pieces, rfl, reads⟩ := whole
        exact .name reads empty
    | inr whole =>
        obtain ⟨key, rfl, reads⟩ := whole
        exact .bare reads empty

theorem spells_variant {variants : List (String × Option Form)} {name : String} {form : Form}
    (known : ∀ other, (name, some other) ∈ variants ↔ other = form) :
    Spells (.choice variants) json (variantWith name plain) ↔
      ∃ content, json.variant? = some (name, some content) ∧ Spells form content plain := by
  constructor
  · intro spells
    generalize same : variantWith name plain = whole at spells
    cases spells with
    | name | bare => cases same
    | variant reads member inner =>
        obtain ⟨rfl, rfl⟩ := Json.variant_inj.mp same
        obtain rfl := (known _).mp member
        exact ⟨_, variant_named.mpr ⟨_, rfl, reads⟩, inner⟩
  · intro named
    obtain ⟨content, found, inner⟩ := named
    obtain ⟨key, rfl, reads⟩ := variant_named.mp found
    exact .variant reads ((known form).mpr rfl) inner

theorem spells_nested {which : Nested} :
    Spells (.nested which) json plain ↔ Spells which.form json plain := by
  constructor
  · intro spells
    cases spells with
    | nested inner => exact inner
  · exact .nested

end Inversion

end Sema
