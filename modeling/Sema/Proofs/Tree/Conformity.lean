import Sema.Proofs.Tree.Decoded
import Sema.Proofs.Tree.Spelling

/-!
# Decoders that follow a form

A decoder follows a form if it finds a value exactly in what spells the plain value written for it.
The decoders for texts, words, lists, records and choices do so if the decoders of their parts do: a
record is read slot by slot, and a choice by the name of its variant, whose content gives values of
this variant only. Everything is said up to a bound on the nesting, since trees are decoded within
such a bound.
-/

namespace Sema

open Json (required? optionalSlot? optional? list? string? bool? word? record variantWith)

variable {bound : Nat}

theorem Json.depth_pos (json : Json) : 0 < json.depth := by
  cases json <;> exact Nat.succ_pos _

theorem Json.depth_content {json : Json} {name : String} {content : Json} {bound : Nat}
    (whole : json.variant? = some (name, some content)) (enough : json.depth ≤ bound + 1) :
    content.depth ≤ bound := by
  obtain ⟨key, rfl, -⟩ := variant_named.mp whole
  rw [depth] at enough
  exact depthOfFields_le (Nat.le_of_succ_le_succ enough) _ List.mem_cons_self

/-! ### Decoders -/

/-- Up to the bound on the nesting, the decoder finds a value in what spells it and nothing else. -/
def Follows {Value : Type} (bound : Nat) (form : Form) (encode : Value → Json)
    (decode : Json → Option Value) : Prop :=
  ∀ json value, json.depth ≤ bound → (decode json = some value ↔ Spells form json (encode value))

/-- The same of a slot of a record. -/
def FollowsSlot {Value : Type} (bound : Nat) (form : Form) (encode : Value → Json)
    (read : Option Json → Option Value) : Prop :=
  ∀ slot value, (∀ json ∈ slot, json.depth ≤ bound) →
    (read slot = some value ↔ Fills form (encode value) slot)

def Form.Required (form : Form) : Prop := ∀ content, form ≠ .optional content

section Decoders

variable {Value : Type} {bound : Nat} {form : Form} {encode : Value → Json}
  {decode : Json → Option Value}

theorem text_followed (bound : Nat) : Follows bound .text .text string? :=
  fun _ _ _ => spells_text.symm

theorem word_followed (bound : Nat) :
    Follows bound .word (fun value : UInt64 => .nat value.toNat) word? :=
  fun _ _ _ => spells_word.symm

theorem flag_followed (bound : Nat) : Follows bound .flag .bool bool? :=
  fun _ _ _ => spells_flag.symm

theorem Follows.required (follows : Follows bound form encode decode) (needed : form.Required) :
    FollowsSlot bound form encode (required? decode) := by
  intro slot value small
  cases slot with
  | none =>
      refine ⟨nofun, fun fills => ?_⟩
      obtain ⟨⟨content, same⟩, -⟩ := fills
      exact absurd same (needed content)
  | some json => exact follows json value (small json rfl)

/-- A value that might be left out, where `null` is written for no value. -/
theorem Follows.optional (follows : Follows bound form encode decode)
    (present : ∀ value, encode value ≠ .null) (needed : ∀ json, ¬ Spells form json .null) :
    Follows bound (.optional form) (Json.ofOption encode) (optional? decode) := by
  intro json value enough
  cases value with
  | none =>
      constructor
      · intro found
        cases json with
        | null => exact .absent form
        | bool | number | string | array | object =>
            obtain ⟨_, _, other⟩ := Option.map_eq_some_iff.mp found
            cases other
      · intro spells
        cases spells with
        | absent => rfl
        | present some spells => exact absurd spells (needed json)
  | some value =>
      constructor
      · intro found
        cases json with
        | null => cases found
        | bool | number | string | array | object =>
            obtain ⟨result, read, same⟩ := Option.map_eq_some_iff.mp found
            cases same
            exact .present nofun ((follows _ _ enough).mp read)
      · intro spells
        generalize same : Json.ofOption encode (some value) = plain at spells
        cases spells with
        | absent => exact absurd same (present value)
        | present some spells =>
            rw [← same] at spells
            exact Json.optional_decoded ((follows _ _ enough).mpr spells) some

theorem Follows.slot
    (follows : Follows bound (.optional form) (Json.ofOption encode) (optional? decode))
    (present : ∀ value, encode value ≠ .null) :
    FollowsSlot bound (.optional form) (Json.ofOption encode) (optionalSlot? decode) := by
  intro slot value small
  cases slot with
  | some json => exact follows json value (small json rfl)
  | none =>
      constructor
      · intro found
        cases found
        exact ⟨⟨_, rfl⟩, rfl⟩
      · intro fills
        cases value with
        | none => rfl
        | some value => exact absurd fills.2 (present value)

theorem Follows.each (follows : Follows bound form encode decode) {items : List Json}
    (enough : ∀ item ∈ items, item.depth ≤ bound) (values : List Value) :
    items.mapM decode = some values ↔ SpellsEach form items (values.map encode) := by
  rw [mapM_some_iff]
  induction items generalizing values with
  | nil =>
      cases values with
      | nil => exact ⟨fun _ => .nil form, fun _ => rfl⟩
      | cons value values => exact ⟨nofun, nofun⟩
  | cons item items induction =>
      obtain ⟨first, others⟩ := List.forall_mem_cons.mp enough
      cases values with
      | nil => exact ⟨nofun, nofun⟩
      | cons value values =>
          rw [List.map_cons, List.map_cons, List.map_cons, List.cons.injEq, induction others,
            follows item value first]
          constructor
          · exact fun parts => .cons parts.1 parts.2
          · intro spells
            cases spells with
            | cons first others => exact ⟨first, others⟩

theorem Follows.list (follows : Follows bound form encode decode) :
    Follows bound (.list form) (Json.ofList encode) (list? decode) := by
  intro json values enough
  rw [Json.ofList, spells_list]
  constructor
  · intro found
    cases json with
    | array items =>
        exact ⟨items, rfl, (follows.each (Json.depth_array_le enough) values).mp found⟩
    | null | bool | number | string | object => cases found
  · intro spelled
    obtain ⟨items, rfl, each⟩ := spelled
    exact (follows.each (Json.depth_array_le enough) values).mpr each

/-- A record whose decoder reads its slots one by one. -/
theorem record_followed {Result : Type} {fields : List (String × Form)} {names : List String}
    {plains : List (String × Json)} {read : List (Option Json) → Option Result} {result : Result}
    {json : Json} (named : fields.map Prod.fst = names) (enough : json.depth ≤ bound)
    (each : ∀ slots, slots.length = names.length →
      (∀ slot ∈ slots, ∀ inner ∈ slot, inner.depth ≤ bound) →
        (read slots = some result ↔ SpellsSlots fields slots plains)) :
    (json.slots? names).bind read = some result ↔ Spells (.record fields) json (record plains) := by
  rw [spells_record, named, Option.bind_eq_some_iff]
  apply exists_congr
  intro slots
  apply and_congr_right
  intro found
  exact each slots (Json.slots_length found) (Json.slots_depth found enough)

end Decoders

/-! ### What a decoder can find -/

section Yields

variable {Value Item : Type} {property : Value → Prop}

/-- Whatever is found has the property. -/
def Yields (property : Value → Prop) (found : Option Value) : Prop :=
  ∀ value, found = some value → property value

theorem yields_none : Yields property none := nofun

theorem yields_some {value : Value} (holds : property value) : Yields property (some value) := by
  intro other same
  rw [← Option.some.inj same]
  exact holds

theorem yields_bind {item : Option Item} {read : Item → Option Value}
    (each : ∀ item, Yields property (read item)) : Yields property (item >>= read) := by
  intro value found
  obtain ⟨item, -, found⟩ := Option.bind_eq_some_iff.mp found
  exact each item value found

theorem yields_map {item : Option Item} {make : Item → Value}
    (each : ∀ item, property (make item)) : Yields property (item.map make) := by
  intro value found
  obtain ⟨item, -, same⟩ := Option.map_eq_some_iff.mp found
  rw [← same]
  exact each item

end Yields

/-! ### Slots -/

section Slots

variable {Value : Type} {form : Form} {encode : Value → Json} {decode : Json → Option Value}
  {slot : Option Json}

/-- What follows its form within any bound needs none. -/
theorem required_iff (follows : ∀ bound, Follows bound form encode decode) (needed : form.Required)
    (value : Value) : required? decode slot = some value ↔ Fills form (encode value) slot := by
  cases slot with
  | none => exact (follows 0).required needed none value nofun
  | some json =>
      apply (follows json.depth).required needed
      intro inner here
      cases here
      exact Nat.le_refl _

theorem optional_iff
    (follows : ∀ bound, Follows bound (.optional form) (Json.ofOption encode) (optional? decode))
    (present : ∀ value, encode value ≠ .null) (value : Option Value) :
    optionalSlot? decode slot = some value ↔
      Fills (.optional form) (Json.ofOption encode value) slot := by
  cases slot with
  | none => exact (follows 0).slot present none value nofun
  | some json =>
      apply (follows json.depth).slot present
      intro inner here
      cases here
      exact Nat.le_refl _

@[simp] theorem text_slot (value : String) :
    required? string? slot = some value ↔ Fills .text (.text value) slot :=
  required_iff text_followed nofun value

@[simp] theorem word_slot (value : UInt64) :
    required? word? slot = some value ↔ Fills .word (.nat value.toNat) slot :=
  required_iff word_followed nofun value

@[simp] theorem flag_slot (value : Bool) :
    required? bool? slot = some value ↔ Fills .flag (.bool value) slot :=
  required_iff flag_followed nofun value

end Slots

attribute [simp] spells_slots_cons spells_slots_nil

/-! ### Choices -/

section Choices

variable {Value : Type} {variants : List (String × Option Form)} {json : Json}

/-- The names of the variants are read first, and then what each of them holds. -/
theorem choice_followed {tag : Value → String} {read : String → Json → Option Value} {form : Form}
    {plain : Json} {value : Value}
    (only : ∀ name content, Yields (fun value => tag value = name) (read name content))
    (known : ∀ other, (tag value, some other) ∈ variants ↔ other = form)
    (inner : ∀ content, json.variant? = some (tag value, some content) →
      (read (tag value) content = some value ↔ Spells form content plain)) :
    (match json.variant? with
      | some (name, some content) => read name content
      | _ => none) = some value ↔
      Spells (.choice variants) json (variantWith (tag value) plain) := by
  rw [spells_variant known]
  constructor
  · intro found
    split at found
    · rename_i name content whole
      have named := only name content value found
      rw [← named] at whole found
      exact ⟨content, whole, (inner content whole).mp found⟩
    · cases found
  · intro spelled
    obtain ⟨content, whole, spells⟩ := spelled
    rw [whole]
    exact (inner content whole).mpr spells

/-- Operators hold nothing and are known by their symbols. -/
theorem operator_followed {symbols : List String} {symbol : Value → String}
    {ofSymbol? : String → Option Value} (listed : ∀ op, symbol op ∈ symbols)
    (found : ∀ op, ofSymbol? (symbol op) = some op)
    (only : ∀ name, Yields (fun op => symbol op = name) (ofSymbol? name)) (bound : Nat) :
    Follows bound (.operator symbols) (fun op => .text (symbol op))
      (fun json => json.emptyVariant?.bind ofSymbol?) := by
  intro json op _
  have known : (symbol op, (none : Option Form)) ∈ symbols.map fun symbol => (symbol, none) :=
    List.mem_map_of_mem (listed op)
  unfold Form.operator
  rw [spells_empty known, Option.bind_eq_some_iff]
  constructor
  · intro read
    obtain ⟨name, empty, read⟩ := read
    rw [empty, only name op read]
  · exact fun empty => ⟨symbol op, empty, found op⟩

end Choices

/-! ### Positions, tokens, nodes and operators -/

namespace Position

theorem followed (bound : Nat) : Follows bound .position toJson ofJson? := by
  intro json position enough
  obtain ⟨line, column⟩ := position
  refine record_followed (by exact rfl) enough ?_
  intro slots length _
  match slots, length with
  | [line, column], _ => simp [Option.bind_eq_some_iff]

@[simp] theorem slot_iff {slot : Option Json} (position : Position) :
    required? ofJson? slot = some position ↔ Fills .position position.toJson slot :=
  required_iff followed nofun position

end Position

namespace TokenEntry

theorem followed (bound : Nat) : Follows bound .token toJson ofJson? := by
  intro json token enough
  obtain ⟨kind, lexeme, line, column⟩ := token
  refine record_followed (by exact rfl) enough ?_
  intro slots length _
  match slots, length with
  | [kind, lexeme, line, column], _ => simp [Option.bind_eq_some_iff]

end TokenEntry

theorem Located.followed {Node : Type} {form : Form} {encode : Node → Json}
    {decode : Json → Option Node} (follows : Follows bound form encode decode)
    (needed : form.Required) :
    Follows bound (.located form) (Located.toJson encode) (Located.ofJson? decode) := by
  intro json node enough
  obtain ⟨pos, node⟩ := node
  refine record_followed (by exact rfl) enough ?_
  intro slots length small
  match slots, length with
  | [pos, data], _ =>
      have inner := follows.required needed data node (small data (by simp))
      simp [Option.bind_eq_some_iff, inner]

theorem BinaryOp.followed (bound : Nat) :
    Follows bound .binaryOp (fun op => .text op.symbol) BinaryOp.ofJson? :=
  operator_followed (fun op => List.mem_map_of_mem (BinaryOp.mem_all op)) BinaryOp.ofSymbol?_symbol
    (fun _ _ => BinaryOp.symbol_of_ofSymbol?) bound

@[simp] theorem BinaryOp.slot_iff {slot : Option Json} (op : BinaryOp) :
    required? BinaryOp.ofJson? slot = some op ↔ Fills .binaryOp (.text op.symbol) slot :=
  required_iff BinaryOp.followed nofun op

theorem UnaryOp.followed (bound : Nat) :
    Follows bound .unaryOp (fun op => .text op.symbol) UnaryOp.ofJson? :=
  operator_followed (fun op => List.mem_map_of_mem (UnaryOp.mem_all op)) UnaryOp.ofSymbol?_symbol
    (fun _ _ => UnaryOp.symbol_of_ofSymbol?) bound

@[simp] theorem UnaryOp.slot_iff {slot : Option Json} (op : UnaryOp) :
    required? UnaryOp.ofJson? slot = some op ↔ Fills .unaryOp (.text op.symbol) slot :=
  required_iff UnaryOp.followed nofun op

end Sema
