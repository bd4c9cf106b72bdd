import Mathlib.Logic.Relation
import Sema.Proofs.Tree.Spelling

/-!
# Other spellings

One step changes how one value inside another is written: it reorders the keys of a record, puts in
an unknown key, takes an array for an object, leaves out a `null`, or writes the name of an empty
variant with a `null` behind it. What the whole value stands for stays the same.
-/

namespace Sema

open Json (Presents under record variantWith)

/-- The second value is the first with one change of its spelling. -/
inductive Respells : Form → Json → Json → Prop where
  /-- The keys of an object in another order. -/
  | permuted (fields : List (String × Form)) {given other : List (List Piece × Json)}
      (order : given.Perm other) : Respells (.record fields) (.object given) (.object other)
  /-- A key that the record does not know. -/
  | unknown {fields : List (String × Form)} (front back : List (List Piece × Json))
      {key : List Piece} {name : String} (value : Json) (reads : Piece.text? key = some name)
      (unknown : name ∉ fields.map Prod.fst) :
      Respells (.record fields) (.object (front ++ back)) (.object (front ++ (key, value) :: back))
  /-- An array in place of an object with all keys in order. -/
  | array {fields : List (String × Form)} {given : List (List Piece × Json)}
      (keys : given.map (fun field => Piece.text? field.1) = fields.map fun field => some field.1) :
      Respells (.record fields) (.object given) (.array (given.map Prod.snd))
  /-- An optional key that was `null`. -/
  | dropped {fields : List (String × Form)} {front back : List (List Piece × Json)}
      {key : List Piece} {name : String} {content : Form}
      (reads : Piece.text? key = some name) (known : (name, .optional content) ∈ fields)
      (once : ∀ field ∈ front ++ back, Piece.text? field.1 ≠ some name) :
      Respells (.record fields) (.object (front ++ (key, .null) :: back)) (.object (front ++ back))
  /-- The name of an empty variant as a key. -/
  | bare {variants : List (String × Option Form)} {pieces key : List Piece} {name : String}
      (empty : (name, none) ∈ variants) (reads : Piece.text? pieces = some name)
      (named : Piece.text? key = some name) :
      Respells (.choice variants) (.string pieces) (.object [(key, .null)])
  | inField {fields : List (String × Form)} (front back : List (List Piece × Json))
      {key : List Piece} {name : String} {form : Form} {value other : Json}
      (reads : Piece.text? key = some name) (known : (name, form) ∈ fields)
      (inner : Respells form value other) :
      Respells (.record fields) (.object (front ++ (key, value) :: back))
        (.object (front ++ (key, other) :: back))
  | inSlot {before after : List (String × Form)} {front : List Json} (back : List Json)
      {name : String} {form : Form} {value other : Json} (same : before.length = front.length)
      (inner : Respells form value other) :
      Respells (.record (before ++ (name, form) :: after)) (.array (front ++ value :: back))
        (.array (front ++ other :: back))
  | inList {item : Form} (front back : List Json) {value other : Json}
      (inner : Respells item value other) :
      Respells (.list item) (.array (front ++ value :: back)) (.array (front ++ other :: back))
  | inOptional {content : Form} {value other : Json} (some : value ≠ .null) (still : other ≠ .null)
      (inner : Respells content value other) : Respells (.optional content) value other
  | inVariant {variants : List (String × Option Form)} {key : List Piece} {name : String}
      {form : Form} {value other : Json} (reads : Piece.text? key = some name)
      (known : (name, some form) ∈ variants) (inner : Respells form value other) :
      Respells (.choice variants) (.object [(key, value)]) (.object [(key, other)])
  | inNested {which : Nested} {value other : Json} (inner : Respells which.form value other) :
      Respells (.nested which) value other

/-- Whatever the first value spells, the second spells too. -/
def Inherits (form : Form) (value other : Json) : Prop :=
  ∀ plain, Spells form value plain → Spells form other plain

/-! ### Values under names -/

section Under

variable {name : String} {front back : List (List Piece × Json)} {key : List Piece} {value : Json}

theorem under_append (name : String) (front back : List (List Piece × Json)) :
    under name (front ++ back) = under name front ++ under name back := by
  unfold under
  rw [List.filter_append, List.map_append]

theorem under_here (reads : Piece.text? key = some name) :
    under name ((key, value) :: back) = value :: under name back := by
  unfold under
  rw [List.filter_cons_of_pos, List.map_cons]
  exact beq_iff_eq.mpr reads

theorem under_other {other : String} (reads : Piece.text? key = some other)
    (different : other ≠ name) :
    under name ((key, value) :: back) = under name back := by
  unfold under
  rw [List.filter_cons_of_neg]
  intro same
  rw [reads, beq_iff_eq] at same
  exact different (Option.some.inj same)

theorem under_none {fields : List (List Piece × Json)}
    (absent : ∀ field ∈ fields, Piece.text? field.1 ≠ some name) : under name fields = [] := by
  unfold under
  rw [List.filter_eq_nil_iff.mpr, List.map_nil]
  intro field member same
  exact absent field member (beq_iff_eq.mp same)

theorem under_perm {given other : List (List Piece × Json)} (order : given.Perm other)
    (name : String) : (under name given).Perm (under name other) := (order.filter _).map _

end Under

/-! ### Records -/

/-- Only what is optional may be `null`, and then it stands for nothing. -/
theorem spells_null {form : Form} {plain : Json} :
    Spells form .null plain ↔ (∃ content, form = .optional content) ∧ plain = .null := by
  constructor
  · intro spells
    cases spells with
    | absent content => exact ⟨⟨content, rfl⟩, rfl⟩
    | present some _ => exact absurd rfl some
    | record presents _ => cases presents
    | @nested which _ _ spells => cases which <;> cases spells
  · rintro ⟨⟨content, rfl⟩, rfl⟩
    exact .absent content

/-- A `null` in a slot is as good as nothing. -/
theorem fills_null {form : Form} {plain : Json} :
    Fills form plain (some .null) ↔ Fills form plain none := spells_null

/-- A name stands only once among distinct ones. -/
theorem entry_unique {Entry : Type} {entries : List (String × Entry)} {name : String}
    {entry : Entry} (distinct : (entries.map Prod.fst).Nodup) (known : (name, entry) ∈ entries) :
    ∀ other ∈ entries, other.1 = name → other = (name, entry) :=
  fun _ member same => List.inj_on_of_nodup_map distinct member known same

section Records

variable {fields : List (String × Form)} {given other : List (List Piece × Json)} {plain : Json}

theorem slots_cons_split {name : String} {form : Form} {slots : List (Option Json)}
    {plains : List (String × Json)} (filled : SpellsSlots ((name, form) :: fields) slots plains) :
    ∃ slot others value rest, slots = slot :: others ∧ plains = (name, value) :: rest ∧
      Fills form value slot ∧ SpellsSlots fields others rest := by
  cases filled with
  | filled first others => exact ⟨_, _, _, _, rfl, rfl, first, others⟩
  | missing others => exact ⟨none, _, _, _, rfl, rfl, ⟨⟨_, rfl⟩, rfl⟩, others⟩

/-- What one object has under the name of a field does as well for it as what another has there. -/
def Serves (given other : List (List Piece × Json)) (field : String × Form) : Prop :=
  ∀ slot : Option Json, under field.1 given = slot.toList →
    ∃ again : Option Json, under field.1 other = again.toList ∧
      ∀ plain, Fills field.2 plain slot → Fills field.2 plain again

theorem slots_refilled (each : ∀ field ∈ fields, Serves given other field)
    {slots : List (Option Json)} {plains : List (String × Json)}
    (once : (fields.map Prod.fst).map (fun name => under name given) = slots.map Option.toList)
    (filled : SpellsSlots fields slots plains) :
    ∃ again, (fields.map Prod.fst).map (fun name => under name other) = again.map Option.toList ∧
      SpellsSlots fields again plains := by
  induction fields generalizing slots plains with
  | nil =>
      cases filled
      exact ⟨[], rfl, .nil⟩
  | cons field fields induction =>
      obtain ⟨name, form⟩ := field
      obtain ⟨slot, others, value, rest, rfl, rfl, first, filled⟩ := slots_cons_split filled
      rw [List.map_cons, List.map_cons, List.map_cons, List.cons.injEq] at once
      obtain ⟨serves, each⟩ := List.forall_mem_cons.mp each
      obtain ⟨again, here, fills⟩ := serves slot once.1
      obtain ⟨further, later, refilled⟩ := induction each once.2 filled
      refine ⟨again :: further, ?_, spells_slots_cons.mpr ⟨fills value first, refilled⟩⟩
      rw [List.map_cons, List.map_cons, List.map_cons, here, later]

/-- An object inherits from another if its keys are texts and it serves every field. -/
theorem object_inherits
    (keys : (∀ field ∈ given, (Piece.text? field.1).isSome = true) →
      ∀ field ∈ other, (Piece.text? field.1).isSome = true)
    (each : ∀ field ∈ fields, Serves given other field) :
    Inherits (.record fields) (.object given) (.object other) := by
  intro plain spells
  cases spells with
  | record presents filled =>
      cases presents with
      | object texts once =>
          obtain ⟨again, once, filled⟩ := slots_refilled each once filled
          exact .record (.object (keys texts) once) filled

theorem serves_of_same {field : String × Form} (same : under field.1 given = under field.1 other) :
    Serves given other field := by
  intro slot once
  rw [same] at once
  exact ⟨slot, once, fun _ fills => fills⟩

theorem permuted_inherits (order : given.Perm other) :
    Inherits (.record fields) (.object given) (.object other) := by
  apply object_inherits
  · intro keys field member
    exact keys field (order.mem_iff.mpr member)
  · intro field _ slot once
    have moved := under_perm order field.1
    rw [once] at moved
    refine ⟨slot, ?_, fun _ fills => fills⟩
    cases slot with
    | none => exact List.nil_perm.mp moved
    | some json => exact (List.singleton_perm.mp moved).symm

section OneField

variable {front back : List (List Piece × Json)} {key : List Piece} {name : String} {value : Json}

theorem forall_mem_inserted {field : List Piece × Json} {property : List Piece × Json → Prop} :
    (∀ other ∈ front ++ field :: back, property other) ↔
      property field ∧ ∀ other ∈ front ++ back, property other := by
  rw [List.forall_mem_append, List.forall_mem_cons, List.forall_mem_append]
  exact and_left_comm

theorem under_inserted (reads : Piece.text? key = some name) {known : String}
    (other : name ≠ known) :
    under known (front ++ (key, value) :: back) = under known (front ++ back) := by
  rw [under_append, under_other reads other, under_append]

theorem unknown_inherits (reads : Piece.text? key = some name)
    (unknown : name ∉ fields.map Prod.fst) :
    Inherits (.record fields) (.object (front ++ back)) (.object (front ++ (key, value) :: back)) ∧
      Inherits (.record fields) (.object (front ++ (key, value) :: back))
        (.object (front ++ back)) := by
  have same : ∀ field ∈ fields,
      under field.1 (front ++ (key, value) :: back) = under field.1 (front ++ back) := by
    intro field member
    apply under_inserted reads
    intro here
    apply unknown
    rw [here]
    exact List.mem_map_of_mem member
  constructor
  · apply object_inherits
    · exact fun keys => forall_mem_inserted.mpr ⟨Option.isSome_of_eq_some reads, keys⟩
    · exact fun field member => serves_of_same (same field member).symm
  · apply object_inherits
    · exact fun keys => (forall_mem_inserted.mp keys).2
    · exact fun field member => serves_of_same (same field member)

theorem dropped_inherits (reads : Piece.text? key = some name)
    (once : ∀ field ∈ front ++ back, Piece.text? field.1 ≠ some name) :
    Inherits (.record fields) (.object (front ++ (key, .null) :: back)) (.object (front ++ back)) ∧
      Inherits (.record fields) (.object (front ++ back))
        (.object (front ++ (key, .null) :: back)) := by
  have without : under name (front ++ back) = [] := under_none once
  have whole : under name (front ++ (key, .null) :: back) = [.null] := by
    rw [under_append] at without ⊢
    obtain ⟨before, behind⟩ := List.append_eq_nil_iff.mp without
    rw [under_here reads, before, behind]
    rfl
  constructor
  · apply object_inherits
    · exact fun keys => (forall_mem_inserted.mp keys).2
    · intro field _
      by_cases here : name = field.1
      · intro slot filled
        rw [← here, whole] at filled
        rw [← here, without]
        cases Option.toList_eq_singleton_iff.mp filled.symm
        exact ⟨none, rfl, fun _ => fills_null.mp⟩
      · exact serves_of_same (under_inserted reads here)
  · apply object_inherits
    · exact fun keys => forall_mem_inserted.mpr ⟨Option.isSome_of_eq_some reads, keys⟩
    · intro field _
      by_cases here : name = field.1
      · intro slot filled
        rw [← here, without] at filled
        rw [← here, whole]
        cases Option.toList_eq_nil_iff.mp filled.symm
        exact ⟨some .null, rfl, fun _ => fills_null.mpr⟩
      · exact serves_of_same (under_inserted reads here).symm

theorem field_inherits {form : Form} {other : Json} (distinct : (fields.map Prod.fst).Nodup)
    (reads : Piece.text? key = some name) (known : (name, form) ∈ fields)
    (inner : Inherits form value other) :
    Inherits (.record fields) (.object (front ++ (key, value) :: back))
      (.object (front ++ (key, other) :: back)) := by
  apply object_inherits
  · intro keys
    obtain ⟨here, others⟩ := forall_mem_inserted.mp keys
    exact forall_mem_inserted.mpr ⟨here, others⟩
  · intro field member
    by_cases here : name = field.1
    · rw [entry_unique distinct known field member here.symm]
      intro slot filled
      rw [under_append, under_here reads] at filled
      cases slot with
      | none =>
          obtain ⟨-, impossible⟩ := List.append_eq_nil_iff.mp filled
          cases impossible
      | some json =>
          obtain ⟨before, same⟩ | ⟨_, impossible⟩ := List.append_eq_singleton_iff.mp filled
          · obtain ⟨rfl, behind⟩ := List.cons.inj same
            refine ⟨some other, ?_, inner⟩
            rw [under_append, under_here reads, before, behind]
            rfl
          · cases impossible
    · apply serves_of_same
      rw [under_inserted reads here, under_inserted reads here]

end OneField

theorem toList_injective : Function.Injective (Option.toList (α := Json)) := by
  intro first second same
  cases first <;> cases second <;> cases same <;> rfl

/-- The keys are distinct, so each field finds the value that stands at its place. -/
theorem under_each (distinct : (fields.map Prod.fst).Nodup)
    (keys : given.map (fun field => Piece.text? field.1) = fields.map fun field => some field.1) :
    (fields.map Prod.fst).map (fun name => under name given) =
      ((given.map Prod.snd).map some).map Option.toList := by
  induction fields generalizing given with
  | nil =>
      rw [List.map_eq_nil_iff.mp keys]
      rfl
  | cons field fields induction =>
      cases given with
      | nil => cases keys
      | cons first given =>
          obtain ⟨reads, keys⟩ := List.cons.inj keys
          obtain ⟨fresh, distinct⟩ := List.nodup_cons.mp distinct
          have here : under field.1 (first :: given) = [first.2] := by
            rw [under_here reads, under_none]
            intro other member same
            have read : some field.1 ∈ given.map fun field => Piece.text? field.1 := by
              rw [← same]
              exact List.mem_map_of_mem (f := fun field => Piece.text? field.1) member
            rw [keys, List.mem_map] at read
            obtain ⟨known, inside, same⟩ := read
            rw [← Option.some.inj same] at fresh
            exact fresh (List.mem_map_of_mem inside)
          have later : ∀ name ∈ fields.map Prod.fst,
              under name (first :: given) = under name given := by
            intro name member
            apply under_other reads
            rintro rfl
            exact fresh member
          rw [List.map_cons, List.map_cons, here, List.map_congr_left later,
            induction distinct keys]
          rfl

theorem array_inherits (distinct : (fields.map Prod.fst).Nodup)
    (keys : given.map (fun field => Piece.text? field.1) = fields.map fun field => some field.1) :
    Inherits (.record fields) (.object given) (.array (given.map Prod.snd)) ∧
      Inherits (.record fields) (.array (given.map Prod.snd)) (.object given) := by
  have found := under_each distinct keys
  have lengths := congrArg List.length keys
  rw [List.length_map, List.length_map] at lengths
  constructor
  · intro plain spells
    cases spells with
    | record presents filled =>
        cases presents with
        | object _ once =>
            rw [once] at found
            rw [List.map_injective_iff.mpr toList_injective found] at filled
            refine .record (.array ?_) filled
            rw [List.length_map, List.length_map, lengths]
  · intro plain spells
    cases spells with
    | record presents filled =>
        cases presents with
        | array =>
            refine .record (.object ?_ found) filled
            intro field member
            have read := List.mem_map_of_mem (f := fun field => Piece.text? field.1) member
            rw [keys, List.mem_map] at read
            obtain ⟨known, -, same⟩ := read
            exact Option.isSome_of_eq_some same.symm

end Records

/-! ### Items -/

section Items

variable {form : Form} {value other : Json} {back : List Json}

theorem slots_inherited {before after : List (String × Form)} {front : List Json} {name : String}
    {plains : List (String × Json)} (same : before.length = front.length)
    (inner : Inherits form value other)
    (filled : SpellsSlots (before ++ (name, form) :: after) ((front ++ value :: back).map some)
      plains) :
    SpellsSlots (before ++ (name, form) :: after) ((front ++ other :: back).map some) plains := by
  induction before generalizing front plains with
  | nil =>
      rw [List.length_eq_zero_iff.mp same.symm] at filled ⊢
      cases filled with
      | filled first others => exact .filled (inner _ first) others
  | cons field before induction =>
      cases front with
      | nil => cases same
      | cons item front =>
          cases filled with
          | filled first others => exact .filled first (induction (Nat.succ.inj same) others)

theorem slot_inherits {before after : List (String × Form)} {front : List Json} {name : String}
    (same : before.length = front.length) (inner : Inherits form value other) :
    Inherits (.record (before ++ (name, form) :: after)) (.array (front ++ value :: back))
      (.array (front ++ other :: back)) := by
  intro plain spells
  cases spells with
  | record presents filled =>
      cases presents with
      | array each =>
          refine .record (.array ?_) (slots_inherited same inner filled)
          rw [← each, List.length_append, List.length_append]
          rfl

theorem items_inherited {front plains : List Json} (inner : Inherits form value other)
    (each : SpellsEach form (front ++ value :: back) plains) :
    SpellsEach form (front ++ other :: back) plains := by
  induction front generalizing plains with
  | nil =>
      cases each with
      | cons first others => exact .cons (inner _ first) others
  | cons item front induction =>
      cases each with
      | cons first others => exact .cons first (induction others)

theorem item_inherits {front : List Json} (inner : Inherits form value other) :
    Inherits (.list form) (.array (front ++ value :: back)) (.array (front ++ other :: back)) := by
  intro plain spells
  cases spells with
  | list each => exact .list (items_inherited inner each)

theorem content_inherits (still : other ≠ .null) (some : value ≠ .null)
    (inner : Inherits form value other) : Inherits (.optional form) value other := by
  intro plain spells
  cases spells with
  | absent => exact absurd rfl some
  | present _ spells => exact .present still (inner _ spells)

theorem nested_inherits {which : Nested} (inner : Inherits which.form value other) :
    Inherits (.nested which) value other := by
  intro plain spells
  cases spells with
  | nested spells => exact .nested (inner _ spells)

end Items

/-! ### Choices -/

section Choices

variable {variants : List (String × Option Form)} {pieces key : List Piece} {name : String}
  {plain : Json}

theorem variant_inherits {form : Form} {value other : Json}
    (distinct : (variants.map Prod.fst).Nodup) (reads : Piece.text? key = some name)
    (known : (name, some form) ∈ variants) (inner : Inherits form value other) :
    Inherits (.choice variants) (.object [(key, value)]) (.object [(key, other)]) := by
  intro plain spells
  cases spells with
  | bare read empty =>
      rw [reads] at read
      cases read
      cases entry_unique distinct known _ empty rfl
  | variant read member spells =>
      rw [reads] at read
      cases read
      cases entry_unique distinct known _ member rfl
      exact .variant reads known (inner _ spells)

theorem bare_inherits (distinct : (variants.map Prod.fst).Nodup) (empty : (name, none) ∈ variants)
    (reads : Piece.text? pieces = some name) (named : Piece.text? key = some name) :
    Inherits (.choice variants) (.string pieces) (.object [(key, .null)]) ∧
      Inherits (.choice variants) (.object [(key, .null)]) (.string pieces) := by
  constructor
  · intro plain spells
    cases spells with
    | name read _ =>
        rw [reads] at read
        cases read
        exact .bare named empty
  · intro plain spells
    cases spells with
    | bare read _ =>
        rw [named] at read
        cases read
        exact .name reads empty
    | variant read member _ =>
        rw [named] at read
        cases read
        cases entry_unique distinct empty _ member rfl

end Choices

/-! ### Respellings -/

/-- A respelling takes away nothing of what a value stands for and adds nothing. -/
theorem respelled_inherits {form : Form} {json other : Json} (step : Respells form json other) :
    form.distinct = true → Inherits form json other ∧ Inherits form other json := by
  induction step with
  | permuted fields order => exact fun _ => ⟨permuted_inherits order, permuted_inherits order.symm⟩
  | unknown front back value reads unknown => exact fun _ => unknown_inherits reads unknown
  | array keys => exact fun distinct => array_inherits (Form.distinct_record distinct).1 keys
  | dropped reads _ once => exact fun _ => dropped_inherits reads once
  | bare empty reads named =>
      exact fun distinct => bare_inherits (Form.distinct_choice distinct).1 empty reads named
  | inField front back reads known _ induction =>
      intro distinct
      obtain ⟨names, forms⟩ := Form.distinct_record distinct
      exact (induction (forms _ _ known)).imp (field_inherits names reads known)
        (field_inherits names reads known)
  | inSlot back same _ induction =>
      intro distinct
      obtain ⟨-, forms⟩ := Form.distinct_record distinct
      exact (induction (forms _ _ List.mem_append_cons_self)).imp (slot_inherits same)
        (slot_inherits same)
  | inList front back _ induction =>
      exact fun distinct => (induction distinct).imp item_inherits item_inherits
  | inOptional some still _ induction =>
      exact fun distinct =>
        (induction distinct).imp (content_inherits still some) (content_inherits some still)
  | inVariant reads known _ induction =>
      intro distinct
      obtain ⟨names, forms⟩ := Form.distinct_choice distinct
      exact (induction (forms _ _ known)).imp (variant_inherits names reads known)
        (variant_inherits names reads known)
  | @inNested which _ _ _ induction =>
      exact fun _ => (induction which.form_distinct).imp nested_inherits nested_inherits

/-- However often it is respelled, a value spells the same. -/
theorem spells_respelled {form : Form} {json other : Json} (distinct : form.distinct = true)
    (steps : Relation.EqvGen (Respells form) json other) (plain : Json) :
    Spells form json plain ↔ Spells form other plain := by
  induction steps with
  | rel json other step =>
      obtain ⟨forth, back⟩ := respelled_inherits step distinct
      exact ⟨forth plain, back plain⟩
  | refl => exact Iff.rfl
  | symm json other _ induction => exact induction.symm
  | trans json between other _ _ first second => exact first.trans second

end Sema
