import Sema.Json.Reader
import Sema.Json.Record
import Sema.Proofs.Json.Literals

/-!
# Documents read back

A value is written so that a reader that awaits it has it complete where its text ends, whatever
stands around it and behind it. The proof follows the value, and inside a container the items or
fields that are still to come.
-/

namespace Sema.Json

/-- No number in the value has a fraction or an exponent. -/
inductive Integral : Json → Prop where
  | null : Integral .null
  | bool (value : Bool) : Integral (.bool value)
  | number (literal : Numeral) (whole : literal.tail = []) : Integral (.number literal)
  | string (pieces : List Piece) : Integral (.string pieces)
  | array (items : List Json) (each : ∀ item ∈ items, Integral item) : Integral (.array items)
  | object (fields : List (List Piece × Json)) (each : ∀ field ∈ fields, Integral field.2) :
      Integral (.object fields)

attribute [simp] Integral.null Integral.bool Integral.string

@[simp] theorem integral_text (value : String) : Integral (text value) := .string _

@[simp] theorem integral_nat (value : Nat) : Integral (nat value) := .number _ rfl

theorem integral_array {items : List Json} :
    Integral (.array items) ↔ ∀ item ∈ items, Integral item := by
  constructor
  · intro integral
    cases integral with
    | array _ each => exact each
  · exact .array items

theorem integral_nil : Integral (.array []) := integral_array.mpr (List.forall_mem_nil _)

theorem integral_cons {item : Json} {items : List Json} :
    Integral (.array (item :: items)) ↔ Integral item ∧ Integral (.array items) := by
  rw [integral_array, integral_array, List.forall_mem_cons]

@[simp] theorem integral_record {fields : List (String × Json)} :
    Integral (record fields) ↔ ∀ field ∈ fields, Integral field.2 := by
  constructor
  · intro integral field member
    cases integral with
    | object _ each => exact each _ (List.mem_map_of_mem member)
  · intro each
    apply Integral.object
    intro placed member
    obtain ⟨field, inside, same⟩ := List.mem_map.mp member
    rw [← same]
    exact each field inside

@[simp] theorem integral_variant {name : String} {content : Json} :
    Integral (variantWith name content) ↔ Integral content := by
  rw [variantWith, integral_record, List.forall_mem_singleton]

theorem integral_ofList {Value : Type} {encode : Value → Json}
    (each : ∀ value, Integral (encode value)) (values : List Value) :
    Integral (ofList encode values) := by
  rw [ofList, integral_array, List.forall_mem_map]
  exact fun value _ => each value

namespace Reader

/-- The reader takes a value inside the containers, or the end of an array. -/
def Awaits (outer : List Frame) (reader : Reader) : Prop :=
  ∀ token, token ≠ .closeArray → reader.step? token = begin? outer token

/-- The reader takes a name after the fields, or the end of an object. -/
def AwaitsName (fields : List (List Piece × Json)) (outer : List Frame) (reader : Reader) : Prop :=
  ∀ name, reader.step? (.string name) = some (.awaitColon fields name outer)

variable {reader later : Reader} {outer : List Frame} {text rest : List Char} {token : Token}

theorem awaits_value (outer : List Frame) : Awaits outer (.awaitValue outer) := by
  intro token _
  rfl

theorem awaits_item (outer : List Frame) : Awaits (.array [] :: outer) (.itemOrEnd outer) := by
  intro token other
  rw [step?]
  exact other

theorem awaits_name (fields : List (List Piece × Json)) (outer : List Frame) :
    AwaitsName fields outer (.awaitName fields outer) := fun _ => rfl

theorem awaits_first_name (outer : List Frame) : AwaitsName [] outer (.nameOrEnd outer) :=
  fun _ => rfl

/-! ### Steps -/

theorem run_step (found : Token.next? text = some (some (token, rest)))
    (step : reader.step? token = some later) : reader.run? text = later.run? rest := by
  rw [run?]
  split
  all_goals simp_all

theorem run_nil (reader : Reader) : reader.run? [] = reader.result? := by
  rw [run?]
  split
  all_goals simp_all [Token.next?]

/-! ### Values -/

/-- The value is complete where its text ends. -/
def Reads (value : Json) : Prop :=
  ∀ reader outer rest, Awaits outer reader → Numeral.Ends rest →
    reader.run? (value.write rest) = (complete value outer).run? rest

theorem reads_of_token {value : Json} (token : Token)
    (first : ∀ rest, Numeral.Ends rest →
      Token.next? (value.write rest) = some (some (token, rest)))
    (begins : ∀ outer, begin? outer token = some (.complete value outer)) : Reads value := by
  intro reader outer rest awaits ends
  apply run_step (first rest ends)
  rw [awaits]
  · exact begins outer
  · intro same
    have impossible := begins outer
    rw [same] at impossible
    cases impossible

theorem reads_items {items : List Json} (nonempty : items ≠ [])
    (each : ∀ item ∈ items, Reads item) {before : List Json}
    (awaits : Awaits (.array before :: outer) reader) :
    reader.run? (writeItems items (']' :: rest)) =
      (complete (.array (before.reverse ++ items)) outer).run? rest := by
  -- What was read before grows by one item at each comma.
  induction items generalizing before reader with
  | nil => exact absurd rfl nonempty
  | cons item items induction =>
      have first := each item List.mem_cons_self
      have whole : before.reverse ++ item :: items = (item :: before).reverse ++ items := by simp
      rw [whole]
      cases items with
      | nil =>
          rw [writeItems, first _ _ _ awaits (Numeral.ends_cons (by decide)), List.append_nil]
          exact run_step rfl rfl
      | cons next items =>
          have comma : ∀ text, (complete item (.array before :: outer)).run? (',' :: text) =
              (awaitValue (.array (item :: before) :: outer)).run? text :=
            fun text => run_step rfl rfl
          rw [writeItems, first _ _ _ awaits (Numeral.ends_cons (by decide)), comma]
          · apply induction (List.cons_ne_nil _ _) fun later member => each later (.tail _ member)
            exact awaits_value _
          · exact List.cons_ne_nil _ _

/-- The value of a field comes after its name and a colon. -/
theorem reads_field {name : List Piece} {value : Json} (read : Reads value)
    {before : List (List Piece × Json)} (awaits : AwaitsName before outer reader)
    (ends : Numeral.Ends rest) :
    reader.run? (Piece.writeAll name (':' :: value.write rest)) =
      (complete value (.object before name :: outer)).run? rest := by
  rw [run_step (Piece.next_writeAll name _) (awaits name)]
  have colon : ∀ text, (awaitColon before name outer).run? (':' :: text) =
      (awaitValue (.object before name :: outer)).run? text := fun text => run_step rfl rfl
  rw [colon]
  exact read _ _ _ (awaits_value _) ends

theorem reads_fields {fields : List (List Piece × Json)} (nonempty : fields ≠ [])
    (each : ∀ field ∈ fields, Reads field.2) {before : List (List Piece × Json)}
    (awaits : AwaitsName before outer reader) :
    reader.run? (writeFields fields ('}' :: rest)) =
      (complete (.object (before.reverse ++ fields)) outer).run? rest := by
  induction fields generalizing before reader with
  | nil => exact absurd rfl nonempty
  | cons field fields induction =>
      obtain ⟨name, value⟩ := field
      have first : Reads value := each (name, value) List.mem_cons_self
      have whole : before.reverse ++ (name, value) :: fields =
          ((name, value) :: before).reverse ++ fields := by simp
      rw [whole]
      cases fields with
      | nil =>
          rw [writeFields, reads_field first awaits (Numeral.ends_cons (by decide)),
            List.append_nil]
          exact run_step rfl rfl
      | cons next fields =>
          have comma : ∀ text, (complete value (.object before name :: outer)).run? (',' :: text) =
              (awaitName ((name, value) :: before) outer).run? text :=
            fun text => run_step rfl rfl
          rw [writeFields, reads_field first awaits (Numeral.ends_cons (by decide)), comma]
          · apply induction (List.cons_ne_nil _ _) fun later member => each later (.tail _ member)
            exact awaits_name _ _
          · exact List.cons_ne_nil _ _

theorem reads_array {items : List Json} (each : ∀ item ∈ items, Reads item) :
    Reads (.array items) := by
  intro reader outer rest awaits _
  have opened : ∀ text, reader.run? ('[' :: text) = (itemOrEnd outer).run? text :=
    fun text => run_step rfl (awaits .openArray nofun)
  rw [write, opened]
  cases items with
  | nil => exact run_step rfl rfl
  | cons item items => exact reads_items (List.cons_ne_nil _ _) each (awaits_item outer)

theorem reads_object {fields : List (List Piece × Json)} (each : ∀ field ∈ fields, Reads field.2) :
    Reads (.object fields) := by
  intro reader outer rest awaits _
  have opened : ∀ text, reader.run? ('{' :: text) = (nameOrEnd outer).run? text :=
    fun text => run_step rfl (awaits .openObject nofun)
  rw [write, opened]
  cases fields with
  | nil => exact run_step rfl rfl
  | cons field fields => exact reads_fields (List.cons_ne_nil _ _) each (awaits_first_name outer)

theorem reads_integral {value : Json} (integral : Integral value) : Reads value := by
  induction integral with
  | null => exact reads_of_token .null (fun _ _ => rfl) fun _ => rfl
  | bool value =>
      cases value with
      | true => exact reads_of_token (.bool true) (fun _ _ => rfl) fun _ => rfl
      | false => exact reads_of_token (.bool false) (fun _ _ => rfl) fun _ => rfl
  | number literal whole =>
      apply reads_of_token (.number literal)
      · intro rest ends
        exact Numeral.next_write literal whole ends
      · exact fun _ => rfl
  | string pieces =>
      apply reads_of_token (.string pieces)
      · intro rest _
        exact Piece.next_writeAll pieces rest
      · exact fun _ => rfl
  | array items each induction => exact reads_array induction
  | object fields each induction => exact reads_object induction

end Reader

/-- What is written for a value without fractions and exponents is read as this value. -/
theorem parse_render {value : Json} (integral : Integral value) :
    parse? value.render = some value := by
  rw [parse?, render, String.toList_ofList,
    Reader.reads_integral integral _ [] [] (Reader.awaits_value []) Numeral.ends_nil,
    Reader.run_nil]
  rfl

end Sema.Json
