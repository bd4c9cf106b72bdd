import Sema.Json.Basic

/-!
How values of a typed tree stand in JSON. A record is an object, or an array of exactly its fields;
`slots?` brings both into one list, in which a field that does not occur is `none`. A choice is an
object whose only field is named for the variant, or just that name where the variant holds nothing.
-/

namespace Sema.Json

variable {Value : Type}

def string? : Json → Option String
  | .string pieces => Piece.text? pieces
  | _ => none

def bool? : Json → Option Bool
  | .bool value => some value
  | _ => none

/-- An integer literal without a sign that fits in 64 bits. -/
def word? : Json → Option UInt64
  | .number literal => do
      let value ← literal.toNat?
      if value < UInt64.size then some (UInt64.ofNat value) else none
  | _ => none

def list? (decode : Json → Option Value) : Json → Option (List Value)
  | .array items => items.mapM decode
  | _ => none

/-- A value that may be absent, which is written `null`. -/
def optional? (decode : Json → Option Value) : Json → Option (Option Value)
  | .null => some none
  | json => (decode json).map some

/-- The fields of an object by their names, if every name has a text. -/
def named? (fields : List (List Piece × Json)) : Option (List (String × Json)) :=
  fields.mapM fun (name, value) => (Piece.text? name).map fun name => (name, value)

/-- The value of a field that may occur once at most. -/
def atMostOnce? (fields : List (String × Json)) (name : String) : Option (Option Json) :=
  match fields.filter fun field => field.1 == name with
  | [] => some none
  | [(_, value)] => some (some value)
  | _ => none

/-- The fields of a record in the order of the names. Other fields of an object are passed over. -/
def slots? (names : List String) : Json → Option (List (Option Json))
  | .array items => if items.length = names.length then some (items.map some) else none
  | .object fields => do names.mapM (atMostOnce? (← named? fields))
  | _ => none

/-- The value of a field that has to be there. -/
def required? (decode : Json → Option Value) (slot : Option Json) : Option Value := do
  decode (← slot)

/-- The value of a field that may be missing or `null`. -/
def optionalSlot? (decode : Json → Option Value) : Option Json → Option (Option Value)
  | none => some none
  | some json => optional? decode json

/-- The name of a variant with its content, if it is written with one. -/
def variant? : Json → Option (String × Option Json)
  | .string pieces => (Piece.text? pieces).map fun name => (name, none)
  | .object [(name, content)] => (Piece.text? name).map fun name => (name, some content)
  | _ => none

/-- The name of a variant that holds nothing. Its content is left out or `null`. -/
def emptyVariant? (json : Json) : Option String :=
  match json.variant? with
  | some (name, none) => some name
  | some (name, some .null) => some name
  | _ => none

/-- A choice whose variant holds something. -/
def variantWith (name : String) (content : Json) : Json := record [(name, content)]

end Sema.Json
