import Sema.Json.Token

/-!
Reading a JSON text into a value. The reader goes through the tokens once and keeps the containers
that are still open in a list, so a document may be nested as deep as it likes. `Json.parse?`
accepts exactly one value with blanks around it.
-/

namespace Sema.Json

/-- A container whose end is still to come, with what it holds so far in reverse. In an object the
value under the given name is being read. -/
inductive Frame where
  | array (items : List Json)
  | object (fields : List (List Piece × Json)) (name : List Piece)

/-- What may come next, inside the containers that are open. -/
inductive Reader where
  /-- A value. -/
  | awaitValue (outer : List Frame)
  /-- The first value of an array, or its end. -/
  | itemOrEnd (outer : List Frame)
  /-- The first name of an object, or its end. -/
  | nameOrEnd (outer : List Frame)
  /-- A further name of an object. -/
  | awaitName (fields : List (List Piece × Json)) (outer : List Frame)
  /-- The colon after a name. -/
  | awaitColon (fields : List (List Piece × Json)) (name : List Piece) (outer : List Frame)
  /-- A comma or an end, since a value is complete. -/
  | complete (value : Json) (outer : List Frame)

namespace Reader

/-- Takes a token with which a value begins. -/
def begin? (outer : List Frame) : Token → Option Reader
  | .null => some (.complete .null outer)
  | .bool value => some (.complete (.bool value) outer)
  | .number literal => some (.complete (.number literal) outer)
  | .string pieces => some (.complete (.string pieces) outer)
  | .openArray => some (.itemOrEnd outer)
  | .openObject => some (.nameOrEnd outer)
  | .closeArray | .closeObject | .colon | .comma => none

def step? : Reader → Token → Option Reader
  | .awaitValue outer, token => begin? outer token
  | .itemOrEnd outer, .closeArray => some (.complete (.array []) outer)
  | .itemOrEnd outer, token => begin? (.array [] :: outer) token
  | .nameOrEnd outer, .closeObject => some (.complete (.object []) outer)
  | .nameOrEnd outer, .string name => some (.awaitColon [] name outer)
  | .awaitName fields outer, .string name => some (.awaitColon fields name outer)
  | .awaitColon fields name outer, .colon => some (.awaitValue (.object fields name :: outer))
  | .complete value (.array items :: outer), .comma =>
      some (.awaitValue (.array (value :: items) :: outer))
  | .complete value (.array items :: outer), .closeArray =>
      some (.complete (.array (value :: items).reverse) outer)
  | .complete value (.object fields name :: outer), .comma =>
      some (.awaitName ((name, value) :: fields) outer)
  | .complete value (.object fields name :: outer), .closeObject =>
      some (.complete (.object ((name, value) :: fields).reverse) outer)
  | _, _ => none

/-- The document's value, if nothing is open. -/
def result? : Reader → Option Json
  | .complete value [] => some value
  | _ => none

def run? (reader : Reader) (text : List Char) : Option Json :=
  match _found : Token.next? text with
  | none => none
  | some none => reader.result?
  | some (some (token, rest)) =>
      match reader.step? token with
      | none => none
      | some reader => reader.run? rest
termination_by text.length
decreasing_by exact Token.next?_shorter ‹_›

end Reader

/-- The value of a JSON document. -/
def parse? (text : String) : Option Json := (Reader.awaitValue []).run? text.toList

end Sema.Json
