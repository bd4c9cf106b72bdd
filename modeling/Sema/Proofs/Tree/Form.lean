import Sema.Json.Record
import Sema.Tree.Operator

/-!
# Forms of trees in JSON

A form says how values of one type may be written. Records and choices can be written in more than
one way, and a value that spells another under a form stands for the same as this plain one, in
which every record has all its fields in order. Expressions and statements contain themselves, so
their forms are known by name.
-/

namespace Sema

/-- The forms that occur inside themselves. -/
inductive Nested where
  | expr
  | stmt
  deriving DecidableEq, Repr

/-- A choice has variants with content and variants that hold nothing. -/
inductive Form where
  | text
  | word
  | flag
  | optional (content : Form)
  | list (item : Form)
  | record (fields : List (String × Form))
  | choice (variants : List (String × Option Form))
  | nested (which : Nested)

/-! ### The forms of the tree -/

namespace Form

def position : Form := .record [("line", .word), ("column", .word)]

def located (data : Form) : Form := .record [("pos", position), ("data", data)]

def operator (symbols : List String) : Form := .choice (symbols.map fun symbol => (symbol, none))

def binaryOp : Form := operator (BinaryOp.all.map BinaryOp.symbol)

def unaryOp : Form := operator (UnaryOp.all.map UnaryOp.symbol)

def expr : Form := located (.nested .expr)

def stmt : Form := located (.nested .stmt)

def literal : Form := .record [("ty", .text), ("value", .text)]

def binary : Form := .record [("op", binaryOp), ("lhs", expr), ("rhs", expr)]

def unary : Form := .record [("op", unaryOp), ("operand", expr), ("prefix", .flag)]

def call : Form := .record [("name", .text), ("args", .list expr)]

def member : Form := .record [("path", .list .text), ("call", .optional call)]

def exprVariants : List (String × Option Form) :=
  [("Literal", some literal), ("Identifier", some .text), ("Binary", some binary),
    ("Unary", some unary), ("MethodCall", some call), ("MemberAccess", some member)]

def declare : Form :=
  .record [("ty", .text), ("name", .text), ("is_array", .flag), ("init", .optional expr)]

def assign : Form := .record [("target", .text), ("value", expr)]

def ifElse : Form :=
  .record [("cond", expr), ("then_branch", stmt), ("else_branch", .optional stmt)]

def whileLoop : Form := .record [("cond", expr), ("body", stmt)]

def doWhileLoop : Form := .record [("body", stmt), ("cond", expr)]

def forLoop : Form :=
  .record [("init", .optional stmt), ("cond", .optional expr), ("update", .optional stmt),
    ("body", stmt)]

def arm : Form := .record [("value", expr), ("body", .list stmt)]

def block : Form := .record [("statements", .list stmt)]

def switch : Form :=
  .record [("scrutinee", expr), ("cases", .list (located arm)),
    ("default", .optional (located block))]

def stmtVariants : List (String × Option Form) :=
  [("VariableDeclaration", some declare), ("Assignment", some assign), ("If", some ifElse),
    ("While", some whileLoop), ("DoWhile", some doWhileLoop), ("For", some forLoop),
    ("Switch", some switch), ("Return", some (.optional expr)), ("Break", none),
    ("Continue", none), ("Block", some block), ("Expression", some expr)]

def parameter : Form := .record [("ty", .text), ("name", .text), ("is_array", .flag)]

def field : Form :=
  .record [("modifiers", .text), ("ty", .text), ("name", .text), ("is_array", .flag)]

def method : Form :=
  .record [("modifiers", .text), ("return_ty", .text), ("name", .text),
    ("params", .list (located parameter)), ("body", .list stmt)]

def memberVariants : List (String × Option Form) := [("Field", some field), ("Method", some method)]

def classMember : Form := .choice memberVariants

def classDecl : Form :=
  .record [("name", .text), ("modifiers", .text), ("members", .list (located classMember))]

def program : Form := .record [("classes", .list (located classDecl))]

def token : Form := .record [("kind", .text), ("lexeme", .text), ("line", .word), ("column", .word)]

end Form

def Nested.form : Nested → Form
  | .expr => .choice Form.exprVariants
  | .stmt => .choice Form.stmtVariants

/-! ### Distinct names -/

mutual

/-- Whether the names in every record and in every choice are distinct. -/
def Form.distinct : Form → Bool
  | .text | .word | .flag | .nested _ => true
  | .optional content | .list content => content.distinct
  | .record fields => decide (fields.map Prod.fst).Nodup && Form.distinctFields fields
  | .choice variants => decide (variants.map Prod.fst).Nodup && Form.distinctVariants variants

def Form.distinctFields : List (String × Form) → Bool
  | [] => true
  | (_, form) :: fields => form.distinct && Form.distinctFields fields

def Form.distinctVariants : List (String × Option Form) → Bool
  | [] => true
  | (_, none) :: variants => Form.distinctVariants variants
  | (_, some form) :: variants => form.distinct && Form.distinctVariants variants

end

theorem Form.distinctFields_mem {fields : List (String × Form)} {name : String} {form : Form}
    (distinct : distinctFields fields = true) (known : (name, form) ∈ fields) :
    form.distinct = true := by
  induction fields with
  | nil => cases known
  | cons field fields induction =>
      obtain ⟨first, others⟩ := Bool.and_eq_true_iff.mp distinct
      cases known with
      | head => exact first
      | tail _ known => exact induction others known

theorem Form.distinctVariants_mem {variants : List (String × Option Form)} {name : String}
    {form : Form} (distinct : distinctVariants variants = true)
    (known : (name, some form) ∈ variants) : form.distinct = true := by
  induction variants with
  | nil => cases known
  | cons variant variants induction =>
      obtain ⟨other, _ | content⟩ := variant
      · cases known with
        | tail _ known => exact induction distinct known
      · obtain ⟨first, others⟩ := Bool.and_eq_true_iff.mp distinct
        cases known with
        | head => exact first
        | tail _ known => exact induction others known

theorem Form.distinct_record {fields : List (String × Form)}
    (distinct : (record fields).distinct = true) :
    (fields.map Prod.fst).Nodup ∧ ∀ name form, (name, form) ∈ fields → form.distinct = true := by
  obtain ⟨names, forms⟩ := Bool.and_eq_true_iff.mp distinct
  exact ⟨of_decide_eq_true names, fun _ _ => distinctFields_mem forms⟩

theorem Form.distinct_choice {variants : List (String × Option Form)}
    (distinct : (choice variants).distinct = true) :
    (variants.map Prod.fst).Nodup ∧
      ∀ name form, (name, some form) ∈ variants → form.distinct = true := by
  obtain ⟨names, forms⟩ := Bool.and_eq_true_iff.mp distinct
  exact ⟨of_decide_eq_true names, fun _ _ => distinctVariants_mem forms⟩

theorem Nested.form_distinct (which : Nested) : which.form.distinct = true := by
  cases which <;> decide

/-! ### Spellings -/

namespace Json

/-- The values that an object has under a name, however the name is spelled. -/
def under (name : String) (fields : List (List Piece × Json)) : List Json :=
  (fields.filter fun field => Piece.text? field.1 == some name).map Prod.snd

/-- What a value has in the slots of a record. An array has an item for each slot. The keys of an
object are texts, and it has at most one value under each name. -/
inductive Presents (names : List String) : Json → List (Option Json) → Prop where
  | array {items : List Json} (each : items.length = names.length) :
      Presents names (.array items) (items.map some)
  | object {fields : List (List Piece × Json)} {slots : List (Option Json)}
      (keys : ∀ field ∈ fields, (Piece.text? field.1).isSome = true)
      (once : names.map (fun name => under name fields) = slots.map Option.toList) :
      Presents names (.object fields) slots

end Json

mutual

/-- The first value stands for the second, which is plain. -/
inductive Spells : Form → Json → Json → Prop where
  | text {pieces : List Piece} {value : String} (reads : Piece.text? pieces = some value) :
      Spells .text (.string pieces) (.text value)
  | word {value : Nat} (bound : value < UInt64.size) : Spells .word (.nat value) (.nat value)
  | flag (value : Bool) : Spells .flag (.bool value) (.bool value)
  | absent (content : Form) : Spells (.optional content) .null .null
  | present {content : Form} {json plain : Json} (some : json ≠ .null)
      (spells : Spells content json plain) : Spells (.optional content) json plain
  | list {item : Form} {items plains : List Json} (each : SpellsEach item items plains) :
      Spells (.list item) (.array items) (.array plains)
  | record {fields : List (String × Form)} {json : Json} {slots : List (Option Json)}
      {plains : List (String × Json)} (presents : json.Presents (fields.map Prod.fst) slots)
      (each : SpellsSlots fields slots plains) : Spells (.record fields) json (.record plains)
  | name {variants : List (String × Option Form)} {pieces : List Piece} {name : String}
      (reads : Piece.text? pieces = some name) (empty : (name, none) ∈ variants) :
      Spells (.choice variants) (.string pieces) (.text name)
  | bare {variants : List (String × Option Form)} {key : List Piece} {name : String}
      (reads : Piece.text? key = some name) (empty : (name, none) ∈ variants) :
      Spells (.choice variants) (.object [(key, .null)]) (.text name)
  | variant {variants : List (String × Option Form)} {key : List Piece} {name : String}
      {form : Form} {content plain : Json} (reads : Piece.text? key = some name)
      (known : (name, some form) ∈ variants) (spells : Spells form content plain) :
      Spells (.choice variants) (.object [(key, content)]) (.variantWith name plain)
  | nested {which : Nested} {json plain : Json} (spells : Spells which.form json plain) :
      Spells (.nested which) json plain

inductive SpellsEach : Form → List Json → List Json → Prop where
  | nil (item : Form) : SpellsEach item [] []
  | cons {item : Form} {json plain : Json} {items plains : List Json}
      (first : Spells item json plain) (others : SpellsEach item items plains) :
      SpellsEach item (json :: items) (plain :: plains)

/-- Every slot of a record is filled, but an optional one may be missing. -/
inductive SpellsSlots :
    List (String × Form) → List (Option Json) → List (String × Json) → Prop where
  | nil : SpellsSlots [] [] []
  | filled {name : String} {form : Form} {json plain : Json} {fields : List (String × Form)}
      {slots : List (Option Json)} {plains : List (String × Json)}
      (first : Spells form json plain) (others : SpellsSlots fields slots plains) :
      SpellsSlots ((name, form) :: fields) (some json :: slots) ((name, plain) :: plains)
  | missing {name : String} {content : Form} {fields : List (String × Form)}
      {slots : List (Option Json)} {plains : List (String × Json)}
      (others : SpellsSlots fields slots plains) :
      SpellsSlots ((name, .optional content) :: fields) (none :: slots) ((name, .null) :: plains)

end

end Sema
