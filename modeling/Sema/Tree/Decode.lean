import Sema.Json.Record
import Sema.Tree.Program

/-!
Trees from JSON. Every record may be an object or an array of its fields, and what may be left out
may be missing or `null`; unknown fields are passed over. Statements and expressions are read within
a bound on the nesting, and the nesting of the value itself is always enough.
-/

namespace Sema

open Json (required? optionalSlot? optional? list? string? bool? word?)

namespace Position

def ofJson? (json : Json) : Option Position := do
  let [line, column] ← json.slots? ["line", "column"] | none
  some ⟨← required? word? line, ← required? word? column⟩

end Position

namespace Located

def ofJson? {Node : Type} (decode : Json → Option Node) (json : Json) : Option (Located Node) := do
  let [pos, data] ← json.slots? ["pos", "data"] | none
  some ⟨← required? Position.ofJson? pos, ← required? decode data⟩

end Located

namespace BinaryOp

def ofJson? (json : Json) : Option BinaryOp := json.emptyVariant?.bind ofSymbol?

end BinaryOp

namespace UnaryOp

def ofJson? (json : Json) : Option UnaryOp := json.emptyVariant?.bind ofSymbol?

end UnaryOp

/-! ### Expressions -/

namespace Expr

/-- A call's name and arguments. -/
def callOfJson? (decode : Json → Option Expr) (json : Json) :
    Option (String × List (Located Expr)) := do
  let [name, args] ← json.slots? ["name", "args"] | none
  some (← required? string? name, ← required? (list? (Located.ofJson? decode)) args)

def literalOfJson? (content : Json) : Option Expr := do
  let [ty, value] ← content.slots? ["ty", "value"] | none
  some (.literal (← required? string? ty) (← required? string? value))

def binaryOfJson? (decode : Json → Option Expr) (content : Json) : Option Expr := do
  let [op, lhs, rhs] ← content.slots? ["op", "lhs", "rhs"] | none
  some (.binary (← required? BinaryOp.ofJson? op) (← required? (Located.ofJson? decode) lhs)
    (← required? (Located.ofJson? decode) rhs))

def unaryOfJson? (decode : Json → Option Expr) (content : Json) : Option Expr := do
  let [op, operand, leading] ← content.slots? ["op", "operand", "prefix"] | none
  some (.unary (← required? UnaryOp.ofJson? op) (← required? (Located.ofJson? decode) operand)
    (← required? bool? leading))

def memberOfJson? (decode : Json → Option Expr) (content : Json) : Option Expr := do
  let [path, ending] ← content.slots? ["path", "call"] | none
  let path ← required? (list? string?) path
  match ← optionalSlot? (callOfJson? decode) ending with
  | none => some (.member path)
  | some (name, args) => some (.memberCall path name args)

/-- The expression that a variant's content holds. -/
def ofVariant? (decode : Json → Option Expr) (name : String) (content : Json) : Option Expr :=
  if name = "Literal" then literalOfJson? content
  else if name = "Identifier" then content.string?.map .identifier
  else if name = "Binary" then binaryOfJson? decode content
  else if name = "Unary" then unaryOfJson? decode content
  else if name = "MethodCall" then
    (callOfJson? decode content).map fun (name, args) => .call name args
  else if name = "MemberAccess" then memberOfJson? decode content
  else none

def ofJsonWithin? : Nat → Json → Option Expr
  | 0, _ => none
  | bound + 1, json =>
      match json.variant? with
      | some (name, some content) => ofVariant? (ofJsonWithin? bound) name content
      | _ => none

def ofJson? (json : Json) : Option Expr := ofJsonWithin? json.depth json

end Expr

/-! ### Statements -/

namespace Stmt

def declareOfJson? (content : Json) : Option Stmt := do
  let [ty, name, isArray, init] ← content.slots? ["ty", "name", "is_array", "init"] | none
  some (.declare (← required? string? ty) (← required? string? name) (← required? bool? isArray)
    (← optionalSlot? (Located.ofJson? Expr.ofJson?) init))

def assignOfJson? (content : Json) : Option Stmt := do
  let [target, value] ← content.slots? ["target", "value"] | none
  some (.assign (← required? string? target) (← required? (Located.ofJson? Expr.ofJson?) value))

def ifElseOfJson? (decode : Json → Option Stmt) (content : Json) : Option Stmt := do
  let [cond, thenBranch, elseBranch] ← content.slots? ["cond", "then_branch", "else_branch"] | none
  some (.ifElse (← required? (Located.ofJson? Expr.ofJson?) cond)
    (← required? (Located.ofJson? decode) thenBranch)
    (← optionalSlot? (Located.ofJson? decode) elseBranch))

def whileOfJson? (decode : Json → Option Stmt) (content : Json) : Option Stmt := do
  let [cond, body] ← content.slots? ["cond", "body"] | none
  some (.whileLoop (← required? (Located.ofJson? Expr.ofJson?) cond)
    (← required? (Located.ofJson? decode) body))

def doWhileOfJson? (decode : Json → Option Stmt) (content : Json) : Option Stmt := do
  let [body, cond] ← content.slots? ["body", "cond"] | none
  some (.doWhileLoop (← required? (Located.ofJson? decode) body)
    (← required? (Located.ofJson? Expr.ofJson?) cond))

def forOfJson? (decode : Json → Option Stmt) (content : Json) : Option Stmt := do
  let [init, cond, update, body] ← content.slots? ["init", "cond", "update", "body"] | none
  some (.forLoop (← optionalSlot? (Located.ofJson? decode) init)
    (← optionalSlot? (Located.ofJson? Expr.ofJson?) cond)
    (← optionalSlot? (Located.ofJson? decode) update)
    (← required? (Located.ofJson? decode) body))

def armOfJson? (decode : Json → Option Stmt) (json : Json) : Option (Arm Stmt) := do
  let [value, body] ← json.slots? ["value", "body"] | none
  some ⟨← required? (Located.ofJson? Expr.ofJson?) value,
    ← required? (list? (Located.ofJson? decode)) body⟩

def blockOfJson? (decode : Json → Option Stmt) (json : Json) : Option (List (Located Stmt)) := do
  let [statements] ← json.slots? ["statements"] | none
  required? (list? (Located.ofJson? decode)) statements

def switchOfJson? (decode : Json → Option Stmt) (content : Json) : Option Stmt := do
  let [scrutinee, arms, otherwise] ← content.slots? ["scrutinee", "cases", "default"] | none
  some (.switch (← required? (Located.ofJson? Expr.ofJson?) scrutinee)
    (← required? (list? (Located.ofJson? (armOfJson? decode))) arms)
    (← optionalSlot? (Located.ofJson? (blockOfJson? decode)) otherwise))

/-- The statement that a variant's content holds. -/
def ofVariant? (decode : Json → Option Stmt) (name : String) (content : Json) : Option Stmt :=
  if name = "VariableDeclaration" then declareOfJson? content
  else if name = "Assignment" then assignOfJson? content
  else if name = "If" then ifElseOfJson? decode content
  else if name = "While" then whileOfJson? decode content
  else if name = "DoWhile" then doWhileOfJson? decode content
  else if name = "For" then forOfJson? decode content
  else if name = "Switch" then switchOfJson? decode content
  else if name = "Return" then
    (optional? (Located.ofJson? Expr.ofJson?) content).map .returning
  else if name = "Block" then (blockOfJson? decode content).map .block
  else if name = "Expression" then (Located.ofJson? Expr.ofJson? content).map .expression
  else none

/-- The statements that hold nothing. -/
def ofEmptyVariant? (name : String) : Option Stmt :=
  if name = "Break" then some .breaking
  else if name = "Continue" then some .continuing
  else none

def ofJsonWithin? : Nat → Json → Option Stmt
  | 0, _ => none
  | bound + 1, json =>
      match json.emptyVariant?.bind ofEmptyVariant? with
      | some stmt => some stmt
      | none =>
          match json.variant? with
          | some (name, some content) => ofVariant? (ofJsonWithin? bound) name content
          | _ => none

def ofJson? (json : Json) : Option Stmt := ofJsonWithin? json.depth json

end Stmt

/-! ### Programs -/

namespace Parameter

def ofJson? (json : Json) : Option Parameter := do
  let [ty, name, isArray] ← json.slots? ["ty", "name", "is_array"] | none
  some ⟨← required? string? ty, ← required? string? name, ← required? bool? isArray⟩

end Parameter

namespace Field

def ofJson? (json : Json) : Option Field := do
  let [modifiers, ty, name, isArray] ← json.slots? ["modifiers", "ty", "name", "is_array"] | none
  some ⟨← required? string? modifiers, ← required? string? ty, ← required? string? name,
    ← required? bool? isArray⟩

end Field

namespace Method

def ofJson? (json : Json) : Option Method := do
  let [modifiers, returnTy, name, params, body] ←
    json.slots? ["modifiers", "return_ty", "name", "params", "body"] | none
  some ⟨← required? string? modifiers, ← required? string? returnTy, ← required? string? name,
    ← required? (list? (Located.ofJson? Parameter.ofJson?)) params,
    ← required? (list? (Located.ofJson? Stmt.ofJson?)) body⟩

end Method

namespace Member

def ofJson? (json : Json) : Option Member :=
  match json.variant? with
  | some (name, some content) =>
      if name = "Field" then (Field.ofJson? content).map .field
      else if name = "Method" then (Method.ofJson? content).map .method
      else none
  | _ => none

end Member

namespace ClassDecl

def ofJson? (json : Json) : Option ClassDecl := do
  let [name, modifiers, members] ← json.slots? ["name", "modifiers", "members"] | none
  some ⟨← required? string? name, ← required? string? modifiers,
    ← required? (list? (Located.ofJson? Member.ofJson?)) members⟩

end ClassDecl

namespace Program

def ofJson? (json : Json) : Option Program := do
  let [classes] ← json.slots? ["classes"] | none
  some ⟨← required? (list? (Located.ofJson? ClassDecl.ofJson?)) classes⟩

end Program

end Sema
