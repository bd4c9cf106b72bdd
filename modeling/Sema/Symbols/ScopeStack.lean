import Sema.Bindings

/-!
Lexical scopes: a root scope that always stays, and the scopes opened inside it. A definition goes
into the innermost scope, where it replaces an earlier one of the same key, and hides those of the
scopes around it until its scope is left.
-/

namespace Sema

/-- The open scopes above the root stand with the innermost first. -/
structure ScopeStack (Key Value : Type) where
  root : Bindings Key Value
  inner : List (Bindings Key Value)

inductive ScopeError where
  | cannotLeaveRoot
  deriving DecidableEq, Repr

namespace ScopeError

def message : ScopeError → String
  | .cannotLeaveRoot => "cannot leave the root scope"

end ScopeError

namespace ScopeStack

variable {Key Value : Type} [DecidableEq Key]

def empty : ScopeStack Key Value := ⟨.empty, []⟩

/-- The number of open scopes above the root. -/
def depth (scopes : ScopeStack Key Value) : Nat := scopes.inner.length

def enter (scopes : ScopeStack Key Value) : ScopeStack Key Value :=
  { scopes with inner := .empty :: scopes.inner }

def leave (scopes : ScopeStack Key Value) : Except ScopeError (ScopeStack Key Value) :=
  match scopes.inner with
  | [] => .error .cannotLeaveRoot
  | _ :: outer => .ok { scopes with inner := outer }

/-- All scopes from the innermost to the root. -/
def outward (scopes : ScopeStack Key Value) : List (Bindings Key Value) :=
  scopes.inner ++ [scopes.root]

/-- The definition of a key in the innermost scope. -/
def local? (scopes : ScopeStack Key Value) (key : Key) : Option Value :=
  match scopes.inner with
  | [] => scopes.root.find? key
  | current :: _ => current.find? key

/-- The definition of a key in the innermost scope that has one. -/
def visible? (scopes : ScopeStack Key Value) (key : Key) : Option Value :=
  scopes.outward.findSome? fun scope => scope.find? key

/-- Defines a key in the innermost scope. The value that it had there comes with the result. -/
def define (scopes : ScopeStack Key Value) (key : Key) (value : Value) :
    Option Value × ScopeStack Key Value :=
  match scopes.inner with
  | [] => (scopes.root.find? key, { scopes with root := scopes.root.bind key value })
  | current :: outer =>
      (current.find? key, { scopes with inner := current.bind key value :: outer })

/-- Drops every definition and every scope above the root. -/
def clear (scopes : ScopeStack Key Value) : ScopeStack Key Value :=
  { scopes with root := .empty, inner := [] }

end ScopeStack

end Sema
