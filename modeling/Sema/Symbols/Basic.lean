import Sema.Symbols.ScopeStack
import Sema.Tokens.Basic

/-!
The symbol table. Every variable that was ever declared stays in a flat store; the scopes only map
the names that can be seen to slots of that store. So a variable whose scope is closed can still be
reported as unused. The table also carries the tokens of the file, which nothing here reads.
-/

namespace Sema

/-- A declared variable. Its type is a name, and depth zero is the root scope. -/
structure Variable where
  name : String
  ty : String
  line : UInt64
  used : Bool
  scopeDepth : Nat
  deriving DecidableEq, Repr

structure Symbols where
  entries : List Variable
  scopes : ScopeStack String Nat
  tokens : List TokenEntry

namespace Symbols

def empty : Symbols := ⟨[], .empty, []⟩

def addToken (symbols : Symbols) (token : TokenEntry) : Symbols :=
  { symbols with tokens := symbols.tokens ++ [token] }

def scopeDepth (symbols : Symbols) : Nat := symbols.scopes.depth

def enter (symbols : Symbols) : Symbols := { symbols with scopes := symbols.scopes.enter }

def leave (symbols : Symbols) : Except ScopeError Symbols :=
  symbols.scopes.leave.map fun scopes => { symbols with scopes }

/-- Declares a variable in the innermost scope. A name that this scope already has keeps its slot,
and the new declaration, not yet used, takes it over. -/
def declare (symbols : Symbols) (name ty : String) (line : UInt64) : Symbols :=
  let entry := { name, ty, line, used := false, scopeDepth := symbols.scopeDepth }
  match symbols.scopes.local? name with
  | some slot => { symbols with entries := symbols.entries.set slot entry }
  | none =>
      { symbols with
        entries := symbols.entries ++ [entry]
        scopes := (symbols.scopes.define name symbols.entries.length).2 }

/-- The variable that a name stands for. -/
def lookup? (symbols : Symbols) (name : String) : Option Variable :=
  (symbols.scopes.visible? name).bind fun slot => symbols.entries[slot]?

def isDeclared (symbols : Symbols) (name : String) : Bool := (symbols.lookup? name).isSome

/-- Records a use of the variable that a name stands for. A name that stands for none is ignored. -/
def markUsed (symbols : Symbols) (name : String) : Symbols :=
  match symbols.scopes.visible? name with
  | none => symbols
  | some slot =>
      { symbols with
        entries := symbols.entries.modify slot fun entry => { entry with used := true } }

/-- A line of the list of unused variables. -/
def unusedEntry (entry : Variable) : String :=
  entry.name ++ " (line " ++ toString entry.line.toNat ++ ")"

/-- The variables without a recorded use in order of declaration, those of closed scopes among
them. -/
def unused (symbols : Symbols) : List String :=
  (symbols.entries.filter fun entry => !entry.used).map unusedEntry

/-- Goes back to a root scope without variables and to an empty list of tokens. -/
def clear (symbols : Symbols) : Symbols :=
  { symbols with entries := [], scopes := symbols.scopes.clear, tokens := [] }

end Symbols

end Sema
