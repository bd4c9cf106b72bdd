/-!
A path as the names between its slashes. Empty names count for nothing, and a path without names
stays where it starts. The last name is what is read or written, and the names before it are gone
through on the way.
-/

namespace Sema.Cli

structure Path where
  absolute : Bool
  parents : List String
  last : String
  closed : Bool
  deriving DecidableEq, Repr

namespace Path

/-- The longest path and the longest name, in bytes. -/
def longest : Nat := 4095

def longestName : Nat := 255

/-- A path is absolute if a slash opens it, and closed if a slash ends it. -/
def ofText (text : String) : Path :=
  let names := (text.splitOn "/").filter fun name => name ≠ ""
  { absolute := text.toList.head? = some '/'
    parents := names.dropLast
    last := names.getLast?.getD "."
    closed := text.toList.getLast? = some '/' }

end Path

end Sema.Cli
