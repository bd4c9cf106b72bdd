/-!
Where a node of the tree starts in its file. Lines and columns are 64-bit words counted from one;
`line:column` is how a position is shown.
-/

namespace Sema

structure Position where
  line : UInt64
  column : UInt64
  deriving DecidableEq, Repr, Inhabited

namespace Position

def display (position : Position) : String :=
  toString position.line.toNat ++ ":" ++ toString position.column.toNat

end Position

/-- A node with its position. -/
structure Located (Node : Type) where
  pos : Position
  data : Node
  deriving DecidableEq, Repr

namespace Located

variable {Node : Type}

def place (line column : UInt64) (data : Node) : Located Node := ⟨⟨line, column⟩, data⟩

def line (node : Located Node) : UInt64 := node.pos.line

end Located

end Sema
