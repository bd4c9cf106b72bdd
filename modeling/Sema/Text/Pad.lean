/-!
Columns of a table: a cell is filled up with spaces to its width, counted in characters. A cell
that is already wider stays whole.
-/

namespace Sema.Text

def spaces (count : Nat) : String := String.ofList (List.replicate count ' ')

/-- A cell whose text stands at the left. -/
def padRight (width : Nat) (cell : String) : String := cell ++ spaces (width - cell.length)

/-- A cell whose text stands at the right. -/
def padLeft (width : Nat) (cell : String) : String := spaces (width - cell.length) ++ cell

end Sema.Text
