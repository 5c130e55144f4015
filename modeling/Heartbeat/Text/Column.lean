/-!
# Columns

A cell of a table is filled up with spaces to the width of its column; a wider cell is kept whole.
The width counts characters.
-/

namespace Heartbeat.Text

/-- The cell at the left of its column. -/
def alignLeft (width : Nat) (cell : String) : String :=
  cell ++ String.ofList (List.replicate (width - cell.length) ' ')

/-- The cell at the right of its column. -/
def alignRight (width : Nat) (cell : String) : String :=
  String.ofList (List.replicate (width - cell.length) ' ') ++ cell

end Heartbeat.Text
