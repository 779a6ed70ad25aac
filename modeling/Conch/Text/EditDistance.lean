/-!
# Edit distance

The least number of insertions, deletions and replacements of one element that turn a list
into another, computed row by row: the row of a list holds its distances to all prefixes of
the other.
-/

namespace Conch.EditDistance

variable {α : Type} [BEq α]

/-- The entries of the next row that follow `left`, for the list with `x` added at its end.
`diagonal` is the old entry one place to the left, and the old entries from here on come with the
elements of the other list. -/
def nextEntries (x : α) (left diagonal : Nat) : List (α × Nat) → List Nat
  | [] => []
  | (y, above) :: rest =>
    let kept := if x == y then diagonal else diagonal + 1
    let entry := min kept (min (left + 1) (above + 1))
    entry :: nextEntries x entry above rest

/-- The row after `row`, for the list with `x` added at its end. -/
def nextRow (x : α) (other : List α) : List Nat → List Nat
  | [] => []
  | first :: rest => (first + 1) :: nextEntries x (first + 1) first (other.zip rest)

/-- The distance between two lists. -/
def distance (xs ys : List α) : Nat :=
  let row := xs.foldl (fun row x => nextRow x ys row) (List.range (ys.length + 1))
  row.getLast?.getD 0

end Conch.EditDistance
