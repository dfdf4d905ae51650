/-!
# Edit distance

The edit distance of two words is the least number of insertions, deletions and replacements of
single characters that turn one into the other.

The distances from the prefixes of one word to all prefixes of the other are computed row by row.
When only distances up to a limit are of interest, the computation stops as soon as a row holds no
entry within the limit, for later rows cannot go below it.

## Main definitions

* `EditDistance.distance` : the edit distance.
* `EditDistance.distanceWithin` : the edit distance, if it is within a limit.
* `EditDistance.isWithin` : whether it is.
-/

namespace FullText.EditDistance

/-- The rest of a row, for the characters `bs` of the second word. The cell to the left is `left`,
the row above starts with `diagonal` and goes on with the given list. -/
def nextCells (a : Char) (left diagonal : Nat) : List Char → List Nat → List Nat
  | b :: bs, above :: rest =>
    let cell := min (min (above + 1) (left + 1)) (diagonal + if a = b then 0 else 1)
    cell :: nextCells a cell above bs rest
  | _, _ => []

/-- The row below a row, for the character `a` of the first word. -/
def nextRow (a : Char) (b : List Char) : List Nat → List Nat
  | [] => []
  | first :: rest => (first + 1) :: nextCells a (first + 1) first b rest

/-- The least entry of a row. -/
def rowMin : List Nat → Nat
  | [] => 0
  | first :: rest => rest.foldl min first

/-- The last entry of a row. -/
def rowLast (row : List Nat) : Nat := row.getLastD 0

/-- The last row, for the characters of the first word that are left. -/
def finalRow (b : List Char) : List Char → List Nat → List Nat
  | [], row => row
  | a :: as, row => finalRow b as (nextRow a b row)

/-- The row above all others: the lengths of the prefixes of the second word. -/
def firstRow (b : List Char) : List Nat := List.range (b.length + 1)

/-- The edit distance of two words. -/
def distance (a b : List Char) : Nat := rowLast (finalRow b a (firstRow b))

/-- The last entry of the last row, if it is within the limit and every row on the way to it has an
entry within the limit. -/
def boundedFrom (limit : Nat) (b : List Char) : List Char → List Nat → Option Nat
  | [], row => if rowLast row ≤ limit then some (rowLast row) else none
  | a :: as, row =>
    let next := nextRow a b row
    if limit < rowMin next then none else boundedFrom limit b as next

/-- The difference of two lengths. -/
def lengthGap (a b : List Char) : Nat := (a.length - b.length) + (b.length - a.length)

/-- The edit distance of two words, if it is within the limit. Words whose lengths differ by more
are not compared. -/
def distanceWithin (a b : List Char) (limit : Nat) : Option Nat :=
  if limit < lengthGap a b then none
  else if a.isEmpty || b.isEmpty then some (max a.length b.length)
  else boundedFrom limit b a (firstRow b)

/-- Whether the edit distance of two words is within the limit. -/
def isWithin (a b : List Char) (limit : Nat) : Bool := (distanceWithin a b limit).isSome

end FullText.EditDistance
