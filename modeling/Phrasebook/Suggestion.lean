/-!
Suggestions for a misspelled name: the candidates that are few edits away. The distance is the least
number of characters to insert, delete or replace; it is computed row by row, where a row holds the
distances from a part of the first text to all initial parts of the second.
-/

namespace Phrasebook

/-- The rest of a row. `left` is the entry before it, `diagonal` the one above that. -/
def extendRow (c : Char) : Nat → Nat → List Char → List Nat → List Nat
  | left, diagonal, target :: targets, above :: rest =>
      let replaced := if c = target then diagonal else diagonal + 1
      let entry := min (min (left + 1) (above + 1)) replaced
      entry :: extendRow c entry above targets rest
  | _, _, _, _ => []

def nextRow (target : List Char) (row : List Nat) (c : Char) : List Nat :=
  match row with
  | [] => []
  | first :: rest => (first + 1) :: extendRow c (first + 1) first target rest

def editDistance (source target : List Char) : Nat :=
  let row := source.foldl (nextRow target) (List.range (target.length + 1))
  row.getLast?.getD 0

/-- Names of at most three bytes tolerate one edit, longer ones two. -/
def toleratedEdits (name : String) : Nat :=
  if name.utf8ByteSize ≤ 3 then 1 else 2

/-- The nearest candidates, at most three, and none that is the name itself. -/
def nearestNames (name : String) (available : List String) : List String :=
  let measured := available.map fun candidate =>
    (editDistance name.toList candidate.toList, candidate)
  let near := measured.filter fun entry => 0 < entry.1 && entry.1 ≤ toleratedEdits name
  ((near.mergeSort fun first second => first.1 ≤ second.1).take 3).map (·.2)

end Phrasebook
