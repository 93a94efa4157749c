/-!
Sets of characters, as lists of the inclusive ranges of their code points.
-/

namespace Phrasebook.Text

def within (ranges : List (Nat × Nat)) (c : Char) : Bool :=
  ranges.any fun range => range.1 ≤ c.toNat && c.toNat ≤ range.2

end Phrasebook.Text
