import Phrasebook.Decimal.Shortest

/-!
Decimal text with a given number of places. The exact value is rounded to the nearest point of the
grid, a tie goes to the even neighbour, and the sign of the number is kept also when nothing else
is.
-/

namespace Phrasebook.Decimal

def withPoint (digits : List Char) (places : Nat) : List Char :=
  let padded := zeros (places + 1 - digits.length) ++ digits
  let whole := padded.length - places
  if places = 0 then padded else padded.take whole ++ '.' :: padded.drop whole

def fixedMagnitude (mantissa : Nat) (exponent : Int) (places : Nat) : List Char :=
  let point := ((Ratio.ofBinary mantissa exponent).shift places).round .toEven
  withPoint (Nat.toDigits 10 point) places

def fixed (number : Float) (places : Nat) : List Char :=
  match Binary.ofFloat number with
  | .notANumber => ['N', 'a', 'N']
  | .infinite negative => signed negative ['i', 'n', 'f']
  | .finite negative mantissa exponent =>
      signed negative (fixedMagnitude mantissa exponent places)

/-- The mantissa with `places` digits after its point, and the decimal exponent. -/
def scientificParts (mantissa : Nat) (exponent : Int) (places : Nat) : List Char × Int :=
  if mantissa = 0 then (withPoint (zeros (places + 1)) places, 0)
  else
    let ratio := Ratio.ofBinary mantissa exponent
    let leading := ratio.leadingPlace
    let digits := Nat.toDigits 10 ((ratio.shift (places + 1 - leading)).round .toEven)
    (withPoint (digits.take (places + 1)) places, leading - 1 + (digits.length - (places + 1)))

/-- A mantissa, the letter, and an exponent of a sign and at least three digits. A number without
digits has the exponent zero. -/
def scientific (number : Float) (places : Nat) (letter : Char) : List Char :=
  let exponentText (exponent : Int) : List Char :=
    let digits := Nat.toDigits 10 exponent.natAbs
    (if exponent < 0 then '-' else '+') :: zeros (3 - digits.length) ++ digits
  match Binary.ofFloat number with
  | .notANumber => ['N', 'a', 'N', letter] ++ exponentText 0
  | .infinite negative => signed negative ['i', 'n', 'f', letter] ++ exponentText 0
  | .finite negative mantissa exponent =>
      let parts := scientificParts mantissa exponent places
      signed negative (parts.1 ++ letter :: exponentText parts.2)

end Phrasebook.Decimal
