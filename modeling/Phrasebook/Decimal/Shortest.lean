import Phrasebook.Decimal.Binary

/-!
The fewest decimal digits that are read back as the same number. The reals that are rounded to a
number form an interval around it, with its ends when the mantissa is even. Of the decimal grids
with one, two, ... digits the first that meets the interval is taken, and of its points the nearest
one.
-/

namespace Phrasebook.Decimal

/-- Digits and the place of the first of them: `0.d₁d₂d₃… * 10 ^ place`. -/
structure Digits where
  digits : List Char
  place : Int
  deriving DecidableEq, Repr

def mantissaBits : Nat := 53

def lowestExponent : Int := -1074

/-- A quarter of the last place is the unit in which the interval has whole ends. -/
structure Interval where
  low : Nat
  middle : Nat
  high : Nat
  exponent : Int
  closed : Bool
  deriving DecidableEq, Repr

/-- The interval of the reals that are rounded to a number. Its lower half is shorter where the
exponent changes. -/
def Interval.around (mantissa : Nat) (exponent : Int) : Interval :=
  let below := if mantissa = Nat.pow 2 (mantissaBits - 1) ∧ lowestExponent < exponent then 1 else 2
  ⟨4 * mantissa - below, 4 * mantissa, 4 * mantissa + 2, exponent - 2, mantissa % 2 = 0⟩

def Interval.holds (interval : Interval) (point : Nat) (place : Int) : Bool :=
  let scaled := point * Nat.pow 10 place.toNat * Nat.pow 2 (-interval.exponent).toNat
  let unit := Nat.pow 10 (-place).toNat * Nat.pow 2 interval.exponent.toNat
  let low := interval.low * unit
  let high := interval.high * unit
  if interval.closed then low ≤ scaled && scaled ≤ high else low < scaled && scaled < high

def nearestOn (tie : Tie) (interval : Interval) (place : Int) : Option Nat :=
  let scaled := (Ratio.ofBinary interval.middle interval.exponent).shift (-place)
  let below := scaled.floor
  match interval.holds below place, interval.holds (below + 1) place with
  | true, true => some (scaled.round tie)
  | true, false => some below
  | false, true => some (below + 1)
  | false, false => none

/-- The first of the finer and finer grids that has a point in the interval. -/
def firstOn (tie : Tie) (interval : Interval) (place : Int) : Nat → Option (Nat × Int)
  | 0 => none
  | steps + 1 =>
      match nearestOn tie interval place with
      | some point => some (point, place)
      | none => firstOn tie interval (place - 1) steps

def dropTrailingZeros (digits : List Char) : List Char :=
  (digits.reverse.dropWhile (· = '0')).reverse

def shortest (tie : Tie) (mantissa : Nat) (exponent : Int) : Digits :=
  if mantissa = 0 then ⟨[], 0⟩
  else
    let interval := Interval.around mantissa exponent
    let leading := (Ratio.ofBinary mantissa exponent).leadingPlace
    match firstOn tie interval (leading - 1) 17 with
    | none => ⟨[], 0⟩
    | some (point, place) =>
        let digits := Nat.toDigits 10 point
        ⟨dropTrailingZeros digits, place + digits.length⟩

def zeros (count : Nat) : List Char := List.replicate count '0'

def Digits.positional (number : Digits) : List Char :=
  if number.digits.isEmpty then ['0']
  else if number.place ≤ 0 then
    '0' :: '.' :: zeros (-number.place).toNat ++ number.digits
  else
    let whole := number.place.toNat
    if number.digits.length ≤ whole then number.digits ++ zeros (whole - number.digits.length)
    else number.digits.take whole ++ '.' :: number.digits.drop whole

def signed (negative : Bool) (body : List Char) : List Char :=
  if negative then '-' :: body else body

/-- The plain text of a number: the fewest digits, never an exponent, and a sign on a negative
zero. -/
def plain (number : Float) : String :=
  match Binary.ofFloat number with
  | .notANumber => "NaN"
  | .infinite negative => String.ofList (signed negative ['i', 'n', 'f'])
  | .finite negative mantissa exponent =>
      String.ofList (signed negative (shortest .up mantissa exponent).positional)

theorem nearestOn_holds {tie : Tie} {interval : Interval} {place : Int} {point : Nat}
    (found : nearestOn tie interval place = some point) : interval.holds point place = true := by
  simp only [nearestOn] at found
  split at found
  · rename_i lower upper
    simp only [Option.some.injEq] at found
    subst found
    simp only [Ratio.round]
    split
    · exact upper
    · split
      · exact lower
      · cases tie
        · exact upper
        · simp only
          split
          · exact lower
          · exact upper
  · simp_all
  · simp_all
  · simp at found

end Phrasebook.Decimal
