/-!
Numerals: the texts that are read as numbers. Integers have an optional sign and digits; decimal
numerals may have a point with digits on at least one side and an exponent, or be the name of an
infinity or of the undefined number. A decimal numeral is read as the nearest floating-point number.
-/

namespace Phrasebook.Decimal

def digitValue (c : Char) : Nat := c.toNat - '0'.toNat

def ofDigits (digits : List Char) : Nat :=
  digits.foldl (fun total digit => 10 * total + digitValue digit) 0

def natural? (text : List Char) : Option Nat :=
  if !text.isEmpty && text.all Char.isDigit then some (ofDigits text) else none

/-- An unsigned numeral up to `largest`. A plus sign may stand before it. -/
def unsigned? (largest : Nat) (text : List Char) : Option Nat :=
  let body := match text with
    | '+' :: rest => rest
    | _ => text
  (natural? body).filter (· ≤ largest)

def integer? (least largest : Int) (text : List Char) : Option Int :=
  let value : Option Int := match text with
    | '+' :: rest => (natural? rest).map Int.ofNat
    | '-' :: rest => (natural? rest).map fun magnitude => -(magnitude : Int)
    | _ => (natural? text).map Int.ofNat
  value.filter fun number => least ≤ number && number ≤ largest

def int64? (text : List Char) : Option Int64 :=
  (integer? Int64.minValue.toInt Int64.maxValue.toInt text).map Int64.ofInt

/-- The decimal `digits * 10 ^ exponent`. -/
structure Scientific where
  digits : Nat
  exponent : Int
  deriving DecidableEq, Repr

def Scientific.toFloat (number : Scientific) : Float :=
  Float.ofScientific number.digits (number.exponent < 0) number.exponent.natAbs

/-- The nearest number of single precision, widened. -/
def Scientific.toSingle (number : Scientific) : Float :=
  (Float32.ofScientific number.digits (number.exponent < 0) number.exponent.natAbs).toFloat

def exponent? : List Char → Option Int
  | '+' :: rest => (natural? rest).map Int.ofNat
  | '-' :: rest => (natural? rest).map fun magnitude => -(magnitude : Int)
  | text => (natural? text).map Int.ofNat

/-- An unsigned decimal numeral with an optional point and an optional exponent. -/
def scientific? (text : List Char) : Option Scientific :=
  let whole := text.takeWhile Char.isDigit
  let afterWhole := text.dropWhile Char.isDigit
  let (fraction, afterFraction) := match afterWhole with
    | '.' :: rest => (rest.takeWhile Char.isDigit, rest.dropWhile Char.isDigit)
    | _ => ([], afterWhole)
  if whole.isEmpty && fraction.isEmpty then none
  else
    let digits := ofDigits (whole ++ fraction)
    match afterFraction with
    | [] => some ⟨digits, -(fraction.length : Int)⟩
    | mark :: rest =>
        if mark = 'e' || mark = 'E' then
          (exponent? rest).map fun exponent => ⟨digits, exponent - fraction.length⟩
        else none

def infinityNames : List String := ["inf", "infinity"]

def named? (text : List Char) : Option Float :=
  let name := String.ofList (text.map Char.toLower)
  if infinityNames.contains name then some (1.0 / 0.0)
  else if name = "nan" then some (0.0 / 0.0)
  else none

def magnitude? (text : List Char) : Option Float :=
  match named? text with
  | some number => some number
  | none => (scientific? text).map Scientific.toFloat

def float? : List Char → Option Float
  | '+' :: rest => magnitude? rest
  | '-' :: rest => (magnitude? rest).map (- ·)
  | text => magnitude? text

/-- A numeral that is rounded to single precision and then widened. -/
def singleFloat? (text : List Char) : Option Float :=
  let (negative, body) := match text with
    | '+' :: rest => (false, rest)
    | '-' :: rest => (true, rest)
    | _ => (false, text)
  let magnitude := match named? body with
    | some number => some number
    | none => (scientific? body).map Scientific.toSingle
  magnitude.map fun number => if negative then -number else number

theorem natural?_eq_some_iff (text : List Char) (value : Nat) :
    natural? text = some value ↔
      text ≠ [] ∧ (∀ c ∈ text, c.isDigit = true) ∧ value = ofDigits text := by
  have accepted : natural? text =
      if text ≠ [] ∧ ∀ c ∈ text, c.isDigit = true then some (ofDigits text) else none := by
    simp [natural?]
  rw [accepted]
  split
  · rename_i digits
    constructor
    · intro same
      exact ⟨digits.1, digits.2, (Option.some.inj same).symm⟩
    · intro parts
      rw [parts.2.2]
  · rename_i digits
    constructor
    · intro same
      cases same
    · intro parts
      exact absurd ⟨parts.1, parts.2.1⟩ digits

end Phrasebook.Decimal
