/-!
Floating-point numbers as exact quantities. A finite number is a natural mantissa times a power of
two, and the decimal forms are computed from that fraction of natural numbers without rounding.
-/

namespace Phrasebook.Decimal

inductive Binary where
  | notANumber
  | infinite (negative : Bool)
  | finite (negative : Bool) (mantissa : Nat) (exponent : Int)
  deriving DecidableEq, Repr

def isNegativeSign : Float.Model.UnpackedFloat.Sign → Bool
  | .positive => false
  | .negative => true

def Binary.ofFloat (number : Float) : Binary :=
  match number.toModel.unpack with
  | .notANumber => .notANumber
  | .infinity sign => .infinite (isNegativeSign sign)
  | .zero sign => .finite (isNegativeSign sign) 0 0
  | .finite sign mantissa exponent _ => .finite (isNegativeSign sign) mantissa exponent

structure Ratio where
  numerator : Nat
  denominator : Nat
  deriving DecidableEq, Repr

/-- The fraction `mantissa * 2 ^ exponent`. -/
def Ratio.ofBinary (mantissa : Nat) (exponent : Int) : Ratio :=
  ⟨mantissa * Nat.pow 2 exponent.toNat, Nat.pow 2 (-exponent).toNat⟩

/-- The fraction times `10 ^ places`. -/
def Ratio.shift (ratio : Ratio) (places : Int) : Ratio :=
  ⟨ratio.numerator * Nat.pow 10 places.toNat, ratio.denominator * Nat.pow 10 (-places).toNat⟩

def Ratio.floor (ratio : Ratio) : Nat :=
  ratio.numerator / ratio.denominator

inductive Tie where
  | up
  | toEven
  deriving DecidableEq, Repr

def Ratio.round (tie : Tie) (ratio : Ratio) : Nat :=
  let quotient := ratio.numerator / ratio.denominator
  let doubled := 2 * (ratio.numerator % ratio.denominator)
  if ratio.denominator < doubled then quotient + 1
  else if doubled < ratio.denominator then quotient
  else match tie with
    | .up => quotient + 1
    | .toEven => if quotient % 2 = 0 then quotient else quotient + 1

def Ratio.isIntegral (ratio : Ratio) : Bool :=
  ratio.numerator % ratio.denominator = 0

def Binary.isIntegral : Binary → Bool
  | .finite _ mantissa exponent => (Ratio.ofBinary mantissa exponent).isIntegral
  | _ => false

def digitCount (number : Nat) : Nat :=
  (Nat.toDigits 10 number).length

/-- The place `p` of the first digit of a positive fraction: it lies in `[10 ^ (p - 1), 10 ^ p)`.
Below one, the place is read off the largest natural number under the inverse. -/
def Ratio.leadingPlace (ratio : Ratio) : Int :=
  if ratio.denominator ≤ ratio.numerator then digitCount ratio.floor
  else 1 - digitCount ((ratio.denominator - 1) / ratio.numerator)

end Phrasebook.Decimal
