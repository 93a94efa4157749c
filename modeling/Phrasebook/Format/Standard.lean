import Phrasebook.Decimal.Numeral
import Phrasebook.Decimal.Places

/-!
Standard number formats. A format is a letter, in either case, and a precision: fixed places, fixed
places with groups of thousands, whole numbers of a least width, percents, and scientific notation.
A text that is no such format, or does not apply to the number, is not answered.
-/

namespace Phrasebook.Format

def maxPrecision : Nat := 20

/-- The precision after a letter. Nothing stands for the usual one. -/
def precision? (usual : Nat) (digits : List Char) : Option Nat :=
  if digits.isEmpty then some usual else Decimal.unsigned? maxPrecision digits

def groupDigits : List Char → List Char
  | [] => []
  | [c] => [c]
  | c :: cs => if cs.length % 3 = 0 then c :: ',' :: groupDigits cs else c :: groupDigits cs

def groupThousands (text : List Char) : List Char :=
  let (sign, magnitude) := match text with
    | '-' :: rest => (['-'], rest)
    | _ => ([], text)
  sign ++ groupDigits (magnitude.takeWhile (· != '.')) ++ magnitude.dropWhile (· != '.')

def wholeDigits (number : Float) (width : Nat) : List Char :=
  match Decimal.Binary.ofFloat number with
  | .finite negative mantissa exponent =>
      let digits := Nat.toDigits 10 (Decimal.Ratio.ofBinary mantissa exponent).floor
      let magnitude := Decimal.zeros (width - digits.length) ++ digits
      Decimal.signed (negative && mantissa ≠ 0) magnitude
  | _ => []

/-- The number in the standard format that the letter and the digits name. -/
def standard? (number : Float) : List Char → Option (List Char)
  | [] => none
  | letter :: digits =>
      if letter = 'F' || letter = 'f' then
        (precision? 2 digits).map (Decimal.fixed number)
      else if letter = 'N' || letter = 'n' then
        (precision? 2 digits).map fun places => groupThousands (Decimal.fixed number places)
      else if letter = 'D' || letter = 'd' then
        if (Decimal.Binary.ofFloat number).isIntegral then
          (precision? 0 digits).map (wholeDigits number)
        else none
      else if letter = 'P' || letter = 'p' then
        (precision? 2 digits).map fun places => Decimal.fixed (number * 100.0) places ++ [' ', '%']
      else if letter = 'E' || letter = 'e' then
        (precision? 6 digits).map fun places => Decimal.scientific number places letter
      else none

theorem filter_groupDigits (digits : List Char) (plain : ',' ∉ digits) :
    (groupDigits digits).filter (· != ',') = digits := by
  fun_induction groupDigits digits with
  | case1 => rfl
  | case2 c =>
      simp only [List.mem_singleton] at plain
      simp [Ne.symm plain]
  | case3 c cs _ _ ih =>
      simp only [List.mem_cons, not_or] at plain
      simp [Ne.symm plain.1, ih plain.2]
  | case4 c cs _ _ ih =>
      simp only [List.mem_cons, not_or] at plain
      simp [Ne.symm plain.1, ih plain.2]

end Phrasebook.Format
