import Phrasebook.Decimal.Numeral
import Phrasebook.Json.Basic

/-!
Numerals of JSON. Integers of 64 bits, with or without sign, are kept as they are. Every other
number is scaled from its first digits: a significand of 64 bits collects digits until one does not
fit, and is then multiplied or divided by a power of ten. The negative zero is no integer.
-/

namespace Phrasebook.Json

def significandLimit : Nat := Nat.pow 2 64

def exponentLimit : Nat := Nat.pow 2 31 - 1

/-- The significand one digit longer, if it still has 64 bits. -/
def extend? (significand : Nat) (digit : Char) : Option Nat :=
  let extended := 10 * significand + Decimal.digitValue digit
  if extended < significandLimit then some extended else none

/-- Collects the digits before the point. The second component counts the digits from the first one
that does not fit. -/
def collectWhole (significand : Nat) : List Char → Nat × Nat
  | [] => (significand, 0)
  | digit :: rest =>
      match extend? significand digit with
      | some extended => collectWhole extended rest
      | none => (significand, rest.length + 1)

def collectFraction (significand : Nat) : List Char → Nat × Nat
  | [] => (significand, 0)
  | digit :: rest =>
      match extend? significand digit with
      | some extended =>
          let collected := collectFraction extended rest
          (collected.1, collected.2 + 1)
      | none => (significand, 0)

def powerOfTen (exponent : Nat) : Float := Float.ofScientific 1 false exponent

/-- The significand times a power of ten, in steps of at most `10 ^ 308`. -/
def scale? (significand : Float) (exponent : Int) : Option Float :=
  if 0 ≤ exponent then
    if exponent ≤ 308 then
      let product := significand * powerOfTen exponent.toNat
      if product.isInf then none else some product
    else if significand == 0.0 then some significand
    else none
  else if -308 ≤ exponent then some (significand / powerOfTen (-exponent).toNat)
  else if significand == 0.0 then some significand
  else scale? (significand / powerOfTen 308) (exponent + 308)
termination_by (-exponent).toNat
decreasing_by omega

def clampExponent (exponent : Int) : Int :=
  max (-(exponentLimit : Int) - 1) (min exponentLimit exponent)

def withSign (negative : Bool) (magnitude : Float) : Float :=
  if negative then -magnitude else magnitude

structure NumeralParts where
  negative : Bool
  whole : List Char
  fraction : Option (List Char)
  exponent : Option (Bool × List Char)

def scaled? (parts : NumeralParts) (significand : Nat) (place : Int) : Option Float :=
  let start := Float.ofNat significand
  let magnitude? := match parts.exponent with
    | none => scale? start place
    | some (negative, digits) =>
        let exponent := Decimal.ofDigits digits
        if exponentLimit < exponent then
          if significand ≠ 0 ∧ !negative then none else some 0.0
        else scale? start (clampExponent (if negative then place - exponent else place + exponent))
  magnitude?.map (withSign parts.negative)

def wholeNumber (negative : Bool) (significand : Nat) : JsonNumber :=
  if !negative then .integer significand
  else if 0 < significand ∧ significand ≤ Nat.pow 2 63 then .integer (-(significand : Int))
  else .real (-(Float.ofNat significand))

def NumeralParts.value? (parts : NumeralParts) : Option JsonNumber :=
  let (significand, excess) := collectWhole 0 parts.whole
  match parts.fraction, parts.exponent with
  | none, none =>
      if excess = 0 then some (wholeNumber parts.negative significand)
      else (scaled? parts significand excess).map .real
  | none, some _ => (scaled? parts significand excess).map .real
  | some digits, _ =>
      let (extended, count) := collectFraction significand digits
      (scaled? parts extended (excess - count)).map .real

def readExponent? (text : List Char) : Option ((Bool × List Char) × List Char) :=
  let (negative, body) := match text with
    | '+' :: rest => (false, rest)
    | '-' :: rest => (true, rest)
    | _ => (false, text)
  let digits := body.takeWhile Char.isDigit
  if digits.isEmpty then none else some ((negative, digits), body.dropWhile Char.isDigit)

/-- Splits a numeral off the text. A zero stands before other digits only after the point. -/
def readNumber? (text : List Char) : Option (JsonNumber × List Char) := do
  let (negative, body) := match text with
    | '-' :: rest => (true, rest)
    | _ => (false, text)
  let whole := body.takeWhile Char.isDigit
  let afterWhole := body.dropWhile Char.isDigit
  if whole.isEmpty || (whole.head? = some '0' && 1 < whole.length) then none
  let (fraction, afterFraction) ← match afterWhole with
    | '.' :: rest =>
        let digits := rest.takeWhile Char.isDigit
        if digits.isEmpty then none else some (some digits, rest.dropWhile Char.isDigit)
    | _ => some (none, afterWhole)
  let (exponent, rest) ← match afterFraction with
    | mark :: following =>
        if mark = 'e' || mark = 'E' then
          (readExponent? following).map fun found => (some found.1, found.2)
        else some (none, afterFraction)
    | [] => some (none, [])
  let number ← NumeralParts.value? ⟨negative, whole, fraction, exponent⟩
  return (number, rest)

end Phrasebook.Json
