import Phrasebook.Decimal.Numeral
import Phrasebook.Decimal.Shortest

/-!
The values that flow through templates: parameters, the results of variables and of formulas.
Integers have 64 bits; what does not fit is a floating-point number.
-/

namespace Phrasebook

inductive ValueType where
  | integer
  | real
  | text
  deriving DecidableEq, Repr

def ValueType.name : ValueType → String
  | .integer => "integer"
  | .real => "float"
  | .text => "string"

inductive Value where
  | integer (number : Int64)
  | real (number : Float)
  | text (content : String)
  deriving DecidableEq, Inhabited

namespace Value

def ofInt? (number : Int) : Option Value :=
  if Int64.minValue.toInt ≤ number ∧ number ≤ Int64.maxValue.toInt then
    some (.integer (Int64.ofInt number))
  else none

def ofIntWrapping (number : Int) : Value :=
  .integer (Int64.ofInt number)

/-- Free text is read as an integer, else as a finite number, else as itself. -/
def ofLiteral (literal : String) : Value :=
  match Decimal.int64? literal.toList with
  | some number => .integer number
  | none =>
      match Decimal.float? literal.toList with
      | some number => if number.isFinite then .real number else .text literal
      | none => .text literal

def integer? : Value → Option Int64
  | .integer number => some number
  | _ => none

/-- The number as a floating-point number; integers are widened to the nearest one. -/
def real? : Value → Option Float
  | .integer number => some (Float.ofInt number.toInt)
  | .real number => some number
  | .text _ => none

def text? : Value → Option String
  | .text content => some content
  | _ => none

def isNumeric : Value → Bool
  | .text _ => false
  | _ => true

def type : Value → ValueType
  | .integer _ => .integer
  | .real _ => .real
  | .text _ => .text

def display : Value → String
  | .integer number => toString number.toInt
  | .real number => Decimal.plain number
  | .text content => content

theorem real?_isSome_iff (value : Value) : value.real?.isSome = value.isNumeric := by
  cases value <;> rfl

end Value

end Phrasebook
