import Phrasebook.Formula.Basic

/-!
Values of formulas. Integers stay integers under addition, subtraction and multiplication as long as
the result has 64 bits; everything else is computed in floating point. Addition joins texts, and
multiplication by a number repeats them. Variables are asked for from left to right, up to the first
fault.
-/

namespace Phrasebook

namespace Value

/-- An operation on numbers, on integers if both are and the result is one. -/
def arithmetic (onIntegers : Int → Int → Int) (onReals : Float → Float → Float)
    (lhs rhs : Value) : Value :=
  let rounded := Value.real (onReals (lhs.real?.getD 0.0) (rhs.real?.getD 0.0))
  match lhs, rhs with
  | .integer a, .integer b => (ofInt? (onIntegers a.toInt b.toInt)).getD rounded
  | _, _ => rounded

theorem isNumeric_arithmetic (onIntegers : Int → Int → Int) (onReals : Float → Float → Float)
    (lhs rhs : Value) : (arithmetic onIntegers onReals lhs rhs).isNumeric = true := by
  unfold arithmetic ofInt?
  simp only
  split
  · split <;> rfl
  · rfl

def maxRepeat : Float := 10000.0

/-- The text as often as the number says, without its fraction. -/
def replicate (content : String) (count : Float) : Except FormulaFault Value :=
  if !count.isFinite || count < 0.0 || maxRepeat < count then .error (.invalidRepeat count)
  else .ok (.text (String.join (List.replicate count.toUInt64.toNat content)))

end Value

open Value in
def BinaryOp.apply (mode : SubtractionMode) (op : BinaryOp) (lhs rhs : Value) :
    Except FormulaFault Value :=
  let refused := FormulaFault.invalidOperands op lhs.type rhs.type
  match op with
  | .add =>
      if lhs.isNumeric && rhs.isNumeric then .ok (arithmetic (· + ·) (· + ·) lhs rhs)
      else .ok (.text (lhs.display ++ rhs.display))
  | .subtract =>
      if lhs.isNumeric && rhs.isNumeric then
        match mode with
        | .legacy => .ok (arithmetic (· + ·) (· + ·) lhs rhs)
        | .arithmetic => .ok (arithmetic (· - ·) (· - ·) lhs rhs)
      else .error refused
  | .multiply =>
      match lhs, rhs with
      | .text _, .text _ => .error refused
      | .text content, count => replicate content (count.real?.getD 0.0)
      | count, .text content => replicate content (count.real?.getD 0.0)
      | _, _ => .ok (arithmetic (· * ·) (· * ·) lhs rhs)
  | .divide =>
      match lhs.real?, rhs.real? with
      | some a, some b => if b == 0.0 then .error .divisionByZero else .ok (.real (a / b))
      | _, _ => .error refused
  | .power =>
      match lhs.real?, rhs.real? with
      | some a, some b => .ok (.real (Float.pow a b))
      | _, _ => .error refused

/-- The value of a formula, where `resolve` answers for the variables. -/
def Formula.evaluate {m : Type → Type} [Monad m] (mode : SubtractionMode)
    (resolve : Variable → m (Except FormulaFault Value)) : Formula → m (Except FormulaFault Value)
  | .number value => pure (.ok (.real value))
  | .var asked => resolve asked
  | .binary op lhs rhs => do
      match ← lhs.evaluate mode resolve with
      | .error fault => pure (.error fault)
      | .ok left =>
          match ← rhs.evaluate mode resolve with
          | .error fault => pure (.error fault)
          | .ok right => pure (op.apply mode left right)

/-- Two evaluations are related when their answers are, and when computations one after the other
are. -/
theorem Formula.evaluate_related {m n : Type → Type} [Monad m] [Monad n]
    {Related : m (Except FormulaFault Value) → n (Except FormulaFault Value) → Prop}
    (mode : SubtractionMode) {left : Variable → m (Except FormulaFault Value)}
    {right : Variable → n (Except FormulaFault Value)}
    (settled : ∀ result, Related (pure result) (pure result))
    (chained : ∀ {lhs rhs next other}, Related lhs rhs →
      (∀ result, Related (next result) (other result)) → Related (lhs >>= next) (rhs >>= other))
    (answers : ∀ var, Related (left var) (right var)) (formula : Formula) :
    Related (formula.evaluate mode left) (formula.evaluate mode right) := by
  induction formula with
  | number value => exact settled _
  | var asked => exact answers asked
  | binary op lhs rhs ihLhs ihRhs =>
      refine chained ihLhs fun result => ?_
      cases result with
      | error fault => exact settled _
      | ok value =>
          refine chained ihRhs fun result => ?_
          cases result <;> exact settled _

end Phrasebook
