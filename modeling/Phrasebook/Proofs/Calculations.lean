import Mathlib.Algebra.Group.Int.Defs
import Phrasebook.Formula.Evaluation

/-!
Calculations with integers. Sums, differences and products of integers are exact as long as every
intermediate result has 64 bits. The first one that has not is rounded, and so is all that is
computed from it, even if the exact result would have 64 bits again. Nothing wraps around, and
nothing fails.
-/

namespace Phrasebook

inductive RingOp where
  | add
  | subtract
  | multiply
  deriving DecidableEq, Repr

namespace RingOp

def operator : RingOp → BinaryOp
  | .add => .add
  | .subtract => .subtract
  | .multiply => .multiply

/-- The exact result. A minus sign may stand for a sum. -/
def exact (mode : SubtractionMode) : RingOp → Int → Int → Int
  | .add, a, b => a + b
  | .subtract, a, b =>
      match mode with
      | .legacy => a + b
      | .arithmetic => a - b
  | .multiply, a, b => a * b

end RingOp

/-- A formula with the integers that its variables were answered with, one for every occurrence. -/
inductive Calculation where
  | given (number : Int64)
  | joined (op : RingOp) (lhs rhs : Calculation)

namespace Calculation

def exact (mode : SubtractionMode) : Calculation → Int
  | given number => number.toInt
  | joined op lhs rhs => op.exact mode (lhs.exact mode) (rhs.exact mode)

def parts : Calculation → List Calculation
  | given number => [given number]
  | joined op lhs rhs => joined op lhs rhs :: (lhs.parts ++ rhs.parts)

end Calculation

def Has64Bits (number : Int) : Prop :=
  Int64.minValue.toInt ≤ number ∧ number ≤ Int64.maxValue.toInt

instance : DecidablePred Has64Bits := fun number =>
  inferInstanceAs (Decidable
    (Int64.minValue.toInt ≤ number ∧ number ≤ Int64.maxValue.toInt))

theorem has64Bits_iff (number : Int) : Has64Bits number ↔ -2 ^ 63 ≤ number ∧ number < 2 ^ 63 := by
  rw [Has64Bits, Int64.toInt_minValue, Int64.toInt_maxValue]
  omega

/-- The formula consists of these operators and of variables, and the variables are answered from
left to right with the integers of the calculation. An answer may depend on those before it. -/
inductive Formula.Answered {σ : Type} (resolve : Variable → StateM σ (Except FormulaFault Value)) :
    Formula → σ → Calculation → σ → Prop
  | var {asked : Variable} {number : Int64} {before after : σ}
      (answer : (resolve asked).run before = (.ok (.integer number), after)) :
      Answered resolve (.var asked) before (.given number) after
  | binary {op : RingOp} {lhs rhs : Formula} {left right : Calculation} {before between after : σ}
      (first : Answered resolve lhs before left between)
      (second : Answered resolve rhs between right after) :
      Answered resolve (.binary op.operator lhs rhs) before (.joined op left right) after

namespace Value

theorem ofInt?_of_has64Bits {number : Int} (fits : Has64Bits number) :
    ∃ stored : Int64, ofInt? number = some (.integer stored) ∧ stored.toInt = number := by
  refine ⟨Int64.ofInt number, if_pos fits, ?_⟩
  obtain ⟨least, greatest⟩ := (has64Bits_iff number).mp fits
  exact Int64.toInt_ofInt_of_le least greatest

theorem ofInt?_eq_none {number : Int} (overflows : ¬ Has64Bits number) : ofInt? number = none :=
  if_neg overflows

end Value

theorem RingOp.apply_operator (mode : SubtractionMode) (op : RingOp) {lhs rhs : Value}
    (left : lhs.isNumeric = true) (right : rhs.isNumeric = true) :
    ∃ onReals, op.operator.apply mode lhs rhs =
      .ok (Value.arithmetic (op.exact mode) onReals lhs rhs) := by
  have numeric : (lhs.isNumeric && rhs.isNumeric) = true := by
    rw [left, right]
    rfl
  cases op with
  | add => exact ⟨(· + ·), if_pos numeric⟩
  | subtract =>
      cases mode with
      | legacy => exact ⟨(· + ·), if_pos numeric⟩
      | arithmetic => exact ⟨(· - ·), if_pos numeric⟩
  | multiply =>
      refine ⟨(· * ·), ?_⟩
      cases lhs <;> cases rhs <;> first | rfl | contradiction

namespace Calculation

/-- Every intermediate result has 64 bits. -/
def Exact (mode : SubtractionMode) (calculation : Calculation) : Prop :=
  ∀ part ∈ calculation.parts, Has64Bits (part.exact mode)

inductive Gives (mode : SubtractionMode) (calculation : Calculation) : Value → Prop
  | integer {number : Int64} (fits : calculation.Exact mode)
      (same : number.toInt = calculation.exact mode) : Gives mode calculation (.integer number)
  | real (rounded : Float) (overflows : ¬ calculation.Exact mode) :
      Gives mode calculation (.real rounded)

variable {mode : SubtractionMode} {op : RingOp} {lhs rhs : Calculation}

theorem exact_joined_iff :
    (joined op lhs rhs).Exact mode ↔
      Has64Bits ((joined op lhs rhs).exact mode) ∧ lhs.Exact mode ∧ rhs.Exact mode := by
  simp only [Exact, parts, List.forall_mem_cons, List.forall_mem_append]

theorem Gives.isNumeric {calculation : Calculation} {value : Value}
    (gives : calculation.Gives mode value) : value.isNumeric = true := by
  cases gives <;> rfl

theorem gives_given (mode : SubtractionMode) (number : Int64) :
    (given number).Gives mode (.integer number) := by
  refine .integer (List.forall_mem_singleton.mpr ?_) rfl
  exact ⟨number.minValue_le_toInt, number.toInt_le⟩

/-- What an operator makes of exact integers is exact or rounded, and what it makes of anything
rounded is rounded. -/
theorem Gives.joined {left right : Value} (op : RingOp) (first : lhs.Gives mode left)
    (second : rhs.Gives mode right) :
    ∃ value, op.operator.apply mode left right = .ok value ∧
      (joined op lhs rhs).Gives mode value := by
  obtain ⟨onReals, applied⟩ := op.apply_operator mode first.isNumeric second.isNumeric
  refine ⟨_, applied, ?_⟩
  cases first with
  | real rounded overflows => exact .real _ fun fits => overflows (exact_joined_iff.mp fits).2.1
  | @integer a firstFits firstSame =>
      cases second with
      | real rounded overflows =>
          exact .real _ fun fits => overflows (exact_joined_iff.mp fits).2.2
      | @integer b secondFits secondSame =>
          have same : op.exact mode a.toInt b.toInt =
              (Calculation.joined op lhs rhs).exact mode := by
            rw [exact, firstSame, secondSame]
          rw [Value.arithmetic, same]
          by_cases fits : Has64Bits ((Calculation.joined op lhs rhs).exact mode)
          · obtain ⟨stored, held, whole⟩ := Value.ofInt?_of_has64Bits fits
            rw [held]
            exact .integer (exact_joined_iff.mpr ⟨fits, firstFits, secondFits⟩) whole
          · rw [Value.ofInt?_eq_none fits]
            exact .real _ fun whole => fits (exact_joined_iff.mp whole).1

end Calculation

namespace Formula

variable {σ : Type} {resolve : Variable → StateM σ (Except FormulaFault Value)}

theorem run_evaluate_binary (mode : SubtractionMode) (op : BinaryOp) {lhs rhs : Formula}
    {left right : Value} {before between after : σ}
    (first : (lhs.evaluate mode resolve).run before = (.ok left, between))
    (second : (rhs.evaluate mode resolve).run between = (.ok right, after)) :
    ((binary op lhs rhs).evaluate mode resolve).run before =
      (op.apply mode left right, after) := by
  rw [evaluate, StateT.run_bind, first]
  change (rhs.evaluate mode resolve >>= _).run between = _
  rw [StateT.run_bind, second]
  rfl

theorem Answered.gives (mode : SubtractionMode) {formula : Formula} {before after : σ}
    {calculation : Calculation} (answered : formula.Answered resolve before calculation after) :
    ∃ value, (formula.evaluate mode resolve).run before = (.ok value, after) ∧
      calculation.Gives mode value := by
  induction answered with
  | @var asked number before after answer =>
      exact ⟨.integer number, answer, Calculation.gives_given mode number⟩
  | @binary op lhs rhs left right before between after _ _ ihLhs ihRhs =>
      obtain ⟨a, first, givesLeft⟩ := ihLhs
      obtain ⟨b, second, givesRight⟩ := ihRhs
      obtain ⟨value, applied, gives⟩ := givesLeft.joined op givesRight
      refine ⟨value, ?_, gives⟩
      rw [run_evaluate_binary mode op.operator first second, applied]

/-- A formula of these operators on integers has a value: the exact integer if every intermediate
result has 64 bits, and a rounded number otherwise. -/
theorem integers_exact (mode : SubtractionMode) {formula : Formula} {before after : σ}
    {calculation : Calculation} (answered : formula.Answered resolve before calculation after) :
    ∃ value, (formula.evaluate mode resolve).run before = (.ok value, after) ∧
      ((∃ number, value = .integer number) ↔ calculation.Exact mode) ∧
      (∀ number, value = .integer number → number.toInt = calculation.exact mode) ∧
      (¬ calculation.Exact mode → ∃ rounded, value = .real rounded) := by
  obtain ⟨value, evaluated, gives⟩ := answered.gives mode
  refine ⟨value, evaluated, ?_⟩
  cases gives with
  | @integer exactly fits same =>
      refine ⟨⟨fun _ => fits, fun _ => ⟨exactly, rfl⟩⟩, ?_, fun overflows => absurd fits overflows⟩
      rintro _ ⟨⟩
      exact same
  | real rounded overflows =>
      exact ⟨⟨nofun, fun fits => absurd fits overflows⟩, nofun, fun _ => ⟨rounded, rfl⟩⟩

def nextAnswer (asked : Variable) : StateM (List Int64) (Except FormulaFault Value) := do
  match ← get with
  | [] => return .error (.unresolved asked.name)
  | first :: later =>
      set later
      return .ok (.integer first)

def thereAndBack : Formula :=
  .binary .subtract (.binary .multiply (.var ⟨"n", []⟩) (.var ⟨"n", []⟩)) (.var ⟨"n", []⟩)

def overflowing : Calculation :=
  .joined .subtract (.joined .multiply (.given Int64.maxValue) (.given 2)) (.given Int64.maxValue)

theorem integers_exact_overflowing :
    thereAndBack.Answered nextAnswer [Int64.maxValue, 2, Int64.maxValue] overflowing [] ∧
      overflowing.exact .arithmetic = Int64.maxValue.toInt ∧
      ∃ rounded, (thereAndBack.evaluate .arithmetic nextAnswer).run
        [Int64.maxValue, 2, Int64.maxValue] = (.ok (.real rounded), []) := by
  have product : Answered nextAnswer
      (.binary RingOp.multiply.operator (.var ⟨"n", []⟩) (.var ⟨"n", []⟩))
      [Int64.maxValue, 2, Int64.maxValue]
      (.joined .multiply (.given Int64.maxValue) (.given 2)) [Int64.maxValue] :=
    .binary (.var rfl) (.var rfl)
  have difference : Answered nextAnswer (.binary RingOp.subtract.operator _ (.var ⟨"n", []⟩))
      [Int64.maxValue, 2, Int64.maxValue] overflowing [] :=
    .binary product (.var rfl)
  have overflows : ¬ overflowing.Exact .arithmetic := by
    intro fits
    obtain ⟨_, inner, _⟩ := Calculation.exact_joined_iff.mp fits
    exact absurd (Calculation.exact_joined_iff.mp inner).1.2 (by decide)
  obtain ⟨value, evaluated, _, _, rounds⟩ := integers_exact .arithmetic difference
  obtain ⟨rounded, rfl⟩ := rounds overflows
  exact ⟨difference, by decide, rounded, evaluated⟩

end Formula

end Phrasebook
