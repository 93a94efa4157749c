import Phrasebook.Formula.Evaluation

/-!
Kinds of formulas. A formula is a number or a text, or its operators do not suit their operands, and
which of these it is follows from the kinds of its variables alone. A formula that has a kind keeps
it: it has a value of that kind, or a divisor is zero, or a text cannot be repeated so often. A
formula without a kind has no value.
-/

namespace Phrasebook

inductive Kind where
  | number
  | text
  deriving DecidableEq, Repr

def Value.kind : Value → Kind
  | .integer _ => .number
  | .real _ => .number
  | .text _ => .text

/-- The kind of what an operator makes of its operands. A text takes anything to itself in a sum,
and nothing but a number in a product. -/
def BinaryOp.kind? : BinaryOp → Kind → Kind → Option Kind
  | _, .number, .number => some .number
  | .add, _, _ => some .text
  | .multiply, .number, .text => some .text
  | .multiply, .text, .number => some .text
  | _, _, _ => none

namespace Formula

/-- The kind of a formula whose variables have these values. -/
def kind? (answer : Variable → Value) : Formula → Option Kind
  | .number _ => some .number
  | .var asked => some (answer asked).kind
  | .binary op lhs rhs => do
      let left ← lhs.kind? answer
      let right ← rhs.kind? answer
      op.kind? left right

def vars : Formula → List Variable
  | .number _ => []
  | .var asked => [asked]
  | .binary _ lhs rhs => lhs.vars ++ rhs.vars

def evaluateWith (mode : SubtractionMode) (answer : Variable → Value) (formula : Formula) :
    Except FormulaFault Value :=
  formula.evaluate (m := Id) mode fun var => .ok (answer var)

end Formula

namespace Value

theorem isNumeric_of_kind {value : Value} (number : value.kind = .number) :
    value.isNumeric = true := by
  cases value with
  | integer => rfl
  | real => rfl
  | text => cases number

theorem real?_of_kind {value : Value} (number : value.kind = .number) :
    ∃ real, value.real? = some real := by
  rw [← Option.isSome_iff_exists, real?_isSome_iff, isNumeric_of_kind number]

theorem kind_arithmetic (onIntegers : Int → Int → Int) (onReals : Float → Float → Float)
    (lhs rhs : Value) : (arithmetic onIntegers onReals lhs rhs).kind = .number := by
  have numeric := isNumeric_arithmetic onIntegers onReals lhs rhs
  cases result : arithmetic onIntegers onReals lhs rhs with
  | integer => rfl
  | real => rfl
  | text =>
      rw [result] at numeric
      cases numeric

theorem kind_replicate (content : String) (count : Float) :
    (∃ value, replicate content count = .ok value ∧ value.kind = .text) ∨
      ∃ count', replicate content count = .error (.invalidRepeat count') := by
  unfold replicate
  split
  · exact .inr ⟨count, rfl⟩
  · exact .inl ⟨_, rfl, rfl⟩

end Value

namespace BinaryOp

variable {op : BinaryOp} {lhs rhs : Value}

theorem kind?_numbers (op : BinaryOp) : op.kind? .number .number = some .number := by
  cases op <;> rfl

theorem text_of_kind? {left right : Kind} (typed : op.kind? left right = some .text) :
    left = .text ∨ right = .text := by
  cases left with
  | text => exact .inl rfl
  | number =>
      cases right with
      | text => exact .inr rfl
      | number =>
          rw [kind?_numbers] at typed
          cases typed

theorem numbers_of_kind? {left right : Kind} (typed : op.kind? left right = some .number) :
    left = .number ∧ right = .number := by
  cases op <;> cases left <;> cases right <;> first | exact ⟨rfl, rfl⟩ | cases typed

theorem apply_numbers (mode : SubtractionMode) (op : BinaryOp) (left : lhs.kind = .number)
    (right : rhs.kind = .number) :
    (∃ value, op.apply mode lhs rhs = .ok value ∧ value.kind = .number) ∨
      op.apply mode lhs rhs = .error .divisionByZero := by
  have numeric : (lhs.isNumeric && rhs.isNumeric) = true := by
    rw [Value.isNumeric_of_kind left, Value.isNumeric_of_kind right]
    rfl
  obtain ⟨a, first⟩ := Value.real?_of_kind left
  obtain ⟨b, second⟩ := Value.real?_of_kind right
  cases op with
  | add =>
      left
      rw [apply, if_pos numeric]
      exact ⟨_, rfl, Value.kind_arithmetic ..⟩
  | subtract =>
      left
      cases mode <;> simp only [apply, if_pos numeric] <;> exact ⟨_, rfl, Value.kind_arithmetic ..⟩
  | multiply =>
      left
      cases lhs <;> cases rhs <;> first | exact ⟨_, rfl, Value.kind_arithmetic ..⟩ | contradiction
  | divide =>
      simp only [apply, first, second]
      split
      · exact .inr rfl
      · exact .inl ⟨_, rfl, rfl⟩
  | power =>
      left
      simp only [apply, first, second]
      exact ⟨_, rfl, rfl⟩

theorem apply_text (mode : SubtractionMode) (typed : op.kind? lhs.kind rhs.kind = some .text) :
    (∃ value, op.apply mode lhs rhs = .ok value ∧ value.kind = .text) ∨
      ∃ count, op.apply mode lhs rhs = .error (.invalidRepeat count) := by
  cases op with
  | add => cases lhs <;> cases rhs <;> first | exact .inl ⟨_, rfl, rfl⟩ | cases typed
  | multiply => cases lhs <;> cases rhs <;> first | exact Value.kind_replicate _ _ | cases typed
  | subtract => cases lhs <;> cases rhs <;> cases typed
  | divide => cases lhs <;> cases rhs <;> cases typed
  | power => cases lhs <;> cases rhs <;> cases typed

theorem apply_unsuited (mode : SubtractionMode) (untyped : op.kind? lhs.kind rhs.kind = none) :
    op.apply mode lhs rhs = .error (.invalidOperands op lhs.type rhs.type) := by
  cases op <;> cases lhs <;> cases rhs <;> first | rfl | cases untyped

end BinaryOp

namespace Formula

variable {mode : SubtractionMode} {answer : Variable → Value}

theorem evaluateWith_binary (mode : SubtractionMode) (answer : Variable → Value) (op : BinaryOp)
    (lhs rhs : Formula) :
    (binary op lhs rhs).evaluateWith mode answer =
      lhs.evaluateWith mode answer >>= fun left =>
        rhs.evaluateWith mode answer >>= fun right => op.apply mode left right := by
  unfold evaluateWith
  simp only [evaluate]
  cases lhs.evaluate (m := Id) mode fun var => .ok (answer var) with
  | error => rfl
  | ok => cases rhs.evaluate (m := Id) mode fun var => .ok (answer var) <;> rfl

theorem values_of_binary {op : BinaryOp} {lhs rhs : Formula} {value : Value}
    (evaluated : (binary op lhs rhs).evaluateWith mode answer = .ok value) :
    ∃ left right, lhs.evaluateWith mode answer = .ok left ∧
      rhs.evaluateWith mode answer = .ok right ∧ op.apply mode left right = .ok value := by
  rw [evaluateWith_binary] at evaluated
  cases first : lhs.evaluateWith mode answer with
  | error =>
      rw [first] at evaluated
      cases evaluated
  | ok left =>
      cases second : rhs.evaluateWith mode answer with
      | error =>
          rw [first, second] at evaluated
          cases evaluated
      | ok right =>
          rw [first, second] at evaluated
          exact ⟨left, right, rfl, rfl, evaluated⟩

theorem kind?_binary {op : BinaryOp} {lhs rhs : Formula} {kind : Kind}
    (typed : (binary op lhs rhs).kind? answer = some kind) :
    ∃ left right, lhs.kind? answer = some left ∧ rhs.kind? answer = some right ∧
      op.kind? left right = some kind := by
  simp only [kind?, Option.bind_eq_bind, Option.bind_eq_some_iff] at typed
  obtain ⟨left, first, right, second, typed⟩ := typed
  exact ⟨left, right, first, second, typed⟩

theorem text_variable {formula : Formula} (typed : formula.kind? answer = some .text) :
    ∃ var ∈ formula.vars, (answer var).kind = .text := by
  induction formula with
  | number => cases typed
  | var asked => exact ⟨asked, List.mem_cons_self, Option.some.inj typed⟩
  | binary op lhs rhs ihLhs ihRhs =>
      obtain ⟨left, right, first, second, typed⟩ := kind?_binary typed
      rcases BinaryOp.text_of_kind? typed with rfl | rfl
      · obtain ⟨var, member, text⟩ := ihLhs first
        exact ⟨var, List.mem_append_left _ member, text⟩
      · obtain ⟨var, member, text⟩ := ihRhs second
        exact ⟨var, List.mem_append_right _ member, text⟩

/-- What can come of a formula of a kind. Where `texts` does not hold, nothing is repeated. -/
inductive Expected (kind : Kind) (texts : Prop) : Except FormulaFault Value → Prop
  | value {value : Value} (same : value.kind = kind) : Expected kind texts (.ok value)
  | divisionByZero : Expected kind texts (.error .divisionByZero)
  | invalidRepeat (count : Float) (repeated : texts) :
      Expected kind texts (.error (.invalidRepeat count))

theorem expected_apply (mode : SubtractionMode) {op : BinaryOp} {lhs rhs : Value} {kind : Kind}
    {texts : Prop} (typed : op.kind? lhs.kind rhs.kind = some kind) (known : kind = .text → texts) :
    Expected kind texts (op.apply mode lhs rhs) := by
  cases kind with
  | number =>
      obtain ⟨left, right⟩ := BinaryOp.numbers_of_kind? typed
      rcases op.apply_numbers mode left right with ⟨value, applied, same⟩ | applied
      · rw [applied]
        exact .value same
      · rw [applied]
        exact .divisionByZero
  | text =>
      rcases BinaryOp.apply_text mode typed with ⟨value, applied, same⟩ | ⟨count, applied⟩
      · rw [applied]
        exact .value same
      · rw [applied]
        exact .invalidRepeat count (known rfl)

theorem Expected.bind {kind result : Kind} {texts more : Prop}
    {outcome : Except FormulaFault Value} {next : Value → Except FormulaFault Value}
    (expected : Expected kind texts outcome) (grows : texts → more)
    (rest : ∀ value, value.kind = kind → Expected result more (next value)) :
    Expected result more (outcome >>= next) := by
  cases expected with
  | value same => exact rest _ same
  | divisionByZero => exact .divisionByZero
  | invalidRepeat count repeated => exact .invalidRepeat count (grows repeated)

theorem evaluateWith_expected (mode : SubtractionMode) {formula : Formula} {kind : Kind}
    (typed : formula.kind? answer = some kind) :
    Expected kind (∃ var ∈ formula.vars, (answer var).kind = .text)
      (formula.evaluateWith mode answer) := by
  induction formula generalizing kind with
  | number => exact .value (Option.some.inj typed)
  | var asked => exact .value (Option.some.inj typed)
  | binary op lhs rhs ihLhs ihRhs =>
      have known : kind = .text →
          ∃ var ∈ (binary op lhs rhs).vars, (answer var).kind = .text := by
        rintro rfl
        exact text_variable typed
      obtain ⟨left, right, first, second, typed⟩ := kind?_binary typed
      rw [evaluateWith_binary]
      refine (ihLhs first).bind ?_ fun a same => (ihRhs second).bind ?_ fun b alike => ?_
      · exact fun ⟨asked, member, text⟩ => ⟨asked, List.mem_append_left _ member, text⟩
      · exact fun ⟨asked, member, text⟩ => ⟨asked, List.mem_append_right _ member, text⟩
      · subst same alike
        exact expected_apply mode typed known

theorem kind?_of_evaluateWith {formula : Formula} {value : Value}
    (evaluated : formula.evaluateWith mode answer = .ok value) :
    formula.kind? answer = some value.kind := by
  induction formula generalizing value with
  | number =>
      cases evaluated
      rfl
  | var =>
      cases evaluated
      rfl
  | binary op lhs rhs ihLhs ihRhs =>
      obtain ⟨left, right, first, second, applied⟩ := values_of_binary evaluated
      have typed : (binary op lhs rhs).kind? answer = op.kind? left.kind right.kind := by
        simp [kind?, ihLhs first, ihRhs second]
      rw [typed]
      cases suited : op.kind? left.kind right.kind with
      | none =>
          rw [BinaryOp.apply_unsuited mode suited] at applied
          cases applied
      | some kind =>
          have expected : Expected kind True (op.apply mode left right) :=
            expected_apply mode suited fun _ => trivial
          rw [applied] at expected
          obtain ⟨rfl⟩ := expected
          rfl

/-- A formula that has a kind has a value of that kind or one of two faults, only the first of which
can come of numbers; a formula that has none has no value. -/
theorem evaluation_typed (mode : SubtractionMode) (answer : Variable → Value) (formula : Formula) :
    (∀ kind, formula.kind? answer = some kind →
      (∃ value, formula.evaluateWith mode answer = .ok value ∧ value.kind = kind) ∨
        formula.evaluateWith mode answer = .error .divisionByZero ∨
        ((∃ var ∈ formula.vars, (answer var).kind ≠ .number) ∧
          ∃ count, formula.evaluateWith mode answer = .error (.invalidRepeat count))) ∧
      (formula.kind? answer = none → ∀ value, formula.evaluateWith mode answer ≠ .ok value) := by
  refine ⟨fun kind typed => ?_, fun untyped value evaluated => ?_⟩
  · have expected := evaluateWith_expected mode typed
    cases outcome : formula.evaluateWith mode answer with
    | ok value =>
        rw [outcome] at expected
        obtain ⟨same⟩ := expected
        exact .inl ⟨value, rfl, same⟩
    | error fault =>
        rw [outcome] at expected
        cases expected with
        | divisionByZero => exact .inr (.inl rfl)
        | invalidRepeat count repeated =>
            obtain ⟨var, member, text⟩ := repeated
            exact .inr (.inr ⟨⟨var, member, by simp [text]⟩, count, rfl⟩)
  · have typed := kind?_of_evaluateWith evaluated
    rw [untyped] at typed
    cases typed

end Formula

end Phrasebook
