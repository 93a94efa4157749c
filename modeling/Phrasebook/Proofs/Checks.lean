import Mathlib
import Phrasebook.Command.Run
import Phrasebook.Proofs.Kinds

/-!
What a check can find. All variables stand for a number, and the usual formats answer for every
number. So no text comes into a formula, and the value of a slot is a number, unless its formula
cannot be read or divides by zero. This holds at every depth of expansion, as all phrases within
phrases are rendered with the same variables.
-/

namespace Phrasebook

namespace FormatHandler

variable {afterSign : Unit → Except String String} (signed : ∃ body, afterSign () = .ok body)

include signed

theorem answer_usual (number : Float) (spec : List Char) {handler : FormatHandler}
    (usual : handler ∈ FormatRegistry.defaults.handlers) :
    ∃ reply, handler.answer number spec afterSign = .ok reply := by
  cases handler with
  | signed =>
      obtain ⟨body, formatted⟩ := signed
      unfold answer
      simp only [formatted]
      split
      · exact ⟨_, rfl⟩
      · exact ⟨none, rfl⟩
  | permille => exact ⟨_, rfl⟩
  | byteSize => exact ⟨_, rfl⟩
  | custom reply => simp [FormatRegistry.defaults] at usual

theorem firstAnswer_usual (number : Float) (spec : List Char) {handlers : List FormatHandler}
    (usual : ∀ handler ∈ handlers, handler ∈ FormatRegistry.defaults.handlers) :
    ∃ reply, firstAnswer number spec afterSign handlers = .ok reply := by
  induction handlers with
  | nil => exact ⟨none, rfl⟩
  | cons handler later ih =>
      obtain ⟨first, others⟩ := List.forall_mem_cons.mp usual
      obtain ⟨reply, answered⟩ := answer_usual signed number spec first
      rw [firstAnswer, answered]
      cases reply with
      | some text => exact ⟨some text, rfl⟩
      | none => exact ih others

end FormatHandler

namespace FormatRegistry

/-- The registry has a text for every number in every format. -/
def Total (registry : FormatRegistry) : Prop :=
  ∀ value spec, ∃ text, registry.formatValue value spec = .ok text

theorem formatList_usual (number : Float) (spec : List Char) :
    ∃ text, defaults.formatList number spec = .ok text := by
  -- By induction on the format: a plus sign asks for the rest of it.
  induction spec with
  | nil => exact ⟨_, rfl⟩
  | cons c rest ih =>
      obtain ⟨reply, answered⟩ : ∃ reply, FormatHandler.firstAnswer number (c :: rest)
          (fun _ => defaults.formatList number rest) defaults.handlers = .ok reply :=
        FormatHandler.firstAnswer_usual ih number (c :: rest) fun _ member => member
      unfold formatList
      rw [answered]
      cases reply with
      | some text => exact ⟨text, rfl⟩
      | none =>
          cases Format.standard? number (c :: rest) with
          | some text => exact ⟨String.ofList text, rfl⟩
          | none => exact ⟨Decimal.plain number, rfl⟩

theorem defaults_total : defaults.Total := by
  intro value spec
  unfold formatValue
  split
  · exact formatList_usual _ _
  · exact ⟨_, rfl⟩

end FormatRegistry

namespace Formula

theorem kind_of_parse {text : String} {fault : FormulaFault} (refused : parse text = .error fault) :
    fault.kind = .parseError := by
  unfold parse parseList at refused
  split at refused
  · cases refused
    rfl
  · split at refused
    · cases refused
      rfl
    · split at refused
      · cases refused
      · cases refused
        rfl

theorem kind?_of_numbers {answer : Variable → Value} (numbers : ∀ var, (answer var).kind = .number)
    (formula : Formula) : formula.kind? answer = some .number := by
  induction formula with
  | number => rfl
  | var asked => exact congrArg some (numbers asked)
  | binary op lhs rhs ihLhs ihRhs => simp [kind?, ihLhs, ihRhs, BinaryOp.kind?_numbers]

end Formula

/-- What a slot comes to where all variables are numbers. -/
inductive Computed : Except FormulaFault Value → Prop
  | number {value : Value} (same : value.kind = .number) : Computed (.ok value)
  | unread {fault : FormulaFault} (same : fault.kind = .parseError) : Computed (.error fault)
  | divisionByZero : Computed (.error .divisionByZero)

theorem Formula.computed_of_numbers (mode : SubtractionMode) {answer : Variable → Value}
    (numbers : ∀ var, (answer var).kind = .number) (formula : Formula) :
    Computed (formula.evaluateWith mode answer) := by
  have expected := evaluateWith_expected mode (formula.kind?_of_numbers numbers)
  generalize formula.evaluateWith mode answer = outcome at expected
  cases expected with
  | value same => exact .number same
  | divisionByZero => exact .divisionByZero
  | invalidRepeat count repeated =>
      obtain ⟨var, -, text⟩ := repeated
      cases (numbers var).symm.trans text

structure Context.Numeric (context : Context) (answer : Variable → Value) : Prop where
  lookup : ∀ var, context.lookup var = .ok (answer var)
  numbers : ∀ var, (answer var).kind = .number

theorem Context.Numeric.descend {context : Context} {answer : Variable → Value}
    (numeric : context.Numeric answer) : context.descend.Numeric answer :=
  ⟨numeric.lookup, numeric.numbers⟩

namespace Diagnostic

/-- A problem of the templates alone: no variable was missing, and no operand was refused but a
divisor that is zero. -/
structure OfTemplates (diagnostic : Diagnostic) : Prop where
  severity : diagnostic.severity = diagnostic.kind.severity
  kind : diagnostic.kind = .keyNotFound ∨ diagnostic.kind = .recursionDepth ∨
    diagnostic.kind = .tokenizationError ∨ diagnostic.kind = .parseError ∨
    diagnostic.kind = .evaluationError
  divided : diagnostic.kind = .evaluationError → diagnostic.message = "division by zero"

theorem OfTemplates.isError_iff {diagnostic : Diagnostic} (sound : diagnostic.OfTemplates) :
    diagnostic.severity.isError = true ↔
      diagnostic.kind = .parseError ∨ diagnostic.kind = .evaluationError := by
  rw [sound.severity]
  rcases sound.kind with same | same | same | same | same <;> rw [same] <;> decide

end Diagnostic

def Noted.OfTemplates {α : Type} (noted : Noted α) : Prop :=
  ∀ diagnostic ∈ noted.diagnostics, diagnostic.OfTemplates

namespace Noted.OfTemplates

variable {α β : Type}

theorem of_silent {noted : Noted α} (silent : noted.diagnostics = []) : noted.OfTemplates := by
  simp [Noted.OfTemplates, silent]

theorem report {diagnostic : Diagnostic} (sound : diagnostic.OfTemplates) :
    (Noted.report diagnostic).OfTemplates :=
  List.forall_mem_singleton.mpr sound

theorem bind {noted : Noted α} {next : α → Noted β} (start : noted.OfTemplates)
    (rest : ∀ value, (next value).OfTemplates) : (noted >>= next).OfTemplates :=
  List.forall_mem_append.mpr ⟨start, rest noted.value⟩

theorem renting {noted : Noted α} (sound : noted.OfTemplates) (shelf : Shelf) :
    (Noted.renting shelf noted).OfTemplates := sound

end Noted.OfTemplates

def Deeper.OfTemplates (deeper : Deeper) : Prop :=
  ∀ expand ∈ deeper, ∀ text, (expand text).OfTemplates

namespace Renderer

theorem resolve_numeric {context : Context} {answer : Variable → Value}
    (numeric : context.Numeric answer) (deeper : Deeper) (var : Variable) :
    resolve context deeper var = pure (.ok (answer var)) := by
  have number := numeric.numbers var
  rw [resolve, numeric.lookup var]
  cases found : answer var with
  | text content =>
      rw [found] at number
      cases number
  | integer => rfl
  | real => rfl

theorem evaluate_numeric {context : Context} {answer : Variable → Value}
    (numeric : context.Numeric answer) (deeper : Deeper) (mode : SubtractionMode)
    (formula : Formula) :
    formula.evaluate mode (resolve context deeper) = pure (formula.evaluateWith mode answer) := by
  refine @Formula.evaluate_related Noted Id _ _ (fun left right => left = pure right) mode
    (resolve context deeper) (fun var => .ok (answer var)) (fun _ => rfl) ?_
    (resolve_numeric numeric deeper) formula
  intro lhs rhs next other same rest
  rw [same, pure_bind]
  exact rest rhs

section Templates

variable (renderer : Renderer) {context : Context} {answer : Variable → Value} {deeper : Deeper}

theorem slotValue_numeric (numeric : context.Numeric answer) (deeper : Deeper) (formula : String) :
    ∃ outcome, renderer.slotValue context deeper formula = pure outcome ∧ Computed outcome := by
  unfold slotValue
  split
  · exact ⟨_, resolve_numeric numeric deeper _, .number (numeric.numbers _)⟩
  · split
    · rename_i refused
      exact ⟨_, rfl, .unread (Formula.kind_of_parse refused)⟩
    · rename_i parsed _
      exact ⟨_, evaluate_numeric numeric deeper renderer.subtraction parsed,
        parsed.computed_of_numbers renderer.subtraction numeric.numbers⟩

theorem renderReference_ofTemplates (below : deeper.OfTemplates) (span : Span) (tooltip : Bool)
    (name : String) :
    (renderer.renderReference context deeper span tooltip name).OfTemplates := by
  unfold renderReference
  split
  · exact .bind (.report ⟨rfl, .inl rfl, nofun⟩) fun _ => .of_silent rfl
  · split
    · exact .bind (.report ⟨rfl, .inl rfl, nofun⟩) fun _ => .of_silent rfl
    · split
      · exact .bind (.report ⟨rfl, .inr (.inl rfl), nofun⟩) fun _ => .of_silent rfl
      · exact .bind (.renting (below _ rfl _) .texts) fun _ => .of_silent rfl

variable (total : renderer.formats.Total) (numeric : context.Numeric answer)

include total numeric

theorem renderSlot_ofTemplates (deeper : Deeper) (span : Span) (raw formula : String)
    (format : Option String) :
    (renderer.renderSlot context deeper span raw formula format).OfTemplates := by
  obtain ⟨outcome, settled, computed⟩ := renderer.slotValue_numeric numeric deeper formula
  unfold renderSlot
  rw [settled, pure_bind]
  cases computed with
  | @number value _ =>
      obtain ⟨text, written⟩ := total value format
      have formatted : renderer.formatted format value = .ok text := by
        rw [Renderer.formatted, written]
      simp only [Except.bind, formatted]
      exact .of_silent rfl
  | @unread fault syntactic =>
      refine .bind (.report ⟨rfl, ?_, ?_⟩) fun _ => .of_silent rfl
      · simp [Diagnostic.new, syntactic]
      · simp [Diagnostic.new, syntactic]
  | divisionByZero =>
      have kind : FormulaFault.divisionByZero.kind = .evaluationError := rfl
      refine .bind (.report ⟨rfl, ?_, fun _ => rfl⟩) fun _ => .of_silent rfl
      simp [Diagnostic.new, kind]

theorem renderLeaf_ofTemplates (below : deeper.OfTemplates) (start : Nat) (piece : Leaf) :
    (renderer.renderLeaf context deeper start piece).OfTemplates := by
  cases piece with
  | text raw content => exact .of_silent rfl
  | reference tooltip key => exact renderer.renderReference_ofTemplates below _ tooltip key
  | slot formula format => exact renderer.renderSlot_ofTemplates total numeric deeper _ _ _ format

theorem renderTemplate_ofTemplates (below : deeper.OfTemplates) (template : Template) :
    (renderer.renderTemplate context deeper template).OfTemplates := by
  have rendered (phrase : Phrase) : (renderer.renderPhrase context deeper phrase).OfTemplates :=
    @renderPhrase_related (fun left _ => left.OfTemplates) renderer renderer context context
      deeper deeper (fun _ => .of_silent) .bind
      (renderer.renderLeaf_ofTemplates total numeric below) phrase
  refine .bind (List.forall_mem_map.mpr fun issue _ => ⟨rfl, ?_, nofun⟩) fun _ => ?_
  · exact .inr (.inr (.inl rfl))
  · split
    · exact .of_silent rfl
    · exact rendered _

theorem readAndRender_ofTemplates (below : deeper.OfTemplates) (text : String) :
    (renderer.readAndRender context deeper text).OfTemplates := by
  refine .renting (.bind (.of_silent rfl) fun _ => ?_) .trees
  exact renderer.renderTemplate_ofTemplates total numeric below (Template.read text)

theorem expand_ofTemplates (text : String) : (renderer.expand context text).OfTemplates := by
  -- By induction on the budget: the phrases below are rendered with the same variables.
  induction context using Context.budget_induction generalizing text with
  | step context ih =>
      unfold expand expandWith
      split
      · refine renderer.readAndRender_ofTemplates total numeric (fun expand found inner => ?_) text
        obtain ⟨left, rfl⟩ := (renderer.mem_deeper_iff context expand).mp found
        exact ih left numeric.descend inner
      · exact .of_silent rfl

theorem deeper_ofTemplates : (renderer.deeper context).OfTemplates := by
  intro expand found text
  obtain ⟨-, rfl⟩ := (renderer.mem_deeper_iff context expand).mp found
  exact renderer.expand_ofTemplates total numeric.descend text

end Templates

end Renderer

theorem Book.renderKey_ofTemplates (book : Book) {context : Context} {answer : Variable → Value}
    (total : book.formats.Total) (numeric : context.Numeric answer) (key : Key) :
    (book.renderKeyNoted context key).OfTemplates := by
  unfold renderKeyNoted
  split
  · have below := book.renderer.deeper_ofTemplates total numeric
    exact book.renderer.readAndRender_ofTemplates total numeric below _
  · exact .bind (.report ⟨rfl, .inl rfl, nofun⟩) fun _ => .of_silent rfl

namespace Command

/-- Something in the phrase cannot be read or divides by zero. -/
def Finding.Failed (finding : Finding) : Prop :=
  ∃ diagnostic ∈ finding.evaluation.diagnostics,
    diagnostic.kind = .parseError ∨ diagnostic.kind = .evaluationError

theorem Finding.isError_iff {finding : Finding}
    (sound : ∀ diagnostic ∈ finding.evaluation.diagnostics, diagnostic.OfTemplates) :
    finding.isError = true ↔ finding.Failed := by
  rw [isError, Diagnostics.hasErrors, List.any_eq_true]
  exact exists_congr fun diagnostic =>
    and_congr_right fun member => (sound diagnostic member).isError_iff

theorem Status.code_ofFault (faulty : Bool) :
    (ofFault faulty).code = if faulty then 65 else 0 := by
  cases faulty <;> rfl

namespace CheckRequest

theorem numeric_context (request : CheckRequest) (lexicon : Lexicon) :
    (request.context lexicon).Numeric fun _ => .integer 1 :=
  ⟨fun _ => rfl, fun _ => rfl⟩

theorem evaluations_ofTemplates (request : CheckRequest) (lexicon : Lexicon) :
    ∀ finding ∈ request.evaluations lexicon,
      ∀ diagnostic ∈ finding.evaluation.diagnostics, diagnostic.OfTemplates := by
  intro finding evaluated
  obtain ⟨key, -, rfl⟩ := List.mem_map.mp evaluated
  exact (request.book lexicon).renderKey_ofTemplates FormatRegistry.defaults_total
    (request.numeric_context lexicon) key

theorem any_isError_iff (request : CheckRequest) (lexicon : Lexicon) :
    (request.findings lexicon).any Finding.isError = true ↔
      ∃ finding ∈ request.evaluations lexicon, finding.Failed := by
  -- A phrase without diagnostics has no errors, so those that are left out do not count.
  have sound := request.evaluations_ofTemplates lexicon
  rw [List.any_eq_true]
  constructor
  · rintro ⟨finding, found, fails⟩
    obtain ⟨evaluated, -⟩ := List.mem_filter.mp found
    exact ⟨finding, evaluated, (Finding.isError_iff (sound finding evaluated)).mp fails⟩
  · rintro ⟨finding, evaluated, failed⟩
    have filled : (!finding.evaluation.diagnostics.isEmpty) = true := by
      obtain ⟨diagnostic, member, -⟩ := failed
      simpa using List.ne_nil_of_mem member
    exact ⟨finding, List.mem_filter.mpr ⟨evaluated, filled⟩,
      (Finding.isError_iff (sound finding evaluated)).mpr failed⟩

/-- A check reports problems of the phrases alone. Every key is checked; whatever is found is a
reference to no key, an expansion that is too deep, markup that is not closed, a formula that cannot
be read or a division by zero. The last two make the data faulty, and nothing else does. -/
theorem run_reports_templates (request : CheckRequest) (files : String → FileContent)
    {lexicon : Lexicon}
    (loads : Dictionary.lexiconOfFile request.dictionary (files request.dictionary) =
      .ok lexicon) :
    (request.evaluations lexicon).map Finding.key = lexicon.keys ∧
      (∀ finding ∈ request.evaluations lexicon,
        ∀ diagnostic ∈ finding.evaluation.diagnostics,
          (diagnostic.kind = .keyNotFound ∨ diagnostic.kind = .recursionDepth ∨
            diagnostic.kind = .tokenizationError ∨ diagnostic.kind = .parseError ∨
            diagnostic.kind = .evaluationError) ∧
          (diagnostic.kind = .evaluationError → diagnostic.message = "division by zero")) ∧
      ∃ outcome, (Request.check request).run (m := Id) files = .ok outcome ∧
        outcome = request.answer lexicon ∧
        (outcome.status.code = 65 ↔ ∃ finding ∈ request.evaluations lexicon,
          ∃ diagnostic ∈ finding.evaluation.diagnostics,
            diagnostic.kind = .parseError ∨ diagnostic.kind = .evaluationError) ∧
        (outcome.status.code = 65 ∨ outcome.status.code = 0) := by
  refine ⟨?_, fun finding evaluated diagnostic member => ?_, request.answer lexicon, ?_, rfl, ?_⟩
  · simp [evaluations, Function.comp_def]
  · have sound := request.evaluations_ofTemplates lexicon finding evaluated diagnostic member
    exact ⟨sound.kind, sound.divided⟩
  · simp only [Request.run, withDictionary, pure, bind, loads]
    rfl
  · have code : (request.answer lexicon).status.code =
        if (request.findings lexicon).any Finding.isError then 65 else 0 := Status.code_ofFault _
    rw [code]
    have faulty := request.any_isError_iff lexicon
    simp only [Finding.Failed] at faulty
    rw [← faulty]
    cases (request.findings lexicon).any Finding.isError <;> decide

/-- A phrase that divides by zero, one that cannot be read, and one that refers to the first and to
no phrase. -/
def faultyText : String :=
  "\x7b\"half\": \"\x7b1/0\x7d\", \"open\": \"\x7bn+\x7d\", \"sum\": \"$half$ $gone$\"\x7d"

def faultyLexicon : Lexicon :=
  ⟨.ofList [(⟨["half"]⟩, .new "\x7b1/0\x7d"), (⟨["open"]⟩, .new "\x7bn+\x7d"),
    (⟨["sum"]⟩, .new "$half$ $gone$")]⟩

def faultyRequest : CheckRequest := ⟨"faulty.json", 16, false⟩

theorem run_reports_faulty_templates :
    Dictionary.lexiconOfFile "faulty.json" (.ok faultyText) = .ok faultyLexicon ∧
      (faultyRequest.evaluations faultyLexicon).map (fun finding =>
          (finding.key.text, finding.evaluation.diagnostics.map (·.kind))) =
        [("half", [.evaluationError]), ("open", [.parseError]),
          ("sum", [.evaluationError, .keyNotFound])] ∧
      ∃ outcome, (Request.check faultyRequest).run (m := Id) (fun _ => .ok faultyText) =
        .ok outcome ∧ outcome.status.code = 65 := by
  have loads : Dictionary.lexiconOfFile "faulty.json" (.ok faultyText) = .ok faultyLexicon := by
    cbv
  obtain ⟨-, -, outcome, ran, -, faulty, -⟩ :=
    run_reports_templates faultyRequest (fun _ => .ok faultyText) loads
  exact ⟨loads, by decide +kernel, outcome, ran, faulty.mpr (by decide +kernel)⟩

end CheckRequest

end Command

end Phrasebook
