import Phrasebook.Format.Registry
import Phrasebook.Formula.Evaluation
import Phrasebook.Formula.Grammar
import Phrasebook.Lexicon.Basic
import Phrasebook.Phrase.Reading
import Phrasebook.Render.Context
import Phrasebook.Render.Decoration

/-!
Rendering of phrases. Texts are written as they are meant, references are replaced by the rendering
of their phrases, slots by the values of their formulas, and colored stretches are put between tags.
A phrase within a phrase takes one level from the budget of its context, so every rendering ends;
without a budget it is written as it is stored. What cannot be rendered is written as it stands.
-/

namespace Phrasebook

structure Renderer where
  lexicon : Lexicon
  formats : FormatRegistry
  decoration : Decoration
  subtraction : SubtractionMode

def FormulaFault.kind : FormulaFault → DiagnosticKind
  | .unexpectedChar .. => .parseError
  | .malformed .. => .parseError
  | .tooDeep => .parseError
  | .unresolved .. => .variableResolution
  | .invalidOperands .. => .evaluationError
  | .divisionByZero => .evaluationError
  | .invalidRepeat .. => .evaluationError
  | .brokenDown .. => .unexpectedError

/-- Renders a text one level deeper; there is none where the budget is spent. -/
abbrev Deeper := Option (String → Noted String)

def Phrase.readerTraffic : Phrase → List Traffic
  | .nil => []
  | .leaf _ _ next => next.readerTraffic
  | .colored _ _ _ body next =>
      .rent .readers :: body.readerTraffic ++ .giveBack .readers :: next.readerTraffic

/-- What reading a template takes from the pools. The tree stays out until it is rendered. -/
def Template.readTraffic (template : Template) : List Traffic :=
  .rent .readers :: template.phrase.readerTraffic ++ [.giveBack .readers]

namespace Renderer

def depthLimitReached (context : Context) (about : String) (span : Option Span) : Diagnostic :=
  let message := s!"expansion depth limit {context.maxDepth} reached at '{about}'; raw text used"
  .new .recursionDepth about message none span context.depth

def issueDiagnostic (context : Context) (issue : Issue) : Diagnostic :=
  .new .tokenizationError issue.opening.toString issue.kind.message none (some issue.span)
    context.depth

/-- The value of a variable. A text that means something is rendered in its turn. -/
def resolve (context : Context) (deeper : Deeper) (var : Variable) :
    Noted (Except FormulaFault Value) :=
  match context.lookup var with
  | .error fault => pure (.error fault)
  | .ok (.text content) =>
      if hasSpecial content then
        match deeper with
        | none => do
            Noted.report (depthLimitReached context var.name none)
            pure (.ok (.text content))
        | some expand => do
            let text ← Noted.renting .texts (expand content)
            pure (.ok (.text text))
      else pure (.ok (.text content))
  | .ok value => pure (.ok value)

/-- The value of a slot. A single variable need not be read as a formula. -/
def slotValue (renderer : Renderer) (context : Context) (deeper : Deeper) (formula : String) :
    Noted (Except FormulaFault Value) :=
  match Variable.parseBare? formula with
  | some var => resolve context deeper var
  | none =>
      match Formula.parse formula with
      | .error fault => pure (.error fault)
      | .ok parsed => parsed.evaluate renderer.subtraction (resolve context deeper)

def formatted (renderer : Renderer) (format : Option String) (value : Value) :
    Except FormulaFault String :=
  match renderer.formats.formatValue value format with
  | .ok text => .ok text
  | .error message => .error (.brokenDown (format.getD "") message)

def renderReference (renderer : Renderer) (context : Context) (deeper : Deeper) (span : Span)
    (tooltip : Bool) (name : String) : Noted String :=
  match Key.parse name with
  | .error error => do
      let message := s!"invalid key '{name}'"
      Noted.report
        (.new .keyNotFound name message (some error.message) (some span) context.depth)
      Noted.emit name
  | .ok key =>
      match renderer.lexicon.text? key with
      | none => do
          let message := renderer.lexicon.missingMessage key
          Noted.report (.new .keyNotFound name message none (some span) context.depth)
          Noted.emit name
      | some text =>
          match deeper with
          | none => do
              Noted.report (depthLimitReached context name (some span))
              Noted.emit text
          | some expand => do
              let inner ← Noted.renting .texts (expand text)
              renderer.decoration.emit name tooltip inner

def renderSlot (renderer : Renderer) (context : Context) (deeper : Deeper) (span : Span)
    (raw formula : String) (format : Option String) : Noted String := do
  let value ← renderer.slotValue context deeper formula
  match value.bind (renderer.formatted format) with
  | .ok text => Noted.emit text
  | .error fault => do
      Noted.report (.new fault.kind raw fault.message none (some span) context.depth)
      Noted.emit raw

def renderLeaf (renderer : Renderer) (context : Context) (deeper : Deeper) (start : Nat)
    (piece : Leaf) : Noted String :=
  let span : Span := ⟨start, start + piece.raw.utf8ByteSize⟩
  match piece with
  | .text _ content => Noted.emit content
  | .reference tooltip key => renderer.renderReference context deeper span tooltip key
  | .slot formula format => renderer.renderSlot context deeper span piece.raw formula format

def renderPhrase (renderer : Renderer) (context : Context) (deeper : Deeper) :
    Phrase → Noted String
  | .nil => pure ""
  | .leaf start piece next => do
      let text ← renderer.renderLeaf context deeper start piece
      let rest ← renderer.renderPhrase context deeper next
      pure (text ++ rest)
  | .colored _ code inner body next => do
      let opening ← Noted.emit "<color="
      let color ← Noted.emit code.hex
      let opened ← Noted.emit ">"
      let text ←
        match body with
        | .nil => Noted.emit inner
        | phrase => renderer.renderPhrase context deeper phrase
      let closing ← Noted.emit "</color>"
      let rest ← renderer.renderPhrase context deeper next
      pure (opening ++ color ++ opened ++ text ++ closing ++ rest)

def renderTemplate (renderer : Renderer) (context : Context) (deeper : Deeper)
    (template : Template) : Noted String := do
  Noted.reportAll (template.issues.map (issueDiagnostic context))
  match template.phrase with
  | .nil => Noted.emit template.source
  | phrase => renderer.renderPhrase context deeper phrase

/-- Reads a text and renders it. The tree is returned when the rendering is complete. -/
def readAndRender (renderer : Renderer) (context : Context) (deeper : Deeper) (text : String) :
    Noted String :=
  let template := Template.read text
  Noted.renting .trees do
    Noted.record template.readTraffic
    renderer.renderTemplate context deeper template

/-- Renders a stored or computed text. Most of them mean nothing and are written at once. -/
def expandWith (renderer : Renderer) (context : Context) (deeper : Deeper) (text : String) :
    Noted String :=
  if hasSpecial text then renderer.readAndRender context deeper text else Noted.emit text

def expandWithin (renderer : Renderer) : Nat → Context → String → Noted String
  | 0, context => renderer.expandWith context none
  | budget + 1, context =>
      renderer.expandWith context (some (renderer.expandWithin budget context.descend))

def deeper (renderer : Renderer) (context : Context) : Deeper :=
  match context.budget with
  | 0 => none
  | budget + 1 => some (renderer.expandWithin budget context.descend)

def expand (renderer : Renderer) (context : Context) (text : String) : Noted String :=
  renderer.expandWith context (renderer.deeper context) text

def evaluate (renderer : Renderer) (context : Context) (template : Template) : Noted String :=
  renderer.renderTemplate context (renderer.deeper context) template

def render (renderer : Renderer) (context : Context) (text : String) : Noted String :=
  renderer.readAndRender context (renderer.deeper context) text

def renderInside (renderer : Renderer) (context : Context) (deeper : Deeper) (inner : String) :
    Phrase → Noted String
  | .nil => Noted.emit inner
  | body => renderer.renderPhrase context deeper body

theorem renderPhrase_colored (renderer : Renderer) (context : Context) (deeper : Deeper)
    (start : Nat) (code : ColorCode) (inner : String) (body next : Phrase) :
    renderer.renderPhrase context deeper (.colored start code inner body next) = (do
      let opening ← Noted.emit "<color="
      let color ← Noted.emit code.hex
      let opened ← Noted.emit ">"
      let text ← renderer.renderInside context deeper inner body
      let closing ← Noted.emit "</color>"
      let rest ← renderer.renderPhrase context deeper next
      pure (opening ++ color ++ opened ++ text ++ closing ++ rest)) := by
  cases body <;> rfl

/-- Two renderings of a phrase are related when those of its leaves are, and when computations one
after the other are. -/
theorem renderPhrase_related {Related : Noted String → Noted String → Prop}
    {renderer grown : Renderer} {context altered : Context} {deeper other : Deeper}
    (silent : ∀ noted, noted.diagnostics = [] → Related noted noted)
    (chained : ∀ {left right next last}, Related left right →
      (∀ text, Related (next text) (last text)) → Related (left >>= next) (right >>= last))
    (leaf : ∀ start piece, Related (renderer.renderLeaf context deeper start piece)
      (grown.renderLeaf altered other start piece)) (phrase : Phrase) :
    Related (renderer.renderPhrase context deeper phrase)
      (grown.renderPhrase altered other phrase) := by
  induction phrase with
  | nil => exact silent _ rfl
  | leaf start piece next ih =>
      exact chained (leaf start piece) fun _ => chained ih fun _ => silent _ rfl
  | colored start code inner body next ihBody ihNext =>
      rw [renderPhrase_colored, renderPhrase_colored]
      refine chained (silent _ rfl) fun opening => chained (silent _ rfl) fun color => ?_
      refine chained (silent _ rfl) fun opened => chained ?_ fun text => ?_
      · cases body with
        | nil => exact silent _ rfl
        | leaf => exact ihBody
        | colored => exact ihBody
      · exact chained (silent _ rfl) fun closing => chained ihNext fun _ => silent _ rfl

theorem expand_eq_expandWithin (renderer : Renderer) (context : Context) (text : String) :
    renderer.expand context text = renderer.expandWithin context.budget context text := by
  unfold expand deeper
  cases context.budget <;> rfl

theorem deeper_of_spent (renderer : Renderer) {context : Context} (spent : context.budget = 0) :
    renderer.deeper context = none := by
  rw [deeper, spent]

theorem deeper_of_budget (renderer : Renderer) {context : Context} (left : 0 < context.budget) :
    renderer.deeper context = some (renderer.expand context.descend) := by
  rw [deeper, Context.budget_eq_of_left left]
  exact congrArg some (funext fun text => (renderer.expand_eq_expandWithin _ text).symm)

theorem mem_deeper_iff (renderer : Renderer) (context : Context) (expand : String → Noted String) :
    expand ∈ renderer.deeper context ↔
      0 < context.budget ∧ renderer.expand context.descend = expand := by
  by_cases spent : context.budget = 0
  · simp [deeper_of_spent renderer spent, spent]
  · have left := Nat.pos_of_ne_zero spent
    simp [deeper_of_budget renderer left, left]

end Renderer

end Phrasebook
