import Phrasebook.Render.Renderer

/-!
Rendering without shortcuts. Every text is read, also one in which nothing means anything, and every
slot is read as a formula, also one that is a single variable. Beside it stands what a rendering
reaches: the formulas of all slots that it comes to, those of expanded phrases included.
-/

namespace Phrasebook

namespace Renderer.Thorough

/-- The value of a slot, which is always read as a formula. -/
def slotValue (renderer : Renderer) (context : Context) (deeper : Deeper) (formula : String) :
    Noted (Except FormulaFault Value) :=
  match Formula.parse formula with
  | .error fault => pure (.error fault)
  | .ok parsed => parsed.evaluate renderer.subtraction (resolve context deeper)

def renderSlot (renderer : Renderer) (context : Context) (deeper : Deeper) (span : Span)
    (raw formula : String) (format : Option String) : Noted String := do
  let value ← slotValue renderer context deeper formula
  match value.bind (renderer.formatted format) with
  | .ok text => Noted.emit text
  | .error fault => do
      Noted.report (.new fault.kind raw fault.message none (some span) context.depth)
      Noted.emit raw

def renderLeaf (renderer : Renderer) (context : Context) (deeper : Deeper) (start : Nat)
    (piece : Leaf) : Noted String :=
  let span : Span := ⟨start, start + piece.raw.utf8ByteSize⟩
  match piece with
  | .text _ content => Noted.emit content
  | .reference tooltip key => renderer.renderReference context deeper span tooltip key
  | .slot formula format => renderSlot renderer context deeper span piece.raw formula format

def renderPhrase (renderer : Renderer) (context : Context) (deeper : Deeper) :
    Phrase → Noted String
  | .nil => pure ""
  | .leaf start piece next => do
      let text ← renderLeaf renderer context deeper start piece
      let rest ← renderPhrase renderer context deeper next
      pure (text ++ rest)
  | .colored _ code inner body next => do
      let opening ← Noted.emit "<color="
      let color ← Noted.emit code.hex
      let opened ← Noted.emit ">"
      let text ←
        match body with
        | .nil => Noted.emit inner
        | phrase => renderPhrase renderer context deeper phrase
      let closing ← Noted.emit "</color>"
      let rest ← renderPhrase renderer context deeper next
      pure (opening ++ color ++ opened ++ text ++ closing ++ rest)

def renderTemplate (renderer : Renderer) (context : Context) (deeper : Deeper)
    (template : Template) : Noted String := do
  Noted.reportAll (template.issues.map (issueDiagnostic context))
  match template.phrase with
  | .nil => Noted.emit template.source
  | phrase => renderPhrase renderer context deeper phrase

def readAndRender (renderer : Renderer) (context : Context) (deeper : Deeper) (text : String) :
    Noted String :=
  let template := Template.read text
  Noted.renting .trees do
    Noted.record template.readTraffic
    renderTemplate renderer context deeper template

/-- Renders a text in a context with that budget. Whatever the text is, it is read. -/
def expandWithin (renderer : Renderer) : Nat → Context → String → Noted String
  | 0, context => readAndRender renderer context none
  | budget + 1, context =>
      readAndRender renderer context (some (expandWithin renderer budget context.descend))

def deeper (renderer : Renderer) (context : Context) : Deeper :=
  match context.budget with
  | 0 => none
  | budget + 1 => some (expandWithin renderer budget context.descend)

def expand (renderer : Renderer) (context : Context) (text : String) : Noted String :=
  readAndRender renderer context (deeper renderer context) text

def evaluate (renderer : Renderer) (context : Context) (template : Template) : Noted String :=
  renderTemplate renderer context (deeper renderer context) template

def render (renderer : Renderer) (context : Context) (text : String) : Noted String :=
  readAndRender renderer context (deeper renderer context) text

end Renderer.Thorough

/-- The variables that a formula asks for, up to the first fault. -/
def Formula.asked (mode : SubtractionMode) (answer : Variable → Except FormulaFault Value) :
    Formula → List Variable
  | .number _ => []
  | .var asked => [asked]
  | .binary _ lhs rhs =>
      match lhs.evaluate (m := Id) mode answer with
      | .error _ => lhs.asked mode answer
      | .ok _ => lhs.asked mode answer ++ rhs.asked mode answer

abbrev Below := String → List String

namespace Renderer

/-- What is reached through the value of a variable, which is rendered if it means something. -/
def reachedByVariable (context : Context) (below : Below) (var : Variable) : List String :=
  match context.lookup var with
  | .ok (.text content) => if hasSpecial content then below content else []
  | _ => []

def reachedBySlot (renderer : Renderer) (context : Context) (deeper : Deeper) (below : Below)
    (formula : String) : List String :=
  match Formula.parse formula with
  | .error _ => [formula]
  | .ok parsed =>
      let asked := parsed.asked renderer.subtraction fun var => (resolve context deeper var).value
      formula :: asked.flatMap (reachedByVariable context below)

def reachedByReference (renderer : Renderer) (below : Below) (name : String) : List String :=
  match (Key.parse name).toOption.bind renderer.lexicon.text? with
  | none => []
  | some text => below text

def reachedByLeaf (renderer : Renderer) (context : Context) (deeper : Deeper) (below : Below) :
    Leaf → List String
  | .text _ _ => []
  | .reference _ name => renderer.reachedByReference below name
  | .slot formula _ => renderer.reachedBySlot context deeper below formula

def reachedByPhrase (renderer : Renderer) (context : Context) (deeper : Deeper) (below : Below) :
    Phrase → List String
  | .nil => []
  | .leaf _ piece next =>
      renderer.reachedByLeaf context deeper below piece ++
        renderer.reachedByPhrase context deeper below next
  | .colored _ _ _ body next =>
      renderer.reachedByPhrase context deeper below body ++
        renderer.reachedByPhrase context deeper below next

def reachedWithin (renderer : Renderer) : Nat → Context → Below
  | 0, context, text =>
      renderer.reachedByPhrase context none (fun _ => []) (Template.read text).phrase
  | budget + 1, context, text =>
      renderer.reachedByPhrase context (some (renderer.expandWithin budget context.descend))
        (renderer.reachedWithin budget context.descend) (Template.read text).phrase

/-- Without a budget no text is expanded, and nothing is reached in it. -/
def reachedBelow (renderer : Renderer) (context : Context) : Below :=
  match context.budget with
  | 0 => fun _ => []
  | budget + 1 => renderer.reachedWithin budget context.descend

/-- The formulas of all slots that the rendering of a phrase comes to. -/
def reached (renderer : Renderer) (context : Context) (phrase : Phrase) : List String :=
  renderer.reachedByPhrase context (renderer.deeper context) (renderer.reachedBelow context) phrase

theorem reached_read_eq_reachedWithin (renderer : Renderer) (context : Context) (text : String) :
    renderer.reached context (Template.read text).phrase =
      renderer.reachedWithin context.budget context text := by
  unfold reached reachedBelow deeper
  cases context.budget <;> rfl

theorem reachedBelow_of_budget (renderer : Renderer) {context : Context}
    (left : 0 < context.budget) (text : String) :
    renderer.reachedBelow context text =
      renderer.reached context.descend (Template.read text).phrase := by
  rw [reachedBelow, Context.budget_eq_of_left left, reached_read_eq_reachedWithin]

namespace Thorough

def renderInside (renderer : Renderer) (context : Context) (deeper : Deeper) (inner : String) :
    Phrase → Noted String
  | .nil => Noted.emit inner
  | body => renderPhrase renderer context deeper body

theorem renderPhrase_colored (renderer : Renderer) (context : Context) (deeper : Deeper)
    (start : Nat) (code : ColorCode) (inner : String) (body next : Phrase) :
    renderPhrase renderer context deeper (.colored start code inner body next) = (do
      let opening ← Noted.emit "<color="
      let color ← Noted.emit code.hex
      let opened ← Noted.emit ">"
      let text ← renderInside renderer context deeper inner body
      let closing ← Noted.emit "</color>"
      let rest ← renderPhrase renderer context deeper next
      pure (opening ++ color ++ opened ++ text ++ closing ++ rest)) := by
  cases body <;> rfl

theorem expand_eq_expandWithin (renderer : Renderer) (context : Context) (text : String) :
    expand renderer context text = expandWithin renderer context.budget context text := by
  unfold expand deeper
  cases context.budget <;> rfl

theorem deeper_of_spent (renderer : Renderer) {context : Context} (spent : context.budget = 0) :
    deeper renderer context = none := by
  rw [deeper, spent]

theorem deeper_of_budget (renderer : Renderer) {context : Context} (left : 0 < context.budget) :
    deeper renderer context = some (expand renderer context.descend) := by
  rw [deeper, Context.budget_eq_of_left left]
  exact congrArg some (funext fun text => (expand_eq_expandWithin renderer _ text).symm)

end Thorough

end Renderer

end Phrasebook
