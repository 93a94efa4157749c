import Phrasebook.Proofs.BareVariables
import Phrasebook.Proofs.Markup
import Phrasebook.Render.Thorough

/-!
The shortcuts of a rendering do not show. A text in which nothing means anything is written without
being read, and a slot that is a single variable is answered without being read as a formula; text
and diagnostics are those of the rendering that takes neither of these shortcuts, as long as the
formulas that it reaches pass the check of their nesting.
-/

namespace Phrasebook

theorem Reading.within_plain (budget start : Nat) {c : Char} {cs : List Char}
    (plain : ∀ d ∈ c :: cs, isSpecial d = false) :
    within budget start (c :: cs) =
      ⟨.leaf start (.text (String.ofList (c :: cs)) (String.ofList (c :: cs))) .nil, []⟩ := by
  induction cs generalizing c start with
  | nil =>
      rw [within_eq, Markup.scan_plain budget (plain c List.mem_cons_self), scan_nil]
      rfl
  | cons d ds ih =>
      have behind : ∀ e ∈ d :: ds, isSpecial e = false := fun e member =>
        plain e (List.mem_cons_of_mem c member)
      rw [within_eq, Markup.scan_plain budget (plain c List.mem_cons_self)]
      have joined : c.toString ++ String.ofList (d :: ds) = String.ofList (c :: d :: ds) :=
        String.ofList_cons.symm
      simp only [assemble, ← within_eq, ih _ behind, Phrase.prependText, joined]

theorem Template.read_empty : Template.read "" = ⟨"", .nil, []⟩ := by
  rw [read, String.toList_empty, Reading.within_nil]
  rfl

theorem Template.read_plain {text : String} (plain : ¬ hasSpecial text) (nonempty : text ≠ "") :
    Template.read text = ⟨text, .leaf 0 (.text text text) .nil, []⟩ := by
  have ordinary : ∀ c ∈ text.toList, isSpecial c = false := by
    intro c member
    exact Bool.eq_false_iff.mpr fun special => plain (List.any_eq_true.mpr ⟨c, member, special⟩)
  obtain ⟨c, cs, same⟩ := List.exists_cons_of_ne_nil (mt String.toList_eq_nil_iff.mp nonempty)
  have whole : String.ofList (c :: cs) = text := by rw [← same, String.ofList_toList]
  rw [same] at ordinary
  rw [read, same, Reading.within_plain maxColorNesting 0 ordinary, whole]

/-- The same outcome with the same diagnostics; the traffic may differ. -/
structure Noted.Agrees {α : Type} (left right : Noted α) : Prop where
  value : left.value = right.value
  diagnostics : left.diagnostics = right.diagnostics

namespace Noted.Agrees

variable {α β : Type}

theorem refl (noted : Noted α) : noted.Agrees noted := ⟨rfl, rfl⟩

theorem bind {left right : Noted α} {next other : α → Noted β} (start : left.Agrees right)
    (rest : (next left.value).Agrees (other left.value)) :
    (left >>= next).Agrees (right >>= other) := by
  refine ⟨?_, ?_⟩
  · rw [value_bind, value_bind, ← start.value, rest.value]
  · rw [diagnostics_bind, diagnostics_bind, ← start.value, start.diagnostics, rest.diagnostics]

theorem renting {left right : Noted α} (shelf : Shelf) (inner : left.Agrees right) :
    (Noted.renting shelf left).Agrees (Noted.renting shelf right) :=
  ⟨inner.value, inner.diagnostics⟩

end Noted.Agrees

theorem Formula.value_evaluate (mode : SubtractionMode)
    (resolve : Variable → Noted (Except FormulaFault Value)) (formula : Formula) :
    (formula.evaluate mode resolve).value =
      formula.evaluate (m := Id) mode fun var => (resolve var).value := by
  induction formula with
  | number value => rfl
  | var asked => rfl
  | binary op lhs rhs ihLhs ihRhs =>
      simp only [evaluate, Noted.value_bind, ihLhs]
      cases lhs.evaluate (m := Id) mode fun var => (resolve var).value with
      | error fault => rfl
      | ok left =>
          simp only [Noted.value_bind, ihRhs]
          cases rhs.evaluate (m := Id) mode fun var => (resolve var).value <;> rfl

theorem Formula.evaluate_agrees (mode : SubtractionMode)
    {left right : Variable → Noted (Except FormulaFault Value)} (formula : Formula)
    (answers : ∀ var ∈ formula.asked mode fun var => (left var).value,
      (left var).Agrees (right var)) :
    (formula.evaluate mode left).Agrees (formula.evaluate mode right) := by
  -- Two evaluations agree when the answers to all that is asked do.
  induction formula with
  | number value => exact .refl _
  | var asked => exact answers asked List.mem_cons_self
  | binary op lhs rhs ihLhs ihRhs =>
      have first : (lhs.evaluate mode left).Agrees (lhs.evaluate mode right) := by
        refine ihLhs fun var member => answers var ?_
        rw [asked]
        split
        · exact member
        · exact List.mem_append_left _ member
      refine first.bind ?_
      split
      · exact .refl _
      · rename_i value found
        rw [value_evaluate] at found
        have second : (rhs.evaluate mode left).Agrees (rhs.evaluate mode right) := by
          refine ihRhs fun var member => answers var ?_
          simp only [asked, found]
          exact List.mem_append_right _ member
        exact second.bind (.refl _)

/-- What two contexts allow below them agrees on the texts that are covered. -/
inductive Deeper.Agrees (covered : String → Prop) : Deeper → Deeper → Prop
  | spent : Agrees covered none none
  | below {left right : String → Noted String}
      (agrees : ∀ text, covered text → (left text).Agrees (right text)) :
      Agrees covered (some left) (some right)

namespace Renderer

/-- Every formula that is reached one level deeper passes the check of its nesting. -/
def Covered (below : Below) (text : String) : Prop := Formula.AllPass (below text)

variable {context : Context} {deeper other : Deeper} {below : Below}

theorem resolve_agrees (agrees : deeper.Agrees (Covered below) other) {var : Variable}
    (passes : Formula.AllPass (reachedByVariable context below var)) :
    (resolve context deeper var).Agrees (resolve context other var) := by
  unfold reachedByVariable at passes
  unfold resolve
  split
  · exact .refl _
  · rename_i content found
    rw [found] at passes
    split
    · rename_i special
      simp only [if_pos special] at passes
      cases agrees with
      | spent => exact .refl _
      | below agrees => exact .bind (.renting .texts (agrees content passes)) (.refl _)
    · exact .refl _
  · exact .refl _

/-- A slot that is a single variable has the same value when it is read as a formula. -/
theorem slotValue_eq_thorough (renderer : Renderer) {formula : String}
    (passes : Formula.Passes formula) :
    renderer.slotValue context deeper formula =
      Thorough.slotValue renderer context deeper formula := by
  unfold slotValue Thorough.slotValue
  split
  · rename_i var bare
    rw [((Variable.parseBare?_iff passes var).mp bare).1]
    rfl
  · rfl

theorem slotValue_agrees (renderer : Renderer) (agrees : deeper.Agrees (Covered below) other)
    {formula : String}
    (passes : Formula.AllPass (renderer.reachedBySlot context deeper below formula)) :
    (renderer.slotValue context deeper formula).Agrees
      (Thorough.slotValue renderer context other formula) := by
  unfold reachedBySlot at passes
  have here : Formula.Passes formula := by
    refine passes formula ?_
    split <;> exact List.mem_cons_self
  rw [renderer.slotValue_eq_thorough here]
  unfold Thorough.slotValue
  split
  · exact .refl _
  · rename_i parsed found
    rw [found] at passes
    refine parsed.evaluate_agrees _ fun var asked => resolve_agrees agrees fun reached member => ?_
    exact passes reached (List.mem_cons_of_mem _ (List.mem_flatMap.mpr ⟨var, asked, member⟩))

theorem renderSlot_agrees (renderer : Renderer) (agrees : deeper.Agrees (Covered below) other)
    (span : Span) (raw : String) {formula : String} (format : Option String)
    (passes : Formula.AllPass (renderer.reachedBySlot context deeper below formula)) :
    (renderer.renderSlot context deeper span raw formula format).Agrees
      (Thorough.renderSlot renderer context other span raw formula format) :=
  .bind (renderer.slotValue_agrees agrees passes) (.refl _)

theorem renderReference_agrees (renderer : Renderer)
    (agrees : deeper.Agrees (Covered below) other) (span : Span) (tooltip : Bool) {name : String}
    (passes : Formula.AllPass (renderer.reachedByReference below name)) :
    (renderer.renderReference context deeper span tooltip name).Agrees
      (renderer.renderReference context other span tooltip name) := by
  unfold reachedByReference at passes
  unfold renderReference
  split
  · exact .refl _
  · rename_i key parsed
    split
    · exact .refl _
    · rename_i text found
      simp only [parsed, Except.toOption, Option.bind_some, found] at passes
      cases agrees with
      | spent => exact .refl _
      | below agrees => exact .bind (.renting .texts (agrees text passes)) (.refl _)

theorem renderLeaf_agrees (renderer : Renderer) (agrees : deeper.Agrees (Covered below) other)
    (start : Nat) {piece : Leaf}
    (passes : Formula.AllPass (renderer.reachedByLeaf context deeper below piece)) :
    (renderer.renderLeaf context deeper start piece).Agrees
      (Thorough.renderLeaf renderer context other start piece) := by
  cases piece with
  | text raw content => exact .refl _
  | reference tooltip name => exact renderer.renderReference_agrees agrees _ tooltip passes
  | slot formula format => exact renderer.renderSlot_agrees agrees _ _ format passes

theorem renderInside_agrees (renderer : Renderer) (inner : String) {body : Phrase}
    (agrees : (renderer.renderPhrase context deeper body).Agrees
      (Thorough.renderPhrase renderer context other body)) :
    (renderer.renderInside context deeper inner body).Agrees
      (Thorough.renderInside renderer context other inner body) := by
  cases body with
  | nil => exact .refl _
  | leaf => exact agrees
  | colored => exact agrees

theorem renderPhrase_agrees (renderer : Renderer) (agrees : deeper.Agrees (Covered below) other)
    {phrase : Phrase}
    (passes : Formula.AllPass (renderer.reachedByPhrase context deeper below phrase)) :
    (renderer.renderPhrase context deeper phrase).Agrees
      (Thorough.renderPhrase renderer context other phrase) := by
  induction phrase with
  | nil => exact .refl _
  | leaf start piece next ih =>
      obtain ⟨here, later⟩ := List.forall_mem_append.mp passes
      exact .bind (renderer.renderLeaf_agrees agrees start here) (.bind (ih later) (.refl _))
  | colored start code inner body next ihBody ihNext =>
      obtain ⟨inside, later⟩ := List.forall_mem_append.mp passes
      rw [renderPhrase_colored, Thorough.renderPhrase_colored]
      refine .bind (.refl _) (.bind (.refl _) (.bind (.refl _) ?_))
      refine .bind (renderer.renderInside_agrees inner (ihBody inside)) ?_
      exact .bind (.refl _) (.bind (ihNext later) (.refl _))

theorem renderTemplate_agrees (renderer : Renderer)
    (agrees : deeper.Agrees (Covered below) other) {template : Template}
    (passes : Formula.AllPass (renderer.reachedByPhrase context deeper below template.phrase)) :
    (renderer.renderTemplate context deeper template).Agrees
      (Thorough.renderTemplate renderer context other template) := by
  have phrase := renderer.renderInside_agrees template.source
    (renderer.renderPhrase_agrees agrees passes)
  exact .bind (.refl _) phrase

theorem readAndRender_agrees (renderer : Renderer)
    (agrees : deeper.Agrees (Covered below) other) {text : String}
    (passes : Formula.AllPass
      (renderer.reachedByPhrase context deeper below (Template.read text).phrase)) :
    (renderer.readAndRender context deeper text).Agrees
      (Thorough.readAndRender renderer context other text) :=
  .renting .trees (.bind (.refl _) (renderer.renderTemplate_agrees agrees passes))

theorem emit_agrees (renderer : Renderer) {text : String} (plain : ¬ hasSpecial text) :
    (Noted.emit text).Agrees (Thorough.readAndRender renderer context deeper text) := by
  unfold Thorough.readAndRender
  by_cases empty : text = ""
  · rw [empty, Template.read_empty]
    exact ⟨rfl, rfl⟩
  · rw [Template.read_plain plain empty]
    exact ⟨String.append_empty.symm, rfl⟩

theorem expandWith_agrees (renderer : Renderer) (agrees : deeper.Agrees (Covered below) other)
    {text : String}
    (passes : Formula.AllPass
      (renderer.reachedByPhrase context deeper below (Template.read text).phrase)) :
    (renderer.expandWith context deeper text).Agrees
      (Thorough.readAndRender renderer context other text) := by
  unfold expandWith
  split
  · exact renderer.readAndRender_agrees agrees passes
  · rename_i plain
    exact renderer.emit_agrees plain

theorem deeper_agrees_of (renderer : Renderer)
    (expands : 0 < context.budget → ∀ text,
      Formula.AllPass (renderer.reached context.descend (Template.read text).phrase) →
      (renderer.expand context.descend text).Agrees
        (Thorough.expand renderer context.descend text)) :
    (renderer.deeper context).Agrees (Covered (renderer.reachedBelow context))
      (Thorough.deeper renderer context) := by
  by_cases spent : context.budget = 0
  · rw [deeper_of_spent renderer spent, Thorough.deeper_of_spent renderer spent]
    exact .spent
  · have left := Nat.pos_of_ne_zero spent
    rw [deeper_of_budget renderer left, Thorough.deeper_of_budget renderer left]
    refine .below fun text covered => expands left text ?_
    rw [← reachedBelow_of_budget renderer left]
    exact covered

theorem expand_agrees (renderer : Renderer) (context : Context) {text : String}
    (passes : Formula.AllPass (renderer.reached context (Template.read text).phrase)) :
    (renderer.expand context text).Agrees (Thorough.expand renderer context text) := by
  induction context using Context.budget_induction generalizing text with
  | step context below =>
      have agrees := renderer.deeper_agrees_of fun left text => below left
      exact renderer.expandWith_agrees agrees passes

theorem deeper_agrees (renderer : Renderer) (context : Context) :
    (renderer.deeper context).Agrees (Covered (renderer.reachedBelow context))
      (Thorough.deeper renderer context) :=
  renderer.deeper_agrees_of fun _ _ => renderer.expand_agrees context.descend

/-- Rendering takes its shortcuts without a trace: where the formulas that it reaches pass the check
of their nesting, it ends with the text and the diagnostics of the rendering that reads everything.
A single variable is what is read as one, except in parentheses. -/
theorem shortcuts_unobservable (renderer : Renderer) (context : Context) :
    (∀ template : Template, Formula.AllPass (renderer.reached context template.phrase) →
        (renderer.evaluate context template).Agrees
          (Thorough.evaluate renderer context template)) ∧
      (∀ text : String,
        Formula.AllPass (renderer.reached context (Template.read text).phrase) →
          (renderer.render context text).Agrees (Thorough.render renderer context text) ∧
            (renderer.expand context text).Agrees (Thorough.expand renderer context text)) ∧
      ∀ (text : String) (var : Variable), Formula.Passes text →
        (Variable.parseBare? text = some var ↔
          Formula.parse text = .ok (.var var) ∧ (Text.trim text.toList).head? ≠ some '(') := by
  have agrees := renderer.deeper_agrees context
  refine ⟨fun template passes => ?_, fun text passes => ⟨?_, ?_⟩, fun text var passes => ?_⟩
  · exact renderer.renderTemplate_agrees agrees passes
  · exact renderer.readAndRender_agrees agrees passes
  · exact renderer.expand_agrees context passes
  · exact Variable.parseBare?_iff passes var

/-- A hall that is named after its guest, whose name is a template in its turn. -/
def hall : Renderer :=
  ⟨⟨.ofList [(⟨["Hall"]⟩, .new "\x7b guest \x7d's hall")]⟩, .defaults, .usual, .arithmetic⟩

def guests : Params :=
  .ofList [("guest", .text "Ada\x7b(n)\x7d"), ("n", .integer 3), ("plain", .text "none")]

theorem shortcuts_unobservable_hall :
    let context : Context := ⟨0, 2, guests, .silent⟩
    let text := "§R$@Hall$§ \x7bguest + (guest)\x7d, \x7bplain<(>\x7d \x7bx<\x7d"
    hall.reached context (Template.read text).phrase =
        [" guest ", "(n)", "guest + (guest)", "(n)", "(n)", "plain<(>", "x<"] ∧
      (hall.render context text).Agrees (Thorough.render hall context text) ∧
      (hall.render context text).value =
        "<color=#FF0000><link=Hall><u>Ada3's hall</u></link></color> Ada3Ada3, none \x7bx<\x7d" ∧
      Formula.parse " plain<(>\t" = .ok (.var ⟨"plain", [.flag "("]⟩) := by
  intro context text
  obtain ⟨-, renderings, bare⟩ := shortcuts_unobservable hall context
  refine ⟨by decide +kernel, ?_, by decide +kernel, ?_⟩
  · exact (renderings text (by decide +kernel)).1
  · exact ((bare _ _ (by decide)).mp (by decide)).1

-- Beyond the check of the nesting a shortcut shows: it takes a variable that is not read.
example :
    let text := String.ofList ('x' :: '<' :: (List.replicate 65 '(' ++ ['>']))
    (Variable.parseBare? text).isSome ∧ (Formula.parse text).isOk = false := by
  decide +kernel

end Renderer

end Phrasebook
