import Mathlib.Data.List.Forall2
import Phrasebook.Render.Renderer

/-!
What the depth of a rendering decides. Two renderings of a text in contexts that differ in depth and
limit only are alike when the contexts have the same budget, and also when the first of them has
never met its limit and the second has at least its budget. Alike means the same text, the same
traffic and the same diagnostics, up to the depths that these tell and the limits that they name.
-/

namespace Phrasebook

/-- The same problem, met in two contexts that differ in depth and limit. -/
structure Diagnostic.Alike (first second : Context) (left right : Diagnostic) : Prop where
  same : right = { left with message := right.message, depth := right.depth }
  shifted : left.depth + second.depth = right.depth + first.depth
  message : left.kind ≠ .recursionDepth → left.message = right.message
  limits : left.kind = .recursionDepth →
    left.message = (Renderer.depthLimitReached first left.context left.span).message ∧
      right.message = (Renderer.depthLimitReached second left.context left.span).message

structure Noted.Alike {α : Type} (first second : Context) (left right : Noted α) : Prop where
  value : left.value = right.value
  diagnostics : List.Forall₂ (Diagnostic.Alike first second) left.diagnostics right.diagnostics
  traffic : left.traffic = right.traffic

def Noted.Complete {α : Type} (noted : Noted α) : Prop :=
  ∀ diagnostic ∈ noted.diagnostics, diagnostic.kind ≠ .recursionDepth

/-- The second outcome is like the first, if the budgets are the same (`level`) or the first
rendering was complete. This is the invariant of two renderings side by side. -/
def Noted.Follows {α : Type} (level : Prop) (first second : Context) (left right : Noted α) :
    Prop :=
  level ∨ left.Complete → left.Alike first second right

structure Context.Alike (first second : Context) : Prop where
  params : first.params = second.params
  source : first.source = second.source

/-- What the contexts allow below them. The first may have come to its end alone. -/
inductive Deeper.Follows (level : Prop) (first second : Context) : Deeper → Deeper → Prop
  | spent : Follows level first second none none
  | ahead {expand : String → Noted String} (uneven : ¬ level) :
      Follows level first second none (some expand)
  | below {left right : String → Noted String}
      (follows : ∀ text, (left text).Follows level first second (right text)) :
      Follows level first second (some left) (some right)

variable {level : Prop} {first second : Context}

namespace Diagnostic.Alike

theorem new {kind : DiagnosticKind} (context message : String) (cause : Option String)
    (span : Option Span) (unlimited : kind ≠ .recursionDepth) :
    Alike first second (.new kind context message cause span first.depth)
      (.new kind context message cause span second.depth) :=
  ⟨rfl, Nat.add_comm _ _, fun _ => rfl, fun limited => absurd limited unlimited⟩

theorem limit (about : String) (span : Option Span) :
    Alike first second (Renderer.depthLimitReached first about span)
      (Renderer.depthLimitReached second about span) :=
  ⟨rfl, Nat.add_comm _ _, fun unlimited => absurd rfl unlimited, fun _ => ⟨rfl, rfl⟩⟩

theorem ascend {left right : Diagnostic} (alike : Alike first.descend second.descend left right) :
    Alike first second left right := by
  have shifted := alike.shifted
  simp only [Context.descend] at shifted
  exact ⟨alike.same, by omega, alike.message, alike.limits⟩

end Diagnostic.Alike

namespace Noted.Follows

variable {α β : Type}

theorem of_silent {noted : Noted α} (silent : noted.diagnostics = []) :
    Follows level first second noted noted :=
  fun _ => ⟨rfl, by simp [silent], rfl⟩

theorem emit (text : String) : Follows level first second (Noted.emit text) (Noted.emit text) :=
  of_silent rfl

theorem report {left right : Diagnostic} (alike : Diagnostic.Alike first second left right) :
    Follows level first second (Noted.report left) (Noted.report right) :=
  fun _ => ⟨rfl, .cons alike .nil, rfl⟩

theorem bind {left right : Noted α} {next other : α → Noted β}
    (start : Follows level first second left right)
    (rest : ∀ value, Follows level first second (next value) (other value)) :
    Follows level first second (left >>= next) (right >>= other) := by
  intro settled
  have begun : left.Alike first second right := start (settled.imp_right fun complete _ member =>
    complete _ (List.mem_append_left _ member))
  have ended : (next left.value).Alike first second (other left.value) :=
    rest left.value (settled.imp_right fun complete _ member =>
      complete _ (List.mem_append_right _ member))
  refine ⟨?_, ?_, ?_⟩
  · rw [value_bind, value_bind, ← begun.value, ended.value]
  · rw [diagnostics_bind, diagnostics_bind, ← begun.value]
    exact List.rel_append begun.diagnostics ended.diagnostics
  · rw [traffic_bind, traffic_bind, ← begun.value, begun.traffic, ended.traffic]

theorem renting {left right : Noted α} (shelf : Shelf)
    (inner : Follows level first second left right) :
    Follows level first second (Noted.renting shelf left) (Noted.renting shelf right) := by
  intro settled
  have alike := inner settled
  exact ⟨alike.value, alike.diagnostics, by simp [Noted.renting, alike.traffic]⟩

theorem ascend {left right : Noted α}
    (inner : Follows level first.descend second.descend left right) :
    Follows level first second left right := by
  intro settled
  have alike := inner settled
  exact ⟨alike.value, alike.diagnostics.imp fun _ _ => .ascend, alike.traffic⟩

theorem of_limit {right : Noted α} (uneven : ¬ level) (about : String) (span : Option Span)
    (next : Unit → Noted α) :
    Follows level first second
      (Noted.report (Renderer.depthLimitReached first about span) >>= next) right := by
  -- The rendering that has met its limit alone is not complete.
  rintro (even | complete)
  · exact absurd even uneven
  · exact absurd rfl (complete _ (List.mem_append_left _ List.mem_cons_self))

end Noted.Follows

namespace Renderer

variable {deeper other : Deeper}

theorem lookup_alike (alike : first.Alike second) (var : Variable) :
    first.lookup var = second.lookup var := by
  simp only [Context.lookup, alike.params, alike.source]

theorem resolve_follows (alike : first.Alike second)
    (below : deeper.Follows level first second other) (var : Variable) :
    (resolve first deeper var).Follows level first second (resolve second other var) := by
  unfold resolve
  rw [lookup_alike alike]
  split
  · exact .of_silent rfl
  · split
    · cases below with
      | spent => exact .bind (.report (.limit var.name none)) fun _ => .of_silent rfl
      | ahead uneven => exact .of_limit uneven var.name none _
      | below follows => exact .bind (.renting .texts (follows _)) fun _ => .of_silent rfl
    · exact .of_silent rfl
  · exact .of_silent rfl

theorem slotValue_follows (renderer : Renderer) (alike : first.Alike second)
    (below : deeper.Follows level first second other) (formula : String) :
    (renderer.slotValue first deeper formula).Follows level first second
      (renderer.slotValue second other formula) := by
  unfold slotValue
  split
  · exact resolve_follows alike below _
  · split
    · exact .of_silent rfl
    · have answers := resolve_follows alike below
      exact Formula.evaluate_related _ (fun _ => .of_silent rfl) .bind answers _

theorem kind_ne_recursionDepth (fault : FormulaFault) : fault.kind ≠ .recursionDepth := by
  cases fault <;> simp [FormulaFault.kind]

theorem renderSlot_follows (renderer : Renderer) (alike : first.Alike second)
    (below : deeper.Follows level first second other) (span : Span) (raw formula : String)
    (format : Option String) :
    (renderer.renderSlot first deeper span raw formula format).Follows level first second
      (renderer.renderSlot second other span raw formula format) := by
  refine .bind (renderer.slotValue_follows alike below formula) fun value => ?_
  split
  · exact .of_silent rfl
  · exact .bind (.report (.new _ _ _ _ (kind_ne_recursionDepth _))) fun _ => .of_silent rfl

theorem renderReference_follows (renderer : Renderer)
    (below : deeper.Follows level first second other) (span : Span) (tooltip : Bool)
    (name : String) :
    (renderer.renderReference first deeper span tooltip name).Follows level first second
      (renderer.renderReference second other span tooltip name) := by
  unfold renderReference
  split
  · exact .bind (.report (.new _ _ _ _ nofun)) fun _ => .of_silent rfl
  · split
    · exact .bind (.report (.new _ _ _ _ nofun)) fun _ => .of_silent rfl
    · cases below with
      | spent => exact .bind (.report (.limit name (some span))) fun _ => .of_silent rfl
      | ahead uneven => exact .of_limit uneven name (some span) _
      | below follows => exact .bind (.renting .texts (follows _)) fun _ => .of_silent rfl

theorem renderLeaf_follows (renderer : Renderer) (alike : first.Alike second)
    (below : deeper.Follows level first second other) (start : Nat) (piece : Leaf) :
    (renderer.renderLeaf first deeper start piece).Follows level first second
      (renderer.renderLeaf second other start piece) := by
  cases piece with
  | text raw content => exact .emit content
  | reference tooltip key => exact renderer.renderReference_follows below _ tooltip key
  | slot formula format => exact renderer.renderSlot_follows alike below _ _ formula format

theorem renderPhrase_follows (renderer : Renderer) (alike : first.Alike second)
    (below : deeper.Follows level first second other) (phrase : Phrase) :
    (renderer.renderPhrase first deeper phrase).Follows level first second
      (renderer.renderPhrase second other phrase) :=
  renderPhrase_related (fun _ => .of_silent) .bind (renderer.renderLeaf_follows alike below) phrase

theorem renderTemplate_follows (renderer : Renderer) (alike : first.Alike second)
    (below : deeper.Follows level first second other) (template : Template) :
    (renderer.renderTemplate first deeper template).Follows level first second
      (renderer.renderTemplate second other template) := by
  refine .bind (fun _ => ⟨rfl, ?_, rfl⟩) fun _ => ?_
  · refine List.forall₂_map_left_iff.mpr (List.forall₂_map_right_iff.mpr ?_)
    exact List.forall₂_same.mpr fun issue _ => .new _ _ _ _ nofun
  · split
    · exact .of_silent rfl
    · exact renderer.renderPhrase_follows alike below _

theorem readAndRender_follows (renderer : Renderer) (alike : first.Alike second)
    (below : deeper.Follows level first second other) (text : String) :
    (renderer.readAndRender first deeper text).Follows level first second
      (renderer.readAndRender second other text) :=
  .renting .trees (.bind (.of_silent rfl) fun _ => renderer.renderTemplate_follows alike below _)

theorem expandWith_follows (renderer : Renderer) (alike : first.Alike second)
    (below : deeper.Follows level first second other) (text : String) :
    (renderer.expandWith first deeper text).Follows level first second
      (renderer.expandWith second other text) := by
  unfold expandWith
  split
  · exact renderer.readAndRender_follows alike below text
  · exact .of_silent rfl

/-- The second context has the budget of the first, or more of it if the budgets may differ. -/
structure Covers (level : Prop) (first second : Context) : Prop extends first.Alike second where
  enough : first.budget ≤ second.budget
  even : level → first.budget = second.budget

theorem Covers.descend (covers : Covers level first second) :
    Covers level first.descend second.descend := by
  have enough := covers.enough
  refine ⟨⟨covers.params, covers.source⟩, ?_, fun settled => ?_⟩
  · rw [Context.budget_descend, Context.budget_descend]
    omega
  · rw [Context.budget_descend, Context.budget_descend, covers.even settled]

theorem Covers.deeper_follows (renderer : Renderer) (covers : Covers level first second)
    (expands : 0 < first.budget → ∀ text, (renderer.expand first.descend text).Follows level
      first.descend second.descend (renderer.expand second.descend text)) :
    (renderer.deeper first).Follows level first second (renderer.deeper second) := by
  -- The first context may have come to its end, and then the second need not have.
  have enough := covers.enough
  by_cases spent : first.budget = 0
  · rw [deeper_of_spent renderer spent]
    by_cases ended : second.budget = 0
    · rw [deeper_of_spent renderer ended]
      exact .spent
    · rw [deeper_of_budget renderer (Nat.pos_of_ne_zero ended)]
      exact .ahead fun settled => ended (covers.even settled ▸ spent)
  · have left := Nat.pos_of_ne_zero spent
    rw [deeper_of_budget renderer left, deeper_of_budget renderer (Nat.lt_of_lt_of_le left enough)]
    exact .below fun text => (expands left text).ascend

theorem expand_follows (renderer : Renderer) (covers : Covers level first second) (text : String) :
    (renderer.expand first text).Follows level first second (renderer.expand second text) := by
  induction first using Context.budget_induction generalizing second text with
  | step first below =>
      have deeper := covers.deeper_follows renderer fun left => below left covers.descend
      exact renderer.expandWith_follows covers.toAlike deeper text

theorem deeper_follows (renderer : Renderer) (covers : Covers level first second) :
    (renderer.deeper first).Follows level first second (renderer.deeper second) :=
  covers.deeper_follows renderer fun _ => renderer.expand_follows covers.descend

/-- What a run depends on of the depth and the limit of its context: the budget, and not even that
once the budget suffices. -/
structure RuledByBudget (run : Context → Noted String) : Prop where
  level : ∀ (context : Context) (depth maxDepth : Nat),
    context.budget = maxDepth - depth →
      (run context).Alike context { context with depth := depth, maxDepth := maxDepth }
        (run { context with depth := depth, maxDepth := maxDepth })
  enough : ∀ (context : Context) (depth maxDepth : Nat),
    context.budget ≤ maxDepth - depth → (run context).Complete →
      (run context).Alike context { context with depth := depth, maxDepth := maxDepth }
        (run { context with depth := depth, maxDepth := maxDepth })

theorem RuledByBudget.of_follows {run : Context → Noted String}
    (follows : ∀ (level : Prop) (first second : Context), Covers level first second →
      (run first).Follows level first second (run second)) : RuledByBudget run := by
  constructor
  · intro context depth maxDepth same
    have covers : Covers True context { context with depth := depth, maxDepth := maxDepth } :=
      ⟨⟨rfl, rfl⟩, Nat.le_of_eq same, fun _ => same⟩
    exact follows True _ _ covers (.inl trivial)
  · intro context depth maxDepth enough complete
    have covers : Covers False context { context with depth := depth, maxDepth := maxDepth } :=
      ⟨⟨rfl, rfl⟩, enough, False.elim⟩
    exact follows False _ _ covers (.inr complete)

/-- Rendering depends on the budget of its context only, however the phrases of the lexicon refer to
each other, and stops depending on it once no limit is met. -/
theorem ruledByBudget (renderer : Renderer) (text : String) (template : Template) :
    RuledByBudget (fun context => renderer.render context text) ∧
      RuledByBudget (fun context => renderer.evaluate context template) ∧
      RuledByBudget (fun context => renderer.expand context text) := by
  refine ⟨.of_follows ?_, .of_follows ?_, .of_follows ?_⟩
  · intro level first second covers
    exact renderer.readAndRender_follows covers.toAlike (renderer.deeper_follows covers) text
  · intro level first second covers
    exact renderer.renderTemplate_follows covers.toAlike (renderer.deeper_follows covers) template
  · intro level first second covers
    exact renderer.expand_follows covers text

example :
    let circling : Lexicon := ⟨.ofList [(⟨["A"]⟩, .new "a $B$"), (⟨["B"]⟩, .new "b $A$")]⟩
    let renderer : Renderer := ⟨circling, .defaults, .none, .legacy⟩
    let shallow := renderer.render ⟨0, 2, .empty, .silent⟩ "$A$"
    let deep := renderer.render ⟨3, 5, .empty, .silent⟩ "$A$"
    shallow.value = "a b a $B$" ∧ deep.value = shallow.value ∧
      shallow.diagnostics.map (·.depth) = [2] ∧ deep.diagnostics.map (·.depth) = [5] := by
  decide +kernel

end Renderer

end Phrasebook
