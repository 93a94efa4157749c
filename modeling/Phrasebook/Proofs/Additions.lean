import Phrasebook.Proofs.Loads
import Phrasebook.Render.Renderer

/-!
What is added without being asked for. A rendering that finds every key and every variable it asks
for goes on in the same way, word for word, when more keys are stored and more parameters are
given: what fails to be found leaves a diagnostic that nothing takes back.
-/

namespace Phrasebook

/-- No key and no variable that was asked for was missing. -/
def Noted.Answered {α : Type} (noted : Noted α) : Prop :=
  ∀ diagnostic ∈ noted.diagnostics,
    diagnostic.kind ≠ .keyNotFound ∧ diagnostic.kind ≠ .variableResolution

instance {α : Type} (noted : Noted α) : Decidable noted.Answered :=
  inferInstanceAs (Decidable (∀ diagnostic ∈ noted.diagnostics,
    diagnostic.kind ≠ .keyNotFound ∧ diagnostic.kind ≠ .variableResolution))

/-- The second outcome is the first one, if all was answered there. This is the invariant of two
renderings side by side. -/
def Noted.Persists {α : Type} (left right : Noted α) : Prop := left.Answered → left = right

def Noted.Resolved (noted : Noted (Except FormulaFault Value)) : Prop :=
  ∀ fault, noted.value = .error fault → fault.kind ≠ .variableResolution

/-- The same of answers. That a variable is missing stands in the answer before it is reported. -/
def Noted.Settles (left right : Noted (Except FormulaFault Value)) : Prop :=
  left.Answered → left.Resolved → left = right

/-- The texts of the first lexicon are those of the second, which may have more of them. -/
def Lexicon.Grows (lexicon grown : Lexicon) : Prop :=
  ∀ key text, lexicon.text? key = some text → grown.text? key = some text

def Params.Grows (params grown : Params) : Prop :=
  ∀ name value, params.get? name = some value → grown.get? name = some value

def Lexicon.insertAll (lexicon : Lexicon) (added : List (Key × String)) : Lexicon :=
  added.foldl (fun grown pair => (grown.insert pair.1 pair.2).2) lexicon

def Params.insertAll (params : Params) (added : List (String × Value)) : Params :=
  added.foldl (fun grown pair => grown.insert pair.1 pair.2) params

def Context.withParams (context : Context) (params : Params) : Context :=
  { context with params := params }

def Renderer.withLexicon (renderer : Renderer) (lexicon : Lexicon) : Renderer :=
  { renderer with lexicon := lexicon }

theorem Lexicon.Holds.text?_insertAll {lexicon : Lexicon} {texts : TextMap}
    (holds : lexicon.Holds texts) {added : List (Key × String)} {key : Key}
    (other : key ∉ added.map Prod.fst) :
    (lexicon.insertAll added).text? key = lexicon.text? key := by
  induction added generalizing lexicon texts with
  | nil => rfl
  | cons pair later ih =>
      simp only [List.map_cons, List.mem_cons, not_or] at other
      have held := (holds.insert pair.1 pair.2).2
      have kept : (lexicon.insert pair.1 pair.2).2.text? key = lexicon.text? key := by
        rw [held.text, holds.text, Finmap.lookup_insert_of_ne _ other.1]
      exact (ih held other.2).trans kept

theorem Lexicon.Holds.grows_insertAll {lexicon : Lexicon} {texts : TextMap}
    (holds : lexicon.Holds texts) {added : List (Key × String)}
    (absent : ∀ pair ∈ added, lexicon.text? pair.1 = none) :
    lexicon.Grows (lexicon.insertAll added) := by
  intro key text found
  rw [holds.text?_insertAll, found]
  intro member
  obtain ⟨pair, listed, rfl⟩ := List.mem_map.mp member
  cases found.symm.trans (absent pair listed)

theorem Params.get?_insertAll (params : Params) {added : List (String × Value)} {name : String}
    (other : name ∉ added.map Prod.fst) :
    (params.insertAll added).get? name = params.get? name := by
  induction added generalizing params with
  | nil => rfl
  | cons pair later ih =>
      simp only [List.map_cons, List.mem_cons, not_or] at other
      exact (ih _ other.2).trans (params.get?_insert_of_ne pair.2 other.1)

theorem Params.grows_insertAll {params : Params} {added : List (String × Value)}
    (absent : ∀ pair ∈ added, params.get? pair.1 = none) :
    params.Grows (params.insertAll added) := by
  intro name value found
  rw [params.get?_insertAll, found]
  intro member
  obtain ⟨pair, listed, rfl⟩ := List.mem_map.mp member
  cases found.symm.trans (absent pair listed)

namespace Noted

variable {α β : Type}

theorem Answered.left {first : Noted α} {next : α → Noted β}
    (answered : (first >>= next).Answered) : first.Answered :=
  fun diagnostic member => answered diagnostic (List.mem_append_left _ member)

theorem Answered.right {first : Noted α} {next : α → Noted β}
    (answered : (first >>= next).Answered) : (next first.value).Answered :=
  fun diagnostic member => answered diagnostic (List.mem_append_right _ member)

namespace Persists

theorem refl (noted : Noted α) : noted.Persists noted := fun _ => rfl

theorem bind {left right : Noted α} {next other : α → Noted β} (start : left.Persists right)
    (rest : ∀ value, (next value).Persists (other value)) :
    (left >>= next).Persists (right >>= other) := by
  intro answered
  rw [← start answered.left]
  exact bind_congr (rest left.value answered.right)

theorem renting {left right : Noted α} (shelf : Shelf) (inner : left.Persists right) :
    (Noted.renting shelf left).Persists (Noted.renting shelf right) := by
  intro answered
  rw [inner answered]

end Persists

theorem Persists.settles {left right : Noted (Except FormulaFault Value)}
    (persists : left.Persists right) : left.Settles right :=
  fun answered _ => persists answered

theorem Settles.refl (noted : Noted (Except FormulaFault Value)) : noted.Settles noted :=
  (Persists.refl noted).settles

theorem Settles.bind {left right : Noted (Except FormulaFault Value)}
    {next other : Except FormulaFault Value → Noted (Except FormulaFault Value)}
    (start : left.Settles right) (passed : ∀ fault, (next (.error fault)).value = .error fault)
    (rest : ∀ result, (next result).Settles (other result)) :
    (left >>= next).Settles (right >>= other) := by
  -- A fault of the first computation is that of the whole.
  intro answered resolved
  have first : left.Resolved := fun fault found => resolved fault (by
    rw [value_bind, found, passed])
  rw [← start answered.left first]
  exact bind_congr (rest left.value answered.right resolved)

end Noted

theorem Formula.evaluate_settles (mode : SubtractionMode)
    {left right : Variable → Noted (Except FormulaFault Value)}
    (answers : ∀ var, (left var).Settles (right var)) (formula : Formula) :
    (formula.evaluate mode left).Settles (formula.evaluate mode right) := by
  induction formula with
  | number value => exact .refl _
  | var asked => exact answers asked
  | binary op lhs rhs ihLhs ihRhs =>
      refine .bind ihLhs (fun _ => rfl) fun result => ?_
      split
      · exact .refl _
      · exact .bind ihRhs (fun _ => rfl) fun _ => .refl _

inductive Deeper.Persists : Deeper → Deeper → Prop
  | spent : Persists none none
  | below {left right : String → Noted String}
      (persists : ∀ text, (left text).Persists (right text)) : Persists (some left) (some right)

namespace Renderer

/-- The lexicon and the parameters have more to offer than those of the rendering, which asks no
source. -/
structure Extends (renderer : Renderer) (context : Context) (lexicon : Lexicon) (params : Params) :
    Prop where
  unsourced : context.source = Source.silent
  stored : renderer.lexicon.Grows lexicon
  given : context.params.Grows params

variable {renderer : Renderer} {context : Context} {lexicon : Lexicon} {params : Params}
  {deeper other : Deeper}

theorem resolve_settles (more : renderer.Extends context lexicon params)
    (below : deeper.Persists other) (var : Variable) :
    (resolve context deeper var).Settles (resolve (context.withParams params) other var) := by
  cases found : context.params.get? var.name with
  | none =>
      -- Without a source the variable is missing, and that is the answer.
      have missing : context.lookup var = .error (.unresolved var.name) := by
        simp [Context.lookup, found, more.unsourced, Source.silent]
      intro _ resolved
      exact absurd rfl (resolved (.unresolved var.name) (by simp [resolve, missing]))
  | some value =>
      have known : context.lookup var = .ok value := by simp [Context.lookup, found]
      have still : (context.withParams params).lookup var = .ok value := by
        simp [Context.lookup, Context.withParams, more.given _ _ found]
      refine Noted.Persists.settles ?_
      unfold resolve
      rw [known, still]
      split
      · exact .refl _
      · split
        · cases below with
          | spent => exact .refl _
          | below persists => exact .bind (.renting .texts (persists _)) fun _ => .refl _
        · exact .refl _
      · exact .refl _

theorem slotValue_settles (more : renderer.Extends context lexicon params)
    (below : deeper.Persists other) (formula : String) :
    (renderer.slotValue context deeper formula).Settles
      ((renderer.withLexicon lexicon).slotValue (context.withParams params) other formula) := by
  unfold slotValue
  split
  · exact resolve_settles more below _
  · split
    · exact .refl _
    · exact Formula.evaluate_settles _ (resolve_settles more below) _

theorem renderSlot_persists (more : renderer.Extends context lexicon params)
    (below : deeper.Persists other) (span : Span) (raw formula : String) (format : Option String) :
    (renderer.renderSlot context deeper span raw formula format).Persists
      ((renderer.withLexicon lexicon).renderSlot (context.withParams params) other span raw formula
        format) := by
  -- A slot with a variable that is missing reports it, so where all was answered none was.
  intro answered
  have resolved : (renderer.slotValue context deeper formula).Resolved := by
    intro fault found kind
    have reported := Noted.Answered.right answered
    rw [found] at reported
    exact (reported _ List.mem_cons_self).2 kind
  have same := slotValue_settles more below formula (Noted.Answered.left answered) resolved
  unfold renderSlot
  rw [← same]
  rfl

theorem renderReference_persists (more : renderer.Extends context lexicon params)
    (below : deeper.Persists other) (span : Span) (tooltip : Bool) (name : String) :
    (renderer.renderReference context deeper span tooltip name).Persists
      ((renderer.withLexicon lexicon).renderReference (context.withParams params) other span
        tooltip name) := by
  unfold renderReference
  split
  · exact .refl _
  · rename_i key parsed
    cases found : renderer.lexicon.text? key with
    | none =>
        intro answered
        exact absurd rfl (answered _ List.mem_cons_self).1
    | some text =>
        have still : (renderer.withLexicon lexicon).lexicon.text? key = some text :=
          more.stored key text found
        rw [still]
        cases below with
        | spent => exact .refl _
        | below persists => exact .bind (.renting .texts (persists text)) fun _ => .refl _

theorem renderLeaf_persists (more : renderer.Extends context lexicon params)
    (below : deeper.Persists other) (start : Nat) (piece : Leaf) :
    (renderer.renderLeaf context deeper start piece).Persists
      ((renderer.withLexicon lexicon).renderLeaf (context.withParams params) other start
        piece) := by
  cases piece with
  | text raw content => exact .refl _
  | reference tooltip name => exact renderReference_persists more below _ tooltip name
  | slot formula format => exact renderSlot_persists more below _ _ formula format

theorem renderTemplate_persists (more : renderer.Extends context lexicon params)
    (below : deeper.Persists other) (template : Template) :
    (renderer.renderTemplate context deeper template).Persists
      ((renderer.withLexicon lexicon).renderTemplate (context.withParams params) other
        template) := by
  refine .bind (.refl _) fun _ => ?_
  split
  · exact .refl _
  · have leaves := renderLeaf_persists more below
    exact renderPhrase_related (fun noted _ => .refl noted) .bind leaves _

theorem readAndRender_persists (more : renderer.Extends context lexicon params)
    (below : deeper.Persists other) (text : String) :
    (renderer.readAndRender context deeper text).Persists
      ((renderer.withLexicon lexicon).readAndRender (context.withParams params) other text) :=
  .renting .trees (.bind (.refl _) fun _ => renderTemplate_persists more below _)

theorem expandWith_persists (more : renderer.Extends context lexicon params)
    (below : deeper.Persists other) (text : String) :
    (renderer.expandWith context deeper text).Persists
      ((renderer.withLexicon lexicon).expandWith (context.withParams params) other text) := by
  unfold expandWith
  split
  · exact readAndRender_persists more below text
  · exact .refl _

theorem Extends.descend (more : renderer.Extends context lexicon params) :
    renderer.Extends context.descend lexicon params :=
  ⟨more.unsourced, more.stored, more.given⟩

theorem deeper_persists_of (renderer : Renderer) (context : Context) (lexicon : Lexicon)
    (params : Params)
    (expands : 0 < context.budget → ∀ text, (renderer.expand context.descend text).Persists
      ((renderer.withLexicon lexicon).expand (context.descend.withParams params) text)) :
    (renderer.deeper context).Persists
      ((renderer.withLexicon lexicon).deeper (context.withParams params)) := by
  have even : (context.withParams params).budget = context.budget := rfl
  by_cases spent : context.budget = 0
  · rw [deeper_of_spent _ spent, deeper_of_spent _ (even.trans spent)]
    exact .spent
  · have left := Nat.pos_of_ne_zero spent
    rw [deeper_of_budget _ left, deeper_of_budget _ (even ▸ left)]
    exact .below (expands left)

theorem expand_persists (more : renderer.Extends context lexicon params) (text : String) :
    (renderer.expand context text).Persists
      ((renderer.withLexicon lexicon).expand (context.withParams params) text) := by
  induction context using Context.budget_induction generalizing text with
  | step context below =>
      have deeper := renderer.deeper_persists_of context lexicon params fun left =>
        below left more.descend
      exact expandWith_persists more deeper text

theorem deeper_persists (more : renderer.Extends context lexicon params) :
    (renderer.deeper context).Persists
      ((renderer.withLexicon lexicon).deeper (context.withParams params)) :=
  renderer.deeper_persists_of context lexicon params fun _ => expand_persists more.descend

/-- Keys that were absent and parameters that were not given make no difference to a rendering that
has not asked for any such: text, diagnostics and traffic stay what they are. -/
theorem additions_unnoticed (renderer : Renderer) (context : Context)
    (requests : List LexiconRequest) (stored : renderer.lexicon = (Lexicon.history requests).2)
    (unsourced : context.source = Source.silent) (keys : List (Key × String))
    (absent : ∀ pair ∈ keys, renderer.lexicon.text? pair.1 = none)
    (names : List (String × Value)) (ungiven : ∀ pair ∈ names, context.params.get? pair.1 = none)
    (text : String) (template : Template) :
    let grown := renderer.withLexicon (renderer.lexicon.insertAll keys)
    let extended := context.withParams (context.params.insertAll names)
    ((renderer.render context text).Answered →
        grown.render extended text = renderer.render context text) ∧
      ((renderer.evaluate context template).Answered →
        grown.evaluate extended template = renderer.evaluate context template) ∧
      ((renderer.expand context text).Answered →
        grown.expand extended text = renderer.expand context text) := by
  have holds : renderer.lexicon.Holds (TextMap.history requests).2 :=
    stored ▸ (Lexicon.Holds.empty.serve requests).2
  have more : renderer.Extends context (renderer.lexicon.insertAll keys)
      (context.params.insertAll names) :=
    ⟨unsourced, holds.grows_insertAll absent, Params.grows_insertAll ungiven⟩
  have below := deeper_persists more
  refine ⟨fun answered => ?_, fun answered => ?_, fun answered => ?_⟩
  · exact (readAndRender_persists more below text answered).symm
  · exact (renderTemplate_persists more below template answered).symm
  · exact (expand_persists more text answered).symm

def innRequests : List LexiconRequest :=
  [.load [("Hall", "\x7bguest\x7d's $Inn$"), ("Inn", "§Rinn§"), ("Cellar", "")],
    .get ⟨["Inn"]⟩, .remove ⟨["Cellar"]⟩]

def inn : Renderer := ⟨(Lexicon.history innRequests).2, .defaults, .usual, .legacy⟩

/-- The budget ends within the hall, and the guest cannot be subtracted from. -/
def visit : Context := ⟨0, 1, .ofList [("guest", .text "Ada"), ("n", .integer 3)], .silent⟩

theorem additions_unnoticed_inn :
    let text := "$Hall$ \x7bguest - n\x7d \x7b"
    let grown := inn.withLexicon
      (inn.lexicon.insertAll [(⟨["Inn", "Door"]⟩, "oak"), (⟨["Cellar"]⟩, "$Inn$")])
    let extended := visit.withParams (visit.params.insertAll [("host", .text "Bo")])
    (inn.render visit text).diagnostics.map (·.kind) =
        [.tokenizationError, .recursionDepth, .evaluationError] ∧
      grown.render extended text = inn.render visit text := by
  refine ⟨by decide +kernel, ?_⟩
  exact (additions_unnoticed inn visit innRequests rfl rfl _ (by decide +kernel) _
    (by decide +kernel) _ (Template.read "")).1 (by decide +kernel)

-- What was missing in the first place is noticed when it is added.
example :
    let grown := inn.withLexicon (inn.lexicon.insertAll [(⟨["Cellar"]⟩, "cold")])
    (inn.render visit "$Cellar$").value = "Cellar" ∧
      (grown.render visit "$Cellar$").value = "cold" := by
  decide +kernel

end Renderer

end Phrasebook
