import Phrasebook.Command.Check
import Phrasebook.Proofs.Places

/-!
Where the diagnostics of a rendering point. One flat list holds what was found in a template and
what was found in the phrases that were expanded for it; only the depth tells them apart. Those that
have the depth of the context and a span are the marks of the template. Every mark quotes what it is
about, the issues come first, and neither issues nor other marks go back in the template.
-/

namespace Phrasebook

open Text

/-- The depths that a rendering in the context may come to. -/
def Context.Reaches (context : Context) (depth : Nat) : Prop :=
  context.depth ≤ depth ∧ depth ≤ max context.depth context.maxDepth

namespace Diagnostic

/-- The text that the diagnostic is about: an opening, a reference with or without a tooltip sign,
or a slot. -/
def Quotes (diagnostic : Diagnostic) (part : List Char) : Prop :=
  match diagnostic.kind with
  | .tokenizationError =>
      part = diagnostic.context.toList ∧ (part = ['{'] ∨ part = [colorMark])
  | .keyNotFound | .recursionDepth =>
      part = '$' :: diagnostic.context.toList ++ ['$'] ∨
        part = '$' :: '@' :: diagnostic.context.toList ++ ['$']
  | .parseError | .variableResolution | .evaluationError | .unexpectedError =>
      part = diagnostic.context.toList ∧ ∃ inner, part = '{' :: inner ++ ['}']

def PointsInto (template : List Char) (diagnostic : Diagnostic) : Prop :=
  ∃ span part, diagnostic.span = some span ∧ part ≠ [] ∧ StandsAt template span.start part ∧
    span.stop = span.start + byteLength part ∧ diagnostic.Quotes part

def StartsBefore (first second : Diagnostic) : Prop :=
  ∀ span ∈ first.span, ∀ later ∈ second.span, span.start < later.start

theorem Quotes.filled {diagnostic : Diagnostic} {part : List Char}
    (quotes : diagnostic.Quotes part) : part ≠ [] := by
  rintro rfl
  unfold Quotes at quotes
  split at quotes <;> simp at quotes

theorem PointsInto.inside {template : List Char} {diagnostic : Diagnostic} {span : Span}
    (points : diagnostic.PointsInto template) (spanned : diagnostic.span = some span) :
    span.start < span.stop ∧ span.stop ≤ byteLength template := by
  obtain ⟨span, part, same, filled, ⟨before, after, whole, place⟩, stop, _⟩ := points
  cases spanned.symm.trans same
  have positive := byteLength_pos filled
  rw [whole, byteLength_append, byteLength_append]
  omega

end Diagnostic

namespace Noted

variable {α β : Type}

def marks (context : Context) (noted : Noted α) : List Diagnostic :=
  noted.diagnostics.filter fun diagnostic =>
    diagnostic.depth = context.depth && diagnostic.span.isSome

/-- What a rendering tells of its template. The issues are those of the template, all of them. -/
structure Accurate (context : Context) (template : String) (noted : Noted α) : Prop where
  depths : ∀ diagnostic ∈ noted.diagnostics, context.Reaches diagnostic.depth
  points : ∀ mark ∈ noted.marks context, mark.PointsInto template.toList
  issues : (noted.marks context).filter (fun mark => mark.kind = .tokenizationError) =
    (Template.read template).issues.map (Renderer.issueDiagnostic context)
  ordered : ∃ issues others, noted.marks context = issues ++ others ∧
    (∀ mark ∈ issues, mark.kind = .tokenizationError) ∧
    (∀ mark ∈ others, mark.kind ≠ .tokenizationError) ∧
    issues.Pairwise Diagnostic.StartsBefore ∧ others.Pairwise Diagnostic.StartsBefore

def Quiet (context : Context) (noted : Noted α) : Prop :=
  ∀ diagnostic ∈ noted.diagnostics, context.Reaches diagnostic.depth ∧
    (diagnostic.depth = context.depth → diagnostic.span = none)

/-- A part of a rendering whose marks stand in the template from `first` up to `last`, one behind
the other. This is the invariant of the rendering of a phrase. -/
structure Advances (context : Context) (template : List Char) (first last : Nat)
    (noted : Noted α) : Prop where
  depths : ∀ diagnostic ∈ noted.diagnostics, context.Reaches diagnostic.depth
  points : ∀ mark ∈ noted.marks context,
    mark.PointsInto template ∧ mark.kind ≠ .tokenizationError
  spread : Spread first ((noted.marks context).filterMap Diagnostic.span) last

theorem marks_bind (context : Context) (noted : Noted α) (next : α → Noted β) :
    (noted >>= next).marks context = noted.marks context ++ (next noted.value).marks context :=
  List.filter_append ..

end Noted

theorem Context.reaches_depth (context : Context) : context.Reaches context.depth :=
  ⟨Nat.le_refl _, Nat.le_max_left ..⟩

theorem Context.reaches_of_descend {context : Context} {depth : Nat} (left : 0 < context.budget)
    (reaches : context.descend.Reaches depth) : context.Reaches depth ∧ depth ≠ context.depth := by
  simp only [Context.Reaches, Context.descend, Context.budget] at *
  omega

variable {context : Context} {template : List Char} {first middle last : Nat} {α β : Type}

namespace Noted.Quiet

theorem of_silent {noted : Noted α} (silent : noted.diagnostics = []) : noted.Quiet context := by
  simp [Quiet, silent]

theorem report {diagnostic : Diagnostic} (here : diagnostic.depth = context.depth)
    (nowhere : diagnostic.span = none) : (Noted.report diagnostic).Quiet context :=
  List.forall_mem_singleton.mpr ⟨here ▸ context.reaches_depth, fun _ => nowhere⟩

theorem bind {noted : Noted α} {next : α → Noted β} (start : noted.Quiet context)
    (rest : ∀ value, (next value).Quiet context) : (noted >>= next).Quiet context :=
  List.forall_mem_append.mpr ⟨start, rest noted.value⟩

theorem renting {noted : Noted α} (quiet : noted.Quiet context) (shelf : Shelf) :
    (Noted.renting shelf noted).Quiet context := quiet

theorem marks_eq_nil {noted : Noted α} (quiet : noted.Quiet context) :
    noted.marks context = [] := by
  refine List.filter_eq_nil_iff.mpr fun diagnostic member => ?_
  simp only [Bool.and_eq_true, decide_eq_true_eq, not_and]
  intro here
  simp [(quiet diagnostic member).2 here]

end Noted.Quiet

namespace Noted.Advances

theorem of_quiet {noted : Noted α} (quiet : noted.Quiet context) (room : first ≤ last) :
    noted.Advances context template first last := by
  refine ⟨fun diagnostic member => (quiet diagnostic member).1, ?_, ?_⟩
  · simp [quiet.marks_eq_nil]
  · rw [quiet.marks_eq_nil]
    exact .nil room

theorem emit (text : String) (place : Nat) :
    (Noted.emit text).Advances context template place place :=
  of_quiet (.of_silent rfl) (Nat.le_refl place)

theorem report {diagnostic : Diagnostic} {span : Span} (here : diagnostic.depth = context.depth)
    (spanned : diagnostic.span = some span) (points : diagnostic.PointsInto template)
    (other : diagnostic.kind ≠ .tokenizationError) :
    (Noted.report diagnostic).Advances context template span.start span.stop := by
  have marks : (Noted.report diagnostic).marks context = [diagnostic] := by
    simp [marks, Noted.report, here, spanned]
  refine ⟨List.forall_mem_singleton.mpr (here ▸ context.reaches_depth), ?_, ?_⟩
  · rw [marks]
    exact List.forall_mem_singleton.mpr ⟨points, other⟩
  · rw [marks, List.filterMap_cons_some spanned]
    exact .single (points.inside spanned).1

theorem bind {noted : Noted α} {next : α → Noted β}
    (start : noted.Advances context template first middle)
    (rest : ∀ value, (next value).Advances context template middle last) :
    (noted >>= next).Advances context template first last := by
  have ended := rest noted.value
  refine ⟨List.forall_mem_append.mpr ⟨start.depths, ended.depths⟩, ?_, ?_⟩
  · rw [marks_bind]
    exact List.forall_mem_append.mpr ⟨start.points, ended.points⟩
  · rw [marks_bind, List.filterMap_append]
    exact start.spread.append ended.spread

theorem between {noted : Noted α} (advances : noted.Advances context template middle last)
    {behind : Nat} (before : first ≤ middle) (after : last ≤ behind) :
    noted.Advances context template first behind :=
  ⟨advances.depths, advances.points, (advances.spread.from_before before).up_to after⟩

end Noted.Advances

theorem Noted.Accurate.of_silent {source : String} {noted : Noted α}
    (silent : noted.diagnostics = []) (proper : (Template.read source).issues = []) :
    noted.Accurate context source := by
  have bare : noted.marks context = [] := by simp [marks, silent]
  refine ⟨?_, ?_, ?_, [], [], bare, List.forall_mem_nil _, List.forall_mem_nil _, .nil, .nil⟩
  · simp [silent]
  · simp [bare]
  · simp [bare, proper]

def Deeper.Quiet (context : Context) (deeper : Deeper) : Prop :=
  ∀ expand ∈ deeper, ∀ text, (expand text).Quiet context

namespace Renderer

variable {deeper : Deeper}

theorem resolve_quiet (below : deeper.Quiet context) (var : Variable) :
    (resolve context deeper var).Quiet context := by
  unfold resolve
  split
  · exact .of_silent rfl
  · split
    · split
      · exact .bind (.report rfl rfl) fun _ => .of_silent rfl
      · exact .bind (.renting (below _ rfl _) .texts) fun _ => .of_silent rfl
    · exact .of_silent rfl
  · exact .of_silent rfl

theorem slotValue_quiet (renderer : Renderer) (below : deeper.Quiet context) (formula : String) :
    (renderer.slotValue context deeper formula).Quiet context := by
  unfold slotValue
  split
  · exact resolve_quiet below _
  · split
    · exact .of_silent rfl
    · refine @Formula.evaluate_related Noted Noted _ _ (fun left _ => left.Quiet context) _ _
        (resolve context deeper) ?_ ?_ (resolve_quiet below) _
      · exact fun _ => .of_silent rfl
      · exact .bind

theorem advances_leaf {diagnostic : Diagnostic} {start : Nat} {piece : Leaf}
    (stands : StandsAt template start piece.raw.toList) (here : diagnostic.depth = context.depth)
    (spanned : diagnostic.span = some ⟨start, start + piece.raw.utf8ByteSize⟩)
    (quotes : diagnostic.Quotes piece.raw.toList) (other : diagnostic.kind ≠ .tokenizationError) :
    (Noted.report diagnostic).Advances context template start
      (start + piece.raw.utf8ByteSize) := by
  have points : diagnostic.PointsInto template :=
    ⟨_, piece.raw.toList, spanned, quotes.filled, stands, by rw [utf8ByteSize_eq], quotes⟩
  exact .report here spanned points other

theorem advances_reference {diagnostic : Diagnostic} {start : Nat} {tooltip : Bool} {name : String}
    (stands : StandsAt template start (Leaf.reference tooltip name).raw.toList)
    (kind : diagnostic.kind = .keyNotFound ∨ diagnostic.kind = .recursionDepth)
    (about : diagnostic.context = name) (here : diagnostic.depth = context.depth)
    (spanned : diagnostic.span =
      some ⟨start, start + (Leaf.reference tooltip name).raw.utf8ByteSize⟩) :
    (Noted.report diagnostic).Advances context template start
      (start + (Leaf.reference tooltip name).raw.utf8ByteSize) := by
  have written : (Leaf.reference tooltip name).raw.toList = '$' :: name.toList ++ ['$'] ∨
      (Leaf.reference tooltip name).raw.toList = '$' :: '@' :: name.toList ++ ['$'] := by
    cases tooltip <;> simp [Leaf.raw]
  subst about
  have quotes : diagnostic.Quotes (Leaf.reference tooltip diagnostic.context).raw.toList := by
    unfold Diagnostic.Quotes
    obtain same | same := kind <;> simpa only [same] using written
  have other : diagnostic.kind ≠ .tokenizationError := by
    obtain same | same := kind <;> simp [same]
  exact advances_leaf stands here spanned quotes other

theorem quotes_slot (fault : FormulaFault) (formula message : String) (format : Option String)
    (cause : Option String) (span : Option Span) (depth : Nat) :
    (Diagnostic.new fault.kind (Leaf.slot formula format).raw message cause span depth).Quotes
      (Leaf.slot formula format).raw.toList := by
  have written : ∃ inner, (Leaf.slot formula format).raw.toList = '{' :: inner ++ ['}'] := by
    cases format with
    | none => exact ⟨formula.toList, by simp [Leaf.raw]⟩
    | some spec => exact ⟨formula.toList ++ ':' :: spec.toList, by simp [Leaf.raw]⟩
  cases fault <;> exact ⟨rfl, written⟩

theorem renderReference_advances (renderer : Renderer) (below : deeper.Quiet context) {start : Nat}
    {tooltip : Bool} {name : String}
    (stands : StandsAt template start (Leaf.reference tooltip name).raw.toList) :
    (renderer.renderReference context deeper
      ⟨start, start + (Leaf.reference tooltip name).raw.utf8ByteSize⟩ tooltip name).Advances context
      template start (start + (Leaf.reference tooltip name).raw.utf8ByteSize) := by
  unfold renderReference
  split
  · refine .bind ?_ fun _ => .emit _ _
    exact advances_reference stands (.inl rfl) rfl rfl rfl
  · split
    · refine .bind ?_ fun _ => .emit _ _
      exact advances_reference stands (.inl rfl) rfl rfl rfl
    · split
      · refine .bind ?_ fun _ => .emit _ _
        exact advances_reference stands (.inr rfl) rfl rfl rfl
      · refine .of_quiet (.bind (.renting (below _ rfl _) .texts) fun inner => ?_)
          (Nat.le_add_right ..)
        exact .of_silent rfl

theorem renderSlot_advances (renderer : Renderer) (below : deeper.Quiet context) {start : Nat}
    {formula : String} {format : Option String}
    (stands : StandsAt template start (Leaf.slot formula format).raw.toList) :
    (renderer.renderSlot context deeper
      ⟨start, start + (Leaf.slot formula format).raw.utf8ByteSize⟩ (Leaf.slot formula format).raw
      formula format).Advances context template start
      (start + (Leaf.slot formula format).raw.utf8ByteSize) := by
  have quiet := renderer.slotValue_quiet below formula
  refine .bind (.of_quiet quiet (Nat.le_refl start)) fun value => ?_
  split
  · exact .of_quiet (.of_silent rfl) (Nat.le_add_right ..)
  · rename_i fault _
    have other : fault.kind ≠ .tokenizationError := by cases fault <;> nofun
    refine .bind ?_ fun _ => .emit _ _
    exact advances_leaf stands rfl rfl (quotes_slot fault formula _ format _ _ _) other

theorem renderLeaf_advances (renderer : Renderer) (below : deeper.Quiet context) {start : Nat}
    {piece : Leaf} (stands : StandsAt template start piece.raw.toList) :
    (renderer.renderLeaf context deeper start piece).Advances context template start
      (start + piece.raw.utf8ByteSize) := by
  cases piece with
  | text raw content => exact .of_quiet (.of_silent rfl) (Nat.le_add_right ..)
  | reference tooltip key => exact renderer.renderReference_advances below stands
  | slot formula format => exact renderer.renderSlot_advances below stands

theorem renderInside_advances {renderer : Renderer} {body : Phrase}
    (advances : (renderer.renderPhrase context deeper body).Advances context template first last)
    (inner : String) :
    (renderer.renderInside context deeper inner body).Advances context template first last := by
  cases body with
  | nil => exact ⟨advances.depths, advances.points, advances.spread⟩
  | leaf => exact advances
  | colored => exact advances

theorem laid_advances (renderer : Renderer) (below : deeper.Quiet context) {budget start : Nat}
    {text : List Char} {phrase : Phrase} (laid : Laid budget start text phrase)
    (inside : ∀ place inner, StandsAt template place inner →
      (renderer.renderPhrase context deeper (Reading.inside budget place inner).phrase).Advances
        context template place (place + byteLength inner))
    (stands : StandsAt template start text) :
    (renderer.renderPhrase context deeper phrase).Advances context template start
      (start + byteLength text) := by
  -- The pieces of a level are rendered in their order, and so are those inside of each stretch.
  induction laid with
  | nil start => exact .of_quiet (.of_silent rfl) (Nat.le_refl start)
  | @leaf start content later next _ _ _ _ ih =>
      rw [byteLength_append, ← Nat.add_assoc]
      have piece := renderer.renderLeaf_advances below stands.left
      rw [utf8ByteSize_eq] at piece
      refine piece.bind fun text => ?_
      refine (ih stands.right).bind fun rest => ?_
      exact .of_quiet (.of_silent rfl) (Nat.le_refl _)
  | @colored start code inner later next _ _ _ ih =>
      rw [byteLength_append, ← Nat.add_assoc, renderPhrase_colored]
      have body := renderInside_advances (inside _ inner stands.left.inside) (String.ofList inner)
      have before : start ≤ start + colorMark.utf8Size + code.written.utf8ByteSize := by omega
      refine .bind (.emit _ start) fun opening => ?_
      refine .bind (.emit _ start) fun color => ?_
      refine .bind (.emit _ start) fun opened => ?_
      refine (body.between before (Scanned.inside_le start code inner)).bind fun text => ?_
      refine .bind (.emit _ _) fun closing => ?_
      refine (ih stands.right).bind fun rest => ?_
      exact .of_quiet (.of_silent rfl) (Nat.le_refl _)

theorem renderPhrase_advances (renderer : Renderer) (below : deeper.Quiet context)
    (budget start : Nat) (text : List Char) (stands : StandsAt template start text) :
    (renderer.renderPhrase context deeper (Reading.within budget start text).phrase).Advances
      context template start (start + byteLength text) := by
  -- By induction on the number of stretches that may be open: each level below has one less.
  induction budget generalizing start text with
  | zero =>
      refine renderer.laid_advances below (laid_within 0 start text) (fun _ _ _ => ?_) stands
      exact .of_quiet (.of_silent rfl) (Nat.le_add_right ..)
  | succ budget ih =>
      exact renderer.laid_advances below (laid_within (budget + 1) start text) ih stands

theorem issueDiagnostic_points {issue : Issue}
    (stands : StandsAt template issue.start [issue.opening])
    (opens : issue.opening = '{' ∨ issue.opening = colorMark) :
    (issueDiagnostic context issue).PointsInto template := by
  have part : [issue.opening] = issue.opening.toString.toList := by simp
  have either : [issue.opening] = ['{'] ∨ [issue.opening] = [colorMark] :=
    opens.imp (congrArg List.singleton) (congrArg List.singleton)
  exact ⟨issue.span, [issue.opening], rfl, List.cons_ne_nil _ _, stands, rfl, part, either⟩

theorem marks_issues (issues : List Issue) :
    (Noted.reportAll (issues.map (issueDiagnostic context))).marks context =
      issues.map (issueDiagnostic context) := by
  refine List.filter_eq_self.mpr (List.forall_mem_map.mpr fun issue _ => ?_)
  simp [issueDiagnostic, Diagnostic.new]

theorem issues_ascend {issues : List Issue} (spread : Spread first (issues.map Issue.span) last) :
    (issues.map (issueDiagnostic context)).Pairwise Diagnostic.StartsBefore := by
  refine List.pairwise_map.mpr ((List.pairwise_map.mp spread.ascending).imp fun ascends => ?_)
  rintro span ⟨⟩ later ⟨⟩
  exact ascends

theorem openings_read (source : String) :
    Openings source.toList 0 (Template.read source).issues (0 + byteLength source.toList) :=
  openings_within maxColorNesting 0 source.toList (.whole source.toList)

theorem issues_of_plain {source : String} (plain : ¬ hasSpecial source) :
    (Template.read source).issues = [] := by
  refine List.eq_nil_iff_forall_not_mem.mpr fun issue member => plain ?_
  obtain ⟨before, after, whole, _⟩ := (openings_read source).stands issue member
  have special : isSpecial issue.opening := by
    obtain same | same := (openings_read source).opens issue member <;> simp [same, isSpecial]
  exact List.any_eq_true.mpr ⟨issue.opening, by simp [whole], special⟩

theorem accurate_of_parts {source : String} {rest : Noted α}
    (advances : rest.Advances context source.toList first last) :
    (Noted.reportAll ((Template.read source).issues.map (issueDiagnostic context)) >>=
      fun _ => rest).Accurate context source := by
  have openings := openings_read source
  generalize found : (Template.read source).issues = issues at openings ⊢
  have parts : (Noted.reportAll (issues.map (issueDiagnostic context)) >>= fun _ => rest).marks
      context = issues.map (issueDiagnostic context) ++ rest.marks context := by
    rw [Noted.marks_bind, marks_issues]
  have places : ∀ mark ∈ issues.map (issueDiagnostic context), mark.PointsInto source.toList :=
    List.forall_mem_map.mpr fun issue member =>
      issueDiagnostic_points (openings.stands issue member) (openings.opens issue member)
  have issued : ∀ mark ∈ issues.map (issueDiagnostic context), mark.kind = .tokenizationError :=
    List.forall_mem_map.mpr fun _ _ => rfl
  have others : ∀ mark ∈ rest.marks context, mark.kind ≠ .tokenizationError :=
    fun mark member => (advances.points mark member).2
  refine ⟨List.forall_mem_append.mpr ⟨?_, advances.depths⟩, ?_, ?_,
    issues.map (issueDiagnostic context), rest.marks context, parts, issued, others, ?_, ?_⟩
  · exact List.forall_mem_map.mpr fun _ _ => context.reaches_depth
  · rw [parts]
    exact List.forall_mem_append.mpr ⟨places, fun mark member => (advances.points mark member).1⟩
  · rw [parts, List.filter_append, found,
      List.filter_eq_self.mpr fun mark member => decide_eq_true (issued mark member),
      List.filter_eq_nil_iff.mpr fun mark member => by simp [others mark member],
      List.append_nil]
  · exact issues_ascend openings.spread
  · exact List.pairwise_filterMap.mp advances.spread.ascending

theorem renderTemplate_accurate (renderer : Renderer) (below : deeper.Quiet context)
    (source : String) :
    (renderer.renderTemplate context deeper (Template.read source)).Accurate context source := by
  refine @accurate_of_parts _ 0 (0 + byteLength source.toList) _ source _ ?_
  split
  · exact .of_quiet (.of_silent rfl) (Nat.le_add_right ..)
  · have whole := StandsAt.whole source.toList
    exact renderer.renderPhrase_advances below maxColorNesting 0 source.toList whole

theorem readAndRender_accurate (renderer : Renderer) (below : deeper.Quiet context)
    (text : String) : (renderer.readAndRender context deeper text).Accurate context text :=
  have accurate := renderer.renderTemplate_accurate below text
  ⟨accurate.depths, accurate.points, accurate.issues, accurate.ordered⟩

theorem expandWith_accurate (renderer : Renderer) (below : deeper.Quiet context) (text : String) :
    (renderer.expandWith context deeper text).Accurate context text := by
  unfold expandWith
  split
  · exact renderer.readAndRender_accurate below text
  · rename_i plain
    exact .of_silent rfl (issues_of_plain plain)

theorem deeper_quiet_of (renderer : Renderer)
    (expands : 0 < context.budget → ∀ text,
      (renderer.expand context.descend text).Accurate context.descend text) :
    (renderer.deeper context).Quiet context := by
  -- The phrases that are expanded in the context lie deeper, but not below its limit.
  intro expand found text diagnostic member
  obtain ⟨left, rfl⟩ := (renderer.mem_deeper_iff context expand).mp found
  obtain ⟨reaches, apart⟩ :=
    Context.reaches_of_descend left ((expands left text).depths diagnostic member)
  exact ⟨reaches, fun here => absurd here apart⟩

theorem expand_accurate (renderer : Renderer) (context : Context) (text : String) :
    (renderer.expand context text).Accurate context text := by
  induction context using Context.budget_induction generalizing text with
  | step context below =>
      exact renderer.expandWith_accurate (renderer.deeper_quiet_of below) text

theorem deeper_quiet (renderer : Renderer) (context : Context) :
    (renderer.deeper context).Quiet context :=
  renderer.deeper_quiet_of fun _ => renderer.expand_accurate context.descend

end Renderer

/-- A diagnostic of the template itself that has a span is shown with a label, and the label lies in
the template. -/
def LocatedDiagnostic.Labelled (template : String) (located : LocatedDiagnostic) : Prop :=
  located.diagnostic.depth = 0 → ∀ span ∈ located.diagnostic.span,
    located.diagnostic.PointsInto template.toList ∧
      located.label = some ⟨located.diagnostic.kind.name, span.start, span.length⟩ ∧
      span.start + span.length ≤ template.utf8ByteSize

theorem LocatedDiagnostic.labelled_of_points {template : String} {diagnostic : Diagnostic}
    (points : diagnostic.depth = 0 → diagnostic.span.isSome →
      diagnostic.PointsInto template.toList) :
    (LocatedDiagnostic.new template diagnostic).Labelled template := by
  intro here span spanned
  change diagnostic.depth = 0 at here
  change diagnostic.span = some span at spanned
  have placed := points here (by rw [spanned]; rfl)
  obtain ⟨filled, inside⟩ := placed.inside spanned
  rw [← utf8ByteSize_eq] at inside
  have long : max span.length 1 = span.length := by
    simp only [Span.length]
    omega
  refine ⟨placed, ?_, ?_⟩
  · simp [LocatedDiagnostic.new, label?, spanned, here, inside, long]
  · simp only [Span.length]
    omega

theorem Book.renderKey_points (book : Book) (context : Context) (key : Key) :
    ∀ mark ∈ (book.renderKeyNoted context key).marks context,
      mark.PointsInto ((book.lexicon.text? key).getD "").toList := by
  unfold renderKeyNoted
  cases book.lexicon.text? key with
  | none =>
      intro mark member
      obtain ⟨reported, own⟩ := List.mem_filter.mp member
      cases List.mem_singleton.mp reported
      simp [Diagnostic.new] at own
  | some template =>
      have below := book.renderer.deeper_quiet context
      exact (book.renderer.readAndRender_accurate below template).points

theorem Command.CheckRequest.labelled (request : CheckRequest) (lexicon : Lexicon) :
    ∀ finding ∈ request.findings lexicon, ∀ report ∈ finding.reports lexicon,
      report.Labelled (finding.template lexicon) := by
  intro finding found report reported
  obtain ⟨evaluated, _⟩ := List.mem_filter.mp found
  obtain ⟨key, _, rfl⟩ := List.mem_map.mp evaluated
  obtain ⟨diagnostic, member, rfl⟩ := List.mem_map.mp reported
  refine LocatedDiagnostic.labelled_of_points fun here spanned => ?_
  refine (request.book lexicon).renderKey_points (request.context lexicon) key diagnostic ?_
  have own : (diagnostic.depth = (request.context lexicon).depth && diagnostic.span.isSome) :=
    Bool.and_eq_true_iff.mpr ⟨decide_eq_true here, spanned⟩
  exact List.mem_filter.mpr ⟨member, own⟩

/-- Diagnostics point where they say: those of a rendering into its template, and those that a check
shows with a label into the phrase of their key. -/
theorem Renderer.diagnostics_accurate (renderer : Renderer) (context : Context) (text : String)
    (request : Command.CheckRequest) (lexicon : Lexicon) :
    (renderer.render context text).Accurate context text ∧
      (renderer.evaluate context (Template.read text)).Accurate context text ∧
      (renderer.expand context text).Accurate context text ∧
      ∀ finding ∈ request.findings lexicon, ∀ report ∈ finding.reports lexicon,
        report.Labelled (finding.template lexicon) := by
  have below := renderer.deeper_quiet context
  exact ⟨renderer.readAndRender_accurate below text, renderer.renderTemplate_accurate below text,
    renderer.expand_accurate context text, request.labelled lexicon⟩

example :
    let renderer : Renderer := ⟨.empty, .defaults, .none, .legacy⟩
    ((renderer.render (.new .empty) "\x7bname\x7d \x7b§W$key$§").marks (.new .empty)).map
        (fun mark => (mark.kind, mark.span)) =
      [(.tokenizationError, some ⟨7, 8⟩), (.variableResolution, some ⟨0, 6⟩),
        (.keyNotFound, some ⟨11, 16⟩)] := by
  decide +kernel

end Phrasebook
