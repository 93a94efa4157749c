import Phrasebook.Proofs.Markup
import Phrasebook.Proofs.Pointing

/-!
Templates side by side. A well-formed template is read the same whatever well-formed template stands
behind it, although its stretches and references look for their ends in all that follows. So two of
them together are rendered to what each is rendered to, and only the places of the diagnostics of
the second one move.
-/

namespace Phrasebook

namespace Markup

open Braces

/-- One markup behind another. Texts that come to stand side by side become one. -/
def append : Markup → Markup → Markup
  | nil, later => later
  | text content next, later => (next.append later).addText content
  | reference tooltip key next, later => reference tooltip key (next.append later)
  | slot formula format next, later => slot formula format (next.append later)
  | colored code body next, later => colored code body (next.append later)

/-- A text in front is told from a color code by a backslash. -/
def Fenced (markup : Markup) (text : List Char) : Prop :=
  markup.beginsWithText → text.head? = some '\\'

theorem Spelled.append {content written more rest : List Char} (spelled : Spelled content written)
    (later : Spelled more rest) : Spelled (content ++ more) (written ++ rest) := by
  induction spelled with
  | nil => exact later
  | plain ordinary _ ih => exact .plain ordinary ih
  | hidden c _ ih => exact .hidden c ih

theorem wellFormed_addText {content : List Char} (nonempty : content ≠ []) {markup : Markup}
    (wellFormed : markup.WellFormed) : (markup.addText content).WellFormed := by
  cases markup with
  | text later next => exact ⟨by simp [nonempty], wellFormed.2⟩
  | _ => exact ⟨nonempty, rfl, wellFormed⟩

theorem coloredDepth_addText (content : List Char) (markup : Markup) :
    (markup.addText content).coloredDepth = markup.coloredDepth := by
  cases markup <;> rfl

theorem printed_addText {content written text : List Char} {markup : Markup}
    (spelled : Spelled content written) (printed : Printed markup text) :
    Printed (markup.addText content) (written ++ text) := by
  cases printed with
  | text later rest =>
      rw [← List.append_assoc]
      exact .text (spelled.append later) rest
  | nil => exact .text spelled .nil
  | plainReference key rest => exact .text spelled (.plainReference key rest)
  | tooltipReference key rest => exact .text spelled (.tooltipReference key rest)
  | plainSlot formula rest => exact .text spelled (.plainSlot formula rest)
  | formattedSlot formula format rest => exact .text spelled (.formattedSlot formula format rest)
  | colored code inside rest hides => exact .text spelled (.colored code inside rest hides)

theorem wellFormed_append {first second : Markup} (left : first.WellFormed)
    (right : second.WellFormed) : (first.append second).WellFormed := by
  induction first with
  | nil => exact right
  | text content next ih => exact wellFormed_addText left.1 (ih left.2.2)
  | reference tooltip key next ih => exact ⟨left.1, left.2.1, left.2.2.1, ih left.2.2.2⟩
  | slot formula format next ih =>
      exact ⟨left.1, left.2.1, left.2.2.1, left.2.2.2.1, ih left.2.2.2.2⟩
  | colored code body next _ ih => exact ⟨left.1, left.2.1, ih left.2.2⟩

theorem coloredDepth_append (first second : Markup) :
    (first.append second).coloredDepth = max first.coloredDepth second.coloredDepth := by
  induction first with
  | nil => simp [append, coloredDepth]
  | text content next ih => simpa [append, coloredDepth, coloredDepth_addText] using ih
  | reference tooltip key next ih => exact ih
  | slot formula format next ih => exact ih
  | colored code body next _ ih => simp [append, coloredDepth, ih, Nat.max_assoc]

theorem fenced_append {first second : Markup} {text rest : List Char}
    (printed : Printed first text) (left : first.Fenced text) (right : second.Fenced rest) :
    (first.append second).Fenced (text ++ rest) := by
  cases printed with
  | nil => exact right
  | text spelled later =>
      obtain ⟨tail, same⟩ := List.head?_eq_some_iff.mp (left rfl)
      intro _
      rw [same]
      rfl
  | _ => exact nofun

theorem printed_append {first second : Markup} {text rest : List Char}
    (printed : Printed first text) (behind : Printed second rest) (fenced : second.Fenced rest) :
    Printed (first.append second) (text ++ rest) := by
  induction printed with
  | nil => exact behind
  | text spelled _ ih =>
      rw [List.append_assoc]
      exact printed_addText spelled ih
  | plainReference key _ ih => simpa [append] using Printed.plainReference key ih
  | tooltipReference key _ ih => simpa [append] using Printed.tooltipReference key ih
  | plainSlot formula _ ih => simpa [append] using Printed.plainSlot formula ih
  | formattedSlot formula format _ ih =>
      simpa [append] using Printed.formattedSlot formula format ih
  | colored code inside rest hides _ ih =>
      simpa [append] using Printed.colored code inside ih (fenced_append rest hides fenced)

theorem scan_append_behind {budget : Nat} {piece : Scanned} (written : List Char)
    {later rest : List Char}
    (here : ∀ behind, scan budget (written ++ behind) = piece :: scan budget behind)
    (goesOn : scan budget (later ++ rest) = scan budget later ++ scan budget rest) :
    scan budget (written ++ later ++ rest) =
      scan budget (written ++ later) ++ scan budget rest := by
  -- A scan that meets a piece goes on behind it as from the beginning of a level.
  rw [List.append_assoc, here, here, goesOn]
  rfl

theorem scan_spelled_append {budget : Nat} {content written later rest : List Char}
    (spelled : Spelled content written)
    (goesOn : scan budget (later ++ rest) = scan budget later ++ scan budget rest) :
    scan budget (written ++ later ++ rest) =
      scan budget (written ++ later) ++ scan budget rest := by
  induction spelled with
  | nil => exact goesOn
  | @plain c _ _ ordinary _ ih => exact scan_append_behind [c] (scan_plain budget ordinary) ih
  | hidden c _ ih => exact scan_append_behind ['\\', c] (scan_hidden budget c) ih

/-- What stands behind a printed markup does not change how the markup is scanned. -/
theorem scan_printed_append {markup : Markup} {text : List Char} (printed : Printed markup text)
    (wellFormed : markup.WellFormed) {budget : Nat} (shallow : markup.coloredDepth ≤ budget)
    {rest : List Char} (uncoded : ColorCode.read? rest = none) :
    scan budget (text ++ rest) = scan budget text ++ scan budget rest := by
  induction printed with
  | nil => simp
  | text spelled _ ih => exact scan_spelled_append spelled (ih wellFormed.2.2 shallow)
  | plainReference key _ ih =>
      obtain ⟨closedKey, _, named, wellNext⟩ := wellFormed
      simpa [Scanned.written] using
        scan_append_behind _ (scan_reference budget closedKey named) (ih wellNext shallow)
  | tooltipReference key _ ih =>
      obtain ⟨closedKey, _, named, wellNext⟩ := wellFormed
      simpa [Scanned.written] using
        scan_append_behind _ (scan_reference budget closedKey named) (ih wellNext shallow)
  | plainSlot formula _ ih =>
      obtain ⟨balanced, free, _, formatted, wellNext⟩ := wellFormed
      have parts : ∀ spec ∈ none, Balanced spec := fun spec member => (formatted spec member).1
      simpa [Scanned.written] using
        scan_append_behind _ (scan_slot budget balanced free parts) (ih wellNext shallow)
  | formattedSlot formula format _ ih =>
      obtain ⟨balanced, free, _, formatted, wellNext⟩ := wellFormed
      have parts : ∀ spec ∈ some format, Balanced spec := fun spec member =>
        (formatted spec member).1
      simpa [Scanned.written] using
        scan_append_behind _ (scan_slot budget balanced free parts) (ih wellNext shallow)
  | @colored code body next inner later inside behind hides _ ih =>
      obtain ⟨proper, wellBody, wellNext⟩ := wellFormed
      simp only [coloredDepth] at shallow
      have deep : body.coloredDepth + 1 ≤ budget := by omega
      have goesOn := ih wellNext (by omega)
      -- Its end is looked for in all that follows, so it is found once without the rest and once
      -- with it.
      have alone : ColorCode.read? (later ++ []) = none := uncoded_of_printed behind hides rfl
      have followed : ColorCode.read? (later ++ rest) = none :=
        uncoded_of_printed behind hides uncoded
      rw [List.append_nil] at alone
      have first := scan_colored proper (closeColor_printed inside wellBody deep alone)
      have whole := scan_colored proper (closeColor_printed inside wellBody deep followed)
      simp only [Scanned.written, List.cons_append, List.append_assoc, List.nil_append]
        at first whole ⊢
      rw [first, whole, goesOn]
      rfl

end Markup

def Span.moved (distance : Nat) (span : Span) : Span :=
  ⟨span.start + distance, span.stop + distance⟩

/-- The same phrase where it starts `distance` bytes further behind. -/
def Phrase.moved (distance : Nat) : Phrase → Phrase
  | nil => nil
  | leaf start piece next => leaf (start + distance) piece (next.moved distance)
  | colored start code inner body next =>
      colored (start + distance) code inner (body.moved distance) (next.moved distance)

theorem Phrase.moved_prependText (distance start : Nat) (written content : String)
    (phrase : Phrase) :
    (phrase.prependText start written content).moved distance =
      (phrase.moved distance).prependText (start + distance) written content := by
  cases phrase with
  | nil => rfl
  | leaf _ piece next => cases piece <;> rfl
  | colored => rfl

theorem Reading.assemble_moved {distance : Nat} {readInner : Nat → List Char → Reading}
    (inner : ∀ start text,
      (readInner (start + distance) text).phrase = (readInner start text).phrase.moved distance)
    (start : Nat) (pieces : List Scanned) :
    (assemble readInner (start + distance) pieces).phrase =
      (assemble readInner start pieces).phrase.moved distance := by
  induction pieces generalizing start with
  | nil => rfl
  | cons piece later ih =>
      have behind := ih (start + Text.byteLength piece.written)
      rw [Nat.add_right_comm] at behind
      cases piece with
      | plain c => simp only [assemble, behind, Phrase.moved_prependText]
      | escaped c => simp only [assemble, behind, Phrase.moved_prependText]
      | stray c kind => simp only [assemble, behind, Phrase.moved_prependText]
      | reference tooltip key => simp only [assemble, behind, Phrase.moved]
      | slot formula format => simp only [assemble, behind, Phrase.moved]
      | colored code content =>
          have body := inner (start + colorMark.utf8Size + code.written.utf8ByteSize) content
          have place : start + distance + colorMark.utf8Size + code.written.utf8ByteSize =
              start + colorMark.utf8Size + code.written.utf8ByteSize + distance := by omega
          simp only [assemble, behind, Phrase.moved, place, body]

theorem Reading.within_moved (budget distance start : Nat) (text : List Char) :
    (within budget (start + distance) text).phrase =
      (within budget start text).phrase.moved distance := by
  induction budget generalizing start text with
  | zero => exact assemble_moved (fun _ _ => rfl) start _
  | succ budget ih => exact assemble_moved ih start _

def Diagnostic.moved (context : Context) (distance : Nat) (diagnostic : Diagnostic) : Diagnostic :=
  if diagnostic.depth = context.depth then
    { diagnostic with span := diagnostic.span.map (Span.moved distance) }
  else diagnostic

namespace Noted

variable {α β : Type}

structure Moved (context : Context) (distance : Nat) (first second : Noted α) : Prop where
  value : second.value = first.value
  diagnostics : second.diagnostics = first.diagnostics.map (Diagnostic.moved context distance)

/-- A rendering of two templates one behind the other, but for the traffic. -/
structure Joins (first second both : Noted String) : Prop where
  value : both.value = first.value ++ second.value
  diagnostics : both.diagnostics = first.diagnostics ++ second.diagnostics

end Noted

variable {context : Context} {distance : Nat} {deeper : Deeper} {α β : Type}

namespace Noted.Moved

theorem of_quiet {noted : Noted α} (quiet : noted.Quiet context) :
    Moved context distance noted noted := by
  refine ⟨rfl, (List.map_id' _).symm.trans (List.map_congr_left fun diagnostic member => ?_)⟩
  unfold Diagnostic.moved
  split
  · rename_i here
    have nowhere := (quiet diagnostic member).2 here
    cases diagnostic
    simp only at nowhere
    rw [nowhere]
    rfl
  · rfl

theorem of_silent {noted : Noted α} (silent : noted.diagnostics = []) :
    Moved context distance noted noted :=
  of_quiet (.of_silent silent)

theorem report (kind : DiagnosticKind) (about message : String) (cause : Option String)
    (span : Span) :
    Moved context distance
      (Noted.report (.new kind about message cause (some span) context.depth))
      (Noted.report (.new kind about message cause (some (span.moved distance)) context.depth)) :=
  ⟨rfl, by simp [Noted.report, Diagnostic.moved, Diagnostic.new]⟩

theorem bind {first second : Noted α} {next other : α → Noted β}
    (start : Moved context distance first second)
    (rest : ∀ value, Moved context distance (next value) (other value)) :
    Moved context distance (first >>= next) (second >>= other) := by
  have ended := rest first.value
  refine ⟨?_, ?_⟩
  · rw [value_bind, value_bind, start.value, ended.value]
  · rw [diagnostics_bind, diagnostics_bind, start.value, start.diagnostics, ended.diagnostics,
      List.map_append]

end Noted.Moved

theorem Noted.Joins.behind {front first second both whole extended : Noted String}
    (joins : Joins first second both) (here : Joins front first whole)
    (there : Joins front both extended) : Joins whole second extended := by
  -- What is in front of a rendering is in front of whatever goes on behind it.
  refine ⟨?_, ?_⟩
  · rw [there.value, joins.value, here.value, String.append_assoc]
  · rw [there.diagnostics, joins.diagnostics, here.diagnostics, List.append_assoc]

namespace Renderer

theorem renderReference_moved (renderer : Renderer) (below : deeper.Quiet context) (span : Span)
    (tooltip : Bool) (name : String) :
    (renderer.renderReference context deeper span tooltip name).Moved context distance
      (renderer.renderReference context deeper (span.moved distance) tooltip name) := by
  unfold renderReference
  split
  · exact .bind (.report ..) fun _ => .of_silent rfl
  · split
    · exact .bind (.report ..) fun _ => .of_silent rfl
    · split
      · exact .bind (.report ..) fun _ => .of_silent rfl
      · exact .of_quiet (.bind (.renting (below _ rfl _) .texts) fun _ => .of_silent rfl)

theorem renderSlot_moved (renderer : Renderer) (below : deeper.Quiet context) (span : Span)
    (raw formula : String) (format : Option String) :
    (renderer.renderSlot context deeper span raw formula format).Moved context distance
      (renderer.renderSlot context deeper (span.moved distance) raw formula format) := by
  refine .bind (.of_quiet (renderer.slotValue_quiet below formula)) fun value => ?_
  split
  · exact .of_silent rfl
  · exact .bind (.report ..) fun _ => .of_silent rfl

theorem renderLeaf_moved (renderer : Renderer) (below : deeper.Quiet context) (start : Nat)
    (piece : Leaf) :
    (renderer.renderLeaf context deeper start piece).Moved context distance
      (renderer.renderLeaf context deeper (start + distance) piece) := by
  unfold renderLeaf
  have place : (⟨start + distance, start + distance + piece.raw.utf8ByteSize⟩ : Span) =
      Span.moved distance ⟨start, start + piece.raw.utf8ByteSize⟩ := by
    rw [Span.moved, Nat.add_right_comm]
  rw [place]
  cases piece with
  | text raw content => exact .of_silent rfl
  | reference tooltip key => exact renderer.renderReference_moved below _ tooltip key
  | slot formula format => exact renderer.renderSlot_moved below _ _ formula format

theorem renderPhrase_moved (renderer : Renderer) (below : deeper.Quiet context) (phrase : Phrase) :
    (renderer.renderPhrase context deeper phrase).Moved context distance
      (renderer.renderPhrase context deeper (phrase.moved distance)) := by
  induction phrase with
  | nil => exact .of_silent rfl
  | leaf start piece next ih =>
      refine .bind (renderer.renderLeaf_moved below start piece) fun text => ?_
      exact ih.bind fun _ => .of_silent rfl
  | colored start code inner body next ihBody ihNext =>
      rw [Phrase.moved, renderPhrase_colored, renderPhrase_colored]
      refine .bind (.of_silent rfl) fun opening => ?_
      refine .bind (.of_silent rfl) fun color => ?_
      refine .bind (.of_silent rfl) fun opened => ?_
      refine .bind ?_ fun text => ?_
      · cases body with
        | nil => exact .of_silent rfl
        | leaf => exact ihBody
        | colored => exact ihBody
      · refine .bind (.of_silent rfl) fun closing => ?_
        exact ihNext.bind fun _ => .of_silent rfl

theorem leaf_joins (renderer : Renderer) (start : Nat) (piece : Leaf) (next : Phrase) :
    (renderer.renderLeaf context deeper start piece).Joins
      (renderer.renderPhrase context deeper next)
      (renderer.renderPhrase context deeper (.leaf start piece next)) := by
  constructor <;> simp [renderPhrase, -bind_pure_comp]

theorem colored_joins (renderer : Renderer) (start : Nat) (code : ColorCode) (inner : String)
    (body next : Phrase) :
    (renderer.renderPhrase context deeper (.colored start code inner body .nil)).Joins
      (renderer.renderPhrase context deeper next)
      (renderer.renderPhrase context deeper (.colored start code inner body next)) := by
  rw [renderPhrase_colored, renderPhrase_colored]
  constructor <;> simp [renderPhrase, -bind_pure_comp]

theorem prependText_joins (renderer : Renderer) (start : Nat) (written content : String)
    (phrase : Phrase) :
    (Noted.emit content).Joins (renderer.renderPhrase context deeper phrase)
      (renderer.renderPhrase context deeper (phrase.prependText start written content)) := by
  fun_cases Phrase.prependText start written content phrase with
  | case1 _ later meant next =>
      constructor <;> simp [renderPhrase, renderLeaf, String.append_assoc, -bind_pure_comp]
  | case2 phrase distinct => exact renderer.leaf_joins start (.text written content) phrase

/-- Neighbouring texts are joined across the border of two templates. Joined or not, they are
written the same. -/
theorem assemble_joins (renderer : Renderer) (readInner : Nat → List Char → Reading) (start : Nat)
    (pieces more : List Scanned) :
    (renderer.renderPhrase context deeper (Reading.assemble readInner start pieces).phrase).Joins
      (renderer.renderPhrase context deeper
        (Reading.assemble readInner
          (start + Text.byteLength (pieces.flatMap Scanned.written)) more).phrase)
      (renderer.renderPhrase context deeper
        (Reading.assemble readInner start (pieces ++ more)).phrase) := by
  induction pieces generalizing start with
  | nil => constructor <;> simp [Reading.assemble, Reading.empty, renderPhrase]
  | cons piece later ih =>
      have later_joins := ih (start + Text.byteLength piece.written)
      rw [Nat.add_assoc, ← Text.byteLength_append, ← List.flatMap_cons] at later_joins
      cases piece with
      | plain c => exact later_joins.behind (prependText_joins ..) (prependText_joins ..)
      | escaped c => exact later_joins.behind (prependText_joins ..) (prependText_joins ..)
      | stray c kind => exact later_joins.behind (prependText_joins ..) (prependText_joins ..)
      | reference tooltip key => exact later_joins.behind (leaf_joins ..) (leaf_joins ..)
      | slot formula format => exact later_joins.behind (leaf_joins ..) (leaf_joins ..)
      | colored code inner => exact later_joins.behind (colored_joins ..) (colored_joins ..)

end Renderer

/-- The template is a printed markup, with a backslash before its first character if that is part of
a text. Printing puts one before the first character of a text behind a colored stretch. -/
def Template.WellFormed (template : String) : Prop :=
  ∃ markup : Markup, markup.WellFormed ∧ markup.coloredDepth ≤ maxColorNesting ∧
    Markup.Printed markup template.toList ∧ markup.Fenced template.toList

theorem Template.WellFormed.append {first second : String} (left : WellFormed first)
    (right : WellFormed second) : WellFormed (first ++ second) := by
  obtain ⟨former, leftFormed, leftShallow, leftPrinted, leftFenced⟩ := left
  obtain ⟨latter, rightFormed, rightShallow, rightPrinted, rightFenced⟩ := right
  have shallow : (former.append latter).coloredDepth ≤ maxColorNesting := by
    rw [Markup.coloredDepth_append]
    exact Nat.max_le.mpr ⟨leftShallow, rightShallow⟩
  refine ⟨former.append latter, Markup.wellFormed_append leftFormed rightFormed, shallow, ?_, ?_⟩
  · rw [String.toList_append]
    exact Markup.printed_append leftPrinted rightPrinted rightFenced
  · rw [String.toList_append]
    exact Markup.fenced_append leftPrinted leftFenced rightFenced

theorem Template.WellFormed.issues {template : String} (wellFormed : WellFormed template) :
    (read template).issues = [] := by
  obtain ⟨markup, formed, shallow, printed, _⟩ := wellFormed
  exact (Markup.reads_of_printed printed formed shallow 0).2

theorem Template.WellFormed.scan_append {first second : String} (left : WellFormed first)
    (right : WellFormed second) :
    scan maxColorNesting (first ++ second).toList =
      scan maxColorNesting first.toList ++ scan maxColorNesting second.toList := by
  obtain ⟨former, leftFormed, leftShallow, leftPrinted, _⟩ := left
  obtain ⟨latter, _, _, rightPrinted, rightFenced⟩ := right
  have uncoded : ColorCode.read? (second.toList ++ []) = none :=
    Markup.uncoded_of_printed rightPrinted rightFenced rfl
  rw [List.append_nil] at uncoded
  rw [String.toList_append]
  exact Markup.scan_printed_append leftPrinted leftFormed leftShallow uncoded

theorem Laid.eq_nil {budget start : Nat} {text : List Char} (laid : Laid budget start text .nil) :
    text = [] := by
  cases laid
  rfl

namespace Renderer

theorem render_parts (renderer : Renderer) (context : Context) (template : String) :
    (renderer.render context template).value =
        (renderer.renderPhrase context (renderer.deeper context)
          (Template.read template).phrase).value ∧
      (renderer.render context template).diagnostics =
        (Template.read template).issues.map (issueDiagnostic context) ++
          (renderer.renderPhrase context (renderer.deeper context)
            (Template.read template).phrase).diagnostics := by
  have laid : Laid maxColorNesting 0 template.toList (Template.read template).phrase :=
    laid_within maxColorNesting 0 template.toList
  simp only [render, readAndRender, renderTemplate, Noted.renting, Noted.record, Noted.reportAll,
    Noted.value_bind, Noted.diagnostics_bind, List.nil_append]
  cases read : (Template.read template).phrase with
  | nil =>
      rw [read] at laid
      exact ⟨String.toList_eq_nil_iff.mp laid.eq_nil, rfl⟩
  | leaf => exact ⟨rfl, rfl⟩
  | colored => exact ⟨rfl, rfl⟩

theorem render_eq (renderer : Renderer) (context : Context) {template : String}
    (proper : (Template.read template).issues = []) :
    (renderer.render context template).value =
        (renderer.renderPhrase context (renderer.deeper context)
          (Template.read template).phrase).value ∧
      (renderer.render context template).diagnostics =
        (renderer.renderPhrase context (renderer.deeper context)
          (Template.read template).phrase).diagnostics := by
  obtain ⟨value, diagnostics⟩ := renderer.render_parts context template
  rw [proper] at diagnostics
  exact ⟨value, diagnostics⟩

theorem renders_append (renderer : Renderer) (context : Context) {first second : String}
    (left : Template.WellFormed first) (right : Template.WellFormed second) :
    (renderer.render context (first ++ second)).value =
        (renderer.render context first).value ++ (renderer.render context second).value ∧
      (renderer.render context (first ++ second)).diagnostics =
        (renderer.render context first).diagnostics ++
          (renderer.render context second).diagnostics.map
            (Diagnostic.moved context first.utf8ByteSize) := by
  obtain ⟨firstValue, firstDiagnostics⟩ := renderer.render_eq context left.issues
  obtain ⟨secondValue, secondDiagnostics⟩ := renderer.render_eq context right.issues
  obtain ⟨bothValue, bothDiagnostics⟩ := renderer.render_eq context (left.append right).issues
  have joins := @assemble_joins context (renderer.deeper context) renderer
    (Reading.inside maxColorNesting) 0 (scan maxColorNesting first.toList)
    (scan maxColorNesting second.toList)
  rw [scan_written, ← left.scan_append right, ← Reading.within_eq, ← Reading.within_eq,
    ← Reading.within_eq, Reading.within_moved, ← Text.utf8ByteSize_eq] at joins
  have moved : Noted.Moved context first.utf8ByteSize _ _ :=
    renderer.renderPhrase_moved (renderer.deeper_quiet context) (Template.read second).phrase
  refine ⟨?_, ?_⟩
  · rw [firstValue, secondValue, bothValue, ← moved.value]
    exact joins.value
  · rw [firstDiagnostics, secondDiagnostics, bothDiagnostics, ← moved.diagnostics]
    exact joins.diagnostics

/-- Rendering composes over well-formed templates: what is found in the second one only moves. So
nothing that goes wrong in a part of a template changes what the parts around it are rendered to. -/
theorem render_composes (renderer : Renderer) (context : Context) (first second : String)
    (left : Template.WellFormed first) (right : Template.WellFormed second) :
    Template.WellFormed (first ++ second) ∧
      (renderer.render context (first ++ second)).value =
        (renderer.render context first).value ++ (renderer.render context second).value ∧
      (renderer.render context (first ++ second)).diagnostics =
        (renderer.render context first).diagnostics ++
          (renderer.render context second).diagnostics.map
            (Diagnostic.moved context first.utf8ByteSize) ∧
      ∀ third, Template.WellFormed third →
        (renderer.render context (first ++ second ++ third)).value =
          (renderer.render context first).value ++ (renderer.render context second).value ++
            (renderer.render context third).value := by
  have whole := left.append right
  obtain ⟨value, diagnostics⟩ := renderer.renders_append context left right
  refine ⟨whole, value, diagnostics, fun third behind => ?_⟩
  rw [(renderer.renders_append context whole behind).1, value]

/-- A slot that fails inside of a stretch, and a text behind it that begins with a letter of the
palette. -/
theorem render_composes_stretch :
    let renderer : Renderer := ⟨.empty, .defaults, .usual, .legacy⟩
    let first := "§R\x7bx\x7d§"
    let second := "\\A $k$"
    Template.WellFormed first ∧ Template.WellFormed second ∧
      (renderer.render (.new .empty) (first ++ second)).value =
        (renderer.render (.new .empty) first).value ++
          (renderer.render (.new .empty) second).value ∧
      (renderer.render (.new .empty) (first ++ second)).value =
        "<color=#FF0000>{x}</color>A k" ∧
      (renderer.render (.new .empty) (first ++ second)).diagnostics.map (·.span) =
        [some ⟨3, 6⟩, some ⟨11, 14⟩] := by
  intro renderer first second
  have free : Braces.ColonFree "x".toList :=
    (Braces.colonFree_iff_split (by decide)).mpr (by decide)
  have left : Template.WellFormed "§R\x7bx\x7d§" :=
    ⟨.colored (.letter 'R') (.slot "x".toList none .nil) .nil,
      ⟨rfl, ⟨by decide, free, by decide, nofun, trivial⟩, trivial⟩, by decide,
      .colored (.letter 'R') (.plainSlot ['x'] .nil) .nil nofun, nofun⟩
  have right : Template.WellFormed "\\A $k$" :=
    ⟨.text "A ".toList (.reference false "k".toList .nil),
      ⟨by decide, rfl, by decide, by decide, by decide, trivial⟩, by decide,
      .text (.hidden 'A' (.plain rfl .nil)) (.plainReference _ .nil), fun _ => rfl⟩
  exact ⟨left, right, (renderer.render_composes (.new .empty) first second left right).2.1,
    by decide +kernel, by decide +kernel⟩

end Renderer

end Phrasebook
