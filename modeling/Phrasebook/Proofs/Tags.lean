import Phrasebook.Proofs.Figures
import Phrasebook.Proofs.KeyMap
import Phrasebook.Proofs.Levels
import Phrasebook.Render.Renderer

/-!
The tags of a rendered text. Nothing that a rendering works with has tags of its own, so all of them
come from colored stretches and from the decoration of references. These are written around whole
renderings, and whatever is joined, repeated, cut off or kept as it stands is closed in itself: in
every rendering the tags are closed in the order in which they were opened last.
-/

namespace Phrasebook

inductive Tag where
  | color (hex : String)
  | link (key : String)
  | underline
  deriving DecidableEq

namespace Tag

def opening : Tag → String
  | color hex => "<color=" ++ hex ++ ">"
  | link key => "<link=" ++ key ++ ">"
  | underline => "<u>"

def closing : Tag → String
  | color _ => "</color>"
  | link _ => "</link>"
  | underline => "</u>"

/-- A color has six digits, and a link leads to a key. -/
def Proper : Tag → Prop
  | color hex =>
      ∃ digits, hex.toList = '#' :: digits ∧ digits.length = 6 ∧ ∀ c ∈ digits, isHexDigit c
  | link key => ∃ parsed, Key.parse key = .ok parsed
  | underline => True

end Tag

theorem Tag.Proper.brackets {tag : Tag} (proper : tag.Proper) :
    ∃ name, tag.opening.toList = '<' :: name ++ ['>'] ∧ '<' ∉ name ∧ '>' ∉ name := by
  cases tag with
  | color hex =>
      obtain ⟨digits, spelled, _, hexadecimal⟩ := proper
      have absent (c : Char) (other : isHexDigit c = false) : c ∉ digits := fun member =>
        absurd (hexadecimal c member) (by simp [other])
      refine ⟨"color=".toList ++ hex.toList, by simp [opening], ?_, ?_⟩
      · simpa [spelled] using absent '<' rfl
      · simpa [spelled] using absent '>' rfl
  | link key =>
      obtain ⟨parsed, named⟩ := proper
      have absent (c : Char) (other : isKeyChar c = false) : c ∉ key.toList := fun member =>
        absurd (Key.isKeyChar_of_parse named member) (by simp [other])
      refine ⟨"link=".toList ++ key.toList, by simp [opening], ?_, ?_⟩
      · simpa using absent '<' rfl
      · simpa using absent '>' rfl
  | underline => exact ⟨['u'], by decide, by decide, by decide⟩

/-- Plain characters and tags, each of them closed behind what stands in it. -/
inductive WellNested : List Char → Prop
  | nil : WellNested []
  | plain {c : Char} {later : List Char} (ordinary : c ≠ '<') (rest : WellNested later) :
      WellNested (c :: later)
  | tagged {tag : Tag} {inner later : List Char} (proper : tag.Proper) (inside : WellNested inner)
      (rest : WellNested later) :
      WellNested (tag.opening.toList ++ inner ++ tag.closing.toList ++ later)

namespace WellNested

variable {first second : List Char}

theorem of_bare (bare : '<' ∉ first) : WellNested first := by
  induction first with
  | nil => exact .nil
  | cons c later ih =>
      obtain ⟨ordinary, rest⟩ := List.ne_and_not_mem_of_not_mem_cons bare
      exact .plain (Ne.symm ordinary) (ih rest)

theorem append (left : WellNested first) (right : WellNested second) :
    WellNested (first ++ second) := by
  induction left with
  | nil => exact right
  | plain ordinary _ ih => exact .plain ordinary ih
  | tagged proper inside _ _ ih =>
      rw [List.append_assoc]
      exact .tagged proper inside ih

theorem enclose {tag : Tag} {text : String} (proper : tag.Proper)
    (inside : WellNested text.toList) : WellNested (tag.opening ++ text ++ tag.closing).toList := by
  simpa using tagged proper inside .nil

theorem flatten {parts : List (List Char)} (nested : ∀ part ∈ parts, WellNested part) :
    WellNested parts.flatten := by
  induction parts with
  | nil => exact .nil
  | cons part later ih =>
      obtain ⟨here, rest⟩ := List.forall_mem_cons.mp nested
      exact here.append (ih rest)

end WellNested

namespace Value

def Bare (value : Value) : Prop := ∀ content ∈ value.text?, '<' ∉ content.toList

/-- The value is a number, or a text with all of its tags closed. -/
def Nested (value : Value) : Prop := ∀ content ∈ value.text?, WellNested content.toList

theorem Bare.nested {value : Value} (bare : value.Bare) : value.Nested :=
  fun content text => .of_bare (bare content text)

theorem nested_of_numeric {value : Value} (numeric : value.isNumeric = true) : value.Nested := by
  cases value with
  | text content => cases numeric
  | integer number => exact nofun
  | real number => exact nofun

theorem nested_text {content : String} (nested : WellNested content.toList) :
    (text content).Nested := by
  rintro same ⟨⟩
  exact nested

theorem Nested.display {value : Value} (nested : value.Nested) :
    WellNested value.display.toList := by
  cases value with
  | text content => exact nested content rfl
  | integer number => exact .of_bare ((figures_display rfl).not_mem rfl)
  | real number => exact .of_bare ((figures_display rfl).not_mem rfl)

theorem nested_replicate {content : String} {count : Float} {value : Value}
    (nested : WellNested content.toList) (replicated : replicate content count = .ok value) :
    value.Nested := by
  unfold replicate at replicated
  split at replicated
  · cases replicated
  · obtain rfl := Except.ok.inj replicated
    refine nested_text ?_
    rw [String.toList_join, List.flatMap_def, List.map_replicate]
    refine .flatten fun part member => ?_
    rw [List.eq_of_mem_replicate member]
    exact nested

end Value

theorem BinaryOp.nested_apply {mode : SubtractionMode} {op : BinaryOp} {lhs rhs value : Value}
    (left : lhs.Nested) (right : rhs.Nested) (applied : op.apply mode lhs rhs = .ok value) :
    value.Nested := by
  cases op with
  | add =>
      simp only [apply] at applied
      split at applied
      · obtain rfl := Except.ok.inj applied
        exact Value.nested_of_numeric (Value.isNumeric_arithmetic ..)
      · obtain rfl := Except.ok.inj applied
        refine Value.nested_text ?_
        rw [String.toList_append]
        exact left.display.append right.display
  | subtract =>
      simp only [apply] at applied
      split at applied
      · split at applied
        · obtain rfl := Except.ok.inj applied
          exact Value.nested_of_numeric (Value.isNumeric_arithmetic ..)
        · obtain rfl := Except.ok.inj applied
          exact Value.nested_of_numeric (Value.isNumeric_arithmetic ..)
      · cases applied
  | multiply =>
      simp only [apply] at applied
      split at applied
      · cases applied
      · exact Value.nested_replicate (left _ rfl) applied
      · exact Value.nested_replicate (right _ rfl) applied
      · obtain rfl := Except.ok.inj applied
        exact Value.nested_of_numeric (Value.isNumeric_arithmetic ..)
  | divide =>
      simp only [apply] at applied
      split at applied
      · split at applied
        · cases applied
        · obtain rfl := Except.ok.inj applied
          exact Value.nested_of_numeric rfl
      · cases applied
  | power =>
      simp only [apply] at applied
      split at applied
      · obtain rfl := Except.ok.inj applied
        exact Value.nested_of_numeric rfl
      · cases applied

def Noted.Answers (noted : Noted (Except FormulaFault Value)) : Prop :=
  ∀ value, noted.value = .ok value → value.Nested

theorem Formula.evaluate_answers (mode : SubtractionMode)
    {resolve : Variable → Noted (Except FormulaFault Value)}
    (answers : ∀ var, (resolve var).Answers) (formula : Formula) :
    (formula.evaluate mode resolve).Answers := by
  induction formula with
  | number value =>
      rintro result ⟨⟩
      exact Value.nested_of_numeric rfl
  | var asked => exact answers asked
  | binary op lhs rhs ihLhs ihRhs =>
      intro value evaluated
      simp only [evaluate, Noted.value_bind] at evaluated
      split at evaluated
      · cases evaluated
      · rename_i left leftValue
        simp only [Noted.value_bind] at evaluated
        split at evaluated
        · cases evaluated
        · rename_i right rightValue
          exact op.nested_apply (ihLhs left leftValue) (ihRhs right rightValue) evaluated

/-- The texts of the lexicon have no tags, and what is kept of them is their normal form. -/
def Lexicon.Bare (lexicon : Lexicon) : Prop :=
  ∀ key entry, lexicon.entry? key = some entry → entry.Faithful ∧ '<' ∉ entry.raw.toList

structure Context.Bare (context : Context) : Prop where
  params : ∀ param ∈ context.params.entries, param.2.Bare
  source : ∀ name arguments value, context.source name arguments = .ok (some value) → value.Bare

/-- Nothing that a rendering works with has tags, and numbers are written in the usual formats. -/
structure Renderer.Plain (renderer : Renderer) (context : Context) : Prop where
  formats : renderer.formats = .defaults
  lexicon : renderer.lexicon.Bare
  context : context.Bare

theorem Renderer.Plain.descend {renderer : Renderer} {context : Context}
    (plain : renderer.Plain context) : renderer.Plain context.descend :=
  ⟨plain.formats, plain.lexicon, plain.context.params, plain.context.source⟩

def Noted.Nests (noted : Noted String) : Prop := WellNested noted.value.toList

def Deeper.Nests (deeper : Deeper) : Prop :=
  ∀ expand ∈ deeper, ∀ text : String, '<' ∉ text.toList → (expand text).Nests

theorem Lexicon.Bare.text? {lexicon : Lexicon} (bare : lexicon.Bare) {key : Key} {text : String}
    (found : lexicon.text? key = some text) : '<' ∉ text.toList := by
  obtain ⟨entry, stored, rfl⟩ := Option.map_eq_some_iff.mp found
  obtain ⟨faithful, raw⟩ := bare key entry stored
  rw [faithful.text_eq, normalizeColors_of_bare raw]
  exact raw

theorem Context.Bare.lookup {context : Context} (bare : context.Bare) {var : Variable}
    {value : Value} (found : context.lookup var = .ok value) : value.Bare := by
  unfold Context.lookup at found
  split at found
  · rename_i param
    obtain rfl := Except.ok.inj found
    obtain ⟨entry, present, rfl⟩ := Option.map_eq_some_iff.mp param
    exact bare.params entry (List.mem_of_find?_eq_some present)
  · split at found
    · cases found
    · cases found
    · rename_i answer
      obtain rfl := Except.ok.inj found
      exact bare.source _ _ _ answer

theorem Text.unhide_subset (text : List Char) : Text.unhide text ⊆ text := by
  fun_induction Text.unhide text with
  | case1 hidden cs ih =>
      exact fun c member => List.mem_cons_of_mem '\\' (List.cons_subset_cons hidden ih member)
  | case2 c cs _ ih => exact List.cons_subset_cons c ih
  | case3 => exact List.Subset.refl []

theorem ColorCode.tag_proper {code : ColorCode} (proper : code.Proper) :
    (Tag.color code.hex).Proper := by
  cases code with
  | digits text => exact proper
  | letter name =>
      obtain ⟨color, same⟩ := Option.isSome_iff_exists.mp proper
      have colors : ∀ entry ∈ palette, read? entry.2.toList = some (.digits entry.2, []) := by
        decide
      rw [hex, same, Option.getD_some]
      exact proper_of_read? (colors _ (mem_palette same))

theorem Decoration.nests_emit (decoration : Decoration) {key : String} {tooltip : Bool}
    {text : String} (named : ∃ parsed, Key.parse key = .ok parsed)
    (nested : WellNested text.toList) : (decoration.emit key tooltip text).Nests := by
  have underlined : WellNested (Tag.underline.opening ++ text ++ Tag.underline.closing).toList :=
    .enclose trivial nested
  have linked {inner : String} (inside : WellNested inner.toList) :
      WellNested ((Tag.link key).opening ++ inner ++ (Tag.link key).closing).toList :=
    .enclose named inside
  unfold Noted.Nests emit apply parts
  split
  · cases decoration.underline <;> cases decoration.link
    · simpa [String.join] using nested
    · simpa [String.join, Tag.opening, Tag.closing] using linked nested
    · simpa [String.join, Tag.opening, Tag.closing] using underlined
    · simpa [String.join, Tag.opening, Tag.closing] using linked underlined
  · simpa [String.join] using nested

namespace Renderer

variable {context : Context} {deeper : Deeper}

theorem resolve_answers (asked : context.Bare) (below : deeper.Nests) (var : Variable) :
    (resolve context deeper var).Answers := by
  unfold resolve
  split
  · exact nofun
  · rename_i content found
    have bare : '<' ∉ content.toList := asked.lookup found content rfl
    split
    · split
      · rintro value ⟨⟩
        exact Value.nested_text (.of_bare bare)
      · rintro value ⟨⟩
        exact Value.nested_text (below _ rfl content bare)
    · rintro value ⟨⟩
      exact Value.nested_text (.of_bare bare)
  · rename_i found
    rintro value ⟨⟩
    exact (asked.lookup found).nested

theorem slotValue_answers (renderer : Renderer) (asked : context.Bare) (below : deeper.Nests)
    (formula : String) : (renderer.slotValue context deeper formula).Answers := by
  unfold slotValue
  split
  · exact resolve_answers asked below _
  · split
    · exact nofun
    · exact Formula.evaluate_answers _ (resolve_answers asked below) _

theorem formatted_nests {renderer : Renderer} (standard : renderer.formats = .defaults)
    {value : Value} {format : Option String} {text : String} (nested : value.Nested)
    (shown : renderer.formatted format value = .ok text) : WellNested text.toList := by
  unfold formatted at shown
  rw [standard] at shown
  split at shown
  · rename_i answered
    obtain rfl := Except.ok.inj shown
    obtain rfl | figures := FormatRegistry.figures_formatValue answered
    · exact nested _ rfl
    · exact .of_bare (figures.not_mem rfl)
  · cases shown

theorem renderSlot_nests (renderer : Renderer) (plain : renderer.Plain context)
    (below : deeper.Nests) (span : Span) {raw : String} (bare : '<' ∉ raw.toList)
    (formula : String) (format : Option String) :
    (renderer.renderSlot context deeper span raw formula format).Nests := by
  have answers := renderer.slotValue_answers plain.context below formula
  unfold renderSlot Noted.Nests
  rw [Noted.value_bind]
  cases answered : (renderer.slotValue context deeper formula).value with
  | error fault => exact .of_bare bare
  | ok value =>
      simp only [Except.bind]
      split
      · rename_i text shown
        exact formatted_nests plain.formats (answers value answered) shown
      · exact .of_bare bare

theorem renderReference_nests (renderer : Renderer) (plain : renderer.Plain context)
    (below : deeper.Nests) (span : Span) (tooltip : Bool) {name : String}
    (bare : '<' ∉ name.toList) :
    (renderer.renderReference context deeper span tooltip name).Nests := by
  unfold renderReference
  split
  · exact .of_bare bare
  · rename_i key named
    split
    · exact .of_bare bare
    · rename_i text found
      have stored := plain.lexicon.text? found
      split
      · exact .of_bare stored
      · exact renderer.decoration.nests_emit ⟨key, named⟩ (below _ rfl text stored)

theorem renderLeaf_nests (renderer : Renderer) (plain : renderer.Plain context)
    (below : deeper.Nests) (start : Nat) {piece : Leaf} (proper : piece.Proper)
    (bare : '<' ∉ piece.raw.toList) : (renderer.renderLeaf context deeper start piece).Nests := by
  cases piece with
  | text raw content =>
      refine .of_bare fun member => bare (Text.unhide_subset raw.toList ?_)
      rw [← proper]
      exact member
  | reference tooltip key =>
      refine renderer.renderReference_nests plain below _ tooltip fun member => bare ?_
      simp [Leaf.raw, member]
  | slot formula format => exact renderer.renderSlot_nests plain below _ bare formula format

theorem renderInside_nests {renderer : Renderer} {body : Phrase} {inner : String}
    (nests : (renderer.renderPhrase context deeper body).Nests) (bare : '<' ∉ inner.toList) :
    (renderer.renderInside context deeper inner body).Nests := by
  cases body with
  | nil => exact .of_bare bare
  | leaf => exact nests
  | colored => exact nests

theorem laid_nests (renderer : Renderer) (plain : renderer.Plain context) (below : deeper.Nests)
    {budget start : Nat} {text : List Char} {phrase : Phrase} (laid : Laid budget start text phrase)
    (inside : ∀ place inner, '<' ∉ inner →
      (renderer.renderPhrase context deeper (Reading.inside budget place inner).phrase).Nests)
    (bare : '<' ∉ text) : (renderer.renderPhrase context deeper phrase).Nests := by
  -- Level by level: each stretch is rendered between its own tags.
  induction laid with
  | nil => exact .nil
  | @leaf start content later next _ proper _ _ ih =>
      rw [List.mem_append, not_or] at bare
      obtain ⟨here, behind⟩ := bare
      have piece := renderer.renderLeaf_nests plain below start proper here
      simp only [renderPhrase, Noted.Nests, Noted.value_bind, Noted.value_pure,
        String.toList_append]
      exact piece.append (ih behind)
  | @colored start code inner later next _ proper _ ih =>
      rw [List.mem_append, not_or] at bare
      obtain ⟨here, behind⟩ := bare
      have untagged : '<' ∉ inner := fun member => here (by simp [Scanned.written, member])
      have spelled : '<' ∉ (String.ofList inner).toList := by rwa [String.toList_ofList]
      have body := renderInside_nests
        (inside (start + colorMark.utf8Size + code.written.utf8ByteSize) inner untagged) spelled
      have stretch := (WellNested.enclose (ColorCode.tag_proper proper) body).append (ih behind)
      rw [renderPhrase_colored]
      simpa [Noted.Nests, Tag.opening, Tag.closing, -bind_pure_comp] using stretch

theorem renderPhrase_nests (renderer : Renderer) (plain : renderer.Plain context)
    (below : deeper.Nests) (budget start : Nat) {text : List Char} (bare : '<' ∉ text) :
    (renderer.renderPhrase context deeper (Reading.within budget start text).phrase).Nests := by
  induction budget generalizing start text with
  | zero =>
      refine renderer.laid_nests plain below (laid_within 0 start text) ?_ bare
      exact fun _ _ _ => .nil
  | succ budget ih =>
      exact renderer.laid_nests plain below (laid_within (budget + 1) start text)
        (fun place inner => ih place) bare

theorem readAndRender_nests (renderer : Renderer) (plain : renderer.Plain context)
    (below : deeper.Nests) {text : String} (bare : '<' ∉ text.toList) :
    (renderer.readAndRender context deeper text).Nests := by
  have phrase := renderer.renderPhrase_nests plain below maxColorNesting 0 bare
  unfold readAndRender renderTemplate Noted.Nests
  simp only [Noted.renting, Noted.value_bind]
  split
  · exact .of_bare bare
  · exact phrase

theorem expandWith_nests (renderer : Renderer) (plain : renderer.Plain context)
    (below : deeper.Nests) {text : String} (bare : '<' ∉ text.toList) :
    (renderer.expandWith context deeper text).Nests := by
  unfold expandWith
  split
  · exact renderer.readAndRender_nests plain below bare
  · exact .of_bare bare

theorem deeper_nests_of {renderer : Renderer}
    (expands : 0 < context.budget → ∀ text : String, '<' ∉ text.toList →
      (renderer.expand context.descend text).Nests) : (renderer.deeper context).Nests := by
  intro expand found
  obtain ⟨left, rfl⟩ := (renderer.mem_deeper_iff context expand).mp found
  exact expands left

theorem expand_nests (renderer : Renderer) (plain : renderer.Plain context) {text : String}
    (bare : '<' ∉ text.toList) : (renderer.expand context text).Nests := by
  induction context using Context.budget_induction generalizing text with
  | step context below =>
      have deeper := deeper_nests_of fun left _ => below left plain.descend
      exact renderer.expandWith_nests plain deeper bare

/-- In the text of a rendering all tags are closed, and nothing else in it begins like a tag. -/
theorem render_wellNested (renderer : Renderer) (context : Context) (template : String)
    (plain : renderer.Plain context) (bare : '<' ∉ template.toList) :
    WellNested (renderer.render context template).value.toList := by
  have deeper := deeper_nests_of fun _ text => renderer.expand_nests plain.descend
  exact renderer.readAndRender_nests plain deeper bare

theorem render_wellNested_repeated :
    let lexicon : Lexicon := ⟨.ofList [(⟨["A"]⟩, .new "§R\x7bname*2\x7d§")]⟩
    let renderer : Renderer := ⟨lexicon, .defaults, .usual, .legacy⟩
    let context := Context.new (.ofList [("name", .text "§Gx§")])
    renderer.Plain context ∧ '<' ∉ "$@A$".toList ∧
      WellNested (renderer.render context "$@A$").value.toList ∧
      (renderer.render context "$@A$").value =
        "<link=A><u><color=#FF0000><color=#00FF00>x</color><color=#00FF00>x</color></color>" ++
          "</u></link>" := by
  intro lexicon renderer context
  have stored : lexicon.Bare := by
    intro key entry found
    change ((KeyTree.empty.insert ⟨["A"]⟩ (Entry.new "§R\x7bname*2\x7d§")).2.get? key) = _ at found
    rw [KeyTree.get?_insert _ _ KeyTree.canonical_empty] at found
    split at found
    · obtain rfl := Option.some.inj found
      exact ⟨Entry.faithful_new _, by decide⟩
    · simp at found
  have plain : renderer.Plain context := by
    refine ⟨rfl, stored, ?_, nofun⟩
    rintro param member
    obtain rfl := List.mem_singleton.mp member
    rintro content ⟨⟩
    decide
  exact ⟨plain, by decide, renderer.render_wellNested context "$@A$" plain (by decide),
    by decide +kernel⟩

end Renderer

end Phrasebook
