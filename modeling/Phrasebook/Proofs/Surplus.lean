import Phrasebook.Proofs.Composition
import Phrasebook.Proofs.Shortcuts

/-!
Stretches beyond the deepest nesting. No phrase nests them deeper than the cap. Of too many openings
the outer ones become text, one after the other, until what is left fits; then as many marks are
left over at the end, and they are text too. Nothing of the template is lost.
-/

namespace Phrasebook

theorem Laid.coloredDepth_le {budget start : Nat} {text : List Char} {phrase : Phrase}
    (laid : Laid budget start text phrase)
    (inside : 0 < budget → ∀ place inner,
      (Reading.inside budget place inner).phrase.coloredDepth < budget) :
    phrase.coloredDepth ≤ budget := by
  induction laid with
  | nil => exact Nat.zero_le budget
  | leaf _ _ _ _ ih => exact ih
  | colored spends _ _ ih => exact Nat.max_le.mpr ⟨inside spends _ _, ih⟩

theorem coloredDepth_within (budget start : Nat) (text : List Char) :
    (Reading.within budget start text).phrase.coloredDepth ≤ budget := by
  induction budget generalizing start text with
  | zero => exact (laid_within 0 start text).coloredDepth_le fun spends => absurd spends (by simp)
  | succ budget ih =>
      have laid := laid_within (budget + 1) start text
      exact laid.coloredDepth_le fun _ place inner => Nat.lt_succ_of_le (ih place inner)

def Text.repeated (count : Nat) (part : String) : String :=
  match count with
  | 0 => ""
  | count + 1 => part ++ repeated count part

theorem Text.toList_repeated (count : Nat) (part : String) :
    (repeated count part).toList = (List.replicate count part.toList).flatten := by
  induction count with
  | zero => rfl
  | succ count ih => rw [repeated, String.toList_append, ih, List.replicate_succ, List.flatten_cons]

theorem Text.repeated_succ_back (count : Nat) (part : String) :
    repeated (count + 1) part = repeated count part ++ part := by
  induction count with
  | zero => simp [repeated]
  | succ count ih => rw [repeated, ih, ← String.append_assoc, ← repeated, ih]

namespace ColorCode

def opening (code : ColorCode) : List Char := colorMark :: code.written.toList

def openings (code : ColorCode) (count : Nat) : List Char :=
  (List.replicate count code.opening).flatten

def nested (code : ColorCode) (word : List Char) (count : Nat) : List Char :=
  code.openings count ++ word ++ List.replicate count colorMark

theorem openings_succ (code : ColorCode) (count : Nat) :
    code.openings (count + 1) = code.opening ++ code.openings count := by
  rw [openings, List.replicate_succ, List.flatten_cons, openings]

theorem openings_succ_append (code : ColorCode) (count : Nat) (rest : List Char) :
    code.openings (count + 1) ++ rest =
      colorMark :: (code.written.toList ++ (code.openings count ++ rest)) := by
  simp [openings_succ, opening]

theorem nested_succ (code : ColorCode) (word : List Char) (count : Nat) :
    code.nested word (count + 1) = (Scanned.colored code (code.nested word count)).written := by
  rw [nested, openings_succ, List.replicate_succ']
  simp [nested, opening, Scanned.written]

end ColorCode

namespace Markup

def nested (code : ColorCode) (word : List Char) : Nat → Markup
  | 0 => if word = [] then nil else text word nil
  | count + 1 => colored code (nested code word count) nil

variable {code : ColorCode} {word : List Char}

theorem spelled_ordinary (ordinary : ∀ c ∈ word, isSpecial c = false) : Spelled word word := by
  induction word with
  | nil => exact .nil
  | cons c cs ih =>
      obtain ⟨first, later⟩ := List.forall_mem_cons.mp ordinary
      exact .plain first (ih later)

theorem printed_nested (ordinary : ∀ c ∈ word, isSpecial c = false) (count : Nat) :
    Printed (nested code word count) (code.nested word count) := by
  induction count with
  | zero =>
      have whole : code.nested word 0 = word ++ [] := by simp [ColorCode.nested, ColorCode.openings]
      rw [whole, nested]
      split
      · rename_i empty
        rw [empty]
        exact .nil
      · exact .text (spelled_ordinary ordinary) .nil
  | succ count ih =>
      rw [ColorCode.nested_succ]
      exact .colored code ih .nil nofun

theorem wellFormed_nested (proper : code.Proper) (count : Nat) :
    (nested code word count).WellFormed := by
  induction count with
  | zero =>
      rw [nested]
      split
      · trivial
      · rename_i nonempty
        exact ⟨nonempty, rfl, trivial⟩
  | succ count ih => exact ⟨proper, ih, trivial⟩

theorem coloredDepth_nested (count : Nat) : (nested code word count).coloredDepth = count := by
  induction count with
  | zero =>
      rw [nested]
      split <;> rfl
  | succ count ih => simp [nested, coloredDepth, ih]

end Markup

variable {context : Context} {deeper : Deeper} {code : ColorCode} {word : List Char}

theorem scan_nested (proper : code.Proper) (ordinary : ∀ c ∈ word, isSpecial c = false)
    {budget count : Nat} (fits : count < budget) {rest : List Char}
    (uncoded : ColorCode.read? rest = none) :
    scan budget (code.nested word (count + 1) ++ rest) =
      .colored code (code.nested word count) :: scan budget rest := by
  -- The stretches end where as many marks have followed; more marks do not matter.
  have shallow : (Markup.nested code word count).coloredDepth + 1 ≤ budget := by
    rw [Markup.coloredDepth_nested]
    omega
  have closed := Markup.closeColor_printed (Markup.printed_nested ordinary count)
    (Markup.wellFormed_nested proper count) shallow uncoded
  rw [ColorCode.nested_succ]
  exact Markup.scan_colored proper closed

namespace ColorCode

theorem ordinary_chars (proper : code.Proper) :
    ∀ c ∈ code.written.toList, isSpecial c = false := by
  intro c member
  apply Bool.eq_false_iff.mpr
  intro special
  have listed : c = '\\' ∨ c = '$' ∨ c = '{' ∨ c = colorMark := by
    simpa [isSpecial, or_assoc] using special
  obtain rfl | rfl | rfl | rfl := listed <;>
    exact not_mem_written proper (by decide) member

end ColorCode

namespace Scan

/-- Every opening counts, until too many are open. -/
theorem countMarks_openings (proper : code.Proper) {budget opened count : Nat}
    (few : opened ≤ budget) (beyond : budget < opened + count) (rest : List Char) :
    countMarks budget opened (code.openings count ++ rest) = .exceeded := by
  induction count generalizing opened with
  | zero => omega
  | succ count ih =>
      let later := code.written.toList ++ (code.openings count ++ rest)
      have coded : (ColorCode.read? later).isSome := by
        rw [ColorCode.read?_append proper]
        rfl
      rw [ColorCode.openings_succ_append]
      by_cases fits : opened + 1 ≤ budget
      · have deeper := ih fits (by omega)
        rw [countMarks_opening coded fits,
          countMarks_ordinary _ _ _ (ColorCode.ordinary_written proper), deeper]
        rfl
      · exact countMarks_exceeding coded (by omega)

theorem closeColor_openings (proper : code.Proper) {budget count : Nat} (beyond : budget ≤ count)
    (rest : List Char) : closeColor budget (code.openings count ++ rest) = .tooDeep := by
  unfold closeColor
  split
  · rfl
  · rename_i spends
    rw [countMarks_openings proper (by omega) (by omega) rest]

end Scan

theorem scan_ordinary (budget : Nat) (ordinary : ∀ c ∈ word, isSpecial c = false)
    (rest : List Char) : scan budget (word ++ rest) = word.map .plain ++ scan budget rest := by
  induction word with
  | nil => rfl
  | cons c cs ih =>
      obtain ⟨first, later⟩ := List.forall_mem_cons.mp ordinary
      rw [List.cons_append, Markup.scan_plain budget first, ih later]
      rfl

/-- An opening that is read as text. -/
def Scanned.cut (code : ColorCode) : List Scanned :=
  .stray colorMark .colorTooDeep :: code.written.toList.map .plain

theorem scan_cut (proper : code.Proper) {budget count : Nat} (beyond : budget ≤ count)
    (rest : List Char) :
    scan budget (code.openings (count + 1) ++ rest) =
      Scanned.cut code ++ scan budget (code.openings count ++ rest) := by
  have step : Scan.step budget colorMark (code.written.toList ++ (code.openings count ++ rest)) =
      (.stray colorMark .colorTooDeep, code.written.toList ++ (code.openings count ++ rest)) := by
    rw [Scan.step_mark, Scan.afterMark, ColorCode.read?_append proper]
    simp only [Scan.closeColor_openings proper beyond rest]
  rw [ColorCode.openings_succ_append, scan_cons, step,
    scan_ordinary budget (ColorCode.ordinary_chars proper)]
  rfl

theorem scan_cuts (proper : code.Proper) {budget count : Nat} (surplus : Nat)
    (full : 0 < surplus → budget ≤ count) (rest : List Char) :
    scan budget (code.openings (surplus + count) ++ rest) =
      (List.replicate surplus (Scanned.cut code)).flatten ++
        scan budget (code.openings count ++ rest) := by
  induction surplus with
  | zero => simp
  | succ surplus ih =>
      have enough := full (Nat.succ_pos surplus)
      rw [Nat.succ_add, scan_cut proper (by omega), ih fun _ => enough, List.replicate_succ,
        List.flatten_cons, List.append_assoc]

theorem uncoded_marks (count : Nat) :
    ColorCode.read? (List.replicate count colorMark) = none := by
  cases count with
  | zero => rfl
  | succ count => exact Markup.read?_special (by decide) _

theorem scan_marks (budget count : Nat) :
    scan budget (List.replicate count colorMark) =
      (List.replicate count colorMark).map .plain := by
  induction count with
  | zero => simp
  | succ count ih =>
      have step : Scan.step budget colorMark (List.replicate count colorMark) =
          (.plain colorMark, List.replicate count colorMark) := by
        rw [Scan.step_mark, Scan.afterMark, uncoded_marks]
      rw [List.replicate_succ, scan_cons, step, ih, List.map_cons]

/-- The openings that are too many come first, then the stretches that fit, then the marks that are
left over. -/
theorem scan_surplus (proper : code.Proper) (ordinary : ∀ c ∈ word, isSpecial c = false)
    {budget count : Nat} (surplus : Nat) (fits : count ≤ budget)
    (full : 0 < surplus → budget ≤ count) :
    scan budget (code.nested word (surplus + count)) =
      (List.replicate surplus (Scanned.cut code)).flatten ++
        (scan budget (code.nested word count) ++
          (List.replicate surplus colorMark).map .plain) := by
  have whole : code.nested word (surplus + count) =
      code.openings (surplus + count) ++
        (word ++ List.replicate count colorMark ++ List.replicate surplus colorMark) := by
    rw [ColorCode.nested, Nat.add_comm surplus count, ← List.replicate_append_replicate]
    simp
  have front : code.openings count ++
      (word ++ List.replicate count colorMark ++ List.replicate surplus colorMark) =
      code.nested word count ++ List.replicate surplus colorMark := by
    simp [ColorCode.nested]
  have shallow : (Markup.nested code word count).coloredDepth ≤ budget := by
    rwa [Markup.coloredDepth_nested]
  rw [whole, scan_cuts proper surplus full, front,
    Markup.scan_printed_append (Markup.printed_nested ordinary count)
      (Markup.wellFormed_nested proper count) shallow (uncoded_marks surplus), scan_marks]

/-- The computation has that text as its value and nothing to report. -/
structure Noted.Writes (noted : Noted String) (text : String) : Prop where
  value : noted.value = text
  silent : noted.diagnostics = []

theorem Noted.Joins.writes {first second both : Noted String} {left right : String}
    (joins : Joins first second both) (front : first.Writes left) (behind : second.Writes right) :
    both.Writes (left ++ right) := by
  refine ⟨?_, ?_⟩
  · rw [joins.value, front.value, behind.value]
  · rw [joins.diagnostics, front.silent, behind.silent, List.append_nil]

namespace Scanned

def Literal : Scanned → Prop
  | plain _ => True
  | stray _ _ => True
  | _ => False

theorem literal_plain (text : List Char) : ∀ piece ∈ text.map plain, piece.Literal := by
  intro piece member
  obtain ⟨c, _, rfl⟩ := List.mem_map.mp member
  trivial

theorem literal_cuts (code : ColorCode) (count : Nat) :
    ∀ piece ∈ (List.replicate count (cut code)).flatten, piece.Literal := by
  intro piece member
  obtain ⟨pieces, listed, member⟩ := List.mem_flatten.mp member
  rw [List.eq_of_mem_replicate listed, cut] at member
  obtain rfl | plain := List.mem_cons.mp member
  · trivial
  · exact literal_plain _ piece plain

theorem written_plain (text : List Char) :
    (text.map plain).flatMap written = text := by
  induction text with
  | nil => rfl
  | cons c cs ih =>
      rw [List.map_cons, List.flatMap_cons, ih]
      rfl

theorem written_cut (code : ColorCode) : (cut code).flatMap written = code.opening := by
  rw [cut, List.flatMap_cons, written_plain]
  rfl

theorem written_cuts (code : ColorCode) (count : Nat) :
    (List.replicate count (cut code)).flatten.flatMap written = code.openings count := by
  induction count with
  | zero => rfl
  | succ count ih =>
      rw [List.replicate_succ, List.flatten_cons, List.flatMap_append, ih, written_cut,
        ColorCode.openings_succ]

end Scanned

theorem Noted.character_writes (c : Char) :
    (Noted.emit c.toString).Writes (String.ofList [c]) := by
  constructor <;> simp [Noted.emit]

open Noted

namespace Renderer

theorem literal_writes (renderer : Renderer) (readInner : Nat → List Char → Reading) (start : Nat)
    {pieces : List Scanned} (literal : ∀ piece ∈ pieces, piece.Literal) :
    (renderer.renderPhrase context deeper
      (Reading.assemble readInner start pieces).phrase).Writes
        (String.ofList (pieces.flatMap Scanned.written)) := by
  induction pieces generalizing start with
  | nil => exact ⟨rfl, rfl⟩
  | cons piece later ih =>
      obtain ⟨first, others⟩ := List.forall_mem_cons.mp literal
      have behind := ih (start + Text.byteLength piece.written) others
      have joined : String.ofList ((piece :: later).flatMap Scanned.written) =
          String.ofList piece.written ++ String.ofList (later.flatMap Scanned.written) := by
        rw [List.flatMap_cons, String.ofList_append]
      rw [joined]
      cases piece with
      | plain c => exact (prependText_joins ..).writes (character_writes c) behind
      | stray c kind => exact (prependText_joins ..).writes (character_writes c) behind
      | escaped => cases first
      | reference => cases first
      | slot => cases first
      | colored => cases first

theorem plain_writes (renderer : Renderer) (readInner : Nat → List Char → Reading)
    (start : Nat) (text : List Char) :
    (renderer.renderPhrase context deeper
      (Reading.assemble readInner start (text.map .plain)).phrase).Writes (String.ofList text) := by
  have writes := @literal_writes context deeper renderer readInner start _
    (Scanned.literal_plain text)
  rwa [Scanned.written_plain] at writes

theorem cuts_writes (renderer : Renderer) (readInner : Nat → List Char → Reading)
    (start : Nat) (code : ColorCode) (count : Nat) :
    (renderer.renderPhrase context deeper
      (Reading.assemble readInner start
        (List.replicate count (Scanned.cut code)).flatten).phrase).Writes
      (String.ofList (code.openings count)) := by
  have writes := @literal_writes context deeper renderer readInner start _
    (Scanned.literal_cuts code count)
  rwa [Scanned.written_cuts] at writes

theorem renderInside_writes {renderer : Renderer} {body : Phrase} {inner text : String}
    (writes : (renderer.renderPhrase context deeper body).Writes text)
    (empty : body = .nil → inner = "") :
    (renderer.renderInside context deeper inner body).Writes text := by
  cases body with
  | nil =>
      rw [empty rfl]
      exact ⟨writes.value, writes.silent⟩
  | leaf => exact writes
  | colored => exact writes

theorem colored_writes (renderer : Renderer) {start : Nat} {inner text rest : String}
    {body next : Phrase}
    (inside : (renderer.renderInside context deeper inner body).Writes text)
    (behind : (renderer.renderPhrase context deeper next).Writes rest) :
    (renderer.renderPhrase context deeper (.colored start code inner body next)).Writes
      ("<color=" ++ code.hex ++ ">" ++ text ++ "</color>" ++ rest) := by
  rw [renderPhrase_colored]
  constructor <;>
    simp [inside.value, inside.silent, behind.value, behind.silent, -bind_pure_comp]

theorem nested_writes (renderer : Renderer) (proper : code.Proper)
    (ordinary : ∀ c ∈ word, isSpecial c = false) {budget count : Nat}
    (fits : count ≤ budget) (start : Nat) :
    (renderer.renderPhrase context deeper
      (Reading.within budget start (code.nested word count)).phrase).Writes
        (Text.repeated count ("<color=" ++ code.hex ++ ">") ++ String.ofList word ++
          Text.repeated count "</color>") := by
  induction count generalizing budget start with
  | zero =>
      have plain : code.nested word 0 = word := by simp [ColorCode.nested, ColorCode.openings]
      rw [plain]
      cases word with
      | nil =>
          rw [Reading.within_nil]
          exact ⟨rfl, rfl⟩
      | cons c cs =>
          rw [Reading.within_plain budget start ordinary]
          constructor <;> simp [renderPhrase, renderLeaf, Text.repeated, -bind_pure_comp]
  | succ count ih =>
      cases budget with
      | zero => exact absurd fits (Nat.not_succ_le_zero count)
      | succ budget =>
          have uncoded : ColorCode.read? [] = none := rfl
          have scanned := scan_nested proper ordinary (Nat.lt_of_succ_le fits) uncoded
          rw [List.append_nil, scan_nil] at scanned
          let place := start + colorMark.utf8Size + code.written.utf8ByteSize
          have inside := ih (Nat.le_of_succ_le_succ fits) place
          have laid := laid_within budget place (code.nested word count)
          have empty : (Reading.within budget place (code.nested word count)).phrase = .nil →
              String.ofList (code.nested word count) = "" := by
            intro none
            rw [none] at laid
            rw [laid.eq_nil]
          have behind : (renderer.renderPhrase context deeper .nil).Writes "" := ⟨rfl, rfl⟩
          have whole := @colored_writes _ _ code renderer start _ _ _ _ _
            (renderInside_writes inside empty) behind
          rw [Reading.within_eq, scanned, Text.repeated, Text.repeated_succ_back]
          simpa [Reading.assemble, Reading.inside, Reading.empty, String.append_assoc] using whole

theorem surplus_writes (renderer : Renderer) (proper : code.Proper)
    (ordinary : ∀ c ∈ word, isSpecial c = false) {budget kept : Nat}
    (cut : Nat) (fits : kept ≤ budget) (full : 0 < cut → budget ≤ kept) :
    (renderer.renderPhrase context deeper
      (Reading.within budget 0 (code.nested word (cut + kept))).phrase).Writes
        (String.ofList (code.openings cut) ++
          (Text.repeated kept ("<color=" ++ code.hex ++ ">") ++ String.ofList word ++
            Text.repeated kept "</color>" ++ String.ofList (List.replicate cut colorMark))) := by
  rw [Reading.within_eq, scan_surplus proper ordinary cut fits full]
  refine (assemble_joins ..).writes (renderer.cuts_writes ..) ?_
  refine (assemble_joins ..).writes ?_ (renderer.plain_writes ..)
  rw [← Reading.within_eq]
  exact renderer.nested_writes proper ordinary fits _

end Renderer

theorem Reading.assemble_issues_append (readInner : Nat → List Char → Reading) (start : Nat)
    (pieces more : List Scanned) :
    (assemble readInner start (pieces ++ more)).issues =
      (assemble readInner start pieces).issues ++
        (assemble readInner
          (start + Text.byteLength (pieces.flatMap Scanned.written)) more).issues := by
  induction pieces generalizing start with
  | nil => simp [assemble, Reading.empty]
  | cons piece later ih =>
      have behind := ih (start + Text.byteLength piece.written)
      rw [Nat.add_assoc, ← Text.byteLength_append, ← List.flatMap_cons] at behind
      cases piece <;> simp [assemble, behind]

theorem Reading.assemble_issues_plain (readInner : Nat → List Char → Reading) (start : Nat)
    (text : List Char) : (assemble readInner start (text.map .plain)).issues = [] := by
  induction text generalizing start with
  | nil => rfl
  | cons c cs ih => exact ih _

def ColorCode.cutIssues (code : ColorCode) (start count : Nat) : List Issue :=
  (List.range count).map fun i =>
    ⟨.colorTooDeep, colorMark, start + i * Text.byteLength code.opening⟩

theorem ColorCode.cutIssues_succ (code : ColorCode) (start count : Nat) :
    code.cutIssues start (count + 1) =
      ⟨.colorTooDeep, colorMark, start⟩ ::
        code.cutIssues (start + Text.byteLength code.opening) count := by
  have later : ∀ i, start + (i + 1) * Text.byteLength code.opening =
      start + Text.byteLength code.opening + i * Text.byteLength code.opening := by
    intro i
    rw [Nat.succ_mul, Nat.add_comm (i * _), Nat.add_assoc]
  simp [cutIssues, List.range_succ_eq_map, later]

theorem issues_cut (readInner : Nat → List Char → Reading) (code : ColorCode) (start : Nat) :
    (Reading.assemble readInner start (Scanned.cut code)).issues =
      [⟨.colorTooDeep, colorMark, start⟩] := by
  simp [Scanned.cut, Reading.assemble, Reading.assemble_issues_plain]

theorem issues_cuts (readInner : Nat → List Char → Reading) (code : ColorCode)
    (start count : Nat) :
    (Reading.assemble readInner start
      (List.replicate count (Scanned.cut code)).flatten).issues = code.cutIssues start count := by
  induction count generalizing start with
  | zero => rfl
  | succ count ih =>
      rw [List.replicate_succ, List.flatten_cons, Reading.assemble_issues_append, issues_cut,
        Scanned.written_cut, ih, ColorCode.cutIssues_succ]
      rfl

theorem issues_nested (proper : code.Proper) (ordinary : ∀ c ∈ word, isSpecial c = false)
    {budget count : Nat} (fits : count ≤ budget) (start : Nat) :
    (Reading.within budget start (code.nested word count)).issues = [] := by
  have shallow : (Markup.nested code word count).coloredDepth ≤ budget := by
    rwa [Markup.coloredDepth_nested]
  exact (Markup.reads_of_printed (Markup.printed_nested ordinary count)
    (Markup.wellFormed_nested proper count) shallow start).2

namespace ColorCode

theorem toList_opening (code : ColorCode) :
    ("§" ++ code.written).toList = code.opening := by
  rw [String.toList_append]
  rfl

theorem byteLength_opening (code : ColorCode) :
    Text.byteLength code.opening = ("§" ++ code.written).utf8ByteSize := by
  rw [Text.utf8ByteSize_eq, toList_opening]

theorem ofList_openings (code : ColorCode) (count : Nat) :
    String.ofList (code.openings count) = Text.repeated count ("§" ++ code.written) := by
  rw [openings, ← toList_opening, ← Text.toList_repeated, String.ofList_toList]

end ColorCode

theorem Text.ofList_marks (count : Nat) :
    String.ofList (List.replicate count colorMark) = repeated count "§" := by
  have flat : List.replicate count colorMark = (List.replicate count "§".toList).flatten := by
    simp [colorMark]
  rw [flat, ← toList_repeated, String.ofList_toList]

namespace Template

def layered (code : ColorCode) (word : String) (count : Nat) : String :=
  Text.repeated count ("§" ++ code.written) ++ word ++ Text.repeated count "§"

theorem layered_toList (code : ColorCode) (word : String) (count : Nat) :
    (layered code word count).toList = code.nested word.toList count := by
  simp only [layered, String.toList_append, ← code.ofList_openings, ← Text.ofList_marks,
    String.toList_ofList, ColorCode.nested]

end Template

theorem surplus_issues (proper : code.Proper) (ordinary : ∀ c ∈ word, isSpecial c = false)
    {budget kept : Nat} (cut : Nat) (fits : kept ≤ budget) (full : 0 < cut → budget ≤ kept) :
    (Reading.within budget 0 (code.nested word (cut + kept))).issues = code.cutIssues 0 cut := by
  rw [Reading.within_eq, scan_surplus proper ordinary cut fits full,
    Reading.assemble_issues_append, Reading.assemble_issues_append, issues_cuts,
    ← Reading.within_eq, issues_nested proper ordinary fits, Reading.assemble_issues_plain,
    List.append_nil, List.append_nil]

namespace Renderer

/-- No template nests stretches deeper than the cap. Of a word inside of more stretches than that,
the outer openings are written as they stand, each with a warning of its own, and so are as many
marks at the end. -/
theorem render_layered (renderer : Renderer) (context : Context) (code : ColorCode)
    (word : String) (count : Nat) (proper : code.Proper) (plain : ¬ hasSpecial word) :
    let cut := count - maxColorNesting
    let kept := count - cut
    let width := ("§" ++ code.written).utf8ByteSize
    (∀ source, (Template.read source).phrase.coloredDepth ≤ maxColorNesting) ∧
      (renderer.render context (Template.layered code word count)).value =
        Text.repeated cut ("§" ++ code.written) ++
          Text.repeated kept ("<color=" ++ code.hex ++ ">") ++ word ++
            Text.repeated kept "</color>" ++ Text.repeated cut "§" ∧
      (renderer.render context (Template.layered code word count)).diagnostics =
        (List.range cut).map fun i =>
          ⟨.warning, .tokenizationError, "§", IssueKind.colorTooDeep.message, none,
            some ⟨i * width, i * width + "§".utf8ByteSize⟩, context.depth⟩ := by
  intro cut kept width
  have ordinary : ∀ c ∈ word.toList, isSpecial c = false := by
    intro c member
    exact Bool.eq_false_iff.mpr fun special => plain (List.any_eq_true.mpr ⟨c, member, special⟩)
  have fits : kept ≤ maxColorNesting := by omega
  have full : 0 < cut → maxColorNesting ≤ kept := by omega
  have whole :
      (Template.layered code word count).toList = code.nested word.toList (cut + kept) := by
    have all : cut + kept = count := by omega
    rw [all, Template.layered_toList]
  obtain ⟨value, diagnostics⟩ := renderer.render_parts context (Template.layered code word count)
  have writes := @surplus_writes context (renderer.deeper context) code word.toList renderer proper
    ordinary maxColorNesting kept cut fits full
  have issues := surplus_issues proper ordinary cut fits full
  rw [← whole] at writes issues
  refine ⟨fun source => coloredDepth_within .., ?_, ?_⟩
  · rw [value, Template.read, writes.value, String.ofList_toList, code.ofList_openings,
      Text.ofList_marks]
    simp only [String.append_assoc]
  · have issued : (Template.read (Template.layered code word count)).issues =
        code.cutIssues 0 cut := issues
    rw [diagnostics, issued, Template.read, writes.silent, List.append_nil, ColorCode.cutIssues,
      List.map_map]
    refine List.map_congr_left fun i _ => ?_
    simp only [Function.comp_apply, Nat.zero_add, code.byteLength_opening]
    rfl

theorem render_layered_deep :
    let renderer : Renderer := ⟨.empty, .defaults, .usual, .legacy⟩
    let rendered := renderer.render (.new .empty) (Template.layered (.letter 'R') "x" 66)
    (ColorCode.letter 'R').Proper ∧ ¬ hasSpecial "x" ∧
      rendered.value = "§R§R" ++ Text.repeated 64 "<color=#FF0000>" ++ "x" ++
        Text.repeated 64 "</color>" ++ "§§" ∧
      rendered.diagnostics.map (·.span) = [some ⟨0, 2⟩, some ⟨3, 5⟩] := by
  intro renderer rendered
  have proper : (ColorCode.letter 'R').Proper := rfl
  have plain : ¬ hasSpecial "x" := by decide
  obtain ⟨_, value, diagnostics⟩ :=
    renderer.render_layered (.new .empty) (.letter 'R') "x" 66 proper plain
  refine ⟨proper, plain, value, ?_⟩
  rw [diagnostics]
  rfl

end Renderer

end Phrasebook
