import Phrasebook.Phrase.Reading
import Phrasebook.Proofs.Braces
import Phrasebook.Proofs.Marks

/-!
Printing of templates, and that reading undoes it. A markup is what a phrase means, without the
places and the spelling of its pieces. It can be printed in many ways, since any character of a text
may stand behind a backslash; some must, or they would be read as more than text.
-/

namespace Phrasebook

inductive Markup where
  | nil
  | text (content : List Char) (next : Markup)
  | reference (tooltip : Bool) (key : List Char) (next : Markup)
  | slot (formula : List Char) (format : Option (List Char)) (next : Markup)
  | colored (code : ColorCode) (body next : Markup)
  deriving DecidableEq

def Phrase.markup : Phrase → Markup
  | .nil => .nil
  | .leaf _ (.text _ content) next => .text content.toList next.markup
  | .leaf _ (.reference tooltip key) next => .reference tooltip key.toList next.markup
  | .leaf _ (.slot formula format) next =>
      .slot formula.toList (format.map String.toList) next.markup
  | .colored _ code _ body next => .colored code body.markup next.markup

namespace Markup

open Braces

def beginsWithText : Markup → Bool
  | text _ _ => true
  | _ => false

def coloredDepth : Markup → Nat
  | nil => 0
  | text _ next => next.coloredDepth
  | reference _ _ next => next.coloredDepth
  | slot _ _ next => next.coloredDepth
  | colored _ body next => max (body.coloredDepth + 1) next.coloredDepth

/-- Texts are not empty and not side by side, and every piece can be told from what follows it. -/
def WellFormed : Markup → Prop
  | nil => True
  | text content next => content ≠ [] ∧ next.beginsWithText = false ∧ next.WellFormed
  | reference tooltip key next =>
      '$' ∉ key ∧ colorMark ∉ key ∧ (tooltip = false → key.head? ≠ some '@') ∧ next.WellFormed
  | slot formula format next =>
      Balanced formula ∧ ColonFree formula ∧ colorMark ∉ formula ∧
        (∀ spec ∈ format, Balanced spec ∧ colorMark ∉ spec) ∧ next.WellFormed
  | colored code body next => code.Proper ∧ body.WellFormed ∧ next.WellFormed

/-- A text as it may be written: special characters stand behind a backslash, others may. -/
inductive Spelled : List Char → List Char → Prop
  | nil : Spelled [] []
  | plain {c : Char} {content written : List Char} (ordinary : isSpecial c = false)
      (later : Spelled content written) : Spelled (c :: content) (c :: written)
  | hidden (c : Char) {content written : List Char} (later : Spelled content written) :
      Spelled (c :: content) ('\\' :: c :: written)

/-- A markup as it may be written. A text behind a colored stretch begins with a backslash. -/
inductive Printed : Markup → List Char → Prop
  | nil : Printed nil []
  | text {content written : List Char} {next : Markup} {later : List Char}
      (spelled : Spelled content written) (rest : Printed next later) :
      Printed (text content next) (written ++ later)
  | plainReference (key : List Char) {next : Markup} {later : List Char}
      (rest : Printed next later) :
      Printed (reference false key next) ('$' :: key ++ '$' :: later)
  | tooltipReference (key : List Char) {next : Markup} {later : List Char}
      (rest : Printed next later) :
      Printed (reference true key next) ('$' :: '@' :: key ++ '$' :: later)
  | plainSlot (formula : List Char) {next : Markup} {later : List Char}
      (rest : Printed next later) :
      Printed (slot formula none next) ('{' :: formula ++ '}' :: later)
  | formattedSlot (formula format : List Char) {next : Markup} {later : List Char}
      (rest : Printed next later) :
      Printed (slot formula (some format) next) ('{' :: formula ++ ':' :: format ++ '}' :: later)
  | colored (code : ColorCode) {body next : Markup} {inner later : List Char}
      (inside : Printed body inner) (rest : Printed next later)
      (hides : next.beginsWithText → later.head? = some '\\') :
      Printed (colored code body next)
        (colorMark :: code.written.toList ++ inner ++ colorMark :: later)

theorem read?_special {c : Char} (special : isSpecial c) (rest : List Char) :
    ColorCode.read? (c :: rest) = none := by
  simp only [isSpecial, Bool.or_eq_true, decide_eq_true_eq] at special
  rcases special with ((rfl | rfl) | rfl) | rfl <;> rfl

theorem uncoded_of_printed {markup : Markup} {text rest : List Char}
    (printed : Printed markup text) (hides : markup.beginsWithText → text.head? = some '\\')
    (uncoded : ColorCode.read? rest = none) : ColorCode.read? (text ++ rest) = none := by
  cases printed with
  | nil => exact uncoded
  | @text content written next later spelled _ =>
      obtain ⟨tail, same⟩ := List.head?_eq_some_iff.mp (hides rfl)
      rw [same]
      exact read?_special (by decide) _
  | colored => exact read?_special (by decide) _
  | _ => exact read?_special (by decide) _

theorem countMarks_spelled {content written : List Char} (spelled : Spelled content written)
    (budget opened : Nat) (rest : List Char) :
    Scan.countMarks budget opened (written ++ rest) =
      (Scan.countMarks budget opened rest).behind written := by
  induction spelled with
  | nil => simp
  | @plain c content written ordinary later ih =>
      simp only [isSpecial, Bool.or_eq_false_iff, decide_eq_false_iff_not] at ordinary
      rw [List.cons_append, Scan.countMarks_plain _ _ _ ordinary.1.1.1 ordinary.2, ih,
        Scan.behind_behind]
      rfl
  | hidden c later ih =>
      rw [List.cons_append, List.cons_append, Scan.countMarks_escaped, ih, Scan.behind_behind]
      rfl

theorem countMarks_closed {budget opened : Nat} {piece later rest : List Char} {last : Char}
    (unmarked : colorMark ∉ piece) (closes : last = '$' ∨ last = '}')
    (goesOn : Scan.countMarks budget opened (later ++ rest) =
      (Scan.countMarks budget opened rest).behind later) :
    Scan.countMarks budget opened (piece ++ last :: later ++ rest) =
      (Scan.countMarks budget opened rest).behind (piece ++ last :: later) := by
  have plain : last ≠ '\\' := by rcases closes with rfl | rfl <;> decide
  have different : last ≠ colorMark := by rcases closes with rfl | rfl <;> decide
  rw [List.append_assoc, List.cons_append,
    Scan.countMarks_unmarked budget opened piece _ unmarked plain different, goesOn,
    Scan.behind_behind, List.append_assoc]
  rfl

/-- The count of marks goes through a printed markup and is not changed by it. -/
theorem countMarks_printed {markup : Markup} {text : List Char} (printed : Printed markup text)
    (wellFormed : markup.WellFormed) {budget opened : Nat}
    (shallow : opened + 1 + markup.coloredDepth ≤ budget) {rest : List Char}
    (uncoded : ColorCode.read? rest = none) :
    Scan.countMarks budget (opened + 1) (text ++ rest) =
      (Scan.countMarks budget (opened + 1) rest).behind text := by
  induction printed generalizing opened rest with
  | nil => simp
  | text spelled _ ih =>
      have later := ih wellFormed.2.2 shallow uncoded
      rw [List.append_assoc, countMarks_spelled spelled, later, Scan.behind_behind]
  | plainReference key _ ih =>
      have unmarked : colorMark ∉ '$' :: key :=
        List.not_mem_cons_of_ne_of_not_mem (by decide) wellFormed.2.1
      exact countMarks_closed unmarked (.inl rfl) (ih wellFormed.2.2.2 shallow uncoded)
  | tooltipReference key _ ih =>
      have unmarked : colorMark ∉ '$' :: '@' :: key :=
        List.not_mem_cons_of_ne_of_not_mem (by decide)
          (List.not_mem_cons_of_ne_of_not_mem (by decide) wellFormed.2.1)
      exact countMarks_closed unmarked (.inl rfl) (ih wellFormed.2.2.2 shallow uncoded)
  | plainSlot formula _ ih =>
      have unmarked : colorMark ∉ '{' :: formula :=
        List.not_mem_cons_of_ne_of_not_mem (by decide) wellFormed.2.2.1
      exact countMarks_closed unmarked (.inr rfl) (ih wellFormed.2.2.2.2 shallow uncoded)
  | formattedSlot formula format _ ih =>
      have unmarked : colorMark ∉ '{' :: formula ++ ':' :: format := by
        have formatted := wellFormed.2.2.2.1 format rfl
        simp only [List.cons_append, List.mem_cons, List.mem_append, not_or]
        exact ⟨by decide, wellFormed.2.2.1, by decide, formatted.2⟩
      exact countMarks_closed unmarked (.inr rfl) (ih wellFormed.2.2.2.2 shallow uncoded)
  | @colored code body next inner later inside _ hides ihBody ihNext =>
      obtain ⟨proper, wellBody, wellNext⟩ := wellFormed
      simp only [coloredDepth] at shallow
      have closed : ColorCode.read? (colorMark :: (later ++ rest)) = none :=
        read?_special (by decide) _
      have follows := uncoded_of_printed (by assumption) hides uncoded
      have coded : (ColorCode.read? (code.written.toList ++
          (inner ++ colorMark :: (later ++ rest)))).isSome := by
        rw [ColorCode.read?_append proper]
        rfl
      have deeper : opened + 1 + 1 + body.coloredDepth ≤ budget := by omega
      have along : opened + 1 + next.coloredDepth ≤ budget := by omega
      have insideCount := ihBody wellBody deeper closed
      have nextCount := ihNext wellNext along uncoded
      have regroup : colorMark :: code.written.toList ++ inner ++ colorMark :: later ++ rest =
          colorMark :: (code.written.toList ++ (inner ++ colorMark :: (later ++ rest))) := by simp
      rw [regroup, Scan.countMarks_opening coded (by omega),
        Scan.countMarks_ordinary _ _ _ (ColorCode.ordinary_written proper), insideCount,
        Scan.countMarks_closing follows, if_neg (by omega), nextCount]
      simp

theorem closeColor_printed {body : Markup} {inner : List Char} (inside : Printed body inner)
    (wellFormed : body.WellFormed) {budget : Nat} (shallow : body.coloredDepth + 1 ≤ budget)
    {rest : List Char} (uncoded : ColorCode.read? rest = none) :
    Scan.closeColor budget (inner ++ colorMark :: rest) = .matched inner rest := by
  have closed : ColorCode.read? (colorMark :: rest) = none := read?_special (by decide) _
  have fits : 0 + 1 + body.coloredDepth ≤ budget := by omega
  have count := countMarks_printed inside wellFormed fits closed
  rw [Scan.countMarks_closing uncoded, if_pos rfl] at count
  have some_budget : budget ≠ 0 := by omega
  simp [Scan.closeColor, some_budget, count, Scan.MarkCount.behind]

def addText (content : List Char) : Markup → Markup
  | text later next => text (content ++ later) next
  | markup => text content markup

theorem markup_prependText (start : Nat) (written content : String) (phrase : Phrase) :
    (phrase.prependText start written content).markup =
      phrase.markup.addText content.toList := by
  fun_cases Phrase.prependText start written content phrase with
  | case1 _ later meant next => simp [Phrase.markup, addText]
  | case2 phrase distinct =>
      cases phrase with
      | nil => rfl
      | leaf first piece next =>
          cases piece with
          | text later meant => exact absurd rfl (distinct first later meant next)
          | reference tooltip key => rfl
          | slot formula format => rfl
      | colored first code inner body next => rfl

theorem foldr_addText {content : List Char} (nonempty : content ≠ []) {next : Markup}
    (apart : next.beginsWithText = false) :
    content.foldr (fun c markup => markup.addText [c]) next = text content next := by
  induction content with
  | nil => contradiction
  | cons c cs ih =>
      cases cs with
      | nil => cases next <;> first | rfl | cases apart
      | cons d ds => rw [List.foldr_cons, ih (by simp)]; rfl

theorem scan_plain (budget : Nat) {c : Char} (ordinary : isSpecial c = false) (rest : List Char) :
    scan budget (c :: rest) = .plain c :: scan budget rest := by
  have step : Scan.step budget c rest = (.plain c, rest) := by
    simp only [isSpecial, Bool.or_eq_false_iff, decide_eq_false_iff_not] at ordinary
    simp [Scan.step, ordinary]
  rw [scan_cons, step]

theorem scan_hidden (budget : Nat) (c : Char) (rest : List Char) :
    scan budget ('\\' :: c :: rest) = .escaped c :: scan budget rest := by
  have step : Scan.step budget '\\' (c :: rest) = (.escaped c, rest) := by simp [Scan.step]
  rw [scan_cons, step]

theorem scan_reference (budget : Nat) {tooltip : Bool} {key : List Char} (closed : '$' ∉ key)
    (named : tooltip = false → key.head? ≠ some '@') (rest : List Char) :
    scan budget ((Scanned.reference tooltip key).written ++ rest) =
      .reference tooltip key :: scan budget rest := by
  have split := Text.splitFirst?_append rest closed
  cases tooltip with
  | false =>
      have unlike : ∀ tail, key ++ '$' :: rest ≠ '@' :: tail := by
        intro tail same
        cases key with
        | nil => cases same
        | cons c cs => exact named rfl (congrArg some (List.cons.inj same).1)
      have found : Scan.reference? (key ++ '$' :: rest) = some (false, key, rest) := by
        rw [Scan.reference?, split]
        · rfl
        · exact unlike
      have step : Scan.step budget '$' (key ++ '$' :: rest) = (.reference false key, rest) := by
        simp [Scan.step, found]
      simp [Scanned.written, scan_cons, step]
  | true =>
      have found : Scan.reference? ('@' :: (key ++ '$' :: rest)) = some (true, key, rest) := by
        rw [Scan.reference?, split]
        rfl
      have step : Scan.step budget '$' ('@' :: (key ++ '$' :: rest)) =
          (.reference true key, rest) := by
        simp [Scan.step, found]
      simp [Scanned.written, scan_cons, step]

theorem scan_slot (budget : Nat) {formula : List Char} {format : Option (List Char)}
    (balanced : Balanced formula) (free : ColonFree formula)
    (formatted : ∀ spec ∈ format, Balanced spec) (rest : List Char) :
    scan budget ((Scanned.slot formula format).written ++ rest) =
      .slot formula format :: scan budget rest := by
  obtain ⟨content, whole, parts⟩ : ∃ content, Balanced content ∧
      Scan.slot content = .slot formula format := by
    cases format with
    | none => exact ⟨formula, balanced, slot_plain balanced free⟩
    | some spec => exact ⟨formula ++ ':' :: spec, balanced_colon balanced (formatted spec rfl),
        slot_formatted spec balanced free⟩
  have split := (splitBrace?_eq_some_iff 0 _ content rest).mpr ⟨rfl, whole⟩
  have step : Scan.step budget '{' (content ++ '}' :: rest) = (.slot formula format, rest) := by
    simp [Scan.step, split, parts]
  rw [← parts, Scan.slot_written]
  simp [scan_cons, step, parts]

theorem scan_colored {budget : Nat} {code : ColorCode} {inner rest : List Char}
    (proper : code.Proper)
    (closed : Scan.closeColor budget (inner ++ colorMark :: rest) = .matched inner rest) :
    scan budget ((Scanned.colored code inner).written ++ rest) =
      .colored code inner :: scan budget rest := by
  have step : Scan.step budget colorMark
      (code.written.toList ++ (inner ++ colorMark :: rest)) = (.colored code inner, rest) := by
    rw [Scan.step_mark, Scan.afterMark, ColorCode.read?_append proper]
    simp only [closed]
  simp [Scanned.written, scan_cons, step]

/-- The template is read as the markup, and nothing is wrong with it. -/
def Reads (markup : Markup) (budget : Nat) (text : List Char) : Prop :=
  ∀ start, (Reading.within budget start text).phrase.markup = markup ∧
    (Reading.within budget start text).issues = []

theorem reads_nil (budget : Nat) : Reads nil budget [] := by
  intro start
  rw [Reading.within_nil]
  exact ⟨rfl, rfl⟩

theorem reads_plain {markup : Markup} {budget : Nat} {c : Char} {rest : List Char}
    (ordinary : isSpecial c = false) (later : Reads markup budget rest) :
    Reads (markup.addText [c]) budget (c :: rest) := by
  intro start
  have next := later (start + Text.byteLength [c])
  rw [Reading.within_eq, scan_plain budget ordinary]
  simp only [Reading.assemble, ← Reading.within_eq, Scanned.written, markup_prependText]
  exact ⟨by rw [next.1]; simp, next.2⟩

theorem reads_hidden {markup : Markup} {budget : Nat} (c : Char) {rest : List Char}
    (later : Reads markup budget rest) : Reads (markup.addText [c]) budget ('\\' :: c :: rest) := by
  intro start
  have next := later (start + Text.byteLength ['\\', c])
  rw [Reading.within_eq, scan_hidden]
  simp only [Reading.assemble, ← Reading.within_eq, Scanned.written, markup_prependText]
  exact ⟨by rw [next.1]; simp, next.2⟩

theorem reads_reference {markup : Markup} {budget : Nat} {tooltip : Bool} {key rest : List Char}
    (closed : '$' ∉ key) (named : tooltip = false → key.head? ≠ some '@')
    (later : Reads markup budget rest) :
    Reads (reference tooltip key markup) budget
      ((Scanned.reference tooltip key).written ++ rest) := by
  intro start
  have next := later (start + Text.byteLength (Scanned.reference tooltip key).written)
  rw [Reading.within_eq, scan_reference budget closed named]
  simp only [Reading.assemble, ← Reading.within_eq, Phrase.markup, String.toList_ofList]
  exact ⟨by rw [next.1], next.2⟩

theorem reads_slot {markup : Markup} {budget : Nat} {formula : List Char}
    {format : Option (List Char)} {rest : List Char} (balanced : Balanced formula)
    (free : ColonFree formula) (formatted : ∀ spec ∈ format, Balanced spec)
    (later : Reads markup budget rest) :
    Reads (slot formula format markup) budget
      ((Scanned.slot formula format).written ++ rest) := by
  intro start
  have next := later (start + Text.byteLength (Scanned.slot formula format).written)
  rw [Reading.within_eq, scan_slot budget balanced free formatted]
  simp only [Reading.assemble, ← Reading.within_eq, Phrase.markup, String.toList_ofList]
  exact ⟨by rw [next.1]; cases format <;> simp, next.2⟩

theorem reads_colored {body markup : Markup} {budget : Nat} {code : ColorCode}
    {inner rest : List Char} (proper : code.Proper)
    (closed : Scan.closeColor (budget + 1) (inner ++ colorMark :: rest) = .matched inner rest)
    (inside : Reads body budget inner) (later : Reads markup (budget + 1) rest) :
    Reads (colored code body markup) (budget + 1)
      ((Scanned.colored code inner).written ++ rest) := by
  intro start
  have next := later (start + Text.byteLength (Scanned.colored code inner).written)
  have within := inside (start + colorMark.utf8Size + code.written.utf8ByteSize)
  have level : Reading.inside (budget + 1) = Reading.within budget := rfl
  rw [Reading.within_eq, scan_colored proper closed]
  simp only [Reading.assemble, ← Reading.within_eq, Phrase.markup]
  exact ⟨by rw [next.1, level, within.1], by rw [next.2, level, within.2]; rfl⟩

theorem reads_of_printed {markup : Markup} {text : List Char} (printed : Printed markup text)
    (wellFormed : markup.WellFormed) {budget : Nat} (shallow : markup.coloredDepth ≤ budget) :
    Reads markup budget text := by
  induction printed generalizing budget with
  | nil => exact reads_nil budget
  | @text content written next later spelled _ ih =>
      obtain ⟨nonempty, apart, wellNext⟩ := wellFormed
      rw [← foldr_addText nonempty apart]
      have follows := ih wellNext shallow
      clear nonempty shallow
      induction spelled with
      | nil => exact follows
      | plain ordinary _ ih => exact reads_plain ordinary ih
      | hidden c _ ih => exact reads_hidden c ih
  | plainReference key _ ih =>
      obtain ⟨closedKey, _, named, wellNext⟩ := wellFormed
      simpa [Scanned.written] using reads_reference closedKey named (ih wellNext shallow)
  | tooltipReference key _ ih =>
      obtain ⟨closedKey, _, named, wellNext⟩ := wellFormed
      simpa [Scanned.written] using reads_reference closedKey named (ih wellNext shallow)
  | plainSlot formula _ ih =>
      obtain ⟨balanced, free, _, formatted, wellNext⟩ := wellFormed
      have parts : ∀ spec ∈ none, Balanced spec := fun spec member => (formatted spec member).1
      simpa [Scanned.written] using reads_slot balanced free parts (ih wellNext shallow)
  | formattedSlot formula format _ ih =>
      obtain ⟨balanced, free, _, formatted, wellNext⟩ := wellFormed
      have parts : ∀ spec ∈ some format, Balanced spec := fun spec member =>
        (formatted spec member).1
      simpa [Scanned.written] using reads_slot balanced free parts (ih wellNext shallow)
  | @colored code body next inner later inside rest hides ihBody ihNext =>
      obtain ⟨proper, wellBody, wellNext⟩ := wellFormed
      simp only [coloredDepth] at shallow
      obtain ⟨budget, rfl⟩ : ∃ outer, budget = outer + 1 := ⟨budget - 1, by omega⟩
      have uncoded : ColorCode.read? (later ++ []) = none := uncoded_of_printed rest hides rfl
      rw [List.append_nil] at uncoded
      have deeper : body.coloredDepth + 1 ≤ budget + 1 := by omega
      have closed := closeColor_printed inside wellBody deeper uncoded
      have reads := reads_colored proper closed (ihBody wellBody (by omega))
        (ihNext wellNext (by omega))
      simpa [Scanned.written] using reads

/-- Reading undoes printing: whatever spelling was chosen for a markup, reading finds no fault in it
and finds exactly that markup. -/
theorem read_printed (markup : Markup) (text : String) (wellFormed : markup.WellFormed)
    (shallow : markup.coloredDepth ≤ maxColorNesting) (printed : Printed markup text.toList) :
    (Template.read text).issues = [] ∧ (Template.read text).phrase.markup = markup := by
  have read := reads_of_printed printed wellFormed shallow 0
  exact ⟨read.2, read.1⟩

/-- A text, a stretch with a slot and another stretch inside, a text that begins with a letter of
the palette, and a reference. -/
def specimen : Markup :=
  text "$5".toList
    (colored (.letter 'R')
      (slot "a\x7b:\x7d".toList (some "F1".toList)
        (colored (.digits "#00FF00") (text "x".toList nil) nil))
      (text "A".toList (reference true "k".toList nil)))

def specimenText : String := "\\$5§R\x7ba\x7b:\x7d:F1\x7d§#00FF00x§§\\A$@k$"

theorem read_printed_specimen :
    specimen.WellFormed ∧ specimen.coloredDepth ≤ maxColorNesting ∧
      Printed specimen specimenText.toList ∧
      (Template.read specimenText).issues = [] ∧
      (Template.read specimenText).phrase.markup = specimen := by
  have green : (ColorCode.digits "#00FF00").Proper :=
    ⟨"00FF00".toList, by decide, by decide, List.all_eq_true.mp (by decide)⟩
  have stretch : (colored (.digits "#00FF00") (text "x".toList nil) nil).WellFormed :=
    ⟨green, ⟨by decide, rfl, trivial⟩, trivial⟩
  have free : ColonFree "a\x7b:\x7d".toList := (colonFree_iff_split (by decide)).mpr (by decide)
  have format : ∀ spec ∈ some "F1".toList, Balanced spec ∧ colorMark ∉ spec := by
    intro spec member
    obtain rfl := Option.some.inj member
    decide
  have wellFormed : specimen.WellFormed :=
    ⟨by decide, rfl, rfl, ⟨by decide, free, by decide, format, stretch⟩,
      by decide, rfl, by decide, by decide, nofun, trivial⟩
  have shallow : specimen.coloredDepth ≤ maxColorNesting := by decide
  have printed : Printed specimen specimenText.toList :=
    .text (.hidden '$' (.plain rfl .nil))
      (.colored _
        (.formattedSlot _ _ (.colored _ (.text (.plain rfl .nil) .nil) .nil nofun))
        (.text (.hidden 'A' .nil) (.tooltipReference _ .nil)) fun _ => rfl)
  exact ⟨wellFormed, shallow, printed,
    read_printed specimen specimenText wellFormed shallow printed⟩

end Markup

end Phrasebook
