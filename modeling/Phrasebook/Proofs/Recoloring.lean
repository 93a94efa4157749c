import Phrasebook.Proofs.BareVariables
import Phrasebook.Proofs.PaletteTags
import Phrasebook.Proofs.Surplus

/-!
What the slots of a stored template ask for. Stored templates are read after the palette letters in
their opening tags have been replaced, wherever the tags stand: so the slots are those of the text
as it was loaded, each with the letters in it replaced.
-/

namespace Phrasebook

/-- What the slots of a phrase ask for, those in colored stretches included. -/
def Phrase.slots : Phrase → List (String × Option String)
  | nil => []
  | leaf _ (.slot formula format) next => (formula, format) :: next.slots
  | leaf _ _ next => next.slots
  | colored _ _ _ body next => body.slots ++ next.slots

def normalizeSlot (slot : String × Option String) : String × Option String :=
  (normalizeColors slot.1, slot.2.map normalizeColors)

theorem Phrase.slots_prependText (start : Nat) (written content : String) (phrase : Phrase) :
    (phrase.prependText start written content).slots = phrase.slots := by
  fun_cases Phrase.prependText start written content phrase <;> simp [slots]

theorem Phrase.slots_moved (distance : Nat) (phrase : Phrase) :
    (phrase.moved distance).slots = phrase.slots := by
  induction phrase with
  | nil => rfl
  | leaf start piece next ih => cases piece <;> simp [moved, slots, ih]
  | colored start code inner body next ihBody ihNext => simp [moved, slots, ihBody, ihNext]

def Scanned.slots (budget : Nat) : Scanned → List (String × Option String)
  | slot formula format => [(String.ofList formula, format.map String.ofList)]
  | colored _ inner => (Reading.inside budget 0 inner).phrase.slots
  | _ => []

namespace Reading

/-- What a level asks for, wherever it stands. -/
def asked (budget : Nat) (text : List Char) : List (String × Option String) :=
  (within budget 0 text).phrase.slots

theorem slots_within (budget start : Nat) (text : List Char) :
    (within budget start text).phrase.slots = asked budget text := by
  have moved := within_moved budget start 0 text
  rw [Nat.zero_add] at moved
  rw [moved, Phrase.slots_moved, asked]

theorem slots_inside (budget start : Nat) (text : List Char) :
    (inside budget start text).phrase.slots = (inside budget 0 text).phrase.slots := by
  cases budget with
  | zero => rfl
  | succ budget => exact slots_within budget start text

theorem asked_step {budget : Nat} {text rest : List Char} {piece : Scanned}
    (scanned : scan budget text = piece :: scan budget rest) :
    asked budget text = piece.slots budget ++ asked budget rest := by
  rw [asked, within_eq, scanned, ← slots_within budget (0 + Text.byteLength piece.written) rest,
    within_eq]
  cases piece with
  | plain c => exact Phrase.slots_prependText ..
  | escaped c => exact Phrase.slots_prependText ..
  | stray c kind => exact Phrase.slots_prependText ..
  | reference => rfl
  | slot => rfl
  | colored code inner =>
      rw [Scanned.slots, ← slots_inside budget (0 + colorMark.utf8Size + code.written.utf8ByteSize)]
      rfl

theorem asked_ordinary (budget : Nat) {word : List Char}
    (ordinary : ∀ c ∈ word, isStructural c = false) (rest : List Char) :
    asked budget (word ++ rest) = asked budget rest := by
  induction word with
  | nil => rfl
  | cons c cs ih =>
      obtain ⟨first, later⟩ := List.forall_mem_cons.mp ordinary
      have plain : isSpecial c = false := by
        simp [isSpecial, (isStructural_eq_false_iff c).mp first]
      rw [List.cons_append, asked_step (Markup.scan_plain budget plain _), ih later]
      rfl

end Reading

namespace Scan

theorem scan_single {budget : Nat} {c : Char} {rest : List Char} (lone : c = '\\' → rest = [])
    (unpaired : c = '$' → '$' ∉ rest) (brace : c ≠ '{')
    (uncoded : c = colorMark → ColorCode.read? rest = none) :
    scan budget (c :: rest) = .plain c :: scan budget rest := by
  have step : Scan.step budget c rest = (.plain c, rest) := by
    by_cases backslash : c = '\\'
    · obtain rfl := lone backslash
      simp [Scan.step, backslash]
    · by_cases dollar : c = '$'
      · have missing := (reference?_eq_none_iff rest).mpr (unpaired dollar)
        simp [Scan.step, dollar, missing]
      · by_cases mark : c = colorMark
        · rw [mark, step_mark, afterMark, uncoded mark]
        · simp [Scan.step, backslash, dollar, brace, mark]
  rw [scan_cons, step]

theorem scan_strayBrace (budget : Nat) {rest : List Char}
    (unclosed : splitBrace? 0 rest = none) :
    scan budget ('{' :: rest) = .stray '{' .unbalancedBraces :: scan budget rest := by
  have step : Scan.step budget '{' rest = (.stray '{' .unbalancedBraces, rest) := by
    simp [Scan.step, unclosed]
  rw [scan_cons, step]

theorem scan_strayMark {budget : Nat} {code : ColorCode} {rest body : List Char} {kind : IssueKind}
    (coded : ColorCode.read? rest = some (code, body))
    (failed : closeColor budget body = .tooDeep ∧ kind = .colorTooDeep ∨
      closeColor budget body = .missing ∧ kind = .unclosedColor) :
    scan budget (colorMark :: rest) = .stray colorMark kind :: scan budget rest := by
  have step : Scan.step budget colorMark rest = (.stray colorMark kind, rest) := by
    rw [step_mark, afterMark, coded]
    obtain ⟨closed, rfl⟩ | ⟨closed, rfl⟩ := failed <;> simp only [closed]
  rw [scan_cons, step]

theorem scan_closed {budget : Nat} {code : ColorCode} {inner rest : List Char}
    (proper : code.Proper)
    (closed : closeColor budget (inner ++ colorMark :: rest) = .matched inner rest ∨
      closeColor budget (inner ++ colorMark :: rest) = .firstMark inner rest) :
    scan budget ((Scanned.colored code inner).written ++ rest) =
      .colored code inner :: scan budget rest := by
  have whole : (Scanned.colored code inner).written ++ rest =
      colorMark :: (code.written.toList ++ (inner ++ colorMark :: rest)) := by
    simp [Scanned.written]
  have step : Scan.step budget colorMark
      (code.written.toList ++ (inner ++ colorMark :: rest)) = (.colored code inner, rest) := by
    rw [step_mark, afterMark, ColorCode.read?_append proper]
    obtain closed | closed := closed <;> simp only [closed]
  rw [whole, scan_cons, step]

end Scan

def Scanned.normalized : Scanned → Scanned
  | reference tooltip key => reference tooltip (normalizeColorList key)
  | slot formula format => slot (normalizeColorList formula) (format.map normalizeColorList)
  | colored code inner => colored code (normalizeColorList inner)
  | piece => piece

theorem normalizeColorList_reference (tooltip : Bool) (key rest : List Char) :
    normalizeColorList ((Scanned.reference tooltip key).written ++ rest) =
      (Scanned.reference tooltip (normalizeColorList key)).written ++ normalizeColorList rest := by
  have dollar : '$' ≠ '<' := by decide
  have sign : '@' ≠ '<' := by decide
  cases tooltip <;>
    simp [Scanned.written, normalizeColorList_plain _ dollar, normalizeColorList_plain _ sign,
      @normalizeColorList_append '$' rfl]

theorem normalizeColorList_slot (formula : List Char) (format : Option (List Char))
    (rest : List Char) :
    normalizeColorList ((Scanned.slot formula format).written ++ rest) =
      (Scanned.slot (normalizeColorList formula) (format.map normalizeColorList)).written ++
        normalizeColorList rest := by
  have brace : '{' ≠ '<' := by decide
  cases format <;>
    simp [Scanned.written, normalizeColorList_plain _ brace, @normalizeColorList_append '}' rfl,
      @normalizeColorList_append ':' rfl]

theorem normalizeColorList_colored {code : ColorCode} (proper : code.Proper)
    (inner rest : List Char) :
    normalizeColorList ((Scanned.colored code inner).written ++ rest) =
      (Scanned.colored code (normalizeColorList inner)).written ++ normalizeColorList rest := by
  have mark : colorMark ≠ '<' := by decide
  simp [Scanned.written, normalizeColorList_plain _ mark,
    normalizeColorList_bare_append (ColorCode.not_mem_written proper (by decide)),
    @normalizeColorList_append colorMark rfl]

theorem scan_normalized {budget : Nat} {text rest : List Char} {piece : Scanned}
    (takes : Scan.Takes budget text piece rest) (untagged : ¬ Tagged text)
    (unhidden : ∀ c, piece = .escaped c → ¬ Tagged (c :: rest)) :
    scan budget (normalizeColorList text) =
      piece.normalized :: scan budget (normalizeColorList rest) := by
  cases takes with
  | plain lone unpaired brace uncoded =>
      rw [normalizeColorList_cons untagged]
      refine Scan.scan_single (fun same => ?_) (fun same => ?_) brace fun same => ?_
      · rw [lone same]
        rfl
      · rw [mem_normalized_iff rfl]
        exact unpaired same
      · rw [ColorCode.read?_normalized, uncoded same]
        rfl
  | escaped c rest =>
      rw [normalizeColorList_hidden (unhidden c rfl)]
      exact Markup.scan_hidden ..
  | strayBrace unclosed =>
      rw [normalizeColorList_cons untagged]
      exact Scan.scan_strayBrace budget (Braces.splitBrace?_normalized unclosed)
  | strayMark coded failed =>
      rw [normalizeColorList_cons untagged]
      have codedThere := ColorCode.read?_normalized rest
      rw [coded] at codedThere
      refine Scan.scan_strayMark codedThere ?_
      rw [Scan.closeColor_normalized]
      obtain ⟨closed, rfl⟩ | ⟨closed, rfl⟩ := failed
      · exact .inl ⟨by rw [closed]; rfl, rfl⟩
      · exact .inr ⟨by rw [closed]; rfl, rfl⟩
  | @reference tooltip key rest closed named =>
      have closedThere : '$' ∉ normalizeColorList key := by rwa [mem_normalized_iff rfl]
      have namedThere : tooltip = false → (normalizeColorList key).head? ≠ some '@' := by
        rwa [head?_normalized]
      rw [normalizeColorList_reference]
      exact Markup.scan_reference budget closedThere namedThere _
  | @slot formula format rest balanced free formatted =>
      have formattedThere : ∀ spec ∈ format.map normalizeColorList, Braces.Balanced spec := by
        intro spec member
        obtain ⟨original, same, rfl⟩ := Option.map_eq_some_iff.mp member
        exact Braces.balanced_normalized (formatted original same)
      rw [normalizeColorList_slot]
      exact Markup.scan_slot budget (Braces.balanced_normalized balanced)
        (Braces.colonFree_normalized free) formattedThere _
  | @colored code inner rest proper closed =>
      rw [normalizeColorList_colored proper]
      refine Scan.scan_closed proper ?_
      rw [← normalizeColorList_append rfl, Scan.closeColor_normalized]
      obtain closed | closed := closed
      · exact .inl (by rw [closed]; rfl)
      · exact .inr (by rw [closed]; rfl)

theorem Scanned.slots_normalized {budget : Nat}
    (inside : ∀ outer text, budget = outer + 1 → Reading.asked outer (normalizeColorList text) =
      (Reading.asked outer text).map normalizeSlot) (piece : Scanned) :
    piece.normalized.slots budget = (piece.slots budget).map normalizeSlot := by
  cases piece with
  | plain => rfl
  | escaped => rfl
  | stray => rfl
  | reference => rfl
  | slot formula format => cases format <;> simp [normalized, slots, normalizeSlot, normalizeColors]
  | colored code inner =>
      cases budget with
      | zero => rfl
      | succ outer => exact inside outer inner rfl

theorem Reading.asked_hidden (budget : Nat) {word : List Char} (nonempty : word ≠ [])
    (ordinary : ∀ c ∈ word, isStructural c = false) (rest : List Char) :
    asked budget ('\\' :: (word ++ rest)) = asked budget rest := by
  -- A backslash in front of ordinary text hides its first character.
  obtain ⟨c, cs, rfl⟩ := List.exists_cons_of_ne_nil nonempty
  obtain ⟨_, later⟩ := List.forall_mem_cons.mp ordinary
  rw [List.cons_append, asked_step (Markup.scan_hidden budget c _), asked_ordinary budget later]
  rfl

/-- A level of the replaced text asks for what the level asks for, if the levels inside do. -/
theorem asked_normalized_of {budget : Nat}
    (inside : ∀ outer text, budget = outer + 1 → Reading.asked outer (normalizeColorList text) =
      (Reading.asked outer text).map normalizeSlot) (text : List Char) :
    Reading.asked budget (normalizeColorList text) =
      (Reading.asked budget text).map normalizeSlot := by
  by_cases tagged : Tagged text
  · obtain ⟨letter, hex, rest, known, same⟩ := tagged
    have shorter := length_behind_tag same
    obtain ⟨plain, hexed⟩ := palette_foreign known
    rw [same, normalizeColorList_tag rest known, Reading.asked_ordinary budget hexed,
      Reading.asked_ordinary budget plain, asked_normalized_of inside rest]
  · match text with
    | [] => simp [Reading.asked, Reading.empty, Phrase.slots]
    | first :: others =>
        have takes := Scan.takes_step budget first others
        have scanned := scan_cons budget first others
        have length := Scan.length_step budget first others
        generalize (Scan.step budget first others).1 = piece at takes scanned
        generalize (Scan.step budget first others).2 = rest at takes scanned length
        by_cases hidden : ∃ c, piece = .escaped c ∧ Tagged (c :: rest)
        · obtain ⟨c, rfl, letter, hex, behind, known, same⟩ := hidden
          have shorter : behind.length < rest.length + 1 := length_behind_tag same
          obtain ⟨plain, hexed⟩ := palette_foreign known
          have whole : first :: others = '\\' :: (openingTag letter ++ behind) := by
            rw [takes.written, ← same]
            rfl
          rw [whole, normalizeColorList_hiddenTag behind known,
            Reading.asked_hidden budget (by simp [openingTag]) plain,
            Reading.asked_hidden budget (by simp [expandedTag]) hexed,
            asked_normalized_of inside behind]
        · have unhidden : ∀ c, piece = .escaped c → ¬ Tagged (c :: rest) :=
            fun c same tagged => hidden ⟨c, same, tagged⟩
          rw [Reading.asked_step (scan_normalized takes tagged unhidden),
            Reading.asked_step scanned, asked_normalized_of inside rest, List.map_append,
            Scanned.slots_normalized inside]
termination_by text.length

theorem asked_normalized (budget : Nat) (text : List Char) :
    Reading.asked budget (normalizeColorList text) =
      (Reading.asked budget text).map normalizeSlot := by
  induction budget generalizing text with
  | zero => exact asked_normalized_of (fun outer _ same => absurd same (by omega)) text
  | succ budget ih =>
      refine asked_normalized_of (fun outer inner same => ?_) text
      obtain rfl := Nat.succ.inj same
      exact ih inner

theorem palette_unclosed {letter : Char} {hex : String} (known : paletteHex? letter = some hex) :
    '>' ∉ colorOpening ++ [letter] ∧ '>' ∉ colorOpening ++ hex.toList := by
  have all : ∀ entry ∈ palette,
      '>' ∉ colorOpening ++ [entry.1] ∧ '>' ∉ colorOpening ++ entry.2.toList := by
    decide
  exact all _ (mem_palette known)

theorem normalizeColorList_closed {text : List Char} (unclosed : '>' ∉ text) (after : List Char) :
    ∃ replaced, '>' ∉ replaced ∧ replaced.head? = text.head? ∧
      normalizeColorList (text ++ '>' :: after) = replaced ++ '>' :: normalizeColorList after := by
  induction text with
  | nil => exact ⟨[], nofun, rfl, normalizeColorList_plain after (by decide)⟩
  | cons c cs ih =>
      obtain ⟨here, later⟩ : '>' ≠ c ∧ '>' ∉ cs := by simpa using unclosed
      obtain ⟨replaced, closed, _, behind⟩ := ih later
      by_cases tagged : Tagged (c :: (cs ++ '>' :: after))
      · obtain ⟨letter, hex, rest, known, same⟩ := tagged
        obtain ⟨plain, hexed⟩ := palette_unclosed known
        -- The tag is closed by the first bracket, which is the one behind the text.
        have whole : (c :: cs) ++ '>' :: after = (colorOpening ++ [letter]) ++ '>' :: rest := by
          simpa [openingTag] using same
        have first := Text.splitFirst?_append after unclosed
        rw [whole, Text.splitFirst?_append rest plain] at first
        obtain ⟨front, rfl⟩ := Prod.mk.inj (Option.some.inj first)
        rw [← front]
        refine ⟨colorOpening ++ hex.toList, hexed, rfl, ?_⟩
        have tag := normalizeColorList_tag rest known
        simpa [openingTag, expandedTag] using tag
      · refine ⟨c :: replaced, ?_, rfl, ?_⟩
        · simp [closed, here]
        · rw [List.cons_append, normalizeColorList_cons tagged, behind]
          rfl

theorem Variable.parseBare?_normalized {text : String} {var : Variable}
    (bare : parseBare? text = some var) :
    ∃ params, parseBare? (normalizeColors text) = some ⟨var.name, params⟩ := by
  obtain ⟨name, params, named, closed, word, rfl⟩ :=
    (read?_whole_iff _ var).mp ((parseBare?_eq_some_iff text var).mp bare)
  obtain ⟨before, after, leading, trailing, whole⟩ := Text.trim_split text.toList
  rw [word] at whole
  have unblank : ∀ blanks, Formula.Blanks blanks → '<' ∉ blanks := fun blanks blank member =>
    absurd (blank '<' member) (by decide)
  have unnamed : '<' ∉ name := by
    obtain ⟨first, later⟩ := named
    intro member
    obtain rfl | member := List.mem_cons.mp member
    · exact absurd first (by decide)
    · exact absurd (later '<' member) (by decide)
  cases params with
  | none =>
      have tagless : '<' ∉ text.toList := by
        simp [whole, Formula.Spelling.written, unblank before leading, unblank after trailing,
          unnamed]
      rw [normalizeColors_of_bare tagless]
      exact ⟨_, bare⟩
  | some params =>
      have inside : '>' ∉ '<' :: params := by simpa using closed params rfl
      obtain ⟨replaced, unclosed, head, same⟩ := normalizeColorList_closed inside after
      obtain ⟨behind, rfl⟩ := List.head?_eq_some_iff.mp head
      have there : (normalizeColors text).toList =
          before ++ ((Formula.Spelling.var name (some behind)).written ++ after) := by
        have blank := normalizeColorList_of_bare (unblank after trailing)
        rw [blank] at same
        have front : '<' ∉ before ++ name := by simp [unblank before leading, unnamed]
        have split : text.toList = (before ++ name) ++ ('<' :: params ++ '>' :: after) := by
          simp [whole, Formula.Spelling.written]
        rw [normalizeColors, String.toList_ofList, split,
          normalizeColorList_bare_append front, same]
        simp [Formula.Spelling.written]
      have fits : Formula.Fits Formula.grammar (.var name (some behind)) := by
        refine .operand (.operand (.operand (.var named ?_)))
        rintro text ⟨⟩
        exact fun member => unclosed (List.mem_cons_of_mem '<' member)
      have trimmed := Text.trim_between leading trailing (fits.solid after)
        (Formula.solid_reverse_var named)
      refine ⟨Param.list behind, ?_⟩
      rw [parseBare?_eq_some_iff, there, trimmed, read?_whole_iff]
      exact ⟨name, some behind, named, fits.named.2, rfl, rfl⟩

/-- No opening tag with a letter of the palette stands in the text. -/
def Untagged (text : String) : Prop :=
  ∀ before after, text.toList = before ++ after → ¬ Tagged after

theorem normalizeColorList_of_untagged {text : List Char}
    (untagged : ∀ before after, text = before ++ after → ¬ Tagged after) :
    normalizeColorList text = text := by
  induction text with
  | nil => rfl
  | cons c cs ih =>
      rw [normalizeColorList_cons (untagged [] (c :: cs) rfl)]
      congr 1
      exact ih fun before after same => untagged (c :: before) after (by rw [same]; rfl)

theorem normalizeColors_of_untagged {text : String} (untagged : Untagged text) :
    normalizeColors text = text := by
  rw [normalizeColors, normalizeColorList_of_untagged untagged, String.ofList_toList]

namespace Template

theorem slots_normalized (text : String) :
    (read (normalizeColors text)).phrase.slots =
      (read text).phrase.slots.map normalizeSlot := by
  have same := asked_normalized maxColorNesting text.toList
  rw [normalizeColors, read, String.toList_ofList]
  exact same

/-- A tag in a slot is not spared. -/
theorem slots_not_kept :
    ¬ ∀ text, (read (normalizeColors text)).phrase.slots = (read text).phrase.slots := by
  intro kept
  exact absurd (kept "\x7bx<color=R>\x7d") (by decide +kernel)

/-- Storing a template replaces the palette letters in the opening tags of its slots, as everywhere
in it, and changes nothing else that the slots ask for: neither a slot without such a tag, nor the
variable that is asked for. -/
theorem slots_stored (text : String) :
    (read (normalizeColors text)).phrase.slots = (read text).phrase.slots.map normalizeSlot ∧
      ∀ slot ∈ (read text).phrase.slots,
        (Untagged slot.1 → (∀ spec ∈ slot.2, Untagged spec) → normalizeSlot slot = slot) ∧
          ∀ var, Variable.parseBare? slot.1 = some var →
            ∃ params, Variable.parseBare? (normalizeSlot slot).1 = some ⟨var.name, params⟩ := by
  refine ⟨slots_normalized text, ?_⟩
  rintro ⟨formula, format⟩ _
  refine ⟨fun untagged specs => ?_, fun var bare => Variable.parseBare?_normalized bare⟩
  have formulaKept := normalizeColors_of_untagged untagged
  have formatKept : format.map normalizeColors = format := by
    cases format with
    | none => rfl
    | some spec => exact congrArg some (normalizeColors_of_untagged (specs spec rfl))
  exact Prod.ext formulaKept formatKept

end Template

end Phrasebook
