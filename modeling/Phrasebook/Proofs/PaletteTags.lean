import Phrasebook.Color.Normalize
import Phrasebook.Proofs.Braces
import Phrasebook.Proofs.Marks

/-!
Replacing palette letters in opening tags, seen from the text around the tags. A tag holds no
character that means something in a template: so the replacement never changes where a template is
split, and the parts of a text are replaced as the text is.
-/

namespace Phrasebook

def openingTag (letter : Char) : List Char := colorOpening ++ [letter, '>']

def expandedTag (hex : String) : List Char := colorOpening ++ hex.toList ++ ['>']

/-- An opening tag with a letter of the palette stands in front of the text. -/
def Tagged (text : List Char) : Prop :=
  ∃ letter hex rest, paletteHex? letter = some hex ∧
    text = openingTag letter ++ rest

/-- The characters at which templates, slots and stretches are split. -/
def isStructural (c : Char) : Bool :=
  c = '\\' || c = '$' || c = '{' || c = '}' || c = ':' || c = colorMark

theorem isStructural_eq_false_iff (c : Char) : isStructural c = false ↔
    c ≠ '\\' ∧ c ≠ '$' ∧ c ≠ '{' ∧ c ≠ '}' ∧ c ≠ ':' ∧ c ≠ colorMark := by
  simp only [isStructural, Bool.or_eq_false_iff, decide_eq_false_iff_not, and_assoc, ne_eq]

theorem Tagged.append {text : List Char} (tagged : Tagged text) (more : List Char) :
    Tagged (text ++ more) := by
  obtain ⟨letter, hex, rest, known, rfl⟩ := tagged
  exact ⟨letter, hex, rest ++ more, known, by simp⟩

theorem Tagged.head {c : Char} {cs : List Char} (tagged : Tagged (c :: cs)) : c = '<' := by
  obtain ⟨_, _, _, _, same⟩ := tagged
  exact (List.cons.inj same).1

theorem normalizeColorList_tag {letter : Char} {hex : String} (rest : List Char)
    (known : paletteHex? letter = some hex) :
    normalizeColorList (openingTag letter ++ rest) =
      expandedTag hex ++ normalizeColorList rest := by
  simp [openingTag, expandedTag, colorOpening, normalizeColorList, expandLetter, known]

theorem normalizeColorList_cons {c : Char} {cs : List Char} (untagged : ¬ Tagged (c :: cs)) :
    normalizeColorList (c :: cs) = c :: normalizeColorList cs := by
  rw [normalizeColorList.eq_def]
  split
  · rename_i letter rest same
    obtain ⟨rfl, rfl⟩ := List.cons.inj same
    cases known : paletteHex? letter with
    | some hex => exact absurd ⟨letter, hex, rest, known, rfl⟩ untagged
    | none => simp [colorOpening, normalizeColorList, expandLetter, known]
  · rename_i same
    obtain ⟨rfl, rfl⟩ := List.cons.inj same
    rfl
  · rename_i same
    cases same

theorem normalizeColorList_plain {c : Char} (cs : List Char) (plain : c ≠ '<') :
    normalizeColorList (c :: cs) = c :: normalizeColorList cs :=
  normalizeColorList_cons fun tagged => plain tagged.head

theorem palette_foreign {letter : Char} {hex : String} (known : paletteHex? letter = some hex) :
    (∀ c ∈ openingTag letter, isStructural c = false) ∧
      ∀ c ∈ expandedTag hex, isStructural c = false := by
  have all : (palette.all fun entry => !(openingTag entry.1).any isStructural &&
      !(expandedTag entry.2).any isStructural) = true := by decide
  have tags := List.all_eq_true.mp all _ (mem_palette known)
  simpa only [Bool.and_eq_true, Bool.not_eq_true', List.any_eq_false, Bool.not_eq_true] using tags

theorem length_behind_tag {text rest : List Char} {letter : Char}
    (same : text = openingTag letter ++ rest) : rest.length < text.length := by
  rw [same, openingTag, List.length_append, List.length_append, List.length_cons]
  omega

theorem tags_induction {motive : List Char → Prop} (nil : motive [])
    (tag : ∀ letter hex rest, paletteHex? letter = some hex → motive rest →
      motive (openingTag letter ++ rest))
    (char : ∀ c cs, ¬ Tagged (c :: cs) → motive cs → motive (c :: cs)) (text : List Char) :
    motive text := by
  match text with
  | [] => exact nil
  | c :: cs =>
      by_cases tagged : Tagged (c :: cs)
      · obtain ⟨letter, hex, rest, known, same⟩ := tagged
        have shorter : rest.length < cs.length + 1 := length_behind_tag same
        rw [same]
        exact tag letter hex rest known (tags_induction nil tag char rest)
      · exact char c cs tagged (tags_induction nil tag char cs)
termination_by text.length

variable {s : Char}

theorem split_behind {front text before after : List Char}
    (foreign : ∀ c ∈ front, isStructural c = false) (structural : isStructural s)
    (same : front ++ text = before ++ s :: after) :
    ∃ more, before = front ++ more ∧ text = more ++ s :: after := by
  induction front generalizing before with
  | nil => exact ⟨before, rfl, same⟩
  | cons c cs ih =>
      obtain ⟨first, later⟩ := List.forall_mem_cons.mp foreign
      cases before with
      | nil =>
          obtain ⟨rfl, _⟩ := List.cons.inj same
          rw [structural] at first
          cases first
      | cons d ds =>
          obtain ⟨rfl, behind⟩ := List.cons.inj same
          obtain ⟨more, rfl, rest⟩ := ih later behind
          exact ⟨more, rfl, rest⟩

theorem untagged_before {before : List Char} (after : List Char) (structural : isStructural s)
    (untagged : ¬ Tagged before) : ¬ Tagged (before ++ s :: after) := by
  rintro ⟨letter, hex, rest, known, same⟩
  obtain ⟨more, rfl, _⟩ := split_behind (palette_foreign known).1 structural same.symm
  exact untagged ⟨letter, hex, more, known, rfl⟩

/-- What is split at a structural character is replaced part by part. -/
theorem normalizeColorList_append (structural : isStructural s) (before after : List Char) :
    normalizeColorList (before ++ s :: after) =
      normalizeColorList before ++ s :: normalizeColorList after := by
  have plain : s ≠ '<' := by
    rintro rfl
    cases structural
  induction before using tags_induction with
  | nil => exact normalizeColorList_plain after plain
  | tag letter hex rest known ih =>
      rw [List.append_assoc, normalizeColorList_tag _ known, normalizeColorList_tag _ known, ih,
        List.append_assoc]
  | char c cs untagged ih =>
      have still : ¬ Tagged (c :: (cs ++ s :: after)) := untagged_before after structural untagged
      rw [normalizeColorList_cons untagged, List.cons_append, normalizeColorList_cons still, ih]
      rfl

theorem split_normalized (structural : isStructural s) {text before after : List Char}
    (split : normalizeColorList text = before ++ s :: after) :
    ∃ first rest, text = first ++ s :: rest ∧ before = normalizeColorList first ∧
      after = normalizeColorList rest := by
  induction text using tags_induction generalizing before with
  | nil => cases before <;> cases split
  | tag letter hex rest known ih =>
      rw [normalizeColorList_tag rest known] at split
      obtain ⟨more, rfl, behind⟩ := split_behind (palette_foreign known).2 structural split
      obtain ⟨first, last, rfl, rfl, rfl⟩ := ih behind
      exact ⟨openingTag letter ++ first, last, (List.append_assoc ..).symm,
        (normalizeColorList_tag first known).symm, rfl⟩
  | char c cs untagged ih =>
      rw [normalizeColorList_cons untagged] at split
      cases before with
      | nil =>
          obtain ⟨rfl, rfl⟩ := List.cons.inj split
          exact ⟨[], cs, rfl, rfl, rfl⟩
      | cons d ds =>
          obtain ⟨rfl, behind⟩ := List.cons.inj split
          obtain ⟨first, rest, rfl, rfl, rfl⟩ := ih behind
          have shorter : ¬ Tagged (c :: first) := fun tagged =>
            untagged (tagged.append (s :: rest))
          exact ⟨c :: first, rest, rfl, (normalizeColorList_cons shorter).symm, rfl⟩

theorem mem_normalized_iff (structural : isStructural s) (text : List Char) :
    s ∈ normalizeColorList text ↔ s ∈ text := by
  constructor
  · intro member
    obtain ⟨before, after, split⟩ := List.append_of_mem member
    obtain ⟨first, rest, rfl, _⟩ := split_normalized structural split
    simp
  · intro member
    obtain ⟨before, after, rfl⟩ := List.append_of_mem member
    rw [normalizeColorList_append structural]
    simp

theorem head?_normalized (text : List Char) : (normalizeColorList text).head? = text.head? := by
  cases text using tags_induction with
  | nil => rfl
  | tag letter hex rest known _ =>
      rw [normalizeColorList_tag rest known]
      rfl
  | char c cs untagged _ =>
      rw [normalizeColorList_cons untagged]
      rfl

namespace Braces

theorem openAfter?_foreign {front : List Char} (foreign : ∀ c ∈ front, isStructural c = false)
    (opened : Nat) (text : List Char) :
    openAfter? opened (front ++ text) = openAfter? opened text := by
  induction front with
  | nil => rfl
  | cons c cs ih =>
      obtain ⟨first, later⟩ := List.forall_mem_cons.mp foreign
      have uncounted : count? opened c = some opened := by
        simp [count?, (isStructural_eq_false_iff c).mp first]
      rw [List.cons_append, openAfter?_cons, uncounted, Option.bind_some, ih later]

theorem openAfter?_normalized (opened : Nat) (text : List Char) :
    openAfter? opened (normalizeColorList text) = openAfter? opened text := by
  induction text using tags_induction generalizing opened with
  | nil => rfl
  | tag letter hex rest known ih =>
      obtain ⟨plain, hexed⟩ := palette_foreign known
      rw [normalizeColorList_tag rest known, openAfter?_foreign plain,
        openAfter?_foreign hexed, ih]
  | char c cs untagged ih =>
      rw [normalizeColorList_cons untagged, openAfter?_cons, openAfter?_cons]
      exact congrArg _ (funext ih)

theorem balanced_normalized {text : List Char} (balanced : Balanced text) :
    Balanced (normalizeColorList text) := by
  rw [Balanced, openAfter?_normalized]
  exact balanced

theorem colonFree_normalized {text : List Char} (free : ColonFree text) :
    ColonFree (normalizeColorList text) := by
  intro before after split
  obtain ⟨first, rest, whole, rfl, _⟩ := split_normalized rfl split
  rw [openAfter?_normalized]
  exact free first rest whole

theorem splitBrace?_normalized {text : List Char} (unclosed : Scan.splitBrace? 0 text = none) :
    Scan.splitBrace? 0 (normalizeColorList text) = none := by
  cases found : Scan.splitBrace? 0 (normalizeColorList text) with
  | none => rfl
  | some parts =>
      obtain ⟨split, closed⟩ := (splitBrace?_eq_some_iff 0 _ parts.1 parts.2).mp found
      obtain ⟨first, rest, whole, same, _⟩ := split_normalized rfl split
      rw [same, openAfter?_normalized] at closed
      have there := (splitBrace?_eq_some_iff 0 text first rest).mpr ⟨whole, closed⟩
      rw [unclosed] at there
      cases there

end Braces

theorem normalizeColorList_bare_append {front : List Char} (bare : '<' ∉ front) (text : List Char) :
    normalizeColorList (front ++ text) = front ++ normalizeColorList text := by
  induction front with
  | nil => rfl
  | cons c cs ih =>
      simp only [List.mem_cons, not_or] at bare
      rw [List.cons_append, normalizeColorList_plain _ (Ne.symm bare.1), ih bare.2]
      rfl

theorem split_bare {front text after : List Char} (bare : '<' ∉ front)
    (split : normalizeColorList text = front ++ after) :
    ∃ rest, text = front ++ rest ∧ after = normalizeColorList rest := by
  induction front generalizing text with
  | nil => exact ⟨text, rfl, split.symm⟩
  | cons c cs ih =>
      simp only [List.mem_cons, not_or] at bare
      have first := head?_normalized text
      rw [split, List.cons_append, List.head?_cons] at first
      obtain ⟨later, rfl⟩ := List.head?_eq_some_iff.mp first.symm
      rw [normalizeColorList_plain later (Ne.symm bare.1)] at split
      obtain ⟨rest, rfl, rfl⟩ := ih bare.2 (List.cons.inj split).2
      exact ⟨rest, rfl, rfl⟩

namespace ColorCode

theorem read?_normalized (text : List Char) :
    read? (normalizeColorList text) =
      (read? text).map fun found => (found.1, normalizeColorList found.2) := by
  cases found : read? text with
  | some parts =>
      obtain ⟨code, rest⟩ := parts
      have proper := proper_of_read? found
      rw [read?_written found, normalizeColorList_bare_append (not_mem_written proper (by decide)),
        read?_append proper]
      rfl
  | none =>
      cases there : read? (normalizeColorList text) with
      | none => rfl
      | some parts =>
          have proper := proper_of_read? there
          have bare := not_mem_written proper (by decide : isCodeChar '<' = false)
          obtain ⟨rest, rfl, _⟩ := split_bare bare (read?_written there)
          rw [read?_append proper] at found
          cases found

end ColorCode

/-- Induction along tags and escapes: a backslash may hide the first character of a tag. -/
theorem hidden_tags_induction {motive : List Char → Prop} (nil : motive []) (lone : motive ['\\'])
    (tag : ∀ letter hex rest, paletteHex? letter = some hex → motive rest →
      motive (openingTag letter ++ rest))
    (hiddenTag : ∀ letter hex rest, paletteHex? letter = some hex → motive rest →
      motive ('\\' :: (openingTag letter ++ rest)))
    (hidden : ∀ c cs, ¬ Tagged (c :: cs) → motive cs → motive ('\\' :: c :: cs))
    (plain : ∀ c cs, c ≠ '\\' → ¬ Tagged (c :: cs) → motive cs → motive (c :: cs))
    (text : List Char) : motive text := by
  match text with
  | [] => exact nil
  | c :: cs =>
      by_cases tagged : Tagged (c :: cs)
      · obtain ⟨letter, hex, rest, known, same⟩ := tagged
        have shorter : rest.length < cs.length + 1 := length_behind_tag same
        have ih := hidden_tags_induction nil lone tag hiddenTag hidden plain rest
        rw [same]
        exact tag letter hex rest known ih
      · by_cases backslash : c = '\\'
        · subst backslash
          match cs with
          | [] => exact lone
          | d :: ds =>
              by_cases behind : Tagged (d :: ds)
              · obtain ⟨letter, hex, rest, known, same⟩ := behind
                have shorter : rest.length < ds.length + 1 := length_behind_tag same
                have ih := hidden_tags_induction nil lone tag hiddenTag hidden plain rest
                rw [same]
                exact hiddenTag letter hex rest known ih
              · have ih := hidden_tags_induction nil lone tag hiddenTag hidden plain ds
                exact hidden d ds behind ih
        · have ih := hidden_tags_induction nil lone tag hiddenTag hidden plain cs
          exact plain c cs backslash tagged ih
termination_by text.length

theorem normalizeColorList_hidden {c : Char} {cs : List Char} (untagged : ¬ Tagged (c :: cs)) :
    normalizeColorList ('\\' :: c :: cs) = '\\' :: c :: normalizeColorList cs := by
  rw [normalizeColorList_plain _ (by decide), normalizeColorList_cons untagged]

theorem normalizeColorList_hiddenTag {letter : Char} {hex : String} (rest : List Char)
    (known : paletteHex? letter = some hex) :
    normalizeColorList ('\\' :: (openingTag letter ++ rest)) =
      '\\' :: (expandedTag hex ++ normalizeColorList rest) := by
  rw [normalizeColorList_plain _ (by decide), normalizeColorList_tag rest known]

namespace Scan

def MarkCount.normalized : MarkCount → MarkCount
  | balanced inner rest => balanced (normalizeColorList inner) (normalizeColorList rest)
  | exceeded => exceeded
  | unbalanced => unbalanced

theorem normalized_behind {count : MarkCount} {before after : List Char}
    (same : ∀ inner rest, count = .balanced inner rest →
      normalizeColorList (before ++ inner) = after ++ normalizeColorList inner) :
    (count.behind before).normalized = count.normalized.behind after := by
  cases count with
  | balanced inner rest =>
      rw [MarkCount.behind, MarkCount.normalized, same inner rest rfl]
      rfl
  | exceeded => rfl
  | unbalanced => rfl

theorem countMarks_foreign {front : List Char} (foreign : ∀ c ∈ front, isStructural c = false)
    (budget opened : Nat) (text : List Char) :
    countMarks budget opened (front ++ text) = (countMarks budget opened text).behind front :=
  countMarks_ordinary budget opened text fun c member => by
    obtain ⟨plain, _, _, _, _, unmarked⟩ := (isStructural_eq_false_iff c).mp (foreign c member)
    exact ⟨plain, unmarked⟩

theorem countMarks_hiddenForeign {front : List Char} (nonempty : front ≠ [])
    (foreign : ∀ c ∈ front, isStructural c = false) (budget opened : Nat) (text : List Char) :
    countMarks budget opened ('\\' :: (front ++ text)) =
      (countMarks budget opened text).behind ('\\' :: front) := by
  obtain ⟨c, cs, rfl⟩ := List.exists_cons_of_ne_nil nonempty
  obtain ⟨_, later⟩ := List.forall_mem_cons.mp foreign
  rw [List.cons_append, countMarks_escaped, countMarks_foreign later, behind_behind]
  rfl

theorem countMarks_normalized (budget opened : Nat) (text : List Char) :
    countMarks budget opened (normalizeColorList text) =
      (countMarks budget opened text).normalized := by
  induction text using hidden_tags_induction generalizing opened with
  | nil => rfl
  | lone => rfl
  | tag letter hex rest known ih =>
      obtain ⟨plain, hexed⟩ := palette_foreign known
      rw [normalizeColorList_tag rest known, countMarks_foreign plain, countMarks_foreign hexed, ih,
        normalized_behind fun inner _ _ => normalizeColorList_tag inner known]
  | hiddenTag letter hex rest known ih =>
      obtain ⟨plain, hexed⟩ := palette_foreign known
      have front : ∀ inner, normalizeColorList ('\\' :: openingTag letter ++ inner) =
          '\\' :: expandedTag hex ++ normalizeColorList inner := fun inner =>
        normalizeColorList_hiddenTag inner known
      rw [normalizeColorList_hiddenTag rest known,
        countMarks_hiddenForeign (by simp [openingTag]) plain,
        countMarks_hiddenForeign (by simp [expandedTag]) hexed, ih,
        normalized_behind fun inner _ _ => front inner]
  | hidden c cs untagged ih =>
      rw [normalizeColorList_hidden untagged, countMarks_escaped, countMarks_escaped, ih,
        normalized_behind]
      rintro inner rest found
      have shorter : ¬ Tagged (c :: inner) := fun tagged =>
        untagged (countMarks_written found ▸ tagged.append _)
      exact normalizeColorList_hidden shorter
  | plain c cs plain untagged ih =>
      have front : ∀ inner rest, cs = inner ++ rest →
          normalizeColorList ([c] ++ inner) = [c] ++ normalizeColorList inner := by
        rintro inner rest rfl
        exact normalizeColorList_cons fun tagged => untagged (tagged.append rest)
      rw [normalizeColorList_cons untagged]
      by_cases mark : c = colorMark
      · subst mark
        have same := ColorCode.read?_normalized cs
        cases coded : ColorCode.read? cs with
        | some found =>
            have opens : (ColorCode.read? cs).isSome := by rw [coded]; rfl
            have opensThere : (ColorCode.read? (normalizeColorList cs)).isSome := by
              rw [same, coded]
              rfl
            by_cases fits : opened + 1 ≤ budget
            · rw [countMarks_opening opens fits, countMarks_opening opensThere fits, ih,
                normalized_behind fun inner rest found => front inner _ (countMarks_written found)]
            · rw [countMarks_exceeding opens (by omega), countMarks_exceeding opensThere (by omega)]
              rfl
        | none =>
            rw [coded] at same
            rw [countMarks_uncoded _ _ coded, countMarks_uncoded _ _ same]
            split
            · rfl
            · rw [ih,
                normalized_behind fun inner rest found => front inner _ (countMarks_written found)]
      · rw [countMarks_plain _ _ _ plain mark, countMarks_plain _ _ _ plain mark, ih,
          normalized_behind fun inner rest found => front inner _ (countMarks_written found)]

def putBefore (front : List Char) (split : Option (List Char × List Char)) :
    Option (List Char × List Char) :=
  split.map fun parts => (front ++ parts.1, parts.2)

def normalizedSplit (split : Option (List Char × List Char)) : Option (List Char × List Char) :=
  split.map fun parts => (normalizeColorList parts.1, normalizeColorList parts.2)

theorem putBefore_putBefore (first second : List Char) (split : Option (List Char × List Char)) :
    putBefore first (putBefore second split) = putBefore (first ++ second) split := by
  cases split <;> simp [putBefore]

theorem normalizedSplit_putBefore {split : Option (List Char × List Char)}
    {before after : List Char}
    (same : ∀ inner rest, split = some (inner, rest) →
      normalizeColorList (before ++ inner) = after ++ normalizeColorList inner) :
    normalizedSplit (putBefore before split) = putBefore after (normalizedSplit split) := by
  cases split with
  | none => rfl
  | some parts => simp [normalizedSplit, putBefore, same parts.1 parts.2 rfl]

theorem splitMark?_escaped (hidden : Char) (rest : List Char) :
    splitMark? ('\\' :: hidden :: rest) = putBefore ['\\', hidden] (splitMark? rest) := by
  rw [splitMark?]
  rfl

theorem splitMark?_plain {c : Char} (rest : List Char) (plain : c ≠ '\\')
    (unmarked : c ≠ colorMark) :
    splitMark? (c :: rest) = putBefore [c] (splitMark? rest) := by
  cases rest <;> simp [splitMark?, plain, unmarked, putBefore]

theorem splitMark?_mark (rest : List Char) : splitMark? (colorMark :: rest) = some ([], rest) := by
  cases rest <;> simp [splitMark?, colorMark]

theorem splitMark?_foreign {front : List Char} (foreign : ∀ c ∈ front, isStructural c = false)
    (text : List Char) : splitMark? (front ++ text) = putBefore front (splitMark? text) := by
  induction front with
  | nil => cases found : splitMark? text <;> simp [putBefore, found]
  | cons c cs ih =>
      obtain ⟨first, later⟩ := List.forall_mem_cons.mp foreign
      obtain ⟨plain, _, _, _, _, unmarked⟩ := (isStructural_eq_false_iff c).mp first
      rw [List.cons_append, splitMark?_plain _ plain unmarked, ih later, putBefore_putBefore]
      rfl

theorem splitMark?_hiddenForeign {front : List Char} (nonempty : front ≠ [])
    (foreign : ∀ c ∈ front, isStructural c = false) (text : List Char) :
    splitMark? ('\\' :: (front ++ text)) = putBefore ('\\' :: front) (splitMark? text) := by
  obtain ⟨c, cs, rfl⟩ := List.exists_cons_of_ne_nil nonempty
  obtain ⟨_, later⟩ := List.forall_mem_cons.mp foreign
  rw [List.cons_append, splitMark?_escaped, splitMark?_foreign later, putBefore_putBefore]
  rfl

theorem splitMark?_normalized (text : List Char) :
    splitMark? (normalizeColorList text) = normalizedSplit (splitMark? text) := by
  induction text using hidden_tags_induction with
  | nil => rfl
  | lone => rfl
  | tag letter hex rest known ih =>
      obtain ⟨plain, hexed⟩ := palette_foreign known
      rw [normalizeColorList_tag rest known, splitMark?_foreign plain, splitMark?_foreign hexed, ih,
        normalizedSplit_putBefore fun inner _ _ => normalizeColorList_tag inner known]
  | hiddenTag letter hex rest known ih =>
      obtain ⟨plain, hexed⟩ := palette_foreign known
      have front : ∀ inner, normalizeColorList ('\\' :: openingTag letter ++ inner) =
          '\\' :: expandedTag hex ++ normalizeColorList inner := fun inner =>
        normalizeColorList_hiddenTag inner known
      rw [normalizeColorList_hiddenTag rest known,
        splitMark?_hiddenForeign (by simp [openingTag]) plain,
        splitMark?_hiddenForeign (by simp [expandedTag]) hexed, ih,
        normalizedSplit_putBefore fun inner _ _ => front inner]
  | hidden c cs untagged ih =>
      rw [normalizeColorList_hidden untagged, splitMark?_escaped, splitMark?_escaped, ih,
        normalizedSplit_putBefore]
      intro inner rest found
      have shorter : ¬ Tagged (c :: inner) := fun tagged =>
        untagged (splitMark?_written found ▸ tagged.append _)
      exact normalizeColorList_hidden shorter
  | plain c cs plain untagged ih =>
      rw [normalizeColorList_cons untagged]
      by_cases mark : c = colorMark
      · subst mark
        rw [splitMark?_mark, splitMark?_mark]
        rfl
      · rw [splitMark?_plain _ plain mark, splitMark?_plain _ plain mark, ih,
          normalizedSplit_putBefore]
        intro inner rest found
        have shorter : ¬ Tagged (c :: inner) := fun tagged =>
          untagged (splitMark?_written found ▸ tagged.append _)
        exact normalizeColorList_cons shorter

def ColorClose.normalized : ColorClose → ColorClose
  | matched inner rest => matched (normalizeColorList inner) (normalizeColorList rest)
  | firstMark inner rest => firstMark (normalizeColorList inner) (normalizeColorList rest)
  | tooDeep => tooDeep
  | missing => missing

theorem closeColor_normalized (budget : Nat) (body : List Char) :
    closeColor budget (normalizeColorList body) = (closeColor budget body).normalized := by
  unfold closeColor
  rw [countMarks_normalized, splitMark?_normalized]
  split
  · rfl
  · cases countMarks budget 1 body with
    | exceeded => rfl
    | balanced inner rest => rfl
    | unbalanced => cases splitMark? body <;> rfl

end Scan

end Phrasebook
