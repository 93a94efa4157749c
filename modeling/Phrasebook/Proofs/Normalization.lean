import Phrasebook.Proofs.Recoloring

/-!
The normal form of color markup, place by place. What becomes of a character depends on what stands
around it in the text as it is given: a letter of the palette between an opening and the end of its
tag becomes its color, and every other character stays. No tag with a letter of the palette is left
over, so a normal form is its own normal form.
-/

namespace Phrasebook

/-- What becomes of a character with this text before and behind it. -/
def replacement (before : List Char) (c : Char) (after : List Char) : List Char :=
  match paletteHex? c with
  | some hex => if colorOpening <:+ before ∧ ['>'] <+: after then hex.toList else [c]
  | none => [c]

/-- What becomes of the characters of a text, one after the other, with `before` in front of it. -/
def replacements (before text : List Char) : List (List Char) :=
  text.mapIdx fun place c => replacement (before ++ text.take place) c (text.drop (place + 1))

theorem replacements_cons (before : List Char) (c : Char) (cs : List Char) :
    replacements before (c :: cs) =
      replacement before c cs :: replacements (before ++ [c]) cs := by
  simp [replacements, List.mapIdx_cons]

/-- No tag begins in the first text and has its letter in the second one. -/
def Parted (before after : List Char) : Prop :=
  ∀ back, back <:+ before → back ≠ [] → back.length ≤ colorOpening.length →
    ¬ Tagged (back ++ after)

theorem parted_nil (after : List Char) : Parted [] after := fun _ ends filled =>
  absurd (List.suffix_nil.mp ends) filled

theorem Parted.char {before cs : List Char} {c : Char} (parted : Parted before (c :: cs))
    (untagged : ¬ Tagged (c :: cs)) : Parted (before ++ [c]) cs := by
  intro back ends filled short tagged
  obtain rfl | ⟨start, rfl, behind⟩ := List.suffix_concat_iff.mp ends
  · exact filled rfl
  · rw [List.append_assoc] at tagged
    by_cases bare : start = []
    · subst bare
      exact untagged tagged
    · rw [List.length_append] at short
      exact parted start behind bare (Nat.le_of_add_right_le short) tagged

theorem parted_tag {letter : Char} {hex : String} (known : paletteHex? letter = some hex)
    (before rest : List Char) : Parted (before ++ openingTag letter) rest := by
  intro back ends filled short tagged
  obtain ⟨first, later, rfl⟩ := List.exists_cons_of_ne_nil filled
  have opens : first = '<' := tagged.head
  have inside : first :: later <:+ openingTag letter :=
    List.suffix_of_suffix_length_le ends (List.suffix_append _ _) (Nat.le_trans short (by
      simp [openingTag]))
  have behind : first :: later <:+ ['c', 'o', 'l', 'o', 'r', '=', letter, '>'] := by
    refine (List.suffix_cons_iff.mp inside).resolve_left fun whole => ?_
    rw [whole] at short
    exact absurd short (by simp [colorOpening])
  have member := behind.subset List.mem_cons_self
  rw [opens] at member
  obtain rfl : '<' = letter := by simpa using member
  cases known

theorem replacement_unlisted {c : Char} (unlisted : paletteHex? c = none)
    (before after : List Char) : replacement before c after = [c] := by
  rw [replacement, unlisted]

theorem replacement_parted {before cs : List Char} {c : Char} (parted : Parted before (c :: cs)) :
    replacement before c cs = [c] := by
  unfold replacement
  split
  · rename_i hex known
    refine if_neg fun ⟨opened, closed⟩ => ?_
    obtain ⟨rest, rfl⟩ := closed
    exact parted colorOpening opened (by decide) (Nat.le_refl _)
      ⟨c, hex, rest, known, by simp [openingTag]⟩
  · rfl

theorem replacement_letter {letter : Char} {hex : String} (known : paletteHex? letter = some hex)
    (before rest : List Char) :
    replacement (before ++ colorOpening) letter ('>' :: rest) = hex.toList := by
  have surrounded : colorOpening <:+ before ++ colorOpening ∧ ['>'] <+: '>' :: rest :=
    ⟨List.suffix_append _ _, List.prefix_append ['>'] rest⟩
  rw [replacement, known]
  exact if_pos surrounded

theorem replacements_tag {letter : Char} {hex : String} (known : paletteHex? letter = some hex)
    (before rest : List Char) :
    (replacements before (openingTag letter ++ rest)).flatten =
      expandedTag hex ++ (replacements (before ++ openingTag letter) rest).flatten := by
  have replaced := replacement_letter known before rest
  simp only [colorOpening] at replaced
  have unlisted : (('>' :: colorOpening).all fun c => (paletteHex? c).isNone) = true := by decide
  simp only [colorOpening, List.all_cons, Bool.and_eq_true, Option.isNone_iff_eq_none] at unlisted
  simp [openingTag, expandedTag, colorOpening, replacements_cons, replacement_unlisted, unlisted,
    replaced]

theorem flatten_replacements (before text : List Char) (parted : Parted before text) :
    (replacements before text).flatten = normalizeColorList text := by
  -- The replacement goes along the text; the invariant is that no tag is cut by what has been left
  -- behind.
  induction text using tags_induction generalizing before with
  | nil => rfl
  | tag letter hex rest known ih =>
      rw [replacements_tag known, normalizeColorList_tag rest known,
        ih _ (parted_tag known before rest)]
  | char c cs untagged ih =>
      rw [replacements_cons, List.flatten_cons, replacement_parted parted,
        ih _ (parted.char untagged), normalizeColorList_cons untagged, List.singleton_append]

theorem untagged_cons {c : Char} {cs : List Char} (untagged : ¬ Tagged (c :: cs)) :
    ¬ Tagged (c :: normalizeColorList cs) := by
  -- A tag of the normal form would have been one of the text.
  rintro ⟨letter, hex, rest, known, same⟩
  obtain ⟨rfl, behind⟩ := List.cons.inj same
  have bare : '<' ∉ ['c', 'o', 'l', 'o', 'r', '=', letter, '>'] := by
    intro member
    obtain rfl : '<' = letter := by simpa using member
    cases known
  obtain ⟨later, rfl, _⟩ := split_bare bare behind
  exact untagged ⟨letter, hex, later, known, rfl⟩

theorem untagged_expanded {letter : Char} {hex : String} (known : paletteHex? letter = some hex)
    (rest : List Char) : ¬ Tagged (expandedTag hex ++ rest) := by
  -- A color begins with a number sign, which is no letter of the palette.
  rintro ⟨other, color, later, listed, same⟩
  have all : ∀ entry ∈ palette, entry.2.toList.head? = some '#' := by decide
  obtain ⟨digits, sharp⟩ := List.head?_eq_some_iff.mp (all _ (mem_palette known))
  obtain rfl : '#' = other := by
    have entry := congrArg (fun text => text[colorOpening.length]?) same
    simpa [expandedTag, openingTag, colorOpening, sharp] using entry
  cases listed

/-- No tag begins anywhere in the text. -/
def TagFree (text : List Char) : Prop := ∀ after, after <:+ text → ¬ Tagged after

theorem TagFree.cons {c : Char} {cs : List Char} (free : TagFree cs)
    (untagged : ¬ Tagged (c :: cs)) : TagFree (c :: cs) := by
  intro after ends
  obtain rfl | behind := List.suffix_cons_iff.mp ends
  · exact untagged
  · exact free after behind

theorem TagFree.bare_append {front text : List Char} (free : TagFree text) (bare : '<' ∉ front) :
    TagFree (front ++ text) := by
  induction front with
  | nil => exact free
  | cons c cs ih =>
      simp only [List.mem_cons, not_or] at bare
      exact (ih bare.2).cons fun tagged => bare.1 tagged.head.symm

theorem tagFree_normalized (text : List Char) : TagFree (normalizeColorList text) := by
  induction text using tags_induction with
  | nil =>
      intro after ends
      obtain rfl := List.suffix_nil.mp ends
      rintro ⟨_, _, _, _, same⟩
      cases same
  | tag letter hex rest known ih =>
      have all : ∀ entry ∈ palette, '<' ∉ entry.2.toList := by decide
      have bare : '<' ∉ ['c', 'o', 'l', 'o', 'r', '='] ++ hex.toList ++ ['>'] := by
        simp [all _ (mem_palette known)]
      have front : expandedTag hex =
          '<' :: (['c', 'o', 'l', 'o', 'r', '='] ++ hex.toList ++ ['>']) := rfl
      rw [normalizeColorList_tag rest known, front, List.cons_append]
      exact (ih.bare_append bare).cons (untagged_expanded known _)
  | char c cs untagged ih =>
      rw [normalizeColorList_cons untagged]
      exact ih.cons (untagged_cons untagged)

/-- The normal form of a text. Each letter of the palette that stands in the text between an opening
and the end of its tag is replaced by its color, and every other character stays; no such tag is
left, and a normal form is its own. -/
theorem normalizeColors_exact (text : String) :
    (normalizeColors text).toList = (replacements [] text.toList).flatten ∧
      Untagged (normalizeColors text) ∧
      normalizeColors (normalizeColors text) = normalizeColors text := by
  have free : Untagged (normalizeColors text) := by
    intro before after split
    rw [normalizeColors, String.toList_ofList] at split
    exact tagFree_normalized text.toList after ⟨before, split.symm⟩
  refine ⟨?_, free, normalizeColors_of_untagged free⟩
  rw [flatten_replacements [] text.toList (parted_nil _), normalizeColors, String.toList_ofList]

/-- An opening without a letter does not hide the tag that begins in it. -/
example : normalizeColors "<color=<color=R>é<color=?>" = "<color=<color=#FF0000>é<color=?>" := by
  decide +kernel

end Phrasebook
