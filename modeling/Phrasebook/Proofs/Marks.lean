import Phrasebook.Phrase.Scan

/-!
Marks of colored stretches. The count of marks knows escapes, but neither references nor slots. It
goes through a piece without a mark to its end, whatever backslashes the piece holds, as long as the
last character of the piece is no backslash: so it is never in the middle of an escape where the
next piece begins.
-/

namespace Phrasebook

theorem mem_palette {letter : Char} {hex : String} (known : paletteHex? letter = some hex) :
    (letter, hex) ∈ palette := by
  obtain ⟨entry, found, rfl⟩ := Option.map_eq_some_iff.mp known
  obtain rfl : entry.1 = letter := by simpa using List.find?_some found
  exact List.mem_of_find?_eq_some found

namespace ColorCode

/-- A letter of the palette, or a number sign and six hexadecimal digits. -/
def Proper : ColorCode → Prop
  | .letter name => (paletteHex? name).isSome
  | .digits text => ∃ hex, text.toList = '#' :: hex ∧ hex.length = 6 ∧ ∀ c ∈ hex, isHexDigit c

theorem proper_of_read? {text rest : List Char} {code : ColorCode}
    (found : read? text = some (code, rest)) : code.Proper := by
  unfold read? at found
  split at found
  · cases found
  · simp only [Bool.and_eq_true, decide_eq_true_eq, List.all_eq_true] at found
    split at found
    · rename_i digits
      obtain ⟨rfl, _⟩ := Prod.mk.inj (Option.some.inj found)
      exact ⟨_, String.toList_ofList, digits.1, digits.2⟩
    · cases found
  · obtain ⟨hex, known, same⟩ := Option.map_eq_some_iff.mp found
    obtain ⟨rfl, _⟩ := Prod.mk.inj same
    simp [Proper, known]

theorem read?_append {code : ColorCode} (proper : code.Proper) (rest : List Char) :
    read? (code.written.toList ++ rest) = some (code, rest) := by
  cases code with
  | letter name =>
      obtain ⟨hex, known⟩ := Option.isSome_iff_exists.mp proper
      have unlike : name ≠ '#' := by
        rintro rfl
        have unknown : paletteHex? '#' = none := by decide
        rw [unknown] at known
        cases known
      rw [written, Char.toString, String.toList_singleton, List.singleton_append, read?]
      · rw [known]
        rfl
      · exact unlike
  | digits text =>
      obtain ⟨hex, same, length, digits⟩ := proper
      have whole : text = String.ofList ('#' :: hex) := by rw [← same, String.ofList_toList]
      have first : (hex ++ rest).take 6 = hex := by rw [← length, List.take_left]
      have second : (hex ++ rest).drop 6 = rest := by rw [← length, List.drop_left]
      have all : hex.all isHexDigit = true := by simpa using digits
      rw [written, same, List.cons_append, read?]
      simp [first, second, length, all, whole]

theorem parse?_written {code : ColorCode} (proper : code.Proper) :
    parse? code.written = some code := by
  have back := read?_append proper []
  rw [List.append_nil] at back
  rw [parse?, back]

def isCodeChar (c : Char) : Bool := (paletteHex? c).isSome || c = '#' || isHexDigit c

theorem isCodeChar_written {code : ColorCode} (proper : code.Proper) :
    ∀ c ∈ code.written.toList, isCodeChar c = true := by
  intro c member
  cases code with
  | letter name =>
      obtain rfl : c = name := by simpa [written] using member
      unfold Proper at proper
      simp [isCodeChar, proper]
  | digits text =>
      obtain ⟨hex, same, _, digits⟩ := proper
      rw [written, same, List.mem_cons] at member
      obtain rfl | member := member
      · rfl
      · simp [isCodeChar, digits c member]

theorem not_mem_written {code : ColorCode} (proper : code.Proper) {c : Char}
    (foreign : isCodeChar c = false) : c ∉ code.written.toList := by
  intro member
  rw [isCodeChar_written proper c member] at foreign
  cases foreign

theorem ordinary_written {code : ColorCode} (proper : code.Proper) :
    ∀ c ∈ code.written.toList, c ≠ '\\' ∧ c ≠ colorMark := by
  intro c member
  constructor
  · rintro rfl
    exact not_mem_written proper (by decide) member
  · rintro rfl
    exact not_mem_written proper (by decide) member

end ColorCode

namespace Scan

@[simp] theorem behind_nil (count : MarkCount) : count.behind [] = count := by
  cases count <;> rfl

@[simp] theorem behind_behind (first second : List Char) (count : MarkCount) :
    (count.behind second).behind first = count.behind (first ++ second) := by
  cases count <;> simp [MarkCount.behind]

theorem countMarks_escaped (budget opened : Nat) (hidden : Char) (rest : List Char) :
    countMarks budget opened ('\\' :: hidden :: rest) =
      (countMarks budget opened rest).behind ['\\', hidden] := by
  rw [countMarks]

theorem countMarks_plain (budget opened : Nat) {c : Char} (rest : List Char)
    (plain : c ≠ '\\') (unmarked : c ≠ colorMark) :
    countMarks budget opened (c :: rest) = (countMarks budget opened rest).behind [c] := by
  rw [countMarks.eq_def]
  split
  · rename_i same; cases same
  · rename_i same; exact absurd (List.cons.inj same).1 plain
  · rename_i same; exact absurd (List.cons.inj same).1 plain
  · rename_i same
    obtain ⟨rfl, rfl⟩ := List.cons.inj same
    rw [if_neg unmarked]

theorem countMarks_opening {budget opened : Nat} {rest : List Char}
    (coded : (ColorCode.read? rest).isSome) (fits : opened + 1 ≤ budget) :
    countMarks budget opened (colorMark :: rest) =
      (countMarks budget (opened + 1) rest).behind [colorMark] := by
  rw [countMarks.eq_def]
  simp [colorMark, coded, Nat.not_lt.mpr fits]

theorem countMarks_exceeding {budget opened : Nat} {rest : List Char}
    (coded : (ColorCode.read? rest).isSome) (spent : budget < opened + 1) :
    countMarks budget opened (colorMark :: rest) = .exceeded := by
  rw [countMarks.eq_def]
  simp [colorMark, coded, spent]

theorem countMarks_uncoded (budget opened : Nat) {rest : List Char}
    (uncoded : ColorCode.read? rest = none) :
    countMarks budget opened (colorMark :: rest) =
      if opened ≤ 1 then .balanced [] rest
      else (countMarks budget (opened - 1) rest).behind [colorMark] := by
  rw [countMarks.eq_def]
  simp [colorMark, uncoded]

theorem countMarks_closing {budget opened : Nat} {rest : List Char}
    (uncoded : ColorCode.read? rest = none) :
    countMarks budget (opened + 1) (colorMark :: rest) =
      if opened = 0 then .balanced [] rest
      else (countMarks budget opened rest).behind [colorMark] := by
  rw [countMarks_uncoded budget _ uncoded]
  simp

theorem countMarks_unmarked (budget opened : Nat) (piece : List Char) {last : Char}
    (rest : List Char) (unmarked : colorMark ∉ piece) (plain : last ≠ '\\')
    (different : last ≠ colorMark) :
    countMarks budget opened (piece ++ last :: rest) =
      (countMarks budget opened rest).behind (piece ++ [last]) := by
  match piece with
  | [] => exact countMarks_plain budget opened rest plain different
  | c :: piece =>
      simp only [List.mem_cons, not_or] at unmarked
      by_cases backslash : c = '\\'
      · -- The escape may hide the last character: then the piece ends with it all the same.
        subst backslash
        match piece with
        | [] => exact countMarks_escaped budget opened last rest
        | hidden :: piece =>
            simp only [List.mem_cons, not_or] at unmarked
            have later := countMarks_unmarked budget opened piece rest unmarked.2.2 plain different
            rw [List.cons_append, List.cons_append, countMarks_escaped, later, behind_behind]
            rfl
      · have later := countMarks_unmarked budget opened piece rest unmarked.2 plain different
        rw [List.cons_append, countMarks_plain budget opened _ backslash (Ne.symm unmarked.1),
          later, behind_behind]
        rfl

theorem step_mark (budget : Nat) (text : List Char) :
    step budget colorMark text = afterMark budget text := by
  simp [step, colorMark]

theorem countMarks_ordinary (budget opened : Nat) {text : List Char} (rest : List Char)
    (ordinary : ∀ c ∈ text, c ≠ '\\' ∧ c ≠ colorMark) :
    countMarks budget opened (text ++ rest) = (countMarks budget opened rest).behind text := by
  induction text with
  | nil => simp
  | cons c cs ih =>
      have first := ordinary c (by simp)
      have later := ih fun d member => ordinary d (by simp [member])
      rw [List.cons_append, countMarks_plain budget opened _ first.1 first.2, later, behind_behind]
      rfl

end Scan

end Phrasebook
