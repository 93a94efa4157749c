import Phrasebook.Proofs.Marks
import Phrasebook.Proofs.Steps

/-!
What a backslash does not hide. Backslashes are paired with the characters behind them from the
left, and the pairs of a text are those of its parts wherever no pair is cut. The end of a colored
stretch is searched among the marks that are not hidden: each opens a stretch or closes one.
-/

namespace Phrasebook

namespace Text

/-- The characters that stand for themselves, with the bytes at which they start. -/
def exposed (start : Nat) : List Char → List (Nat × Char)
  | [] => []
  | ['\\'] => []
  | '\\' :: hidden :: cs => exposed (start + byteLength ['\\', hidden]) cs
  | c :: cs => (start, c) :: exposed (start + c.utf8Size) cs

/-- The text ends with a backslash that hides what comes next. -/
def Hides : List Char → Prop
  | [] => False
  | ['\\'] => True
  | '\\' :: _ :: cs => Hides cs
  | _ :: cs => Hides cs

theorem pairs_induction {motive : List Char → Prop} (nil : motive []) (lone : motive ['\\'])
    (hidden : ∀ c cs, motive cs → motive ('\\' :: c :: cs))
    (plain : ∀ c cs, c ≠ '\\' → motive cs → motive (c :: cs)) (text : List Char) :
    motive text := by
  match text with
  | [] => exact nil
  | c :: cs =>
      by_cases backslash : c = '\\'
      · subst backslash
        match cs with
        | [] => exact lone
        | d :: ds => exact hidden d ds (pairs_induction nil lone hidden plain ds)
      · exact plain c cs backslash (pairs_induction nil lone hidden plain cs)

theorem exposed_hidden (start : Nat) (c : Char) (cs : List Char) :
    exposed start ('\\' :: c :: cs) = exposed (start + byteLength ['\\', c]) cs := by
  rw [exposed]

theorem exposed_plain {c : Char} (start : Nat) (cs : List Char) (plain : c ≠ '\\') :
    exposed start (c :: cs) = (start, c) :: exposed (start + c.utf8Size) cs := by
  cases cs <;> simp [exposed, plain]

theorem hides_plain {c : Char} (cs : List Char) (plain : c ≠ '\\') :
    Hides (c :: cs) ↔ Hides cs := by
  cases cs <;> simp [Hides, plain]

theorem exposed_append {first : List Char} (start : Nat) (second : List Char)
    (whole : ¬ Hides first) :
    exposed start (first ++ second) =
      exposed start first ++ exposed (start + byteLength first) second := by
  induction first using pairs_induction generalizing start with
  | nil => rfl
  | lone => exact absurd trivial whole
  | hidden c cs ih =>
      rw [List.cons_append, List.cons_append, exposed_hidden, exposed_hidden, ih _ whole,
        Nat.add_assoc, ← byteLength_append]
      rfl
  | plain c cs plain ih =>
      rw [hides_plain cs plain] at whole
      rw [List.cons_append, exposed_plain start _ plain, exposed_plain start _ plain, ih _ whole,
        Nat.add_assoc]
      rfl

theorem not_hides_append {last : Char} (piece : List Char) (plain : last ≠ '\\') :
    ¬ Hides (piece ++ [last]) := by
  induction piece using pairs_induction with
  | nil =>
      rw [List.nil_append, hides_plain [] plain]
      exact id
  | lone => exact id
  | hidden c cs ih => exact ih
  | plain c cs unlike ih =>
      rw [List.cons_append, hides_plain _ unlike]
      exact ih

theorem not_hides_of_plain {text : List Char} (plain : ∀ c ∈ text, c ≠ '\\') : ¬ Hides text := by
  induction text with
  | nil => exact id
  | cons c cs ih =>
      obtain ⟨first, later⟩ := List.forall_mem_cons.mp plain
      rw [hides_plain cs first]
      exact ih later

theorem exposed_place {start place : Nat} {c : Char} {text : List Char}
    (member : (place, c) ∈ exposed start text) :
    ∃ before after, text = before ++ c :: after ∧ place = start + byteLength before := by
  induction text using pairs_induction generalizing start with
  | nil => cases member
  | lone => cases member
  | hidden d cs ih =>
      obtain ⟨before, after, rfl, reaches⟩ := ih member
      refine ⟨'\\' :: d :: before, after, rfl, ?_⟩
      rw [reaches, Nat.add_assoc, ← byteLength_append]
      rfl
  | plain d cs plain ih =>
      rw [exposed_plain start cs plain] at member
      obtain same | member := List.mem_cons.mp member
      · cases same
        exact ⟨[], cs, rfl, rfl⟩
      · obtain ⟨before, after, rfl, reaches⟩ := ih member
        exact ⟨d :: before, after, rfl, by rw [reaches, Nat.add_assoc]; rfl⟩

theorem exposed_within {start place : Nat} {c : Char} {text : List Char}
    (member : (place, c) ∈ exposed start text) :
    start ≤ place ∧ place < start + byteLength text := by
  obtain ⟨before, after, rfl, rfl⟩ := exposed_place member
  have positive := c.utf8Size_pos
  simp only [byteLength_append, byteLength_cons]
  omega

theorem split_unique {first second before after : List Char}
    (same : first ++ second = before ++ after) (size : byteLength first = byteLength before) :
    first = before ∧ second = after := by
  obtain ⟨extra, rfl, rfl⟩ | ⟨extra, rfl, rfl⟩ := List.append_eq_append_iff.mp same
  all_goals
    rw [byteLength_append] at size
    cases extra with
    | nil => simp
    | cons c cs =>
        have positive := c.utf8Size_pos
        rw [byteLength_cons] at size
        omega

end Text

namespace Scan

/-- The marks that are not hidden: whether a color code follows, so that they open a stretch. -/
def marks : List Char → List Bool
  | [] => []
  | ['\\'] => []
  | '\\' :: _ :: cs => marks cs
  | c :: cs => if c = colorMark then (ColorCode.read? cs).isSome :: marks cs else marks cs

theorem marks_plain {c : Char} (cs : List Char) (plain : c ≠ '\\') :
    marks (c :: cs) =
      if c = colorMark then (ColorCode.read? cs).isSome :: marks cs else marks cs := by
  cases cs <;> simp [marks, plain]

theorem marks_eq_nil_iff (start : Nat) (text : List Char) :
    marks text = [] ↔ ∀ place, (place, colorMark) ∉ Text.exposed start text := by
  induction text using Text.pairs_induction generalizing start with
  | nil => simp [marks, Text.exposed]
  | lone => simp [marks, Text.exposed]
  | hidden c cs ih => exact ih _
  | plain c cs plain ih =>
      rw [marks_plain cs plain, Text.exposed_plain start cs plain]
      by_cases mark : c = colorMark
      · subst mark
        refine iff_of_false (by simp) fun absent => absent start List.mem_cons_self
      · rw [if_neg mark, ih (start + c.utf8Size)]
        simp [Ne.symm mark]

/-- Of the marks in their order so many open stretches that more than `budget` come to be open,
before all that were open have been closed. -/
def Exceeds (budget opened : Nat) (marks : List Bool) : Prop :=
  ∃ front, front <+: marks ∧ budget + front.count false < opened + front.count true ∧
    ∀ earlier, earlier <+: front → earlier.count false < opened + earlier.count true

variable {budget opened : Nat} {marks : List Bool}

theorem exceeds_of_lt (beyond : budget < opened) : Exceeds budget opened marks := by
  refine ⟨[], List.nil_prefix, by simpa using beyond, fun earlier ahead => ?_⟩
  rw [List.prefix_nil.mp ahead]
  exact Nat.lt_of_le_of_lt (Nat.zero_le budget) beyond

theorem exceeds_nil (few : opened ≤ budget) : ¬ Exceeds budget opened [] := by
  rintro ⟨front, ahead, beyond, _⟩
  rw [List.prefix_nil.mp ahead, List.count_nil, List.count_nil] at beyond
  omega

theorem exceeds_cons {mark : Bool} {next : Nat} (few : opened ≤ budget) (begun : 0 < opened)
    (counted : next + [mark].count false = opened + [mark].count true) :
    Exceeds budget opened (mark :: marks) ↔ 0 < next ∧ Exceeds budget next marks := by
  -- The marks behind the first one, which is counted already.
  have total : ∀ front : List Bool,
      next + front.count true + (mark :: front).count false =
        opened + (mark :: front).count true + front.count false := by
    intro front
    rw [← List.singleton_append, List.count_append, List.count_append]
    omega
  constructor
  · rintro ⟨front, ahead, beyond, open_⟩
    obtain rfl | ⟨front, rfl, behind⟩ := List.prefix_cons_iff.mp ahead
    · rw [List.count_nil, List.count_nil] at beyond
      omega
    · have here := total front
      have last := open_ [mark] ⟨front, rfl⟩
      refine ⟨by omega, front, behind, by omega, fun earlier before => ?_⟩
      have sooner := total earlier
      have inside := open_ (mark :: earlier) (List.cons_prefix_cons.mpr ⟨rfl, before⟩)
      omega
  · rintro ⟨positive, front, ahead, beyond, open_⟩
    have here := total front
    refine ⟨mark :: front, List.cons_prefix_cons.mpr ⟨rfl, ahead⟩, by omega, ?_⟩
    intro earlier before
    obtain rfl | ⟨earlier, rfl, behind⟩ := List.prefix_cons_iff.mp before
    · simpa using begun
    · have sooner := total earlier
      have inside := open_ earlier behind
      omega

theorem behind_exceeded_iff {before : List Char} {count : MarkCount} :
    count.behind before = .exceeded ↔ count = .exceeded := by
  cases count <;> simp [MarkCount.behind]

theorem countMarks_exceeded_iff (begun : 0 < opened) (few : opened ≤ budget) (text : List Char) :
    countMarks budget opened text = .exceeded ↔ Exceeds budget opened (Scan.marks text) := by
  induction text using Text.pairs_induction generalizing opened with
  | nil => exact iff_of_false (by simp [countMarks]) (exceeds_nil few)
  | lone => exact iff_of_false (by simp [countMarks]) (exceeds_nil few)
  | hidden c cs ih =>
      rw [countMarks_escaped, behind_exceeded_iff]
      exact ih begun few
  | plain c cs plain ih =>
      rw [marks_plain cs plain]
      by_cases mark : c = colorMark
      · subst mark
        rw [if_pos rfl]
        cases coded : ColorCode.read? cs with
        | some found =>
            have opens : (ColorCode.read? cs).isSome := by rw [coded]; rfl
            have later : Exceeds budget opened (true :: Scan.marks cs) ↔
                0 < opened + 1 ∧ Exceeds budget (opened + 1) (Scan.marks cs) :=
              exceeds_cons few begun rfl
            rw [Option.isSome_some, later]
            by_cases fits : opened + 1 ≤ budget
            · rw [countMarks_opening opens fits, behind_exceeded_iff, ih (Nat.succ_pos _) fits]
              simp
            · rw [countMarks_exceeding opens (by omega)]
              simp [exceeds_of_lt (Nat.lt_of_not_le fits)]
        | none =>
            obtain ⟨opened, rfl⟩ := Nat.exists_eq_succ_of_ne_zero (Nat.ne_of_gt begun)
            have later : Exceeds budget (opened + 1) (false :: Scan.marks cs) ↔
                0 < opened ∧ Exceeds budget opened (Scan.marks cs) := exceeds_cons few begun rfl
            rw [Option.isSome_none, later, countMarks_closing coded]
            by_cases last : opened = 0
            · simp [last]
            · rw [if_neg last, behind_exceeded_iff, ih (by omega) (by omega)]
              simp
              omega
      · rw [if_neg mark, countMarks_plain _ _ _ plain mark, behind_exceeded_iff, ih begun few]

theorem splitMark?_eq_none_iff (text : List Char) :
    splitMark? text = none ↔ Scan.marks text = [] := by
  induction text using Text.pairs_induction with
  | nil => simp [splitMark?, Scan.marks]
  | lone => simp [splitMark?, Scan.marks]
  | hidden c cs ih => simpa [splitMark?, Scan.marks] using ih
  | plain c cs plain ih =>
      rw [marks_plain cs plain]
      cases cs <;> by_cases mark : c = colorMark <;> simp_all [splitMark?]

theorem countMarks_of_unmarked {text : List Char} (unmarked : Scan.marks text = []) :
    countMarks budget opened text = .unbalanced := by
  induction text using Text.pairs_induction with
  | nil => simp [countMarks]
  | lone => simp [countMarks]
  | hidden c cs ih => rw [countMarks_escaped, ih unmarked, MarkCount.behind]
  | plain c cs plain ih =>
      rw [marks_plain cs plain] at unmarked
      split at unmarked
      · cases unmarked
      · rename_i mark
        rw [countMarks_plain _ _ _ plain mark, ih unmarked, MarkCount.behind]

theorem closeColor_tooDeep_iff (budget : Nat) (body : List Char) :
    closeColor budget body = .tooDeep ↔ Exceeds budget 1 (Scan.marks body) := by
  unfold closeColor
  split
  · rename_i none
    subst none
    simp [exceeds_of_lt Nat.zero_lt_one]
  · rename_i spends
    rw [← countMarks_exceeded_iff Nat.zero_lt_one (by omega)]
    split
    · rename_i exceeded
      simp [exceeded]
    · rename_i balanced
      simp [balanced]
    · rename_i unbalanced
      rw [unbalanced]
      split <;> simp

theorem closeColor_missing_iff (budget : Nat) (body : List Char) :
    closeColor budget body = .missing ↔ 0 < budget ∧ Scan.marks body = [] := by
  constructor
  · intro missing
    unfold closeColor at missing
    split at missing
    · cases missing
    · rename_i spends
      split at missing
      · cases missing
      · cases missing
      · split at missing
        · cases missing
        · rename_i unmarked
          exact ⟨Nat.pos_of_ne_zero spends, (splitMark?_eq_none_iff body).mp unmarked⟩
  · rintro ⟨spends, unmarked⟩
    rw [closeColor, if_neg (Nat.ne_of_gt spends), countMarks_of_unmarked unmarked]
    simp only [(splitMark?_eq_none_iff body).mpr unmarked]

end Scan

end Phrasebook
