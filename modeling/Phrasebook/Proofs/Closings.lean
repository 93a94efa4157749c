import Phrasebook.Proofs.Escapes

/-!
Where colored stretches close. The marks of a text that are not hidden are counted from the left:
those in front of a color code open a stretch, and all others close one. What becomes of a stretch
is decided by the first mark at which none of the stretches is open any more, or too many are. A
mark cannot be a part of a color code, so the inside of a stretch has the same marks when it is read
on its own.
-/

namespace Phrasebook

namespace ColorCode

theorem isSome_read?_hash (text : List Char) :
    (read? ('#' :: text)).isSome ↔
      (text.take 6).length = 6 ∧ ∀ c ∈ text.take 6, isHexDigit c = true := by
  unfold read?
  simp only [Bool.and_eq_true, decide_eq_true_eq, List.all_eq_true]
  split
  · rename_i digits
    exact iff_of_true rfl digits
  · rename_i digits
    exact iff_of_false nofun digits

theorem isSome_read?_cut (inner rest : List Char) :
    (read? (inner ++ colorMark :: rest)).isSome = (read? inner).isSome := by
  cases inner with
  | nil => rfl
  | cons c cs =>
      by_cases hash : c = '#'
      · subst hash
        rw [Bool.eq_iff_iff, List.cons_append, isSome_read?_hash, isSome_read?_hash]
        by_cases long : 6 ≤ cs.length
        · rw [List.take_append_of_le_length long]
        · have short : (cs.take 6).length ≠ 6 := by simp; omega
          have reaches : colorMark ∈ (cs ++ colorMark :: rest).take 6 := by
            obtain ⟨spare, enough⟩ : ∃ spare, 6 - cs.length = spare + 1 :=
              Nat.exists_eq_succ_of_ne_zero (by omega)
            simp [List.take_append, enough]
          refine iff_of_false (fun digits => ?_) fun digits => short digits.1
          exact absurd (digits.2 colorMark reaches) (by decide)
      · simp [read?]

end ColorCode

namespace Scan

open Text

/-- A mark that is not hidden: the byte at which it stands, and whether a color code follows. -/
structure Mark where
  place : Nat
  opens : Bool
  deriving DecidableEq, Repr

def marksFrom (start : Nat) : List Char → List Mark
  | [] => []
  | ['\\'] => []
  | '\\' :: hidden :: cs => marksFrom (start + byteLength ['\\', hidden]) cs
  | c :: cs =>
      let later := marksFrom (start + c.utf8Size) cs
      if c = colorMark then ⟨start, (ColorCode.read? cs).isSome⟩ :: later else later

/-- The number of open stretches behind the marks, where one is open in front of them. -/
def level (marks : List Mark) : Int :=
  1 + marks.countP (fun mark => mark.opens) - marks.countP fun mark => !mark.opens

/-- All along the marks a stretch is open, and no more than `budget` are. -/
def Undecided (budget : Nat) (marks : List Mark) : Prop :=
  ∀ front, front <+: marks → 1 ≤ level front ∧ level front ≤ budget

/-- The first mark at which none of the stretches is open any more, or too many are. -/
structure Decides (budget : Nat) (marks before : List Mark) (mark : Mark) : Prop where
  marked : ∃ after, marks = before ++ mark :: after
  undecided : Undecided budget before
  decided : level (before ++ [mark]) = 0 ∨ budget < level (before ++ [mark])

/-- Where a stretch closes, told by the marks behind its color code. -/
inductive Closes (budget : Nat) (body : List Char) : ColorClose → Prop
  | matched {inner rest : List Char} {before : List Mark} {mark : Mark}
      (decides : Decides budget (marksFrom 0 body) before mark)
      (none_open : level (before ++ [mark]) = 0) (whole : body = inner ++ colorMark :: rest)
      (here : mark.place = byteLength inner) : Closes budget body (.matched inner rest)
  | tooDeep {before : List Mark} {mark : Mark}
      (decides : Decides budget (marksFrom 0 body) before mark)
      (exceeds : budget < level (before ++ [mark])) : Closes budget body .tooDeep
  | firstMark {inner rest : List Char} {first : Mark} {later : List Mark}
      (undecided : Undecided budget (marksFrom 0 body)) (marked : marksFrom 0 body = first :: later)
      (whole : body = inner ++ colorMark :: rest) (here : first.place = byteLength inner) :
      Closes budget body (.firstMark inner rest)
  | missing (undecided : Undecided budget (marksFrom 0 body)) (unmarked : marksFrom 0 body = []) :
      Closes budget body .missing

theorem marksFrom_plain {c : Char} (start : Nat) (cs : List Char) (plain : c ≠ '\\') :
    marksFrom start (c :: cs) =
      if c = colorMark then
        ⟨start, (ColorCode.read? cs).isSome⟩ :: marksFrom (start + c.utf8Size) cs
      else marksFrom (start + c.utf8Size) cs := by
  cases cs <;> simp [marksFrom, plain]

theorem marksFrom_mark (start : Nat) (cs : List Char) :
    marksFrom start (colorMark :: cs) =
      ⟨start, (ColorCode.read? cs).isSome⟩ :: marksFrom (start + colorMark.utf8Size) cs := by
  rw [marksFrom_plain start cs (by decide), if_pos rfl]

theorem splitMark?_unhidden {c : Char} (cs : List Char) (plain : c ≠ '\\') :
    splitMark? (c :: cs) =
      if c = colorMark then some ([], cs)
      else (splitMark? cs).map fun parts => (c :: parts.1, parts.2) := by
  cases cs <;> simp [splitMark?, plain]

theorem level_nil : level [] = 1 := rfl

theorem level_snoc (marks : List Mark) (mark : Mark) :
    level (marks ++ [mark]) = level marks + if mark.opens then 1 else -1 := by
  cases opening : mark.opens <;> simp [level, opening] <;> omega

variable {budget : Nat} {marks before after : List Mark} {mark : Mark}

theorem undecided_nil (positive : 0 < budget) : Undecided budget [] := by
  intro front ahead
  rw [List.prefix_nil.mp ahead, level_nil]
  omega

theorem Undecided.snoc (undecided : Undecided budget marks) (opened : 1 ≤ level (marks ++ [mark]))
    (fits : level (marks ++ [mark]) ≤ budget) : Undecided budget (marks ++ [mark]) := by
  intro front ahead
  obtain rfl | ahead := List.prefix_concat_iff.mp ahead
  · exact ⟨opened, fits⟩
  · exact undecided front ahead

theorem Undecided.of_prefix (undecided : Undecided budget marks) (ahead : before <+: marks) :
    Undecided budget before := fun front earlier => undecided front (earlier.trans ahead)

theorem Decides.not_undecided (decides : Decides budget marks before mark) :
    ¬ Undecided budget (before ++ [mark]) := fun undecided => by
  have all := undecided _ (List.prefix_refl _)
  have decided := decides.decided
  omega

theorem Decides.not_undecided_all (decides : Decides budget marks before mark) :
    ¬ Undecided budget marks := by
  obtain ⟨after, rfl⟩ := decides.marked
  exact fun undecided => decides.not_undecided (undecided.of_prefix ⟨after, by simp⟩)

theorem Decides.prefix_of_undecided {others further : List Mark} {other : Mark}
    (decides : Decides budget (others ++ other :: further) before mark)
    (undecided : Undecided budget others) : others <+: before := by
  -- Marks without a decision do not reach beyond the one that decides.
  obtain ⟨after, same⟩ := decides.marked
  obtain ⟨extra, rfl, _⟩ | ⟨extra, rfl, behind⟩ := List.append_eq_append_iff.mp same
  · exact List.prefix_append others extra
  · cases extra with
    | nil => simp
    | cons first extra =>
        obtain ⟨rfl, _⟩ := List.cons.inj behind
        exact absurd (undecided.of_prefix ⟨extra, by simp⟩) decides.not_undecided

theorem Decides.unique {others : List Mark} {other : Mark}
    (decides : Decides budget marks before mark) (decides' : Decides budget marks others other) :
    before = others ∧ mark = other := by
  obtain ⟨after, rfl⟩ := decides.marked
  obtain ⟨further, same⟩ := decides'.marked
  have ahead := decides'.prefix_of_undecided decides.undecided
  rw [same] at decides
  have behind := decides.prefix_of_undecided decides'.undecided
  obtain rfl := ahead.eq_of_length_le behind.length_le
  exact ⟨rfl, (List.cons.inj (List.append_cancel_left same)).1⟩

/-- A mark cuts the text in two, and the part in front of it keeps its marks when it is alone. -/
theorem marksFrom_split {start : Nat} {text : List Char}
    (marked : marksFrom start text = before ++ mark :: after) :
    ∃ inner rest, text = inner ++ colorMark :: rest ∧ mark.place = start + byteLength inner ∧
      mark.opens = (ColorCode.read? rest).isSome ∧ marksFrom start inner = before := by
  induction text using Text.pairs_induction generalizing start before with
  | nil => simp [marksFrom] at marked
  | lone => simp [marksFrom] at marked
  | hidden c cs ih =>
      obtain ⟨inner, rest, rfl, here, opens, front⟩ := ih marked
      refine ⟨'\\' :: c :: inner, rest, rfl, ?_, opens, front⟩
      rw [here, Nat.add_assoc, ← byteLength_append]
      rfl
  | plain c cs plain ih =>
      have further (inner : List Char) :
          start + c.utf8Size + byteLength inner = start + byteLength (c :: inner) := by
        rw [byteLength_cons, Nat.add_assoc]
      rw [marksFrom_plain start cs plain] at marked
      split at marked
      · rename_i isMark
        subst isMark
        cases before with
        | nil =>
            obtain ⟨rfl, _⟩ := List.cons.inj marked
            exact ⟨[], cs, rfl, rfl, rfl, rfl⟩
        | cons first before =>
            obtain ⟨rfl, later⟩ := List.cons.inj marked
            obtain ⟨inner, rest, rfl, here, opens, rfl⟩ := ih later
            refine ⟨colorMark :: inner, rest, rfl, by rw [here, further], opens, ?_⟩
            rw [marksFrom_mark, ColorCode.isSome_read?_cut]
      · rename_i unlike
        obtain ⟨inner, rest, rfl, here, opens, rfl⟩ := ih marked
        refine ⟨c :: inner, rest, rfl, by rw [here, further], opens, ?_⟩
        rw [marksFrom_plain start inner plain, if_neg unlike]

theorem marksFrom_cut {inner rest : List Char}
    (marked : marksFrom 0 (inner ++ colorMark :: rest) = before ++ mark :: after)
    (here : mark.place = byteLength inner) :
    marksFrom 0 inner = before ∧ mark = ⟨byteLength inner, (ColorCode.read? rest).isSome⟩ := by
  obtain ⟨front, behind, cut, place, opens, alone⟩ := marksFrom_split marked
  rw [Nat.zero_add] at place
  obtain ⟨rfl, same⟩ := split_unique cut (here.symm.trans place)
  obtain ⟨_, rfl⟩ := List.cons.inj same
  cases mark
  exact ⟨alone, by rw [Mark.mk.injEq]; exact ⟨here, opens⟩⟩

theorem marks_eq_map (start : Nat) (text : List Char) :
    Scan.marks text = (marksFrom start text).map Mark.opens := by
  induction text using Text.pairs_induction generalizing start with
  | nil => rfl
  | lone => rfl
  | hidden c cs ih => exact ih _
  | plain c cs plain ih =>
      rw [marks_plain cs plain, marksFrom_plain start cs plain, ih (start + c.utf8Size)]
      split <;> rfl

theorem marksFrom_eq_nil_iff (start : Nat) (text : List Char) :
    marksFrom start text = [] ↔ splitMark? text = none := by
  rw [splitMark?_eq_none_iff, marks_eq_map start, List.map_eq_nil_iff]

theorem first_of_splitMark? (start : Nat) {text inner rest : List Char}
    (found : splitMark? text = some (inner, rest)) :
    ∃ first later, marksFrom start text = first :: later ∧
      first.place = start + byteLength inner := by
  induction text using Text.pairs_induction generalizing start inner with
  | nil => cases found
  | lone => cases found
  | hidden c cs ih =>
      obtain ⟨parts, later, same⟩ := Option.map_eq_some_iff.mp found
      obtain ⟨rfl, rfl⟩ := Prod.mk.inj same
      obtain ⟨first, others, marked, here⟩ := ih _ later
      refine ⟨first, others, marked, ?_⟩
      rw [here, Nat.add_assoc, ← byteLength_append]
      rfl
  | plain c cs plain ih =>
      rw [marksFrom_plain start cs plain]
      rw [splitMark?_unhidden cs plain] at found
      split at found
      · rename_i isMark
        obtain ⟨rfl, rfl⟩ := Prod.mk.inj (Option.some.inj found)
        rw [if_pos isMark]
        exact ⟨_, _, rfl, rfl⟩
      · rename_i unlike
        obtain ⟨parts, later, same⟩ := Option.map_eq_some_iff.mp found
        obtain ⟨rfl, rfl⟩ := Prod.mk.inj same
        obtain ⟨first, others, marked, here⟩ := ih _ later
        rw [if_neg unlike]
        refine ⟨first, others, marked, ?_⟩
        rw [here, byteLength_cons, Nat.add_assoc]

/-- What the count of marks says of a text behind the marks `seen`. -/
inductive Counted (budget : Nat) (seen : List Mark) (start : Nat) (text : List Char) :
    MarkCount → Prop
  | balanced {inner rest : List Char} (before : List Mark) {after : List Mark} {mark : Mark}
      (marked : marksFrom start text = before ++ mark :: after)
      (undecided : Undecided budget (seen ++ before))
      (none_open : level (seen ++ before ++ [mark]) = 0)
      (here : mark.place = start + byteLength inner) :
      Counted budget seen start text (.balanced inner rest)
  | exceeded (before : List Mark) {after : List Mark} {mark : Mark}
      (marked : marksFrom start text = before ++ mark :: after)
      (undecided : Undecided budget (seen ++ before))
      (exceeds : budget < level (seen ++ before ++ [mark])) :
      Counted budget seen start text .exceeded
  | unbalanced (undecided : Undecided budget (seen ++ marksFrom start text)) :
      Counted budget seen start text .unbalanced

theorem Counted.behind {seen : List Mark} {start : Nat} {text : List Char} {count : MarkCount}
    (piece : List Char) (added : List Mark)
    (counted : Counted budget (seen ++ added) (start + byteLength piece) text count)
    (marked : marksFrom start (piece ++ text) =
      added ++ marksFrom (start + byteLength piece) text) :
    Counted budget seen start (piece ++ text) (count.behind piece) := by
  cases counted with
  | balanced before later undecided none_open here =>
      rw [later, ← List.append_assoc] at marked
      rw [List.append_assoc seen] at undecided none_open
      refine .balanced _ marked undecided none_open ?_
      rw [here, byteLength_append, Nat.add_assoc]
  | exceeded before later undecided exceeds =>
      rw [later, ← List.append_assoc] at marked
      rw [List.append_assoc seen] at undecided exceeds
      exact .exceeded _ marked undecided exceeds
  | unbalanced undecided =>
      rw [List.append_assoc, ← marked] at undecided
      exact .unbalanced undecided

theorem countMarks_counted {seen : List Mark} {opened : Nat} (start : Nat) (text : List Char)
    (undecided : Undecided budget seen) (opened_here : level seen = opened) :
    Counted budget seen start text (countMarks budget opened text) := by
  induction text using Text.pairs_induction generalizing seen start opened with
  | nil =>
      rw [countMarks]
      exact .unbalanced (by simpa [marksFrom] using undecided)
  | lone =>
      rw [countMarks]
      exact .unbalanced (by simpa [marksFrom] using undecided)
  | hidden c cs ih =>
      rw [countMarks_escaped]
      refine Counted.behind ['\\', c] [] ?_ rfl
      rw [List.append_nil]
      exact ih _ undecided opened_here
  | plain c cs plain ih =>
      by_cases isMark : c = colorMark
      · subst isMark
        have marked := marksFrom_mark start cs
        cases coded : ColorCode.read? cs with
        | some found =>
            have opens : (ColorCode.read? cs).isSome := by rw [coded]; rfl
            rw [opens] at marked
            have here : level (seen ++ [⟨start, true⟩]) = opened + 1 := by
              rw [level_snoc, opened_here, if_pos rfl]
            by_cases fits : opened + 1 ≤ budget
            · rw [countMarks_opening opens fits]
              have more : Undecided budget (seen ++ [⟨start, true⟩]) :=
                undecided.snoc (by omega) (by omega)
              exact Counted.behind [colorMark] [⟨start, true⟩] (ih _ more here) marked
            · rw [countMarks_exceeding opens (by omega)]
              refine .exceeded [] marked ?_ ?_
              · rwa [List.append_nil]
              · rw [List.append_nil, here]
                omega
        | none =>
            rw [coded, Option.isSome_none] at marked
            have here : level (seen ++ [⟨start, false⟩]) = opened - 1 := by
              rw [level_snoc, opened_here]
              rfl
            rw [countMarks_uncoded budget opened coded]
            have all := undecided seen (List.prefix_refl seen)
            split
            · refine .balanced [] marked ?_ ?_ rfl
              · rwa [List.append_nil]
              · rw [List.append_nil, here]
                omega
            · have fewer : Undecided budget (seen ++ [⟨start, false⟩]) :=
                undecided.snoc (by omega) (by omega)
              exact Counted.behind [colorMark] [⟨start, false⟩]
                (ih _ fewer (by rw [here]; omega)) marked
      · rw [countMarks_plain budget opened cs plain isMark]
        refine Counted.behind [c] [] ?_ ?_
        · rw [List.append_nil]
          exact ih _ undecided opened_here
        · rw [List.singleton_append, marksFrom_plain start cs plain, if_neg isMark]
          rfl

variable {body inner rest : List Char}

theorem closeColor_closes (positive : 0 < budget) :
    Closes budget body (closeColor budget body) := by
  have counted := countMarks_counted 0 body (undecided_nil positive) level_nil
  rw [closeColor, if_neg (Nat.ne_of_gt positive)]
  generalize count : countMarks budget 1 body = found at counted
  cases counted with
  | balanced before marked undecided none_open here =>
      rw [Nat.zero_add] at here
      have whole := countMarks_written count
      exact .matched ⟨⟨_, marked⟩, undecided, .inl none_open⟩ none_open whole here
  | exceeded before marked undecided exceeds =>
      exact .tooDeep ⟨⟨_, marked⟩, undecided, .inr exceeds⟩ exceeds
  | unbalanced undecided =>
      cases split : splitMark? body with
      | some parts =>
          obtain ⟨inner, rest⟩ := parts
          obtain ⟨first, later, marked, here⟩ := first_of_splitMark? 0 split
          rw [Nat.zero_add] at here
          exact .firstMark undecided marked (splitMark?_written split) here
      | none => exact .missing undecided ((marksFrom_eq_nil_iff 0 body).mpr split)

theorem Closes.unique {close other : ColorClose} (closes : Closes budget body close)
    (closes' : Closes budget body other) : close = other := by
  cases closes with
  | matched decides none_open whole here =>
      cases closes' with
      | matched decides' _ whole' here' =>
          obtain ⟨rfl, rfl⟩ := decides.unique decides'
          obtain ⟨rfl, same⟩ := split_unique (whole.symm.trans whole') (here.symm.trans here')
          rw [(List.cons.inj same).2]
      | tooDeep decides' exceeds =>
          obtain ⟨rfl, rfl⟩ := decides.unique decides'
          omega
      | firstMark undecided => exact absurd undecided decides.not_undecided_all
      | missing undecided => exact absurd undecided decides.not_undecided_all
  | tooDeep decides exceeds =>
      cases closes' with
      | matched decides' none_open =>
          obtain ⟨rfl, rfl⟩ := decides.unique decides'
          omega
      | tooDeep => rfl
      | firstMark undecided => exact absurd undecided decides.not_undecided_all
      | missing undecided => exact absurd undecided decides.not_undecided_all
  | firstMark undecided marked whole here =>
      cases closes' with
      | matched decides => exact absurd undecided decides.not_undecided_all
      | tooDeep decides => exact absurd undecided decides.not_undecided_all
      | firstMark _ marked' whole' here' =>
          obtain ⟨rfl, _⟩ := List.cons.inj (marked.symm.trans marked')
          obtain ⟨rfl, same⟩ := split_unique (whole.symm.trans whole') (here.symm.trans here')
          rw [(List.cons.inj same).2]
      | missing _ unmarked => cases marked.symm.trans unmarked
  | missing undecided unmarked =>
      cases closes' with
      | matched decides => exact absurd undecided decides.not_undecided_all
      | tooDeep decides => exact absurd undecided decides.not_undecided_all
      | firstMark _ marked => cases marked.symm.trans unmarked
      | missing => rfl

theorem closeColor_eq_iff (positive : 0 < budget) (close : ColorClose) :
    closeColor budget body = close ↔ Closes budget body close := by
  constructor
  · rintro rfl
    exact closeColor_closes positive
  · exact (closeColor_closes positive).unique

theorem coded_of_firstMark (closes : Closes budget body (.firstMark inner rest)) :
    (ColorCode.read? rest).isSome := by
  -- A first mark that closes the stretch would be the balanced one.
  cases closes with
  | @firstMark _ _ first later undecided marked whole here =>
      subst whole
      have cut : marksFrom 0 (inner ++ colorMark :: rest) = [] ++ first :: later := marked
      obtain ⟨_, rfl⟩ := marksFrom_cut cut here
      rw [marked] at undecided
      have opened := (undecided [_] ⟨later, rfl⟩).1
      cases coded : (ColorCode.read? rest).isSome with
      | true => rfl
      | false =>
          rw [coded] at opened
          cases opened

theorem inner_of_matched (closes : Closes budget body (.matched inner rest)) :
    ∃ later, marksFrom 0 body = marksFrom 0 inner ++ ⟨byteLength inner, false⟩ :: later ∧
      Undecided budget (marksFrom 0 inner) ∧ level (marksFrom 0 inner) = 1 := by
  cases closes with
  | @matched _ _ before mark decides none_open whole here =>
      subst whole
      obtain ⟨later, marked⟩ := decides.marked
      obtain ⟨rfl, rfl⟩ := marksFrom_cut marked here
      have open_before := (decides.undecided _ (List.prefix_refl _)).1
      rw [level_snoc] at none_open
      cases coded : (ColorCode.read? rest).isSome with
      | true =>
          rw [coded, if_pos rfl] at none_open
          omega
      | false =>
          rw [coded] at marked
          rw [coded, if_neg Bool.false_ne_true] at none_open
          exact ⟨later, marked, decides.undecided, by omega⟩

/-- A stretch closes where the marks of its text balance, and its inside is balanced as it stands
alone. -/
theorem closes_by_balance (positive : 0 < budget) (body : List Char) :
    (∀ close, closeColor budget body = close ↔ Closes budget body close) ∧
    (∀ inner rest, closeColor budget body = .firstMark inner rest →
      (ColorCode.read? rest).isSome) ∧
    ∀ inner rest, closeColor budget body = .matched inner rest →
      ∃ later, marksFrom 0 body = marksFrom 0 inner ++ ⟨byteLength inner, false⟩ :: later ∧
        Undecided budget (marksFrom 0 inner) ∧ level (marksFrom 0 inner) = 1 := by
  refine ⟨closeColor_eq_iff positive, fun inner rest first => ?_, fun inner rest matched => ?_⟩
  · exact coded_of_firstMark ((closeColor_eq_iff positive _).mp first)
  · exact inner_of_matched ((closeColor_eq_iff positive _).mp matched)

theorem closes_by_balance_nested :
    0 < 2 ∧ closeColor 2 "a§Rb§c\\§d§e".toList = .matched "a§Rb§c\\§d".toList ['e'] ∧
      ∃ later, marksFrom 0 "a§Rb§c\\§d§e".toList =
        marksFrom 0 "a§Rb§c\\§d".toList ++ ⟨12, false⟩ :: later ∧
        Undecided 2 (marksFrom 0 "a§Rb§c\\§d".toList) := by
  have closed : closeColor 2 "a§Rb§c\\§d§e".toList =
      .matched "a§Rb§c\\§d".toList ['e'] := by decide +kernel
  obtain ⟨later, marked, undecided, _⟩ := (closes_by_balance (by decide) _).2.2 _ _ closed
  exact ⟨by decide, closed, later, marked, undecided⟩

end Scan

end Phrasebook
