import Phrasebook.Proofs.Parsing

/-!
The check of parentheses counts characters, and the reader opens groups. The two agree where no text
of parameters holds a parenthesis. Elsewhere the check can reject a formula without groups, and it
sets no bound on the groups of a formula that passes.
-/

namespace Phrasebook.Formula

/-- Some stretch of the text opens more than `limit` parentheses that it does not close. -/
def Exceeds (limit : Nat) (text : List Char) : Prop :=
  ∃ before stretch after, text = before ++ (stretch ++ after) ∧
    limit + stretch.count ')' < stretch.count '('

/-- The same at the front of the text, where `opened` parentheses are open already. -/
def ExceedsFront (limit opened : Nat) (text : List Char) : Prop :=
  ∃ stretch after, text = stretch ++ after ∧
    limit + stretch.count ')' < opened + stretch.count '('

theorem ExceedsFront.exceeds {limit : Nat} {text : List Char}
    (front : ExceedsFront limit 0 text) : Exceeds limit text := by
  obtain ⟨stretch, after, whole, exceeds⟩ := front
  exact ⟨[], stretch, after, whole, by omega⟩

theorem exceedsFront_cons {limit opened : Nat} (within : opened ≤ limit) (c : Char)
    (cs : List Char) :
    ExceedsFront limit opened (c :: cs) ↔ ∃ stretch after, cs = stretch ++ after ∧
      limit + (c :: stretch).count ')' < opened + (c :: stretch).count '(' := by
  constructor
  · rintro ⟨stretch, after, whole, exceeds⟩
    cases stretch with
    | nil =>
        simp only [List.count_nil] at exceeds
        omega
    | cons first stretch =>
        obtain ⟨rfl, rest⟩ := List.cons.inj whole
        exact ⟨stretch, after, rest, exceeds⟩
  · rintro ⟨stretch, after, rest, exceeds⟩
    exact ⟨c :: stretch, after, by simp [rest], exceeds⟩

theorem exceedsFront_opening {limit opened : Nat} (within : opened ≤ limit) (cs : List Char) :
    ExceedsFront limit opened ('(' :: cs) ↔ ExceedsFront limit (opened + 1) cs := by
  have counts (stretch : List Char) :
      limit + ('(' :: stretch).count ')' < opened + ('(' :: stretch).count '(' ↔
        limit + stretch.count ')' < opened + 1 + stretch.count '(' := by
    rw [List.count_cons_self, List.count_cons_of_ne (by decide)]
    omega
  rw [exceedsFront_cons within]
  simp only [ExceedsFront, counts]

theorem exceedsFront_closing {limit opened : Nat} (within : opened + 1 ≤ limit) (cs : List Char) :
    ExceedsFront limit (opened + 1) (')' :: cs) ↔ ExceedsFront limit opened cs := by
  rw [exceedsFront_cons within]
  have counts (stretch : List Char) :
      limit + (')' :: stretch).count ')' < opened + 1 + (')' :: stretch).count '(' ↔
        limit + stretch.count ')' < opened + stretch.count '(' := by
    rw [List.count_cons_self, List.count_cons_of_ne (by decide)]
    omega
  simp only [ExceedsFront, counts]

theorem exceedsFront_other {limit opened : Nat} (within : opened ≤ limit) {c : Char}
    (cs : List Char) (unopening : c ≠ '(') (unclosing : c ≠ ')') :
    ExceedsFront limit opened (c :: cs) ↔ ExceedsFront limit opened cs := by
  rw [exceedsFront_cons within]
  simp only [ExceedsFront, List.count_cons_of_ne unopening, List.count_cons_of_ne unclosing]

theorem exceeds_cons {limit opened : Nat} (c : Char) (cs : List Char) :
    ExceedsFront limit opened (c :: cs) ∨ Exceeds limit (c :: cs) ↔
      ExceedsFront limit opened (c :: cs) ∨ Exceeds limit cs := by
  constructor
  · rintro (front | ⟨before, stretch, after, whole, exceeds⟩)
    · exact .inl front
    · cases before with
      | nil => exact .inl ⟨stretch, after, whole, by omega⟩
      | cons first before => exact .inr ⟨before, stretch, after, (List.cons.inj whole).2, exceeds⟩
  · rintro (front | ⟨before, stretch, after, whole, exceeds⟩)
    · exact .inl front
    · exact .inr ⟨c :: before, stretch, after, by simp [whole], exceeds⟩

theorem nestsDeeper_iff {limit opened : Nat} (within : opened ≤ limit) (text : List Char) :
    nestsDeeper limit opened text = true ↔ ExceedsFront limit opened text ∨ Exceeds limit text := by
  fun_induction nestsDeeper limit opened text with
  | case1 opened =>
      have front : ¬ ExceedsFront limit opened [] := by
        rintro ⟨stretch, after, whole, exceeds⟩
        obtain ⟨rfl, rfl⟩ := List.append_eq_nil_iff.mp whole.symm
        simp only [List.count_nil] at exceeds
        omega
      have inner : ¬ Exceeds limit [] := by
        rintro ⟨before, stretch, after, whole, exceeds⟩
        obtain ⟨rfl, none_left⟩ := List.append_eq_nil_iff.mp whole.symm
        obtain ⟨rfl, rfl⟩ := List.append_eq_nil_iff.mp none_left
        simp at exceeds
      simp [front, inner]
  | case2 opened cs ih =>
      rw [exceeds_cons, exceedsFront_opening within]
      by_cases exceeding : limit < opened + 1
      · have front : ExceedsFront limit (opened + 1) cs := ⟨[], cs, rfl, by simpa using exceeding⟩
        simp [exceeding, front]
      · simp [exceeding, ih (Nat.not_lt.mp exceeding)]
  | case3 opened cs ih =>
      rw [exceeds_cons]
      cases opened with
      | zero =>
          -- What closes without an opening does not count.
          have forgets : ExceedsFront limit 0 (')' :: cs) → ExceedsFront limit 0 cs := by
            rw [exceedsFront_cons within]
            rintro ⟨stretch, after, rest, exceeds⟩
            rw [List.count_cons_self, List.count_cons_of_ne (by decide)] at exceeds
            exact ⟨stretch, after, rest, by omega⟩
          rw [ih (Nat.zero_le _)]
          constructor
          · rintro (front | inner)
            · exact .inr front.exceeds
            · exact .inr inner
          · exact Or.imp_left forgets
      | succ opened =>
          rw [exceedsFront_closing within]
          exact ih (Nat.le_of_succ_le within)
  | case4 opened c cs unopening unclosing ih =>
      rw [exceeds_cons, exceedsFront_other within cs unopening unclosing]
      exact ih within

theorem exceeds_iff (limit : Nat) (text : List Char) :
    nestsDeeper limit 0 text = true ↔ Exceeds limit text := by
  rw [nestsDeeper_iff (Nat.zero_le limit)]
  constructor
  · rintro (front | inner)
    · exact front.exceeds
    · exact inner
  · exact Or.inr

def Unparenthesized (text : List Char) : Prop := ∀ c ∈ text, c ≠ '(' ∧ c ≠ ')'

/-- No text of parameters holds a parenthesis. -/
def Spelling.PlainParams : Spelling → Prop
  | .numeral _ => True
  | .var _ params => ∀ text ∈ params, Unparenthesized text
  | .group _ inner _ => inner.PlainParams
  | .chain lhs _ _ _ rhs => lhs.PlainParams ∧ rhs.PlainParams

theorem nestsDeeper_unparenthesized {word : List Char} (limit opened : Nat) (rest : List Char)
    (plain : Unparenthesized word) :
    nestsDeeper limit opened (word ++ rest) = nestsDeeper limit opened rest := by
  induction word with
  | nil => rfl
  | cons c cs ih =>
      obtain ⟨⟨unopening, unclosing⟩, plain⟩ := List.forall_mem_cons.mp plain
      rw [List.cons_append, nestsDeeper.eq_4 _ _ _ _ unopening unclosing]
      exact ih plain

theorem unparenthesized_blanks {blanks : List Char} (blank : Blanks blanks) :
    Unparenthesized blanks := by
  intro c member
  constructor <;> rintro rfl <;> cases blank _ member

theorem Unparenthesized.append {first second : List Char} (plain : Unparenthesized first)
    (more : Unparenthesized second) : Unparenthesized (first ++ second) :=
  List.forall_mem_append.mpr ⟨plain, more⟩

theorem unparenthesized_of_isNameChar {word : List Char}
    (inside : ∀ c ∈ word, isNameChar c = true) : Unparenthesized word := by
  intro c member
  constructor <;> rintro rfl <;> exact absurd (inside _ member) (by decide)

theorem unparenthesized_name {name : List Char} (named : IsName name) : Unparenthesized name :=
  unparenthesized_of_isNameChar named.isNameChar

theorem unparenthesized_digits {digits : List Char} (valid : Digits digits) :
    Unparenthesized digits :=
  unparenthesized_of_isNameChar fun c member => isNameChar_of_isDigit (valid.2 c member)

theorem unparenthesized_numeral {word : List Char} (valid : IsNumeral word) :
    Unparenthesized word := by
  obtain @⟨sign, whole, fraction, exponent, signed, digits, fractional, scaled⟩ := valid
  have sign_plain : Unparenthesized sign := by
    rcases signed with rfl | rfl
    · exact nofun
    · exact List.forall_mem_singleton.mpr (by decide)
  have fraction_plain : Unparenthesized fraction := by
    rcases fractional with rfl | ⟨decimals, valid, rfl⟩
    · exact nofun
    · exact List.forall_mem_cons.mpr ⟨by decide, unparenthesized_digits valid⟩
  have exponent_plain : Unparenthesized exponent := by
    rcases scaled with rfl | ⟨mark, sign, scale, marked, signed, valid, rfl⟩
    · exact nofun
    · have mark_plain : mark ≠ '(' ∧ mark ≠ ')' := by
        rcases marked with rfl | rfl <;> decide
      have sign_plain : Unparenthesized sign := by
        rcases signed with rfl | rfl | rfl
        · exact nofun
        · exact List.forall_mem_singleton.mpr (by decide)
        · exact List.forall_mem_singleton.mpr (by decide)
      exact List.forall_mem_cons.mpr ⟨mark_plain, sign_plain.append (unparenthesized_digits valid)⟩
  exact ((sign_plain.append (unparenthesized_digits digits)).append fraction_plain).append
    exponent_plain

theorem unparenthesized_var {name : List Char} {params : Option (List Char)} (named : IsName name)
    (plain : ∀ text ∈ params, Unparenthesized text) :
    Unparenthesized (Spelling.var name params).written := by
  have name_plain := unparenthesized_name named
  cases params with
  | none => exact name_plain
  | some text =>
      have closing : Unparenthesized ['>'] := List.forall_mem_singleton.mpr (by decide)
      exact name_plain.append
        (List.forall_mem_cons.mpr ⟨by decide, (plain text rfl).append closing⟩)

/-- On a spelling with plain parameters the check sees how deep groups nest. -/
theorem nestsDeeper_written {tiers : List (List BinaryOp)} {spelling : Spelling}
    (fits : Fits tiers spelling) (plain : spelling.PlainParams) {limit opened : Nat}
    (within : opened ≤ limit) (rest : List Char) :
    nestsDeeper limit opened (spelling.written ++ rest) =
      (decide (limit < opened + spelling.groupDepth) || nestsDeeper limit opened rest) := by
  induction fits generalizing opened rest with
  | numeral valid =>
      have idle : ¬ limit < opened := Nat.not_lt.mpr within
      rw [Spelling.written, nestsDeeper_unparenthesized _ _ _ (unparenthesized_numeral valid)]
      simp [Spelling.groupDepth, idle]
  | var named closed =>
      have idle : ¬ limit < opened := Nat.not_lt.mpr within
      rw [nestsDeeper_unparenthesized _ _ _ (unparenthesized_var named plain)]
      simp [Spelling.groupDepth, idle]
  | @group before after inner leading inside trailing ih =>
      simp only [Spelling.written, Spelling.groupDepth, List.cons_append, List.append_assoc,
        List.nil_append, nestsDeeper]
      rw [nestsDeeper_unparenthesized _ _ _ (unparenthesized_blanks leading)]
      by_cases exceeding : limit < opened + 1
      · have deeper : limit < opened + (inner.groupDepth + 1) := by omega
        simp [exceeding, deeper]
      · rw [ih plain (Nat.not_lt.mp exceeding),
          nestsDeeper_unparenthesized _ _ _ (unparenthesized_blanks trailing), nestsDeeper]
        have same : opened + 1 + inner.groupDepth = opened + (inner.groupDepth + 1) := by omega
        rw [same, decide_eq_false exceeding, Bool.false_or]
        rfl
  | operand _ ih => exact ih plain within rest
  | @chain operators tiers lhs rhs before after op left leading member trailing right ihl ihr =>
      have symbol : Unparenthesized [op.symbol] :=
        List.forall_mem_singleton.mpr (by cases op <;> decide)
      have joint := ((unparenthesized_blanks leading).append symbol).append
        (unparenthesized_blanks trailing)
      have whole : (Spelling.chain lhs before op after rhs).written ++ rest =
          lhs.written ++ (before ++ [op.symbol] ++ after ++ (rhs.written ++ rest)) := by
        simp [Spelling.written]
      rw [whole, ihl plain.1 within, nestsDeeper_unparenthesized _ _ _ joint, ihr plain.2 within,
        Spelling.groupDepth, ← Bool.or_assoc, ← Bool.decide_or]
      congr 2
      simp only [eq_iff_iff]
      omega

theorem nestsDeeper_spells {text : List Char} {spelling : Spelling} (spells : Spells text spelling)
    (plain : spelling.PlainParams) (limit : Nat) :
    nestsDeeper limit 0 text = decide (limit < spelling.groupDepth) := by
  obtain ⟨fits, before, after, leading, trailing, rfl⟩ := spells
  rw [nestsDeeper_unparenthesized _ _ _ (unparenthesized_blanks leading),
    nestsDeeper_written fits plain (Nat.zero_le _), Nat.zero_add]
  have nothing := nestsDeeper_unparenthesized limit 0 [] (unparenthesized_blanks trailing)
  rw [List.append_nil] at nothing
  rw [nothing]
  simp [nestsDeeper]

end Phrasebook.Formula

namespace Phrasebook

/-- The right branches on the way to a leaf, on the way that has most of them. -/
def Formula.rightBranches : Formula → Nat
  | .number _ => 0
  | .var _ => 0
  | .binary _ lhs rhs => max lhs.rightBranches (rhs.rightBranches + 1)

namespace Formula

theorem rightBranches_le {tiers : List (List BinaryOp)} {spelling : Spelling}
    (fits : Fits tiers spelling) {formula : Formula}
    (value : spelling.Means formula) :
    formula.rightBranches ≤ tiers.length + grammar.length * spelling.groupDepth := by
  induction fits generalizing formula with
  | numeral valid =>
      cases value
      exact Nat.zero_le _
  | var => cases value <;> exact Nat.zero_le _
  | group _ _ _ ih =>
      have below := ih (Spelling.means_group_iff.mp value)
      simp only [Spelling.groupDepth, grammar, List.length_cons, List.length_nil] at *
      omega
  | operand _ ih =>
      have below := ih value
      simp only [List.length_cons]
      omega
  | chain _ _ _ _ _ ihl ihr =>
      obtain ⟨left, right, known, found, rfl⟩ := Spelling.means_chain_iff.mp value
      have first := ihl known
      have second := ihr found
      simp only [rightBranches, Spelling.groupDepth, grammar, List.length_cons,
        List.length_nil] at *
      omega

theorem parseList_ne_tooDeep (text : List Char) : parseList text ≠ .error .tooDeep := by
  intro same
  unfold parseList at same
  split at same
  · cases same
  · split at same
    · cases same
    · cases same

theorem parse_tooDeep_iff (text : String) :
    parse text = .error .tooDeep ↔ nestsDeeper maxParentheses 0 text.toList = true := by
  unfold parse
  split
  · rename_i deeper
    simp [deeper]
  · rename_i passes
    simp [passes, parseList_ne_tooDeep]

theorem value_of_parse {text : String} {spelling : Spelling} {formula : Formula}
    (spells : Spells text.toList spelling) (accepted : parse text = .ok formula) :
    nestsDeeper maxParentheses 0 text.toList = false ∧ spelling.Means formula := by
  have passes : nestsDeeper maxParentheses 0 text.toList = false := by
    apply Bool.eq_false_iff.mpr
    intro deeper
    rw [(parse_tooDeep_iff text).mpr deeper] at accepted
    cases accepted
  rw [parse, passes] at accepted
  obtain ⟨other, value⟩ := spells.1.means
  have read := parseList_complete ⟨spelling, spells, value⟩
  have same : (Except.ok other : Except FormulaFault Formula) = .ok formula := by
    rw [← read]
    exact accepted
  obtain rfl := Except.ok.inj same
  exact ⟨passes, value⟩

/-- The check rejects a formula exactly when some stretch of its text leaves too many parentheses
open, wherever they stand. This is the nesting of its groups when no text of parameters holds a
parenthesis. The groups bound the reader and the tree of every formula that is read. -/
theorem nesting_cap (text : String) (spelling : Spelling) (spells : Spells text.toList spelling) :
    (parse text = .error .tooDeep ↔ Exceeds maxParentheses text.toList) ∧
      (spelling.PlainParams →
        (parse text = .error .tooDeep ↔ maxParentheses < spelling.groupDepth)) ∧
      ∀ formula, parse text = .ok formula →
        (spelling.PlainParams → spelling.groupDepth ≤ maxParentheses) ∧
        (∃ rest, Blanks rest ∧ expression (spelling.groupDepth + 1)
          (Text.skipBlanks text.toList) = .accept formula rest) ∧
        formula.rightBranches ≤ 3 * (spelling.groupDepth + 1) := by
  refine ⟨?_, ?_, ?_⟩
  · rw [parse_tooDeep_iff, exceeds_iff]
  · intro plain
    rw [parse_tooDeep_iff, nestsDeeper_spells spells plain]
    exact decide_eq_true_iff
  · intro formula accepted
    obtain ⟨passes, value⟩ := value_of_parse spells accepted
    have branches := rightBranches_le spells.1 value
    refine ⟨?_, ?_, ?_⟩
    · intro plain
      rw [nestsDeeper_spells spells plain] at passes
      exact Nat.not_lt.mp (of_decide_eq_false passes)
    · obtain ⟨fits, before, after, leading, trailing, whole⟩ := spells
      rw [whole]
      exact ⟨after, trailing, expression_complete fits leading trailing (Nat.le_refl _) value⟩
    · simp only [grammar, List.length_cons, List.length_nil] at branches
      omega

def nested : Nat → Spelling
  | 0 => .var ['x'] none
  | depth + 1 => .group [] (nested depth) []

theorem isName_x : IsName ['x'] := .intro (by decide) nofun

theorem fits_nested (depth : Nat) : Fits [] (nested depth) := by
  induction depth with
  | zero => exact .var isName_x nofun
  | succ depth ih => exact .group nofun (.operand (.operand (.operand ih))) nofun

theorem groupDepth_nested (depth : Nat) : (nested depth).groupDepth = depth := by
  induction depth with
  | zero => rfl
  | succ depth ih => simp [nested, Spelling.groupDepth, ih]

theorem plainParams_nested (depth : Nat) : (nested depth).PlainParams := by
  induction depth with
  | zero => exact nofun
  | succ depth ih => exact ih

theorem nesting_cap_nested :
    Spells (String.ofList (nested 65).written).toList (nested 65) ∧
      parse (String.ofList (nested 65).written) = .error .tooDeep := by
  have spells : Spells (String.ofList (nested 65).written).toList (nested 65) := by
    rw [String.toList_ofList]
    exact ⟨.operand (.operand (.operand (fits_nested 65))), [], [], nofun, nofun, by simp⟩
  obtain ⟨_, exact_cap, _⟩ := nesting_cap _ _ spells
  have deeper : maxParentheses < (nested 65).groupDepth := by
    rw [groupDepth_nested]
    decide
  exact ⟨spells, (exact_cap (plainParams_nested 65)).mpr deeper⟩

/-- Groups within groups, each behind a closing parenthesis in a text of parameters. -/
def uncounted : Nat → Spelling
  | 0 => .var ['x'] none
  | depth + 1 =>
      .chain (.var ['x'] (some [')'])) [] .add [] (.group [] (uncounted depth) [])

theorem spells_uncounted (depth : Nat) : Spells (uncounted depth).written (uncounted depth) := by
  have closing : Fits [] (.var ['x'] (some [')'])) := by
    refine .var isName_x ?_
    rintro text ⟨⟩
    decide
  have fits : Fits grammar (uncounted depth) := by
    induction depth with
    | zero => exact .operand (.operand (.operand (.var isName_x nofun)))
    | succ depth ih =>
        have group : Fits [] (.group [] (uncounted depth) []) := .group nofun ih nofun
        exact .chain (.operand (.operand (.operand closing))) nofun (by decide) nofun
          (.operand (.operand group))
  exact ⟨fits, [], [], nofun, nofun, by simp⟩

theorem groupDepth_uncounted (depth : Nat) : (uncounted depth).groupDepth = depth := by
  induction depth with
  | zero => rfl
  | succ depth ih => simp [uncounted, Spelling.groupDepth, ih]

theorem means_uncounted (depth : Nat) :
    ∃ formula, (uncounted depth).Means formula ∧ formula.rightBranches = depth := by
  induction depth with
  | zero => exact ⟨_, .bare, rfl⟩
  | succ depth ih =>
      obtain ⟨formula, value, branches⟩ := ih
      refine ⟨_, .chain (.var (Param.splits_list [')'])) (.group value), ?_⟩
      simp [rightBranches, branches]

theorem nestsDeeper_uncounted (depth : Nat) {opened : Nat} (few : opened ≤ 1) :
    ∃ left ≤ 1, ∀ rest, nestsDeeper maxParentheses opened ((uncounted depth).written ++ rest) =
      nestsDeeper maxParentheses left rest := by
  induction depth generalizing opened with
  | zero => exact ⟨opened, few, fun _ => by simp [uncounted, Spelling.written, nestsDeeper]⟩
  | succ depth ih =>
      obtain ⟨left, few_left, skips⟩ := ih (Nat.le_refl 1)
      refine ⟨left - 1, by omega, fun rest => ?_⟩
      have closed : opened - 1 = 0 := by omega
      have inner := skips (')' :: rest)
      rw [nestsDeeper] at inner
      rw [← inner]
      simp [uncounted, Spelling.written, nestsDeeper, BinaryOp.symbol, closed, maxParentheses]

theorem parse_uncounted (depth : Nat) :
    ∃ formula, parse (String.ofList (uncounted depth).written) = .ok formula ∧
      formula.rightBranches = depth := by
  obtain ⟨left, _, skips⟩ := nestsDeeper_uncounted depth (Nat.zero_le 1)
  obtain ⟨formula, value, branches⟩ := means_uncounted depth
  have passes : nestsDeeper maxParentheses 0 (uncounted depth).written = false := by
    have whole := skips []
    rw [List.append_nil] at whole
    rw [whole]
    rfl
  refine ⟨formula, ?_, branches⟩
  rw [parse, String.toList_ofList, passes]
  exact parseList_complete ⟨_, spells_uncounted depth, value⟩

theorem uncounted_beyond_cap :
    Spells (String.ofList (uncounted 65).written).toList (uncounted 65) ∧
      maxParentheses < (uncounted 65).groupDepth ∧
      parse (String.ofList (uncounted 65).written) ≠ .error .tooDeep := by
  refine ⟨?_, ?_, ?_⟩
  · rw [String.toList_ofList]
    exact spells_uncounted 65
  · rw [groupDepth_uncounted]
    decide
  · obtain ⟨formula, accepted, _⟩ := parse_uncounted 65
    rw [accepted]
    exact nofun

end Formula

end Phrasebook
