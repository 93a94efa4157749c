import Phrasebook.Proofs.Nesting

/-!
Where reading stops. A reader never runs long, since what it reads is a formula, and it never stops
short: it reads at least as far as any formula that the text begins with, because a longer word only
takes it further. So the fault of a text points behind the longest beginning that is a formula.
-/

namespace Phrasebook.Formula

/-- A formula is read, and at most `rest` is left. -/
def Reaches (rest : List Char) (reply : Reply Formula) : Prop :=
  ∃ formula left, reply = .accept formula left ∧ left.length ≤ rest.length

section Numerals

variable {word : List Char}

theorem digitsOf_behind (digits : Digits word) (rest : List Char) :
    (digitsOf (word ++ rest)).isEmpty = false := by
  rw [digitsOf, List.takeWhile_append_of_pos digits.2]
  simp [digits.1]

theorem afterDigits_behind (digits : Digits word) (rest : List Char) :
    afterDigits (word ++ rest) = afterDigits rest :=
  List.dropWhile_append_of_pos digits.2

theorem length_afterDigits_le (text : List Char) : (afterDigits text).length ≤ text.length :=
  (List.dropWhile_sublist Char.isDigit).length_le

theorem length_fractionPart_le (text : List Char) :
    (fractionPart text).2.length ≤ text.length := by
  have whole := congrArg List.length (fractionPart_split text).2
  rw [List.length_append] at whole
  omega

theorem length_exponentPart_le (text : List Char) :
    (exponentPart text).2.length ≤ text.length := by
  have whole := congrArg List.length (exponentPart_split text).2
  rw [List.length_append] at whole
  omega

theorem exponentPart_scaled {mark : Char} {sign digits : List Char}
    (marked : mark = 'e' ∨ mark = 'E') (signed : sign = [] ∨ sign = ['+'] ∨ sign = ['-'])
    (valid : Digits digits) (rest : List Char) :
    (exponentPart (mark :: (sign ++ (digits ++ rest)))).2 = afterDigits rest := by
  have marked : (mark = 'e' || mark = 'E') = true := by simpa using marked
  have filled := digitsOf_behind valid rest
  have passed := afterDigits_behind valid rest
  simp only [exponentPart, if_pos marked]
  rcases signed with rfl | rfl | rfl
  · rw [List.nil_append]
    split
    · rename_i after same
      exact absurd (congrArg List.head? same) (valid.head_ne rest _ (by decide))
    · rename_i after same
      exact absurd (congrArg List.head? same) (valid.head_ne rest _ (by decide))
    · simp [filled, passed]
  · simp [filled, passed]
  · simp [filled, passed]

theorem exponentPart_reaches {exponent : List Char} (scaled : IsExponent exponent)
    (rest : List Char) :
    (exponentPart (afterDigits (exponent ++ rest))).2.length ≤ rest.length ∧
      (exponentPart (fractionPart (afterDigits (exponent ++ rest))).2).2.length ≤ rest.length := by
  rcases scaled with rfl | ⟨mark, sign, digits, marked, signed, valid, rfl⟩
  · have digits := length_afterDigits_le rest
    have fraction := length_fractionPart_le (afterDigits rest)
    have direct := length_exponentPart_le (afterDigits rest)
    have behind := length_exponentPart_le (fractionPart (afterDigits rest)).2
    rw [List.nil_append]
    omega
  · have read := exponentPart_scaled marked signed valid rest
    have fewer := length_afterDigits_le rest
    have stays : afterDigits (mark :: (sign ++ (digits ++ rest))) =
        mark :: (sign ++ (digits ++ rest)) := by
      rcases marked with rfl | rfl <;> rfl
    have pointless : fractionPart (mark :: (sign ++ (digits ++ rest))) =
        ([], mark :: (sign ++ (digits ++ rest))) := by
      rcases marked with rfl | rfl <;> rfl
    rw [List.cons_append, List.append_assoc, stays, pointless, read]
    exact ⟨fewer, fewer⟩

theorem fractionPart_reaches {fraction exponent : List Char} (fractional : IsFraction fraction)
    (scaled : IsExponent exponent) (rest : List Char) :
    (exponentPart (fractionPart (afterDigits (fraction ++ (exponent ++ rest)))).2).2.length ≤
      rest.length := by
  have reaches := exponentPart_reaches scaled rest
  rcases fractional with rfl | ⟨digits, valid, rfl⟩
  · exact reaches.2
  · have stays : afterDigits ('.' :: (digits ++ (exponent ++ rest))) =
        '.' :: (digits ++ (exponent ++ rest)) := rfl
    have passed := afterDigits_behind valid (exponent ++ rest)
    have filled := digitsOf_behind valid (exponent ++ rest)
    rw [List.cons_append, stays, fractionPart]
    simp only [filled, passed]
    exact reaches.1

theorem number?_reaches (numeral : IsNumeral word) (rest : List Char) :
    ∃ formula left, number? (word ++ rest) = some (formula, left) ∧ left.length ≤ rest.length := by
  obtain ⟨longer, left, read, fewer⟩ : ∃ longer left,
      numeral? (word ++ rest) = some (longer, left) ∧ left.length ≤ rest.length := by
    obtain @⟨sign, whole, fraction, exponent, signed, digits, fractional, scaled⟩ := numeral
    have fewer := fractionPart_reaches fractional scaled rest
    have filled := digitsOf_behind digits (fraction ++ (exponent ++ rest))
    have passed := afterDigits_behind digits (fraction ++ (exponent ++ rest))
    unfold numeral?
    rcases signed with rfl | rfl
    · simp only [List.nil_append, List.append_assoc]
      split
      · rename_i unsigned
        exact absurd (congrArg List.head? unsigned) (digits.head_ne _ _ (by decide))
      · simp only [filled, passed]
        exact ⟨_, _, rfl, fewer⟩
    · simp only [List.append_assoc, List.cons_append, List.nil_append, filled, passed]
      exact ⟨_, _, rfl, fewer⟩
  obtain ⟨value, known⟩ := Option.isSome_iff_exists.mp (float?_numeral (numeral?_sound read).1)
  exact ⟨.number value, left, by simp [number?, read, known], fewer⟩

end Numerals

theorem read?_reaches {name : List Char} (named : IsName name) (rest : List Char) :
    ∃ var left, Variable.read? (name ++ rest) = some (var, left) ∧
      left.length ≤ rest.length := by
  obtain ⟨first, later⟩ := named
  have shorter : (rest.dropWhile isNameChar).length ≤ rest.length :=
    (List.dropWhile_sublist isNameChar).length_le
  simp only [List.cons_append, Variable.read?, if_pos first,
    List.dropWhile_append_of_pos later]
  split
  · rename_i params after found
    have closed := Variable.length_params? found
    exact ⟨_, _, rfl, by omega⟩
  · exact ⟨_, _, rfl, shorter⟩

theorem chainFrom_reaches (operators : List BinaryOp) (operand : List Char → Reply Formula)
    (lhs : Formula) (text : List Char) : Reaches text (chainFrom operators operand lhs text) := by
  fun_induction chainFrom operators operand lhs text with
  | case1 lhs text missing => exact ⟨lhs, text, rfl, Nat.le_refl _⟩
  | case2 lhs text op after found stopped rejected => exact ⟨lhs, text, rfl, Nat.le_refl _⟩
  | case3 lhs text op after found rhs rest read shorter ih =>
      obtain ⟨formula, left, reads, fewer⟩ := ih
      exact ⟨formula, left, reads, by omega⟩
  | case4 lhs text op after found rhs rest read longer => exact ⟨lhs, text, rfl, Nat.le_refl _⟩

/-- A spelling is read at least to its end, whatever stands behind it. -/
theorem reader_reaches {tiers : List (List BinaryOp)} {spelling : Spelling}
    (fits : Fits tiers spelling) (apart : Apart tiers) {levels : Nat}
    (shallow : spelling.groupDepth ≤ levels) (rest : List Char) :
    Reaches rest (reader levels tiers (spelling.written ++ rest)) := by
  induction fits generalizing levels rest with
  | @numeral text valid =>
      obtain ⟨formula, left, read, fewer⟩ := number?_reaches valid rest
      refine ⟨formula, left, ?_, fewer⟩
      simp [reader, primary, Spelling.written, read]
  | @var name params named closed =>
      cases params with
      | none =>
          obtain ⟨var, left, read, fewer⟩ := read?_reaches named rest
          exact ⟨.var var, left, primary_var (named.unnumbered rest) read _, fewer⟩
      | some params =>
          have read := Variable.read?_params named rest (closed params rfl)
          have whole : (Spelling.var name (some params)).written ++ rest =
              name ++ '<' :: (params ++ '>' :: rest) := by
            simp [Spelling.written]
          rw [whole]
          exact ⟨_, rest, primary_var (named.unnumbered _) read _, Nat.le_refl _⟩
  | @group before after inner leading inside trailing ih =>
      obtain ⟨outer, rfl⟩ := Nat.exists_eq_succ_of_ne_zero (Nat.ne_of_gt (Nat.lt_of_lt_of_le
        (Nat.succ_pos _) shallow))
      obtain ⟨formula, value⟩ := inside.means
      have content := reader_complete inside apart_grammar (Nat.le_of_succ_le_succ shallow) value
        (endsWord_closing trailing rest) (quiet_closing _ trailing rest)
      exact ⟨formula, rest, reader_group leading inside trailing content, Nat.le_refl _⟩
  | @operand operators tiers spelling fits ih =>
      obtain ⟨formula, left, read, fewer⟩ := ih (List.pairwise_cons.mp apart).2 shallow rest
      obtain ⟨longer, remaining, goesOn, less⟩ :=
        chainFrom_reaches operators (reader levels tiers) formula left
      refine ⟨longer, remaining, ?_, by omega⟩
      rw [reader, chain, read]
      exact goesOn
  | @chain operators tiers lhs rhs before after op left leading member trailing right _ ihr =>
      -- The left part is read exactly, since an operator follows it; the right part may be read
      -- further than it is spelled.
      obtain ⟨foreign, below⟩ := List.pairwise_cons.mp apart
      simp only [Spelling.groupDepth, Nat.max_le] at shallow
      obtain ⟨first, known⟩ := left.means
      have silent : Quiet tiers (before ++ op.symbol :: (after ++ (rhs.written ++ rest))) :=
        quiet_operator leading (fun others tier => foreign others tier op member) _
      have opening := reader_complete left apart shallow.1 known
        (.behind leading (endsWord_symbol op _)) silent
      obtain ⟨second, remaining, read, fewer⟩ := ihr below shallow.2 rest
      have shorter : remaining.length ≤ (rhs.written ++ rest).length := by
        rw [List.length_append]
        omega
      have step := chainFrom_step first leading member trailing (right.solid rest) read shorter
      obtain ⟨formula, left, goesOn, less⟩ := chainFrom_reaches operators (reader levels tiers)
        (.binary op first second) remaining
      refine ⟨formula, left, ?_, by omega⟩
      rw [← goesOn, ← step, Spelling.written, List.append_assoc, List.append_assoc,
        List.cons_append, List.append_assoc, opening]
      rfl

theorem length_skipBlanks_le {blanks left rest : List Char} (blank : Blanks blanks)
    (ending : left <:+ blanks ++ rest) : (Text.skipBlanks left).length ≤ rest.length := by
  induction blanks with
  | nil => exact Nat.le_trans (Text.skipBlanks_length_le left) ending.length_le
  | cons c cs ih =>
      have later : Blanks cs := fun d member => blank d (List.mem_cons_of_mem _ member)
      rcases List.suffix_cons_iff.mp ending with rfl | ending
      · change (Text.skipBlanks (c :: (cs ++ rest))).length ≤ _
        rw [Text.skipBlanks_cons_blank _ (blank c List.mem_cons_self),
          skipBlanks_append rest later]
        exact Text.skipBlanks_length_le rest
      · exact ih later ending

theorem nestsDeeper_beginning {limit : Nat} {beginning rest : List Char}
    (passes : nestsDeeper limit 0 (beginning ++ rest) = false) :
    nestsDeeper limit 0 beginning = false := by
  refine Bool.eq_false_iff.mpr fun deeper => ?_
  obtain ⟨before, stretch, after, rfl, exceeds⟩ := (exceeds_iff limit beginning).mp deeper
  have whole : Exceeds limit (before ++ (stretch ++ after) ++ rest) :=
    ⟨before, stretch, after ++ rest, by simp, exceeds⟩
  rw [← exceeds_iff, passes] at whole
  cases whole

def Accepted (text : List Char) : Prop := ∃ formula, parse (String.ofList text) = .ok formula

theorem accepted_iff {text : List Char}
    (passes : nestsDeeper maxParentheses 0 text = false) :
    Accepted text ↔ ∃ formula, Derives text formula := by
  simp only [Accepted, parse, String.toList_ofList, passes]
  exact exists_congr fun formula => ⟨parseList_sound, parseList_complete⟩

/-- Of the beginnings of the text that are formulas on their own, this is the longest. -/
structure LongestAccepted (text beginning : List Char) : Prop where
  begins : beginning <+: text
  accepted : Accepted beginning
  longest : ∀ other, other <+: text → Accepted other → other.length ≤ beginning.length

theorem derives_of_read {text left : List Char} {formula : Formula} {levels : Nat}
    (read : expression levels (Text.skipBlanks text) = .accept formula left) :
    ∃ beginning, text = beginning ++ Text.skipBlanks left ∧ Derives beginning formula := by
  obtain ⟨before, leading, whole⟩ := skipBlanks_split text
  obtain ⟨after, trailing, follows⟩ := skipBlanks_split left
  obtain ⟨spelling, fits, written, value⟩ := sound_expression _ _ _ _ read
  refine ⟨before ++ (spelling.written ++ after), ?_, spelling,
    ⟨fits, before, after, leading, trailing, rfl⟩, value⟩
  calc
    text = before ++ (spelling.written ++ left) := by rw [← written, ← whole]
    _ = before ++ (spelling.written ++ (after ++ Text.skipBlanks left)) := by rw [← follows]
    _ = before ++ (spelling.written ++ after) ++ Text.skipBlanks left := by simp

theorem read_of_derives {beginning : List Char} {formula : Formula}
    (derived : Derives beginning formula) (rest : List Char) :
    ∃ read left, expression ((beginning ++ rest).length + 1)
        (Text.skipBlanks (beginning ++ rest)) = .accept read left ∧
      (Text.skipBlanks left).length ≤ rest.length := by
  obtain ⟨spelling, ⟨fits, before, after, leading, trailing, rfl⟩, value⟩ := derived
  have inside : before ++ (spelling.written ++ after) ++ rest =
      before ++ (spelling.written ++ (after ++ rest)) := by simp
  have shallow : spelling.groupDepth ≤
      (before ++ (spelling.written ++ (after ++ rest))).length := by
    have := groupDepth_le_length spelling
    simp only [List.length_append]
    omega
  obtain ⟨read, left, reads, fewer⟩ := reader_reaches fits apart_grammar shallow (after ++ rest)
  rw [inside, skipBlanks_append _ leading, skipBlanks_solid (fits.solid _), expression_succ]
  refine ⟨read, left, reads, ?_⟩
  obtain ⟨found, _, written, _⟩ := sound_expression _ _ _ _ ((expression_succ _ _).trans reads)
  have ending : left <:+ spelling.written ++ (after ++ rest) := ⟨found.written, written.symm⟩
  exact length_skipBlanks_le trailing
    (List.suffix_of_suffix_length_le ending (List.suffix_append _ _) fewer)

theorem LongestAccepted.unique {text beginning other : List Char}
    (first : LongestAccepted text beginning) (second : LongestAccepted text other) :
    beginning = other := by
  have length := Nat.le_antisymm (second.longest _ first.begins first.accepted)
    (first.longest _ second.begins second.accepted)
  exact (List.prefix_of_prefix_length_le first.begins second.begins
    (Nat.le_of_eq length)).eq_of_length length

theorem none_accepted {text rest : List Char} (passes : nestsDeeper maxParentheses 0 text = false)
    (rejected : expression (text.length + 1) (Text.skipBlanks text) = .reject rest)
    {beginning : List Char} (begins : beginning <+: text) : ¬ Accepted beginning := by
  obtain ⟨more, rfl⟩ := begins
  rw [accepted_iff (nestsDeeper_beginning passes)]
  rintro ⟨formula, derived⟩
  obtain ⟨read, left, reads, _⟩ := read_of_derives derived more
  rw [rejected] at reads
  cases reads

theorem longest_read {text left : List Char} {formula : Formula}
    (passes : nestsDeeper maxParentheses 0 text = false)
    (read : expression (text.length + 1) (Text.skipBlanks text) = .accept formula left) :
    ∃ beginning, text = beginning ++ Text.skipBlanks left ∧ LongestAccepted text beginning := by
  obtain ⟨beginning, whole, derived⟩ := derives_of_read read
  have shallow : nestsDeeper maxParentheses 0 beginning = false := by
    rw [whole] at passes
    exact nestsDeeper_beginning passes
  refine ⟨beginning, whole, ⟨_, whole.symm⟩, (accepted_iff shallow).mpr ⟨_, derived⟩, ?_⟩
  rintro other ⟨more, rfl⟩ accepted
  obtain ⟨_, again⟩ := (accepted_iff (nestsDeeper_beginning passes)).mp accepted
  obtain ⟨_, _, reads, fewer⟩ := read_of_derives again more
  rw [read] at reads
  cases reads
  have lengths := congrArg List.length whole
  rw [List.length_append, List.length_append] at lengths
  omega

def Shows (fault : FormulaFault) (column : Nat) (description : String) : Prop :=
  fault.message = s!"syntax error at column {column}: {description}"

theorem shows_unexpectedChar (column : Nat) (c : Char) :
    Shows (.unexpectedChar column c) column s!"unexpected character: '{c}'" := by
  unfold Shows FormulaFault.message
  have joined : ": unexpected character: '" = ": " ++ "unexpected character: '" := by decide
  simp only [toString, joined, String.append_assoc]

theorem shows_malformed (column : Nat) :
    ∃ description, Shows (.malformed column) column description ∧
      "parse error".toList <+: description.toList := by
  refine ⟨"parse error: Parsing Error: ContextError \x7b context: [], cause: None \x7d", ?_,
    by decide⟩
  unfold Shows FormulaFault.message
  have joined : ": parse error: Parsing Error: " ++
      "ContextError \x7b context: [], cause: None \x7d" =
        ": " ++ "parse error: Parsing Error: ContextError \x7b context: [], cause: None \x7d" := by
    decide
  simp only [toString, String.append_assoc, joined]

theorem solid_of_skipped {text rest : List Char} {c : Char}
    (skipped : Text.skipBlanks text = c :: rest) : Text.isBlank c = false :=
  ends_skipBlanks text c (by rw [skipped]; rfl)

/-- What becomes of a text whose parentheses pass the check: it begins with no formula, or it is
one, or the character behind the longest formula that it begins with is not expected. -/
theorem parse_cases {text : String}
    (passes : nestsDeeper maxParentheses 0 text.toList = false) :
    (∃ column, parse text = .error (.malformed column) ∧
        ∀ beginning, beginning <+: text.toList → ¬ Accepted beginning) ∨
      (LongestAccepted text.toList text.toList ∧ ∃ formula, parse text = .ok formula) ∨
      ∃ beginning c rest, LongestAccepted text.toList beginning ∧
        text.toList = beginning ++ c :: rest ∧ Text.isBlank c = false ∧
        parse text = .error (.unexpectedChar (beginning.length + 1) c) := by
  rw [parse, passes, if_neg Bool.false_ne_true, parseList]
  split
  · rename_i rest rejected
    exact .inl ⟨_, rfl, fun _ => none_accepted passes rejected⟩
  · rename_i formula left read
    obtain ⟨beginning, whole, longest⟩ := longest_read passes read
    split
    · rename_i nothing
      rw [nothing, List.append_nil] at whole
      subst whole
      exact .inr (.inl ⟨longest, formula, rfl⟩)
    · rename_i c rest skipped
      rw [skipped] at whole
      have place : column text.toList (c :: rest) = beginning.length + 1 := by
        rw [column, whole, List.length_append, Nat.add_sub_cancel]
      exact .inr (.inr ⟨beginning, c, rest, longest, whole, solid_of_skipped skipped,
        by rw [place]⟩)

/-- A text that passes the check of its parentheses is a formula, or its fault shows the character
behind the longest formula that it begins with, or it does not begin with a formula. -/
theorem parse_longest {text : String}
    (passes : nestsDeeper maxParentheses 0 text.toList = false) :
    (∀ beginning, LongestAccepted text.toList beginning →
      (beginning = text.toList → ∃ formula, parse text = .ok formula) ∧
      (beginning ≠ text.toList → ∃ c fault, parse text = .error fault ∧
        Shows fault (beginning.length + 1) s!"unexpected character: '{c}'" ∧
        text.toList[beginning.length]? = some c ∧ Text.isBlank c = false)) ∧
      ((∃ beginning, beginning <+: text.toList ∧ Accepted beginning) →
        ∃ beginning, LongestAccepted text.toList beginning) ∧
      ((∀ beginning, beginning <+: text.toList → ¬ Accepted beginning) →
        ∃ fault column description, parse text = .error fault ∧ Shows fault column description ∧
          "parse error".toList <+: description.toList) := by
  rcases parse_cases passes with ⟨column, failed, nowhere⟩ | ⟨longest, formula, read⟩ |
    ⟨beginning, c, rest, longest, whole, solid, failed⟩
  · refine ⟨?_, ?_, fun _ => ?_⟩
    · exact fun beginning longest => absurd longest.accepted (nowhere _ longest.begins)
    · rintro ⟨beginning, begins, accepted⟩
      exact absurd accepted (nowhere _ begins)
    · obtain ⟨description, shown, starts⟩ := shows_malformed column
      exact ⟨_, column, description, failed, shown, starts⟩
  · refine ⟨fun other found => ?_, fun _ => ⟨_, longest⟩, fun nowhere => ?_⟩
    · exact ⟨fun _ => ⟨formula, read⟩, fun shorter => absurd (found.unique longest) shorter⟩
    · exact absurd longest.accepted (nowhere _ longest.begins)
  · refine ⟨fun other found => ?_, fun _ => ⟨_, longest⟩, fun nowhere => ?_⟩
    · obtain rfl := found.unique longest
      refine ⟨fun entire => ?_, fun _ => ⟨c, _, failed, shows_unexpectedChar _ c, ?_, solid⟩⟩
      · have lengths := congrArg List.length whole
        rw [← entire, List.length_append, List.length_cons] at lengths
        omega
      · rw [whole, List.getElem?_append_right (Nat.le_refl _), Nat.sub_self]
        rfl
    · exact absurd longest.accepted (nowhere _ longest.begins)

theorem accepted_dangling : Accepted ['x', ' '] := by
  have x : Fits [] (.var ['x'] none) := .var (.intro (by decide) nofun) nofun
  have blank : Blanks [' '] := List.forall_mem_singleton.mpr (by decide)
  refine (accepted_iff (by decide)).mpr ⟨.var ⟨"x", []⟩, .var ['x'] none, ?_, .bare⟩
  exact ⟨.operand (.operand (.operand x)), [], [' '], nofun, blank, rfl⟩

theorem longestAccepted_dangling : LongestAccepted "x +".toList ['x', ' '] where
  begins := ⟨['+'], rfl⟩
  accepted := accepted_dangling
  longest := by
    rintro other ⟨more, whole⟩ ⟨formula, accepted⟩
    refine Nat.not_lt.mp fun longer => ?_
    change 2 < other.length at longer
    have lengths := congrArg List.length whole
    rw [List.length_append] at lengths
    change _ = 3 at lengths
    obtain rfl : more = [] := List.length_eq_zero_iff.mp (by omega)
    have failed : (parse "x +").isOk = false := by decide +kernel
    rw [List.append_nil] at whole
    rw [whole, String.ofList_toList] at accepted
    rw [accepted] at failed
    cases failed

theorem parse_longest_dangling :
    nestsDeeper maxParentheses 0 "x +".toList = false ∧
      LongestAccepted "x +".toList ['x', ' '] ∧
      ∃ c fault, parse "x +" = .error fault ∧
        Shows fault 3 s!"unexpected character: '{c}'" ∧ "x +".toList[2]? = some c := by
  have passes : nestsDeeper maxParentheses 0 "x +".toList = false := by decide
  obtain ⟨c, fault, failed, shown, found, _⟩ :=
    ((parse_longest passes).1 _ longestAccepted_dangling).2 (by decide)
  exact ⟨passes, longestAccepted_dangling, c, fault, failed, shown, found⟩

end Phrasebook.Formula
