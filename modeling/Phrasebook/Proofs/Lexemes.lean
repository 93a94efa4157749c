import Phrasebook.Formula.Grammar

/-!
The words of a formula: numerals, names with their parameters, and blanks. A reader takes a word
whole when what follows cannot be a part of it.
-/

namespace Phrasebook.Formula

def Blanks (text : List Char) : Prop := ∀ c ∈ text, Text.isBlank c = true

def Digits (text : List Char) : Prop := text ≠ [] ∧ ∀ c ∈ text, c.isDigit = true

def IsFraction (text : List Char) : Prop :=
  text = [] ∨ ∃ digits, Digits digits ∧ text = '.' :: digits

def IsExponent (text : List Char) : Prop :=
  text = [] ∨ ∃ mark sign digits, (mark = 'e' ∨ mark = 'E') ∧
    (sign = [] ∨ sign = ['+'] ∨ sign = ['-']) ∧ Digits digits ∧ text = mark :: (sign ++ digits)

/-- Digits with an optional minus sign, an optional fraction and an optional exponent. -/
inductive IsNumeral : List Char → Prop
  | intro {sign whole fraction exponent : List Char} (signed : sign = [] ∨ sign = ['-'])
      (digits : Digits whole) (fractional : IsFraction fraction) (scaled : IsExponent exponent) :
      IsNumeral (sign ++ whole ++ fraction ++ exponent)

inductive IsName : List Char → Prop
  | intro {c : Char} {cs : List Char} (first : isNameStart c = true)
      (later : ∀ d ∈ cs, isNameChar d = true) : IsName (c :: cs)

/-- The text does not go on with a character of the class. -/
def Ends (inWord : Char → Bool) (text : List Char) : Prop := ∀ c ∈ text.head?, inWord c = false

/-- No numeral or variable can go on with the text. -/
def EndsWord (text : List Char) : Prop := Ends isNameChar text ∧ text.head? ≠ some '<'

section Spans

variable {inWord : Char → Bool} {word rest : List Char}

theorem Ends.nil (inWord : Char → Bool) : Ends inWord [] := nofun

theorem ends_cons {c : Char} {cs : List Char} : Ends inWord (c :: cs) ↔ inWord c = false := by
  simp [Ends]

theorem Ends.mono {narrow : Char → Bool} (ends : Ends inWord rest)
    (narrower : ∀ c, narrow c = true → inWord c = true) : Ends narrow rest := by
  intro c head
  apply Bool.eq_false_iff.mpr
  intro inside
  exact absurd (narrower c inside) (by simp [ends c head])

theorem Ends.digit (ends : Ends isNameChar rest) : Ends Char.isDigit rest :=
  ends.mono fun c digit => by simp [isNameChar, Char.isAlphanum, digit]

theorem Ends.head_ne {c : Char} (ends : Ends inWord rest) (inside : inWord c = true) :
    rest.head? ≠ some c := by
  intro head
  exact absurd inside (by simp [ends c head])

theorem takeWhile_word (inside : ∀ c ∈ word, inWord c = true) (ends : Ends inWord rest) :
    (word ++ rest).takeWhile inWord = word := by
  rw [List.takeWhile_append_of_pos inside]
  cases rest with
  | nil => simp
  | cons c cs => simp [ends_cons.mp ends]

theorem dropWhile_word (inside : ∀ c ∈ word, inWord c = true) (ends : Ends inWord rest) :
    (word ++ rest).dropWhile inWord = rest := by
  rw [List.dropWhile_append_of_pos inside]
  cases rest with
  | nil => rfl
  | cons c cs => simp [ends_cons.mp ends]

theorem inside_takeWhile (text : List Char) : ∀ c ∈ text.takeWhile inWord, inWord c = true :=
  List.all_eq_true.mp List.all_takeWhile

end Spans

theorem Blanks.append {before after : List Char} (leading : Blanks before)
    (trailing : Blanks after) : Blanks (before ++ after) :=
  List.forall_mem_append.mpr ⟨leading, trailing⟩

theorem skipBlanks_append {blanks : List Char} (rest : List Char) (blank : Blanks blanks) :
    Text.skipBlanks (blanks ++ rest) = Text.skipBlanks rest :=
  List.dropWhile_append_of_pos blank

theorem skipBlanks_split (text : List Char) :
    ∃ blanks, Blanks blanks ∧ text = blanks ++ Text.skipBlanks text :=
  ⟨text.takeWhile Text.isBlank, inside_takeWhile text, List.takeWhile_append_dropWhile.symm⟩

theorem ends_skipBlanks (text : List Char) : Ends Text.isBlank (Text.skipBlanks text) := by
  have first := List.head?_dropWhile_not Text.isBlank text
  intro c head
  rw [← Text.skipBlanks, head] at first
  exact first

theorem skipBlanks_solid {text : List Char} (solid : Ends Text.isBlank text) :
    Text.skipBlanks text = text := by
  cases text with
  | nil => rfl
  | cons c cs => exact Text.skipBlanks_cons_solid cs (ends_cons.mp solid)

theorem skipBlanks_blanks {blanks : List Char} (blank : Blanks blanks) :
    Text.skipBlanks blanks = [] := by
  have skipped := skipBlanks_append [] blank
  rwa [List.append_nil] at skipped

section Digits

variable {word rest text : List Char}

theorem Digits.head_ne (digits : Digits word) (rest : List Char) (c : Char)
    (other : c.isDigit = false) : (word ++ rest).head? ≠ some c := by
  obtain ⟨nonempty, digits⟩ := digits
  cases word with
  | nil => exact absurd rfl nonempty
  | cons d ds =>
      intro head
      obtain rfl := Option.some.inj head
      exact absurd (digits d List.mem_cons_self) (by simp [other])

theorem digitsOf_append (digits : Digits word) (ends : Ends Char.isDigit rest) :
    digitsOf (word ++ rest) = word :=
  takeWhile_word digits.2 ends

theorem afterDigits_append (digits : Digits word) (ends : Ends Char.isDigit rest) :
    afterDigits (word ++ rest) = rest :=
  dropWhile_word digits.2 ends

theorem digitsOf_split (text : List Char) : text = digitsOf text ++ afterDigits text :=
  List.takeWhile_append_dropWhile.symm

theorem digits_digitsOf (some_read : ¬ (digitsOf text).isEmpty) : Digits (digitsOf text) := by
  refine ⟨?_, inside_takeWhile text⟩
  intro none_read
  exact some_read (by rw [none_read]; rfl)

theorem digitsOf_nil_of_ends (ends : Ends Char.isDigit text) : digitsOf text = [] := by
  cases text with
  | nil => rfl
  | cons c cs => simp [digitsOf, ends_cons.mp ends]

end Digits

theorem fractionPart_append {fraction rest : List Char} (fractional : IsFraction fraction)
    (ends : Ends Char.isDigit rest) (pointless : rest.head? ≠ some '.') :
    fractionPart (fraction ++ rest) = (fraction, rest) := by
  rcases fractional with rfl | ⟨digits, valid, rfl⟩
  · rw [List.nil_append]
    unfold fractionPart
    split
    · exact absurd rfl pointless
    · rfl
  · simp only [List.cons_append, fractionPart, digitsOf_append valid ends,
      afterDigits_append valid ends]
    simp [valid.1]

theorem fractionPart_split (text : List Char) :
    IsFraction (fractionPart text).1 ∧ text = (fractionPart text).1 ++ (fractionPart text).2 := by
  unfold fractionPart
  split
  · rename_i rest
    split
    · exact ⟨.inl rfl, rfl⟩
    · rename_i some_read
      refine ⟨.inr ⟨digitsOf rest, digits_digitsOf some_read, rfl⟩, ?_⟩
      rw [List.cons_append, ← digitsOf_split]
  · exact ⟨.inl rfl, rfl⟩

theorem exponentPart_append {exponent rest : List Char} (scaled : IsExponent exponent)
    (ends : Ends isNameChar rest) : exponentPart (exponent ++ rest) = (exponent, rest) := by
  rcases scaled with rfl | ⟨mark, sign, digits, marked, signed, valid, rfl⟩
  · rw [List.nil_append]
    cases rest with
    | nil => rfl
    | cons c cs =>
        have unlike : ¬ ((c = 'e' || c = 'E') = true) := by
          intro marked
          have other := ends_cons.mp ends
          rcases (by simpa using marked : c = 'e' ∨ c = 'E') with rfl | rfl <;> cases other
        simp only [exponentPart, if_neg unlike]
  · have marked : (mark = 'e' || mark = 'E') = true := by simpa using marked
    have ends := ends.digit
    have empty := valid.1
    simp only [List.cons_append, exponentPart, if_pos marked]
    rcases signed with rfl | rfl | rfl
    · rw [List.nil_append]
      split
      · rename_i after same
        exact absurd (congrArg List.head? same) (valid.head_ne rest _ (by decide))
      · rename_i after same
        exact absurd (congrArg List.head? same) (valid.head_ne rest _ (by decide))
      · simp [digitsOf_append valid ends, afterDigits_append valid ends, empty]
    · simp [digitsOf_append valid ends, afterDigits_append valid ends, empty]
    · simp [digitsOf_append valid ends, afterDigits_append valid ends, empty]

theorem exponentPart_split (text : List Char) :
    IsExponent (exponentPart text).1 ∧ text = (exponentPart text).1 ++ (exponentPart text).2 := by
  unfold exponentPart
  split
  · rename_i mark rest
    split
    · rename_i marked
      have marked : mark = 'e' ∨ mark = 'E' := by simpa using marked
      split
      rename_i sign body signed
      have parts : (sign = [] ∨ sign = ['+'] ∨ sign = ['-']) ∧ rest = sign ++ body := by
        split at signed <;> cases signed <;> simp
      obtain ⟨proper, rfl⟩ := parts
      split
      · exact ⟨.inl rfl, rfl⟩
      · rename_i some_read
        have digits := digits_digitsOf some_read
        refine ⟨.inr ⟨mark, sign, digitsOf body, marked, proper, digits, rfl⟩, ?_⟩
        simp only [List.cons_append, List.append_assoc, ← digitsOf_split]
    · exact ⟨.inl rfl, rfl⟩
  · exact ⟨.inl rfl, rfl⟩

theorem IsExponent.ends {exponent rest : List Char} (scaled : IsExponent exponent)
    (ends : Ends isNameChar rest) :
    Ends Char.isDigit (exponent ++ rest) ∧ (exponent ++ rest).head? ≠ some '.' := by
  rcases scaled with rfl | ⟨mark, sign, digits, rfl | rfl, _, _, rfl⟩
  · exact ⟨ends.digit, ends.head_ne (by decide)⟩
  · exact ⟨ends_cons.mpr (by decide), by simp⟩
  · exact ⟨ends_cons.mpr (by decide), by simp⟩

theorem IsFraction.ends {fraction rest : List Char} (fractional : IsFraction fraction)
    (ends : Ends Char.isDigit rest) : Ends Char.isDigit (fraction ++ rest) := by
  rcases fractional with rfl | ⟨digits, _, rfl⟩
  · exact ends
  · exact ends_cons.mpr (by decide)

theorem numeral?_append {word rest : List Char} (numeral : IsNumeral word)
    (ends : Ends isNameChar rest) : numeral? (word ++ rest) = some (word, rest) := by
  obtain @⟨sign, whole, fraction, exponent, signed, digits, fractional, scaled⟩ := numeral
  have after_exponent := exponentPart_append scaled ends
  obtain ⟨undigited, pointless⟩ := scaled.ends ends
  have after_fraction := fractionPart_append fractional undigited pointless
  have unfractioned := fractional.ends undigited
  have word := digitsOf_append digits unfractioned
  have after_whole := afterDigits_append digits unfractioned
  have first : (whole ++ (fraction ++ (exponent ++ rest))).head? ≠ some '-' :=
    digits.head_ne _ _ (by decide)
  have filled := digits.1
  unfold numeral?
  rcases signed with rfl | rfl
  · simp only [List.nil_append, List.append_assoc]
    split
    · rename_i unsigned
      exact absurd (congrArg List.head? unsigned) first
    · simp [word, after_whole, after_fraction, after_exponent, filled]
  · simp [word, after_whole, after_fraction, after_exponent, filled]

theorem numeral?_sound {text word rest : List Char} (found : numeral? text = some (word, rest)) :
    IsNumeral word ∧ text = word ++ rest := by
  unfold numeral? at found
  split at found
  rename_i sign body signed
  have parts : (sign = [] ∨ sign = ['-']) ∧ text = sign ++ body := by
    split at signed <;> cases signed <;> simp
  obtain ⟨proper, rfl⟩ := parts
  split at found
  · cases found
  · rename_i some_read
    have whole := digits_digitsOf some_read
    obtain ⟨fractional, after_whole⟩ := fractionPart_split (afterDigits body)
    obtain ⟨scaled, after_fraction⟩ := exponentPart_split (fractionPart (afterDigits body)).2
    simp only [Option.some.injEq, Prod.mk.injEq] at found
    obtain ⟨rfl, rfl⟩ := found
    refine ⟨.intro proper whole fractional scaled, ?_⟩
    simp only [List.append_assoc, ← after_fraction, ← after_whole, ← digitsOf_split]

theorem natural?_digits {digits : List Char} (valid : Digits digits) :
    Decimal.natural? digits = some (Decimal.ofDigits digits) :=
  (Decimal.natural?_eq_some_iff digits _).mpr ⟨valid.1, valid.2, rfl⟩

theorem exponent?_isSome {sign digits : List Char}
    (signed : sign = [] ∨ sign = ['+'] ∨ sign = ['-']) (valid : Digits digits) :
    (Decimal.exponent? (sign ++ digits)).isSome := by
  rcases signed with rfl | rfl | rfl
  · have first := valid.head_ne []
    rw [List.append_nil] at first
    rw [List.nil_append]
    unfold Decimal.exponent?
    split
    · exact absurd rfl (first _ (by decide))
    · exact absurd rfl (first _ (by decide))
    · simp [natural?_digits valid]
  · simp [Decimal.exponent?, natural?_digits valid]
  · simp [Decimal.exponent?, natural?_digits valid]

theorem scientific?_isSome {whole fraction exponent : List Char} (digits : Digits whole)
    (fractional : IsFraction fraction) (scaled : IsExponent exponent) :
    (Decimal.scientific? (whole ++ (fraction ++ exponent))).isSome := by
  obtain ⟨undigited, pointless⟩ := scaled.ends (.nil _)
  rw [List.append_nil] at undigited pointless
  have unfractioned := fractional.ends undigited
  have filled : whole.isEmpty = false := by simp [digits.1]
  simp only [Decimal.scientific?, takeWhile_word digits.2 unfractioned,
    dropWhile_word digits.2 unfractioned, filled, Bool.false_and]
  rcases fractional with rfl | ⟨decimals, valid, rfl⟩
  · rcases scaled with rfl | ⟨mark, sign, scale, rfl | rfl, signed, valid, rfl⟩
    · rfl
    · simp [exponent?_isSome signed valid]
    · simp [exponent?_isSome signed valid]
  · simp only [List.cons_append, takeWhile_word valid.2 undigited,
      dropWhile_word valid.2 undigited]
    rcases scaled with rfl | ⟨mark, sign, scale, rfl | rfl, signed, valid, rfl⟩
    · rfl
    · simp [exponent?_isSome signed valid]
    · simp [exponent?_isSome signed valid]

theorem float?_numeral {word : List Char} (numeral : IsNumeral word) :
    (Decimal.float? word).isSome := by
  obtain @⟨sign, whole, fraction, exponent, signed, digits, fractional, scaled⟩ := numeral
  have known := scientific?_isSome digits fractional scaled
  have measured : (Decimal.magnitude? (whole ++ (fraction ++ exponent))).isSome := by
    unfold Decimal.magnitude?
    split
    · rfl
    · simpa using known
  have first := digits.head_ne (fraction ++ exponent)
  simp only [List.append_assoc]
  rcases signed with rfl | rfl
  · rw [List.nil_append]
    unfold Decimal.float?
    split
    · rename_i same
      exact absurd (congrArg List.head? same) (first _ (by decide))
    · rename_i same
      exact absurd (congrArg List.head? same) (first _ (by decide))
    · exact measured
  · simpa [Decimal.float?] using measured

theorem number?_eq_none {text : List Char} (undigited : Ends Char.isDigit text)
    (unsigned : text.head? ≠ some '-') : number? text = none := by
  have missing : numeral? text = none := by
    unfold numeral?
    split
    rename_i sign body signed
    split at signed
    · exact absurd rfl unsigned
    · obtain ⟨rfl, rfl⟩ := Prod.mk.inj signed
      simp [digitsOf_nil_of_ends undigited]
  simp [number?, missing]

theorem toNat_of_isAlpha {c : Char} (letter : c.isAlpha = true) :
    65 ≤ c.toNat ∧ c.toNat ≤ 90 ∨ 97 ≤ c.toNat ∧ c.toNat ≤ 122 := by
  change (decide ('A'.val ≤ c.val ∧ c.val ≤ 'Z'.val) ||
    (decide ('a'.val ≤ c.val) && decide (c.val ≤ 'z'.val))) = true at letter
  simp only [Bool.or_eq_true, Bool.and_eq_true, decide_eq_true_eq,
    UInt32.le_iff_toNat_le] at letter
  exact letter

theorem isDigit_of_isNameStart {c : Char} (start : isNameStart c = true) : c.isDigit = false := by
  simp only [isNameStart, Bool.or_eq_true, decide_eq_true_eq] at start
  rcases start with letter | rfl
  · apply Bool.eq_false_iff.mpr
    intro digit
    have high := toNat_of_isAlpha letter
    have low : 48 ≤ c.toNat ∧ c.toNat ≤ 57 := Char.isDigit_iff_toNat.mp digit
    omega
  · decide

theorem IsName.unnumbered {name : List Char} (named : IsName name) (rest : List Char) :
    number? (name ++ rest) = none := by
  obtain ⟨first, _⟩ := named
  refine number?_eq_none (ends_cons.mpr (isDigit_of_isNameStart first)) ?_
  intro minus
  obtain rfl := Option.some.inj minus
  exact absurd first (by decide)

end Phrasebook.Formula

namespace Phrasebook.Variable

open Formula

theorem params?_eq_none {text : List Char} (unopened : text.head? ≠ some '<') :
    params? text = none := by
  unfold params?
  split
  · exact absurd rfl unopened
  · rfl

theorem params?_closed {params : List Char} (rest : List Char) (closed : '>' ∉ params) :
    params? ('<' :: (params ++ '>' :: rest)) = some (Param.list params, rest) := by
  rw [params?, Text.splitFirst?_append rest closed]
  rfl

theorem read?_name {name rest : List Char} (named : IsName name) (ends : EndsWord rest) :
    read? (name ++ rest) = some (⟨String.ofList name, []⟩, rest) := by
  obtain ⟨first, later⟩ := named
  simp only [List.cons_append, read?, if_pos first, takeWhile_word later ends.1,
    dropWhile_word later ends.1, params?_eq_none ends.2]

theorem read?_params {name params : List Char} (named : IsName name) (rest : List Char)
    (closed : '>' ∉ params) :
    read? (name ++ ('<' :: (params ++ '>' :: rest))) =
      some (⟨String.ofList name, Param.list params⟩, rest) := by
  obtain ⟨first, later⟩ := named
  have ends : Ends isNameChar ('<' :: (params ++ '>' :: rest)) := ends_cons.mpr (by decide)
  simp only [List.cons_append, read?, if_pos first, takeWhile_word later ends,
    dropWhile_word later ends, params?_closed rest closed]

theorem read?_sound {text rest : List Char} {var : Variable}
    (found : read? text = some (var, rest)) :
    ∃ name, IsName name ∧
      ((var = ⟨String.ofList name, []⟩ ∧ text = name ++ rest) ∨
        ∃ params, '>' ∉ params ∧ var = ⟨String.ofList name, Param.list params⟩ ∧
          text = name ++ ('<' :: (params ++ '>' :: rest))) := by
  unfold read? at found
  split at found
  · cases found
  · rename_i c cs
    split at found
    · rename_i first
      refine ⟨c :: cs.takeWhile isNameChar, .intro first (inside_takeWhile cs), ?_⟩
      have whole : c :: cs = c :: cs.takeWhile isNameChar ++ cs.dropWhile isNameChar := by
        rw [List.cons_append, List.takeWhile_append_dropWhile]
      simp only at found
      split at found
      · rename_i params after opened
        obtain ⟨rfl, rfl⟩ := Prod.mk.inj (Option.some.inj found)
        right
        unfold params? at opened
        split at opened
        · rename_i text same
          obtain ⟨parts, split, paired⟩ := Option.map_eq_some_iff.mp opened
          obtain ⟨rfl, rfl⟩ := Prod.mk.inj paired
          obtain ⟨inside, closed⟩ := Text.splitFirst?_eq_some split
          refine ⟨parts.1, closed, rfl, ?_⟩
          rw [whole, same, inside]
        · cases opened
      · obtain ⟨rfl, rfl⟩ := Prod.mk.inj (Option.some.inj found)
        exact .inl ⟨rfl, whole⟩
    · cases found

end Phrasebook.Variable
