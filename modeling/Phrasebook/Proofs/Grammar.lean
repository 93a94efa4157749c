import Phrasebook.Proofs.ParameterTexts

/-!
The grammar of formulas. A spelling is a formula as it is written, with its parentheses and blanks,
and it fits a list of operator tiers when every chain groups to the left and its operands belong to
the tiers below. Reading accepts exactly what has a spelling that fits.
-/

namespace Phrasebook.Formula

inductive Spelling where
  | numeral (text : List Char)
  | var (name : List Char) (params : Option (List Char))
  | group (before : List Char) (inner : Spelling) (after : List Char)
  | chain (lhs : Spelling) (before : List Char) (op : BinaryOp) (after : List Char)
      (rhs : Spelling)

namespace Spelling

def written : Spelling → List Char
  | numeral text => text
  | var name none => name
  | var name (some params) => name ++ '<' :: (params ++ ['>'])
  | group before inner after => '(' :: (before ++ (inner.written ++ (after ++ [')'])))
  | chain lhs before op after rhs =>
      lhs.written ++ (before ++ op.symbol :: (after ++ rhs.written))

/-- The tree of a spelling, in which groups leave no trace. -/
inductive Means : Spelling → Formula → Prop
  | numeral {text : List Char} {value : Float} (known : Decimal.float? text = some value) :
      Means (numeral text) (.number value)
  | bare {name : List Char} : Means (var name none) (.var ⟨String.ofList name, []⟩)
  | var {name text : List Char} {params : List Param} (splits : Param.Splits text params) :
      Means (var name (some text)) (.var ⟨String.ofList name, params⟩)
  | group {before after : List Char} {inner : Spelling} {formula : Formula}
      (inside : Means inner formula) : Means (group before inner after) formula
  | chain {lhs rhs : Spelling} {before after : List Char} {op : BinaryOp} {left right : Formula}
      (first : Means lhs left) (second : Means rhs right) :
      Means (chain lhs before op after rhs) (.binary op left right)

def groupDepth : Spelling → Nat
  | numeral _ => 0
  | var _ _ => 0
  | group _ inner _ => inner.groupDepth + 1
  | chain lhs _ _ _ rhs => max lhs.groupDepth rhs.groupDepth

end Spelling

/-- The operators of each tier, those that bind weakest first. -/
def grammar : List (List BinaryOp) := [[.add, .subtract], [.multiply, .divide], [.power]]

inductive Fits : List (List BinaryOp) → Spelling → Prop
  | numeral {text : List Char} (valid : IsNumeral text) : Fits [] (.numeral text)
  | var {name : List Char} {params : Option (List Char)} (named : IsName name)
      (closed : ∀ text ∈ params, '>' ∉ text) : Fits [] (.var name params)
  | group {before after : List Char} {inner : Spelling} (leading : Blanks before)
      (inside : Fits grammar inner) (trailing : Blanks after) :
      Fits [] (.group before inner after)
  | operand {operators : List BinaryOp} {tiers : List (List BinaryOp)} {spelling : Spelling}
      (fits : Fits tiers spelling) : Fits (operators :: tiers) spelling
  | chain {operators : List BinaryOp} {tiers : List (List BinaryOp)} {lhs rhs : Spelling}
      {before after : List Char} {op : BinaryOp} (left : Fits (operators :: tiers) lhs)
      (leading : Blanks before) (member : op ∈ operators) (trailing : Blanks after)
      (right : Fits tiers rhs) : Fits (operators :: tiers) (.chain lhs before op after rhs)

/-- The text is the spelling with blanks around it. -/
def Spells (text : List Char) (spelling : Spelling) : Prop :=
  Fits grammar spelling ∧
    ∃ before after, Blanks before ∧ Blanks after ∧ text = before ++ (spelling.written ++ after)

def Derives (text : List Char) (formula : Formula) : Prop :=
  ∃ spelling, Spells text spelling ∧ spelling.Means formula

theorem Spelling.means_group_iff {before after : List Char} {inner : Spelling}
    {formula : Formula} : (group before inner after).Means formula ↔ inner.Means formula := by
  constructor
  · rintro ⟨⟩
    assumption
  · exact .group

theorem Spelling.means_chain_iff {lhs rhs : Spelling} {before after : List Char} {op : BinaryOp}
    {formula : Formula} : (chain lhs before op after rhs).Means formula ↔
      ∃ left right, lhs.Means left ∧ rhs.Means right ∧ formula = .binary op left right := by
  constructor
  · intro means
    cases means with
    | chain first second => exact ⟨_, _, first, second, rfl⟩
  · rintro ⟨left, right, first, second, rfl⟩
    exact .chain first second

theorem Spelling.means_var (name : List Char) (params : Option (List Char)) :
    (var name params).Means (.var ⟨String.ofList name, (params.map Param.list).getD []⟩) := by
  cases params with
  | none => exact .bare
  | some text => exact .var (Param.splits_list text)

theorem Fits.means {tiers : List (List BinaryOp)} {spelling : Spelling}
    (fits : Fits tiers spelling) : ∃ formula, spelling.Means formula := by
  induction fits with
  | numeral valid =>
      obtain ⟨value, known⟩ := Option.isSome_iff_exists.mp (float?_numeral valid)
      exact ⟨.number value, .numeral known⟩
  | @var name params _ _ => exact ⟨_, Spelling.means_var name params⟩
  | group _ _ _ inside =>
      obtain ⟨formula, inside⟩ := inside
      exact ⟨formula, .group inside⟩
  | operand _ below => exact below
  | chain _ _ _ _ _ left right =>
      obtain ⟨lhs, left⟩ := left
      obtain ⟨rhs, right⟩ := right
      exact ⟨_, .chain left right⟩

theorem isBlank_symbol (op : BinaryOp) : Text.isBlank op.symbol = false := by
  cases op <;> decide

theorem symbol_inj {op other : BinaryOp} (same : op.symbol = other.symbol) : op = other := by
  cases op <;> cases other <;> first | rfl | (exact absurd same (by decide))

theorem isNameChar_range {c : Char} (inside : isNameChar c = true) :
    46 ≤ c.toNat ∧ c.toNat ≤ 126 := by
  simp only [isNameChar, Char.isAlphanum, Bool.or_eq_true, decide_eq_true_eq] at inside
  rcases inside with (((((letter | digit) | rfl) | rfl) | rfl) | rfl) | rfl
  · have range := toNat_of_isAlpha letter
    omega
  · have range : 48 ≤ c.toNat ∧ c.toNat ≤ 57 := Char.isDigit_iff_toNat.mp digit
    omega
  all_goals decide

theorem isBlank_range {c : Char} (blank : Text.isBlank c = true) :
    c.toNat ≤ 32 ∨ 133 ≤ c.toNat := by
  simp only [Text.isBlank, Bool.or_eq_true, Bool.and_eq_true, decide_eq_true_eq] at blank
  by_cases space : c = ' '
  · subst space
    decide
  · simp only [space, false_or] at blank
    omega

theorem isBlank_of_isNameChar {c : Char} (inside : isNameChar c = true) :
    Text.isBlank c = false := by
  apply Bool.eq_false_iff.mpr
  intro blank
  have inner := isNameChar_range inside
  have outer := isBlank_range blank
  omega

theorem isNameChar_of_isDigit {c : Char} (digit : c.isDigit = true) : isNameChar c = true := by
  simp [isNameChar, Char.isAlphanum, digit]

theorem isNameChar_of_isNameStart {c : Char} (start : isNameStart c = true) :
    isNameChar c = true := by
  simp only [isNameStart, Bool.or_eq_true] at start
  rcases start with letter | underscore
  · simp [isNameChar, Char.isAlphanum, letter]
  · simp [isNameChar, underscore]

theorem IsName.isNameChar {name : List Char} (named : IsName name) :
    ∀ c ∈ name, isNameChar c = true := by
  obtain ⟨first, later⟩ := named
  exact List.forall_mem_cons.mpr ⟨isNameChar_of_isNameStart first, later⟩

theorem Fits.solid {tiers : List (List BinaryOp)} {spelling : Spelling}
    (fits : Fits tiers spelling) (rest : List Char) :
    Ends Text.isBlank (spelling.written ++ rest) := by
  induction fits generalizing rest with
  | numeral valid =>
      obtain @⟨sign, whole, fraction, exponent, rfl | rfl, ⟨nonempty, digits⟩, _, _⟩ := valid
      · cases whole with
        | nil => exact absurd rfl nonempty
        | cons d ds =>
            exact ends_cons.mpr (isBlank_of_isNameChar
              (isNameChar_of_isDigit (digits d List.mem_cons_self)))
      · exact ends_cons.mpr (by decide)
  | @var name params named closed =>
      obtain ⟨first, _⟩ := named
      have solid := isBlank_of_isNameChar (isNameChar_of_isNameStart first)
      cases params <;> exact ends_cons.mpr solid
  | group => exact ends_cons.mpr (by decide)
  | operand _ ih => exact ih rest
  | chain _ _ _ _ _ left _ =>
      rw [Spelling.written, List.append_assoc]
      exact left _

theorem find?_symbol {operators : List BinaryOp} {op : BinaryOp} (member : op ∈ operators) :
    (operators.find? fun other => other.symbol = op.symbol) = some op := by
  cases found : operators.find? fun other => other.symbol = op.symbol with
  | none =>
      have unlike := List.find?_eq_none.mp found op member
      simp at unlike
  | some other =>
      have same : other.symbol = op.symbol := by simpa using List.find?_some found
      rw [symbol_inj same]

theorem endsWord_blank {c : Char} (blank : Text.isBlank c = true) (cs : List Char) :
    EndsWord (c :: cs) := by
  have range := isBlank_range blank
  constructor
  · apply ends_cons.mpr
    apply Bool.eq_false_iff.mpr
    intro inside
    have := isNameChar_range inside
    omega
  · intro opened
    obtain rfl := Option.some.inj opened
    cases blank

theorem EndsWord.behind {blanks rest : List Char} (blank : Blanks blanks) (ends : EndsWord rest) :
    EndsWord (blanks ++ rest) := by
  cases blanks with
  | nil => exact ends
  | cons c cs => exact endsWord_blank (blank c List.mem_cons_self) _

theorem endsWord_symbol (op : BinaryOp) (rest : List Char) : EndsWord (op.symbol :: rest) := by
  cases op <;> exact ⟨ends_cons.mpr (by decide), by simp [BinaryOp.symbol]⟩

theorem operator?_behind {blanks : List Char} (operators : List BinaryOp) {c : Char}
    (rest : List Char) (blank : Blanks blanks) (solid : Text.isBlank c = false) :
    operator? operators (blanks ++ c :: rest) =
      (operators.find? fun op => op.symbol = c).map fun op => (op, Text.skipBlanks rest) := by
  rw [operator?, skipBlanks_append _ blank, Text.skipBlanks_cons_solid rest solid]

/-- No chain of the tiers goes on with the text. -/
def Quiet (tiers : List (List BinaryOp)) (rest : List Char) : Prop :=
  ∀ operators ∈ tiers, operator? operators rest = none

theorem quiet_blanks {blanks : List Char} (tiers : List (List BinaryOp)) (blank : Blanks blanks) :
    Quiet tiers blanks := by
  intro operators _
  rw [operator?, skipBlanks_blanks blank]

theorem quiet_behind {blanks : List Char} {tiers : List (List BinaryOp)} {c : Char}
    (rest : List Char) (blank : Blanks blanks) (solid : Text.isBlank c = false)
    (foreign : ∀ operators ∈ tiers, ∀ op ∈ operators, op.symbol ≠ c) :
    Quiet tiers (blanks ++ c :: rest) := by
  intro operators member
  rw [operator?_behind operators rest blank solid]
  simpa using foreign operators member

end Phrasebook.Formula
