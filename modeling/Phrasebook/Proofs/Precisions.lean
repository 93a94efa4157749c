import Phrasebook.Format.Registry
import Phrasebook.Proofs.Lexemes

/-!
Which formats the usual registry knows. A format is a mark that names a style, and a precision
behind it. Nothing stands for the usual precision of the style; else digits are read, and a plus
sign in front of them is passed over. With any other text behind its mark, or where the style does
not suit the number, the number is written plainly.
-/

namespace Phrasebook

namespace Decimal

def Whole (number : Float) : Prop :=
  match Binary.ofFloat number with
  | .finite _ mantissa exponent =>
      (Ratio.ofBinary mantissa exponent).denominator ∣ (Ratio.ofBinary mantissa exponent).numerator
  | _ => False

theorem isIntegral_iff (number : Float) :
    (Binary.ofFloat number).isIntegral = true ↔ Whole number := by
  unfold Whole Binary.isIntegral
  cases Binary.ofFloat number with
  | notANumber => exact iff_of_false Bool.false_ne_true id
  | infinite negative => exact iff_of_false Bool.false_ne_true id
  | finite negative mantissa exponent =>
      simp only [Ratio.isIntegral, decide_eq_true_eq, Nat.dvd_iff_mod_eq_zero]

end Decimal

namespace Format

/-- No text, or digits that denote at most the largest precision. -/
inductive States (usual : Nat) : List Char → Nat → Prop
  | unstated : States usual [] usual
  | digits {suffix : List Char} (digits : Formula.Digits suffix)
      (small : Decimal.ofDigits suffix ≤ maxPrecision) :
      States usual suffix (Decimal.ofDigits suffix)

/-- A precision with or without a plus sign in front of its digits. -/
inductive Accepts (usual : Nat) : List Char → Nat → Prop
  | unsigned {suffix : List Char} {places : Nat} (states : States usual suffix places) :
      Accepts usual suffix places
  | signed {digits : List Char} {places : Nat} (nonempty : digits ≠ [])
      (states : States usual digits places) : Accepts usual ('+' :: digits) places

section

variable {usual places : Nat} {digits suffix : List Char}

theorem natural?_within_iff (nonempty : digits ≠ []) :
    (Decimal.natural? digits).filter (· ≤ maxPrecision) = some places ↔
      States usual digits places := by
  rw [Option.filter_eq_some_iff, Decimal.natural?_eq_some_iff, decide_eq_true_eq]
  constructor
  · rintro ⟨⟨-, within, rfl⟩, small⟩
    exact .digits ⟨nonempty, within⟩ small
  · intro states
    cases states with
    | unstated => exact absurd rfl nonempty
    | digits digits small => exact ⟨⟨digits.1, digits.2, rfl⟩, small⟩

theorem States.head_ne_plus (states : States usual suffix places) : suffix.head? ≠ some '+' := by
  cases states with
  | unstated => exact nofun
  | digits digits small => simpa using digits.head_ne [] '+' (by decide)

theorem precision?_eq_some_iff (usual : Nat) (suffix : List Char) (places : Nat) :
    precision? usual suffix = some places ↔ Accepts usual suffix places := by
  unfold precision?
  split
  · rename_i empty
    obtain rfl := List.isEmpty_iff.mp empty
    constructor
    · intro same
      obtain rfl := Option.some.inj same
      exact .unsigned .unstated
    · intro accepts
      cases accepts with
      | unsigned states =>
          cases states with
          | unstated => rfl
          | digits digits small => exact absurd rfl digits.1
  · rename_i nonempty
    rw [List.isEmpty_iff] at nonempty
    unfold Decimal.unsigned?
    split
    · rename_i digits
      by_cases bare : digits = []
      · subst bare
        refine iff_of_false nofun fun accepts => ?_
        cases accepts with
        | unsigned states => exact states.head_ne_plus rfl
        | signed nonempty states => exact nonempty rfl
      · rw [natural?_within_iff bare]
        constructor
        · exact .signed bare
        · intro accepts
          cases accepts with
          | unsigned states => exact absurd rfl states.head_ne_plus
          | signed nonempty states => exact states
    · rename_i unsigned
      rw [natural?_within_iff nonempty]
      constructor
      · exact .unsigned
      · intro accepts
        cases accepts with
        | unsigned states => exact states
        | signed nonempty states => exact absurd rfl (unsigned _)

end

/-- The ways to write a number that take a precision. -/
inductive Style where
  | fixed
  | grouped
  | whole
  | percent
  | scientific (capital : Bool)
  | permille
  | bytes

namespace Style

def marks : Style → List (List Char)
  | fixed => [['F'], ['f']]
  | grouped => [['N'], ['n']]
  | whole => [['D'], ['d']]
  | percent => [['P'], ['p']]
  | scientific true => [['E']]
  | scientific false => [['e']]
  | permille => [[FormatHandler.permilleSign]]
  | bytes => [['b', 'y', 't', 'e', 's']]

def usual : Style → Nat
  | fixed => 2
  | grouped => 2
  | whole => 0
  | percent => 2
  | scientific _ => 6
  | permille => 0
  | bytes => 1

def Suits : Style → Float → Prop
  | whole, number => Decimal.Whole number
  | _, _ => True

/-- The number in the style, where the precision is a number of places or the width. -/
def text (number : Float) (places : Nat) : Style → List Char
  | fixed => Decimal.fixed number places
  | grouped => groupThousands (Decimal.fixed number places)
  | whole => wholeDigits number places
  | percent => Decimal.fixed (number * 100.0) places ++ [' ', '%']
  | scientific true => Decimal.scientific number places 'E'
  | scientific false => Decimal.scientific number places 'e'
  | permille => Decimal.fixed (number * 1000.0) places ++ [FormatHandler.permilleSign]
  | bytes =>
      let (scaled, unit) := FormatHandler.scaleBytes number FormatHandler.smallestUnit
        FormatHandler.largerUnits
      Decimal.fixed scaled (if unit = FormatHandler.smallestUnit then 0 else places) ++
        ' ' :: unit.toList

end Style

end Format

namespace FormatRegistry

open Format

def standardOrPlain (number : Float) (spec : List Char) : String :=
  ((standard? number spec).map String.ofList).getD (Decimal.plain number)

theorem formatList_lettered {letter : Char}
    (unhandled : letter ∉ ['+', FormatHandler.permilleSign, 'b']) (number : Float)
    (suffix : List Char) :
    defaults.formatList number (letter :: suffix) =
      .ok (standardOrPlain number (letter :: suffix)) := by
  simp only [List.mem_cons, List.not_mem_nil, or_false, not_or] at unhandled
  obtain ⟨unsigned, unscaled, other⟩ := unhandled
  have unanswered : FormatHandler.firstAnswer number (letter :: suffix)
      (fun _ => defaults.formatList number suffix) defaults.handlers = .ok none := by
    simp [defaults, FormatHandler.firstAnswer, FormatHandler.answer, FormatHandler.permilleText?,
      FormatHandler.byteSizeText?, unsigned, unscaled, other]
  rw [formatList, unanswered, standardOrPlain]
  cases standard? number (letter :: suffix) <;> rfl

/-- What is written if the style suits the number: the text of the style if there is a precision
behind the mark. -/
def styledOrPlain (style : Style) (number : Float) (suffix : List Char) : String :=
  ((precision? style.usual suffix).map fun places => String.ofList (style.text number places)).getD
    (Decimal.plain number)

variable {style : Style} {mark : List Char} {number : Float} {suffix : List Char}

theorem formatList_letter {letter : Char}
    (unhandled : letter ∉ ['+', FormatHandler.permilleSign, 'b'])
    (answered : standard? number (letter :: suffix) =
      (precision? style.usual suffix).map fun places => style.text number places) :
    defaults.formatList number ([letter] ++ suffix) = .ok (styledOrPlain style number suffix) := by
  rw [List.singleton_append, formatList_lettered unhandled, standardOrPlain, answered,
    Option.map_map]
  rfl

theorem formatList_permille (number : Float) (suffix : List Char) :
    defaults.formatList number (FormatHandler.permilleSign :: suffix) =
      .ok (styledOrPlain .permille number suffix) := by
  have unknown : standard? number (FormatHandler.permilleSign :: suffix) = none := rfl
  rw [formatList, unknown]
  simp only [defaults, FormatHandler.firstAnswer, FormatHandler.answer, FormatHandler.permilleText?,
    styledOrPlain, Style.usual, Style.text]
  cases precision? 0 suffix <;> rfl

theorem formatList_bytes (number : Float) (suffix : List Char) :
    defaults.formatList number ('b' :: 'y' :: 't' :: 'e' :: 's' :: suffix) =
      .ok (styledOrPlain .bytes number suffix) := by
  have unknown : standard? number ('b' :: 'y' :: 't' :: 'e' :: 's' :: suffix) = none := rfl
  have answered : FormatHandler.byteSizeText? number ('b' :: 'y' :: 't' :: 'e' :: 's' :: suffix) =
      (precision? 1 suffix).map fun places => String.ofList (Style.text number places .bytes) := by
    simp only [FormatHandler.byteSizeText?, Style.text, String.ofList_append, String.ofList_cons,
      String.ofList_toList, String.append_assoc]
    rfl
  rw [formatList, unknown]
  simp only [defaults, FormatHandler.firstAnswer, FormatHandler.answer, answered, styledOrPlain,
    Style.usual]
  cases precision? 1 suffix <;> rfl

theorem formatList_suited (asked : mark ∈ style.marks) (suits : style.Suits number) :
    defaults.formatList number (mark ++ suffix) = .ok (styledOrPlain style number suffix) := by
  cases style with
  | permille =>
      obtain rfl := List.mem_singleton.mp asked
      exact formatList_permille number suffix
  | bytes =>
      obtain rfl := List.mem_singleton.mp asked
      exact formatList_bytes number suffix
  | whole =>
      have integral := (Decimal.isIntegral_iff number).mpr suits
      have answered (letter : Char) (either : letter = 'D' ∨ letter = 'd') :
          standard? number (letter :: suffix) = (precision? 0 suffix).map (wholeDigits number) := by
        rcases either with rfl | rfl <;> simp [standard?, integral]
      simp only [Style.marks, List.mem_cons, List.not_mem_nil, or_false] at asked
      rcases asked with rfl | rfl
      · exact formatList_letter (by decide) (answered 'D' (.inl rfl))
      · exact formatList_letter (by decide) (answered 'd' (.inr rfl))
  | scientific capital =>
      cases capital <;> obtain rfl := List.mem_singleton.mp asked <;>
        exact formatList_letter (by decide) rfl
  | fixed | grouped | percent =>
      simp only [Style.marks, List.mem_cons, List.not_mem_nil, or_false] at asked
      rcases asked with rfl | rfl <;> exact formatList_letter (by decide) rfl

theorem formatList_unsuited (asked : mark ∈ style.marks) (unsuited : ¬ style.Suits number) :
    defaults.formatList number (mark ++ suffix) = .ok (Decimal.plain number) := by
  cases style with
  | whole =>
      have fractional : (Decimal.Binary.ofFloat number).isIntegral = false := by
        rw [← Bool.not_eq_true, Decimal.isIntegral_iff]
        exact unsuited
      have unanswered (letter : Char) (either : letter = 'D' ∨ letter = 'd') :
          defaults.formatList number ([letter] ++ suffix) = .ok (Decimal.plain number) := by
        have unhandled : letter ∉ ['+', FormatHandler.permilleSign, 'b'] := by
          rcases either with rfl | rfl <;> decide
        have unknown : standard? number (letter :: suffix) = none := by
          rcases either with rfl | rfl <;> simp [standard?, fractional]
        rw [List.singleton_append, formatList_lettered unhandled, standardOrPlain, unknown]
        rfl
      simp only [Style.marks, List.mem_cons, List.not_mem_nil, or_false] at asked
      rcases asked with rfl | rfl
      · exact unanswered 'D' (.inl rfl)
      · exact unanswered 'd' (.inr rfl)
  | _ => exact absurd trivial unsuited

theorem format_accepted (asked : mark ∈ style.marks) (suits : style.Suits number) {places : Nat}
    (accepts : Accepts style.usual suffix places) :
    defaults.format number (String.ofList (mark ++ suffix)) =
      .ok (String.ofList (style.text number places)) := by
  have known := (precision?_eq_some_iff style.usual suffix places).mpr accepts
  rw [format, String.toList_ofList, formatList_suited asked suits, styledOrPlain, known]
  rfl

theorem format_refused (asked : mark ∈ style.marks)
    (refused : ¬ style.Suits number ∨ ∀ places, ¬ Accepts style.usual suffix places) :
    defaults.format number (String.ofList (mark ++ suffix)) = .ok (Decimal.plain number) := by
  rw [format, String.toList_ofList]
  by_cases suits : style.Suits number
  · have unknown : precision? style.usual suffix = none := by
      refine Option.eq_none_iff_forall_ne_some.mpr fun places known => ?_
      exact refused.resolve_left (not_not_intro suits) places
        ((precision?_eq_some_iff style.usual suffix places).mp known)
    rw [formatList_suited asked suits, styledOrPlain, unknown]
    rfl
  · exact formatList_unsuited asked suits

/-- Behind the mark of a style the registry reads nothing or a precision, and then the number is
written in the style if that suits it. Otherwise the number is written plainly. A precision is
digits that denote at most twenty; the only other texts that are read are those with a plus sign in
front of such digits. -/
theorem specs_recognized (asked : mark ∈ style.marks) (number : Float) (suffix : List Char) :
    (∀ places, style.Suits number → Accepts style.usual suffix places →
        defaults.format number (String.ofList (mark ++ suffix)) =
          .ok (String.ofList (style.text number places))) ∧
      (¬ style.Suits number ∨ (∀ places, ¬ Accepts style.usual suffix places) →
        defaults.format number (String.ofList (mark ++ suffix)) = .ok (Decimal.plain number)) ∧
      (suffix.head? ≠ some '+' → ∀ places,
        Accepts style.usual suffix places ↔ States style.usual suffix places) := by
  refine ⟨fun places suits accepts => format_accepted asked suits accepts, format_refused asked,
    fun unsigned places => ?_⟩
  constructor
  · intro accepts
    cases accepts with
    | unsigned states => exact states
    | signed nonempty states => exact absurd rfl unsigned
  · exact .unsigned

theorem specs_recognized_padded :
    ['D'] ∈ Style.whole.marks ∧ Style.whole.Suits (-7.0) ∧ Accepts 0 ['0', '3'] 3 ∧
      defaults.format (-7.0) "D03" = .ok "-007" ∧ ¬ Style.whole.Suits 7.5 ∧
      defaults.format 7.5 "D03" = .ok "7.5" := by
  have asked : ['D'] ∈ Style.whole.marks := List.mem_cons_self
  have suits : Decimal.Whole (-7.0) := (Decimal.isIntegral_iff (-7.0)).mp (by decide +kernel)
  have unsuited : ¬ Decimal.Whole 7.5 := fun whole =>
    absurd ((Decimal.isIntegral_iff 7.5).mpr whole) (by decide +kernel)
  have accepts : Accepts 0 ['0', '3'] 3 := (precision?_eq_some_iff 0 ['0', '3'] 3).mp rfl
  exact ⟨asked, suits, accepts, (specs_recognized asked (-7.0) ['0', '3']).1 3 suits accepts,
    unsuited, (specs_recognized asked 7.5 ['0', '3']).2.1 (.inl unsuited)⟩

/-- A plus sign is no digit, and yet three places are shown. -/
theorem plus_sign_read :
    (∀ places, ¬ States Style.fixed.usual ['+', '3'] places) ∧
      defaults.format 0.5 "F+3" = .ok "0.500" ∧ Decimal.plain 0.5 = "0.5" :=
  ⟨fun _ states => states.head_ne_plus rfl, rfl, rfl⟩

end FormatRegistry

end Phrasebook
