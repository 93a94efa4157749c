import Phrasebook.Format.Registry

/-!
What the text of a number consists of. Whatever format is asked for, the usual registry writes a
number with letters, digits and a few signs, so it can never be taken for a tag.
-/

namespace Phrasebook

def figureSigns : List Char := ['-', '+', '.', ',', ' ', '%', FormatHandler.permilleSign]

def isFigure (c : Char) : Bool := c.isAlphanum || figureSigns.contains c

def Figures (text : List Char) : Prop := ∀ c ∈ text, isFigure c = true

instance (text : List Char) : Decidable (Figures text) :=
  decidable_of_iff (text.all isFigure = true) List.all_eq_true

namespace Figures

variable {first second : List Char} {c : Char}

theorem nil : Figures [] := List.forall_mem_nil _

theorem cons (figure : isFigure c = true) (later : Figures first) : Figures (c :: first) :=
  List.forall_mem_cons.mpr ⟨figure, later⟩

theorem append (left : Figures first) (right : Figures second) : Figures (first ++ second) :=
  List.forall_mem_append.mpr ⟨left, right⟩

theorem of_subset (whole : Figures second) (part : first ⊆ second) : Figures first :=
  fun c member => whole c (part member)

theorem not_mem (figures : Figures first) (foreign : isFigure c = false) : c ∉ first :=
  fun member => absurd (figures c member) (by simp [foreign])

end Figures

namespace Decimal

theorem figures_toDigits (number : Nat) : Figures (Nat.toDigits 10 number) := by
  intro c member
  have digit := Nat.isDigit_of_mem_toDigits (by decide) (by decide) member
  simp [isFigure, Char.isAlphanum, digit]

theorem figures_zeros (count : Nat) : Figures (zeros count) := by
  intro c member
  rw [List.eq_of_mem_replicate member]
  rfl

theorem figures_signed (negative : Bool) {body : List Char} (figures : Figures body) :
    Figures (signed negative body) := by
  cases negative with
  | false => exact figures
  | true => exact .cons rfl figures

theorem figures_withPoint {digits : List Char} (figures : Figures digits) (places : Nat) :
    Figures (withPoint digits places) := by
  have padded : Figures (zeros (places + 1 - digits.length) ++ digits) :=
    (figures_zeros _).append figures
  unfold withPoint
  simp only
  split
  · exact padded
  · exact (padded.of_subset (List.take_subset ..)).append
      (.cons rfl (padded.of_subset (List.drop_subset ..)))

theorem figures_fixed (number : Float) (places : Nat) : Figures (fixed number places) := by
  unfold fixed
  split
  · decide
  · exact figures_signed _ (by decide)
  · exact figures_signed _ (figures_withPoint (figures_toDigits _) places)

theorem figures_scientific (number : Float) (places : Nat) {letter : Char}
    (figure : isFigure letter = true) : Figures (scientific number places letter) := by
  have exponentText (exponent : Int) : Figures
      ((if exponent < 0 then '-' else '+') ::
        zeros (3 - (Nat.toDigits 10 exponent.natAbs).length) ++
          Nat.toDigits 10 exponent.natAbs) := by
    refine .append (.cons ?_ (figures_zeros _)) (figures_toDigits _)
    split <;> rfl
  have mantissaText (mantissa : Nat) (exponent : Int) :
      Figures (scientificParts mantissa exponent places).1 := by
    unfold scientificParts
    split
    · exact figures_withPoint (figures_zeros _) places
    · exact figures_withPoint ((figures_toDigits _).of_subset (List.take_subset ..)) places
  unfold scientific
  simp only
  split
  · exact .append (.cons rfl (.cons rfl (.cons rfl (.cons figure .nil)))) (exponentText 0)
  · refine .append (figures_signed _ ?_) (exponentText 0)
    exact .cons rfl (.cons rfl (.cons rfl (.cons figure .nil)))
  · exact figures_signed _ ((mantissaText _ _).append (.cons figure (exponentText _)))

theorem figures_shortest (tie : Tie) (mantissa : Nat) (exponent : Int) :
    Figures (shortest tie mantissa exponent).digits := by
  unfold shortest
  split
  · exact .nil
  · simp only
    split
    · exact .nil
    · rename_i point place _
      refine (figures_toDigits point).of_subset fun c member => ?_
      exact List.mem_reverse.mp ((List.dropWhile_sublist _).subset (List.mem_reverse.mp member))

theorem figures_positional {number : Digits} (figures : Figures number.digits) :
    Figures number.positional := by
  unfold Digits.positional
  split
  · decide
  · split
    · exact .cons rfl (.cons rfl ((figures_zeros _).append figures))
    · simp only
      split
      · exact figures.append (figures_zeros _)
      · exact (figures.of_subset (List.take_subset ..)).append
          (.cons rfl (figures.of_subset (List.drop_subset ..)))

theorem figures_plain (number : Float) : Figures (plain number).toList := by
  unfold plain
  split
  · decide
  · rw [String.toList_ofList]
    exact figures_signed _ (by decide)
  · rw [String.toList_ofList]
    exact figures_signed _ (figures_positional (figures_shortest _ _ _))

end Decimal

open Decimal

namespace Format

theorem figures_groupDigits {digits : List Char} (figures : Figures digits) :
    Figures (groupDigits digits) := by
  fun_induction groupDigits digits with
  | case1 => exact .nil
  | case2 c => exact figures
  | case3 c cs _ _ ih =>
      obtain ⟨first, later⟩ := List.forall_mem_cons.mp figures
      exact .cons first (.cons rfl (ih later))
  | case4 c cs _ _ ih =>
      obtain ⟨first, later⟩ := List.forall_mem_cons.mp figures
      exact .cons first (ih later)

theorem figures_groupThousands {text : List Char} (figures : Figures text) :
    Figures (groupThousands text) := by
  unfold groupThousands
  split
  rename_i sign magnitude parts
  have pieces : Figures sign ∧ Figures magnitude := by
    split at parts
    · obtain ⟨rfl, rfl⟩ := Prod.mk.inj parts
      obtain ⟨first, later⟩ := List.forall_mem_cons.mp figures
      exact ⟨by decide, later⟩
    · obtain ⟨rfl, rfl⟩ := Prod.mk.inj parts
      exact ⟨.nil, figures⟩
  have grouped := figures_groupDigits
    (pieces.2.of_subset (List.takeWhile_sublist (· != '.')).subset)
  exact (pieces.1.append grouped).append
    (pieces.2.of_subset (List.dropWhile_sublist (· != '.')).subset)

theorem figures_wholeDigits (number : Float) (width : Nat) :
    Figures (wholeDigits number width) := by
  unfold wholeDigits
  split
  · exact figures_signed _ ((figures_zeros _).append (figures_toDigits _))
  · exact .nil

theorem figures_standard? {number : Float} {spec text : List Char}
    (answered : standard? number spec = some text) : Figures text := by
  unfold standard? at answered
  split at answered
  · cases answered
  · rename_i letter digits
    split at answered
    · obtain ⟨places, _, rfl⟩ := Option.map_eq_some_iff.mp answered
      exact figures_fixed number places
    · split at answered
      · obtain ⟨places, _, rfl⟩ := Option.map_eq_some_iff.mp answered
        exact figures_groupThousands (figures_fixed number places)
      · split at answered
        · split at answered
          · obtain ⟨width, _, rfl⟩ := Option.map_eq_some_iff.mp answered
            exact figures_wholeDigits number width
          · cases answered
        · split at answered
          · obtain ⟨places, _, rfl⟩ := Option.map_eq_some_iff.mp answered
            exact (figures_fixed _ places).append (by decide)
          · split at answered
            · rename_i letters
              obtain ⟨places, _, rfl⟩ := Option.map_eq_some_iff.mp answered
              refine figures_scientific number places ?_
              simp only [Bool.or_eq_true, decide_eq_true_eq] at letters
              obtain rfl | rfl := letters <;> rfl
            · cases answered

end Format

namespace FormatHandler

theorem figures_permilleText? {number : Float} {spec : List Char} {text : String}
    (answered : permilleText? number spec = some text) : Figures text.toList := by
  unfold permilleText? at answered
  split at answered
  · cases answered
  · split at answered
    · obtain ⟨places, _, rfl⟩ := Option.map_eq_some_iff.mp answered
      rw [String.toList_ofList]
      exact (figures_fixed _ places).append (by decide)
    · cases answered

theorem unit_scaleBytes (number : Float) (unit : String) (larger : List String) :
    (scaleBytes number unit larger).2 ∈ unit :: larger := by
  induction larger generalizing number unit with
  | nil => exact List.mem_cons_self
  | cons next larger ih =>
      unfold scaleBytes
      split
      · exact List.mem_cons_of_mem _ (ih _ next)
      · exact List.mem_cons_self

theorem figures_byteSizeText? {number : Float} {spec : List Char} {text : String}
    (answered : byteSizeText? number spec = some text) : Figures text.toList := by
  unfold byteSizeText? at answered
  split at answered
  · obtain ⟨places, _, rfl⟩ := Option.map_eq_some_iff.mp answered
    have units : ∀ unit ∈ smallestUnit :: largerUnits, Figures unit.toList := by decide
    have unit := units _ (unit_scaleBytes number smallestUnit largerUnits)
    simp only [String.toList_append, String.toList_ofList]
    exact ((figures_fixed _ _).append (by decide)).append unit
  · cases answered

theorem figures_showSign {body : String} (figures : Figures body.toList) :
    Figures (showSign body).toList := by
  unfold showSign
  split
  · exact figures
  · rw [String.toList_append]
    exact .append (by decide) figures

variable {number : Float} {spec : List Char} {afterSign : Unit → Except String String}
  {text : String}

theorem figures_answer {handler : FormatHandler}
    (usual : handler ∈ FormatRegistry.defaults.handlers)
    (signed : ∀ body, afterSign () = .ok body → Figures body.toList)
    (answered : handler.answer number spec afterSign = .ok (some text)) : Figures text.toList := by
  cases handler with
  | signed =>
      simp only [answer] at answered
      split at answered
      · cases reply : afterSign () with
        | error message => simp [reply, Except.map] at answered
        | ok body =>
            simp only [reply, Except.map, Except.ok.injEq, Option.some.injEq] at answered
            rw [← answered]
            exact figures_showSign (signed body reply)
      · cases answered
  | permille => exact figures_permilleText? (Except.ok.inj answered)
  | byteSize => exact figures_byteSizeText? (Except.ok.inj answered)
  | custom reply => simp [FormatRegistry.defaults] at usual

theorem figures_firstAnswer {handlers : List FormatHandler}
    (usual : ∀ handler ∈ handlers, handler ∈ FormatRegistry.defaults.handlers)
    (signed : ∀ body, afterSign () = .ok body → Figures body.toList)
    (answered : firstAnswer number spec afterSign handlers = .ok (some text)) :
    Figures text.toList := by
  induction handlers with
  | nil => cases answered
  | cons handler later ih =>
      obtain ⟨first, others⟩ := List.forall_mem_cons.mp usual
      unfold firstAnswer at answered
      split at answered
      · cases answered
      · rename_i reply
        cases answered
        exact figures_answer first signed reply
      · exact ih others answered

end FormatHandler

theorem FormatRegistry.figures_formatList {number : Float} {spec : List Char} {text : String}
    (formatted : defaults.formatList number spec = .ok text) : Figures text.toList := by
  -- The text of a number in the usual registry, whatever the format. By induction on the format: a
  -- plus sign asks for the rest of it.
  induction spec generalizing text with
  | nil =>
      obtain rfl := Except.ok.inj formatted
      exact figures_plain number
  | cons c rest ih =>
      unfold formatList at formatted
      split at formatted
      · cases formatted
      · rename_i reply
        obtain rfl := Except.ok.inj formatted
        exact FormatHandler.figures_firstAnswer (fun _ member => member) (fun _ => ih) reply
      · split at formatted
        · rename_i answered
          obtain rfl := Except.ok.inj formatted
          rw [String.toList_ofList]
          exact Format.figures_standard? answered
        · obtain rfl := Except.ok.inj formatted
          exact figures_plain number

theorem Value.figures_display {value : Value} (numeric : value.isNumeric = true) :
    Figures value.display.toList := by
  cases value with
  | text content => cases numeric
  | real number => exact figures_plain number
  | integer number =>
      rw [display, Int.toString_eq_repr, Int.repr_eq_if]
      split
      · rw [Nat.toList_repr]
        exact figures_toDigits _
      · rw [String.toList_append, Nat.toList_repr]
        exact .append (by decide) (figures_toDigits _)

/-- A value is written with figures in the usual registry unless it is a text, which stays as it
is. -/
theorem FormatRegistry.figures_formatValue {value : Value} {spec : Option String} {text : String}
    (formatted : defaults.formatValue value spec = .ok text) :
    value = .text text ∨ Figures text.toList := by
  unfold formatValue at formatted
  split at formatted
  · exact .inr (figures_formatList formatted)
  · obtain rfl := Except.ok.inj formatted
    cases value with
    | text content => exact .inl rfl
    | integer number => exact .inr (Value.figures_display rfl)
    | real number => exact .inr (Value.figures_display rfl)

end Phrasebook
