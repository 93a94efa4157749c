import Phrasebook.Format.Registry
import Phrasebook.Proofs.Widening

/-!
How integers are written. An integer is widened before a format is looked at, and a format that
nobody knows writes the widened number plainly. Up to 53 bits that is the integer digit for digit:
the first decimal grid that meets the interval around it has the integer itself on it. Beyond, an
integer loses digits as soon as it loses bits.
-/

namespace Phrasebook

namespace Decimal

theorem dropTrailingZeros_append (digits : List Char) :
    dropTrailingZeros digits ++ zeros (digits.length - (dropTrailingZeros digits).length) =
      digits := by
  have dropped : digits.reverse.takeWhile (· = '0') =
      zeros (digits.reverse.takeWhile (· = '0')).length := by
    refine List.eq_replicate_iff.mpr ⟨rfl, fun c member => ?_⟩
    simpa using List.all_eq_true.mp List.all_takeWhile c member
  have whole : digits.reverse.takeWhile (· = '0') ++ digits.reverse.dropWhile (· = '0') =
      digits.reverse := List.takeWhile_append_dropWhile
  have split : digits =
      dropTrailingZeros digits ++ (digits.reverse.takeWhile (· = '0')).reverse := by
    rw [dropTrailingZeros, ← List.reverse_append, whole, List.reverse_reverse]
  have count : digits.length - (dropTrailingZeros digits).length =
      (digits.reverse.takeWhile (· = '0')).length := by
    have lengths := congrArg List.length split
    rw [List.length_append, List.length_reverse] at lengths
    omega
  rw [count, zeros, ← List.reverse_replicate, ← zeros, ← dropped]
  exact split.symm

theorem toDigits_mul_ten_pow {point : Nat} (positive : 0 < point) (place : Nat) :
    Nat.toDigits 10 (point * 10 ^ place) = Nat.toDigits 10 point ++ zeros place := by
  induction place with
  | zero => simp [zeros]
  | succ place ih =>
      have before : 0 < point * 10 ^ place := Nat.mul_pos positive (Nat.pow_pos (by decide))
      have longer : Nat.toDigits 10 (point * 10 ^ place) ++ Nat.toDigits 10 0 =
          Nat.toDigits 10 (10 * (point * 10 ^ place) + 0) :=
        Nat.toDigits_append_toDigits (by decide) before (by decide)
      have shifted : 10 * (point * 10 ^ place) + 0 = point * 10 ^ (place + 1) := by
        rw [Nat.add_zero, Nat.pow_succ, Nat.mul_comm, Nat.mul_assoc]
      rw [← shifted, ← longer, ih, Nat.toDigits_zero, List.append_assoc, zeros, zeros,
        List.replicate_succ']

theorem dropTrailingZeros_toDigits {point : Nat} (positive : 0 < point) :
    dropTrailingZeros (Nat.toDigits 10 point) ≠ [] := by
  intro none
  have digits := dropTrailingZeros_append (Nat.toDigits 10 point)
  rw [none, List.nil_append] at digits
  have value := Nat.ofDigitChars_ten_toDigits (n := point)
  rw [← digits, zeros, Nat.ofDigitChars_replicate_zero] at value
  omega

theorem positional_zeros {digits : List Char} (nonempty : digits ≠ []) (spare : Nat) :
    (Digits.mk digits (digits.length + spare : Nat)).positional = digits ++ zeros spare := by
  have some_digits : 0 < digits.length := List.length_pos_iff.mpr nonempty
  have above : ¬ ((digits.length + spare : Nat) : Int) ≤ 0 := by omega
  simp only [Digits.positional, List.isEmpty_iff, nonempty, above, if_false, Int.toNat_natCast,
    Nat.le_add_right, if_true, Nat.add_sub_cancel_left]

theorem positional_whole {point : Nat} (positive : 0 < point) (place : Nat) :
    (Digits.mk (dropTrailingZeros (Nat.toDigits 10 point))
      (place + (Nat.toDigits 10 point).length)).positional =
        Nat.toDigits 10 (point * 10 ^ place) := by
  generalize dropped_eq : dropTrailingZeros (Nat.toDigits 10 point) = dropped
  have nonempty : dropped ≠ [] := dropped_eq ▸ dropTrailingZeros_toDigits positive
  have split := dropTrailingZeros_append (Nat.toDigits 10 point)
  rw [dropped_eq] at split
  generalize (Nat.toDigits 10 point).length - dropped.length = spare at split
  have room : (place : Int) + (Nat.toDigits 10 point).length =
      (dropped.length + (spare + place) : Nat) := by
    rw [← split, List.length_append, zeros, List.length_replicate]
    omega
  rw [room, positional_zeros nonempty, toDigits_mul_ten_pow positive, ← split,
    List.append_assoc, zeros, zeros, zeros, List.replicate_append_replicate]

section

variable {number mantissa : Nat} {exponent : Int}

theorem floor_ofBinary (exact : Exactly number mantissa exponent) :
    (Ratio.ofBinary mantissa exponent).floor = number := by
  simp only [Ratio.floor, Ratio.ofBinary, Nat.pow_eq, exact.value]
  exact Nat.mul_div_cancel number (Nat.two_pow_pos _)

theorem isIntegral_ofBinary (exact : Exactly number mantissa exponent) :
    (Ratio.ofBinary mantissa exponent).isIntegral = true := by
  simp only [Ratio.isIntegral, Ratio.ofBinary, Nat.pow_eq, exact.value, Nat.mul_mod_left,
    decide_true]

theorem leadingPlace_ofBinary (exact : Exactly number mantissa exponent) :
    (Ratio.ofBinary mantissa exponent).leadingPlace = digitCount number := by
  have above : 2 ^ (-exponent).toNat ≤ number * 2 ^ (-exponent).toNat :=
    Nat.le_mul_of_pos_left _ exact.number_pos
  have floor := floor_ofBinary exact
  simp only [Ratio.ofBinary, Nat.pow_eq, exact.value] at floor ⊢
  simp only [Ratio.leadingPlace, above, if_true, floor]

theorem exponent_nonpos (exact : Exactly number mantissa exponent)
    (small : number < 2 ^ mantissaBits) : exponent ≤ 0 := by
  -- Below 2 ^ 53 the numbers that are widened are less than one apart.
  have log := (Nat.log2_lt (Nat.ne_of_gt exact.number_pos)).mpr small
  have exponent_eq := exact.exponent_eq
  simp only [mantissaBits] at log
  omega

/-- The interval is less than one long, so the number itself is its only integer. -/
theorem holds_around (exact : Exactly number mantissa exponent)
    (small : number < 2 ^ mantissaBits) (point place : Nat) :
    (Interval.around mantissa exponent).holds point place = true ↔
      point * 10 ^ place = number := by
  have nonpos := exponent_nonpos exact small
  have positive := pos_of_full exact.full
  obtain ⟨low, low_below, low_above, around⟩ : ∃ low,
      low < 4 * mantissa ∧ 4 * mantissa ≤ low + 2 ∧ Interval.around mantissa exponent =
        ⟨low, 4 * mantissa, 4 * mantissa + 2, exponent - 2, mantissa % 2 = 0⟩ := by
    refine ⟨_, ?_, ?_, rfl⟩
    all_goals split <;> omega
  have value := exact.value
  have whole : exponent.toNat = 0 := by omega
  rw [whole, Nat.pow_zero, Nat.mul_one] at value
  have quarters : (-(exponent - 2)).toNat = (-exponent).toNat + 2 := by omega
  have unit : (exponent - 2).toNat = 0 := by omega
  have none : (-(place : Int)).toNat = 0 := by omega
  rw [around]
  simp only [Interval.holds, Int.toNat_natCast, Nat.pow_eq, quarters, unit, none, Nat.pow_zero,
    Nat.mul_one]
  have scaled : point * 10 ^ place * 2 ^ ((-exponent).toNat + 2) =
      4 * (point * 10 ^ place * 2 ^ (-exponent).toNat) := by
    rw [Nat.pow_add, ← Nat.mul_assoc]
    omega
  have same : point * 10 ^ place = number ↔
      point * 10 ^ place * 2 ^ (-exponent).toNat = mantissa := by
    rw [value]
    exact (Nat.mul_left_inj (Nat.ne_of_gt (Nat.two_pow_pos _))).symm
  rw [scaled, same]
  split
  · simp only [Bool.and_eq_true, decide_eq_true_eq]
    omega
  · simp only [Bool.and_eq_true, decide_eq_true_eq]
    omega

theorem nearestOn_units (exact : Exactly number mantissa exponent)
    (small : number < 2 ^ mantissaBits) (tie : Tie) :
    nearestOn tie (Interval.around mantissa exponent) (0 : Nat) ≠ none := by
  -- On the grid of the units the search ends, because the number itself is on it.
  have nonpos := exponent_nonpos exact small
  have value := exact.value
  have whole : exponent.toNat = 0 := by omega
  rw [whole, Nat.pow_zero, Nat.mul_one] at value
  have floor : ((Ratio.ofBinary (4 * mantissa) (exponent - 2)).shift (-((0 : Nat) : Int))).floor =
      number := by
    have quarters : (-(exponent - 2)).toNat = (-exponent).toNat + 2 := by omega
    have unit : (exponent - 2).toNat = 0 := by omega
    have scaled : 4 * mantissa = number * 2 ^ ((-exponent).toNat + 2) := by
      rw [value, Nat.pow_add, ← Nat.mul_assoc number]
      omega
    simp only [Ratio.floor, Ratio.shift, Ratio.ofBinary, Nat.pow_eq, quarters, unit, scaled,
      Int.natCast_zero, Int.neg_zero, Int.toNat_zero, Nat.pow_zero, Nat.mul_one]
    exact Nat.mul_div_cancel number (Nat.two_pow_pos _)
  have found : (Interval.around mantissa exponent).holds number (0 : Nat) = true :=
    (holds_around exact small number 0).mpr (Nat.mul_one number)
  simp only [nearestOn, Interval.around] at floor found ⊢
  rw [floor, found]
  split <;> simp_all

/-- The grids become finer until one has the integer on it, at the latest that of the units. -/
theorem firstOn_around (exact : Exactly number mantissa exponent)
    (small : number < 2 ^ mantissaBits) (tie : Tie) (start steps : Nat) :
    ∃ point place : Nat, point * 10 ^ place = number ∧
      firstOn tie (Interval.around mantissa exponent) start (start + steps + 1) =
        some (point, (place : Int)) := by
  have on_grid : ∀ place point,
      nearestOn tie (Interval.around mantissa exponent) (place : Nat) = some point →
        point * 10 ^ place = number := fun place point found =>
    (holds_around exact small point place).mp (nearestOn_holds found)
  induction start with
  | zero =>
      obtain ⟨point, found⟩ := Option.ne_none_iff_exists'.mp (nearestOn_units exact small tie)
      exact ⟨point, 0, on_grid 0 point found, by rw [firstOn, found]⟩
  | succ start ih =>
      cases found : nearestOn tie (Interval.around mantissa exponent) (start + 1 : Nat) with
      | some point => exact ⟨point, start + 1, on_grid _ point found, by rw [firstOn, found]⟩
      | none =>
          obtain ⟨point, place, same, later⟩ := ih
          have finer : ((start + 1 : Nat) : Int) - 1 = start := by omega
          have fuel : start + 1 + steps = start + steps + 1 := by omega
          exact ⟨point, place, same, by rw [firstOn, found, finer, fuel]; exact later⟩

theorem positional_shortest (exact : Exactly number mantissa exponent)
    (small : number < 2 ^ mantissaBits) (tie : Tie) :
    (shortest tie mantissa exponent).positional = Nat.toDigits 10 number := by
  have digits_pos : 0 < digitCount number := Nat.length_toDigits_pos
  have digits_le : digitCount number ≤ 16 :=
    (Nat.length_toDigits_le_iff (by decide) (by decide)).mpr
      (Nat.lt_trans small (by decide))
  obtain ⟨point, place, rfl, found⟩ :=
    firstOn_around exact small tie (digitCount number - 1) (17 - digitCount number)
  have point_pos : 0 < point := Nat.pos_of_mul_pos_right exact.number_pos
  have nonzero : mantissa ≠ 0 := Nat.ne_of_gt (pos_of_full exact.full)
  have start : (digitCount (point * 10 ^ place) : Int) - 1 =
      (digitCount (point * 10 ^ place) - 1 : Nat) := by omega
  have steps : digitCount (point * 10 ^ place) - 1 + (17 - digitCount (point * 10 ^ place)) + 1 =
      17 := by omega
  rw [steps] at found
  simp only [shortest, nonzero, if_false, leadingPlace_ofBinary exact, start, found]
  exact positional_whole point_pos place

end

theorem toString_eq_signed (number : Int) :
    toString number =
      String.ofList (signed (number < 0) (Nat.toDigits 10 number.natAbs)) := by
  cases number with
  | ofNat number =>
      have positive : ¬ Int.ofNat number < 0 := Int.not_lt.mpr (Int.natCast_nonneg _)
      rw [decide_eq_false positive]
      exact Nat.toString_eq_ofList_toDigits
  | negSucc number =>
      have joined : String.ofList (['-'] ++ Nat.toDigits 10 number.succ) =
          "-" ++ toString number.succ := String.ofList_append
      rw [decide_eq_true (Int.negSucc_lt_zero number)]
      exact joined.symm

theorem signed_injective {negative : Bool} {first second : List Char}
    (same : signed negative first = signed negative second) : first = second := by
  cases negative with
  | false => exact same
  | true => exact List.cons.inj same |>.2

theorem toDigits_injective {first second : Nat}
    (same : Nat.toDigits 10 first = Nat.toDigits 10 second) : first = second := by
  have value := congrArg (Nat.ofDigitChars 10 · 0) same
  simpa using value

theorem ofFloat_zero : Binary.ofFloat (Float.ofInt 0) = .finite false 0 0 := by decide +kernel

theorem plain_ofInt {number : Int} (small : number.natAbs ≤ 2 ^ mantissaBits) :
    plain (Float.ofInt number) = toString number := by
  obtain less | largest := Nat.lt_or_eq_of_le small
  · by_cases zero : number = 0
    · rw [zero, plain, ofFloat_zero]
      rfl
    · have positive : 0 < number.natAbs := Int.natAbs_pos.mpr zero
      obtain ⟨mantissa, exponent, exact⟩ :=
        Exactly.of_representable positive (representable_of_le small)
      rw [plain, ofFloat_ofInt exact (Nat.lt_trans less (by decide)), toString_eq_signed]
      simp only [positional_shortest exact less]
  · -- above the last number the widened ones are two apart, so its interval is looked at itself
    have ends : number = 9007199254740992 ∨ number = -9007199254740992 := by
      simp only [mantissaBits] at largest
      omega
    obtain rfl | rfl := ends
    · decide +kernel
    · decide +kernel

end Decimal

namespace Format

theorem whole_ofInt {number : Int} (bounded : number.natAbs < 2 ^ 64) :
    ∃ value, Decimal.Representable value ∧
      (Decimal.Representable number.natAbs → value = number.natAbs) ∧
      standard? (Float.ofInt number) ['D'] =
        some (Decimal.signed (number < 0) (Nat.toDigits 10 value)) := by
  by_cases zero : number = 0
  · subst zero
    refine ⟨0, Decimal.representable_of_le (Nat.zero_le _), fun _ => rfl, ?_⟩
    simp only [standard?, Decimal.ofFloat_zero]
    rfl
  · obtain ⟨value, mantissa, exponent, exact, representable, kept, widened⟩ :=
      Decimal.ofFloat_ofInt_nonzero zero bounded
    have nonzero : mantissa ≠ 0 := Nat.ne_of_gt (Decimal.pos_of_full exact.full)
    refine ⟨value, representable, kept, ?_⟩
    simp [standard?, wholeDigits, widened, Decimal.Binary.isIntegral,
      Decimal.isIntegral_ofBinary exact, Decimal.floor_ofBinary exact, precision?, Decimal.zeros,
      nonzero]

end Format

namespace FormatRegistry

/-- No handler answers to the format, and it is no standard format of the number. -/
def PassesOver (registry : FormatRegistry) (number : Float) (spec : String) : Prop :=
  FormatHandler.firstAnswer number spec.toList
      (fun _ => registry.formatList number spec.toList.tail) registry.handlers = .ok none ∧
    Format.standard? number spec.toList = none

variable {registry : FormatRegistry} {number : Float} {spec : String}

theorem format_passedOver (passed : spec = "" ∨ registry.PassesOver number spec) :
    registry.format number spec = .ok (Decimal.plain number) := by
  obtain rfl | ⟨unanswered, unknown⟩ := passed
  · exact format_empty registry number
  · unfold format
    generalize spec.toList = letters at unanswered unknown
    cases letters with
    | nil => rfl
    | cons c rest =>
        rw [formatList]
        rw [List.tail_cons] at unanswered
        simp only [unanswered, unknown]

/-- The whole-number format keeps the digits of an integer just if the integer keeps its bits. -/
theorem format_whole_iff {number : Int} (bounded : number.natAbs < 2 ^ 64) :
    defaults.format (Float.ofInt number) "D" = .ok (toString number) ↔
      Decimal.Representable number.natAbs := by
  obtain ⟨value, representable, kept, known⟩ := Format.whole_ofInt bounded
  have unanswered : FormatHandler.firstAnswer (Float.ofInt number) ['D']
      (fun _ => defaults.formatList (Float.ofInt number) []) defaults.handlers = .ok none := rfl
  have written : defaults.format (Float.ofInt number) "D" =
      .ok (String.ofList (Decimal.signed (number < 0) (Nat.toDigits 10 value))) := by
    change defaults.formatList (Float.ofInt number) ['D'] = _
    rw [formatList, unanswered]
    simp only [known]
  rw [written, Decimal.toString_eq_signed]
  constructor
  · intro same
    have digits := Decimal.signed_injective (String.ofList_injective (Except.ok.inj same))
    exact Decimal.toDigits_injective digits ▸ representable
  · intro fits
    rw [kept fits]

theorem passesOver_whatever (number : Float) : defaults.PassesOver number "whatever" :=
  ⟨rfl, rfl⟩

/-- An integer is written alike in all formats that fall through, and up to 53 bits with its own
digits. As a whole number it keeps its digits just if no bit is lost. -/
theorem digits_kept (number : Int64) :
    defaults.formatValue (.integer number) none = .ok (toString number.toInt) ∧
    (defaults.formatValue (.integer number) (some "D") =
        defaults.formatValue (.integer number) none ↔
      Decimal.Representable number.toInt.natAbs) ∧
    ∀ spec, spec = "" ∨ defaults.PassesOver (Float.ofInt number.toInt) spec →
      defaults.formatValue (.integer number) (some spec) =
        defaults.formatValue (.integer number) (some "") ∧
      (number.toInt.natAbs ≤ 2 ^ Decimal.mantissaBits →
        defaults.formatValue (.integer number) (some spec) =
          defaults.formatValue (.integer number) none) := by
  have bounded : number.toInt.natAbs < 2 ^ 64 := by
    have least := number.le_toInt
    have largest := number.toInt_lt
    omega
  refine ⟨rfl, format_whole_iff bounded, fun spec passed => ?_⟩
  have plainly : defaults.formatValue (.integer number) (some spec) =
      .ok (Decimal.plain (Float.ofInt number.toInt)) := format_passedOver passed
  refine ⟨plainly.trans (format_passedOver (.inl rfl)).symm, fun small => ?_⟩
  rw [plainly, Decimal.plain_ofInt small]
  rfl

theorem digits_kept_negative :
    (-42 : Int64).toInt.natAbs ≤ 2 ^ Decimal.mantissaBits ∧
    defaults.formatValue (.integer (-42)) (some "whatever") = .ok "-42" ∧
    Decimal.Representable (-1152921504606846976 : Int64).toInt.natAbs ∧
    defaults.formatValue (.integer (-1152921504606846976)) (some "D") =
      .ok "-1152921504606846976" := by
  have small : (-42 : Int64).toInt.natAbs ≤ 2 ^ Decimal.mantissaBits := by decide
  have power : Decimal.Representable (-1152921504606846976 : Int64).toInt.natAbs :=
    ⟨1, 60, by decide, by decide⟩
  have passed := (digits_kept (-42)).2.2 "whatever" (.inr (passesOver_whatever _))
  exact ⟨small, passed.2 small, power, (digits_kept (-1152921504606846976)).2.1.mpr power⟩

/-- One above the safe range the widened number is one less, and every format shows that one. -/
theorem digits_lost :
    defaults.PassesOver (Float.ofInt (9007199254740993 : Int64).toInt) "whatever" ∧
    [some "", some "whatever", some "D", none].map
        (defaults.formatValue (.integer 9007199254740993)) =
      [.ok "9007199254740992", .ok "9007199254740992", .ok "9007199254740992",
        .ok "9007199254740993"] := by
  refine ⟨passesOver_whatever _, ?_⟩
  rfl

end FormatRegistry

end Phrasebook
