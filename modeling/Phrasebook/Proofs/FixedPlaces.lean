import Mathlib
import Phrasebook.Decimal.Places
import Phrasebook.Proofs.Lexemes

/-!
Numbers with a given number of places. Their text is digits, a point and the decimals, and it is
read back as the point of the decimal grid that is nearest to the number, an even one where two
points are equally near.
-/

namespace Phrasebook.Decimal

def behindPoint : List Char → List Char
  | [] => []
  | c :: cs => '.' :: c :: cs

theorem ofDigits_toDigits (point : Nat) : ofDigits (Nat.toDigits 10 point) = point :=
  Nat.ofDigitChars_ten_toDigits

theorem ofDigits_zeros (count : Nat) (digits : List Char) :
    ofDigits (zeros count ++ digits) = ofDigits digits := by
  have ignored : (zeros count).foldl (fun total digit => 10 * total + digitValue digit) 0 = 0 := by
    induction count with
    | zero => rfl
    | succ count ih => exact ih
  rw [ofDigits, List.foldl_append, ignored]
  rfl

theorem isDigit_zeros {count : Nat} {c : Char} (member : c ∈ zeros count) : c.isDigit = true := by
  rw [List.eq_of_mem_replicate member]
  rfl

/-- Digits in front of the point and as many decimals behind it as there are places. -/
structure Placed (point places : Nat) (whole decimals : List Char) : Prop where
  front : Formula.Digits whole
  behind : ∀ c ∈ decimals, c.isDigit = true
  count : decimals.length = places
  value : ofDigits (whole ++ decimals) = point

theorem withPoint_placed (point places : Nat) :
    ∃ whole decimals, Placed point places whole decimals ∧
      withPoint (Nat.toDigits 10 point) places = whole ++ behindPoint decimals := by
  generalize padded_eq : zeros (places + 1 - (Nat.toDigits 10 point).length) ++
    Nat.toDigits 10 point = padded
  have long : places < padded.length := by
    rw [← padded_eq, List.length_append, zeros, List.length_replicate]
    omega
  have digits : ∀ c ∈ padded, c.isDigit = true := by
    intro c member
    rw [← padded_eq] at member
    rcases List.mem_append.mp member with front | back
    · exact isDigit_zeros front
    · exact Nat.isDigit_of_mem_toDigits (by decide) (by decide) back
  have value : ofDigits padded = point := by
    rw [← padded_eq, ofDigits_zeros, ofDigits_toDigits]
  refine ⟨padded.take (padded.length - places), padded.drop (padded.length - places), ?_, ?_⟩
  · constructor
    case front =>
      refine ⟨?_, fun c member => digits c (List.mem_of_mem_take member)⟩
      rw [ne_eq, ← List.length_eq_zero_iff, List.length_take]
      omega
    case behind => exact fun c member => digits c (List.mem_of_mem_drop member)
    case count =>
      rw [List.length_drop]
      omega
    case value => rw [List.take_append_drop, value]
  · simp only [withPoint, padded_eq]
    split
    · rename_i none
      subst none
      simp [behindPoint]
    · rename_i some
      have decimals : padded.drop (padded.length - places) ≠ [] := by
        rw [ne_eq, ← List.length_eq_zero_iff, List.length_drop]
        omega
      obtain ⟨c, cs, split⟩ := List.exists_cons_of_ne_nil decimals
      rw [split, behindPoint]

theorem scientific?_placed {point places : Nat} {whole decimals : List Char}
    (placed : Placed point places whole decimals) :
    scientific? (whole ++ behindPoint decimals) = some ⟨point, -(places : Int)⟩ := by
  obtain ⟨digits, isDigits, count, value⟩ := placed
  have filled : whole.isEmpty = false := by simp [digits.1]
  cases decimals with
  | nil =>
      have taken : whole.takeWhile Char.isDigit = whole := List.takeWhile_eq_self_iff.mpr digits.2
      have dropped : whole.dropWhile Char.isDigit = [] := List.dropWhile_eq_nil_iff.mpr digits.2
      rw [List.append_nil] at value
      simp only [behindPoint, List.append_nil, scientific?, taken, dropped, filled,
        Bool.false_and, value, ← count]
      rfl
  | cons c cs =>
      have point_ends : Formula.Ends Char.isDigit ('.' :: c :: cs) :=
        Formula.ends_cons.mpr (by decide)
      have taken := List.takeWhile_eq_self_iff.mpr isDigits
      have dropped := List.dropWhile_eq_nil_iff.mpr isDigits
      simp only [behindPoint, scientific?, Formula.takeWhile_word digits.2 point_ends,
        Formula.dropWhile_word digits.2 point_ends, taken, dropped, filled, Bool.false_and, value,
        count]
      rfl

/-- The nearest natural number, and of two that are equally near the even one. -/
structure NearestEven (value : ℚ) (point : ℕ) : Prop where
  near : |(point : ℚ) - value| ≤ 1 / 2
  even : |(point : ℚ) - value| = 1 / 2 → point % 2 = 0

def Ratio.value (ratio : Ratio) : ℚ := ratio.numerator / ratio.denominator

def Scientific.value (number : Scientific) : ℚ := number.digits * 10 ^ number.exponent

theorem Ratio.value_ofBinary (mantissa : ℕ) (exponent : ℤ) :
    (Ratio.ofBinary mantissa exponent).value = mantissa * 2 ^ exponent := by
  have split : exponent = exponent.toNat - ((-exponent).toNat : ℤ) := by omega
  have powers : (2 : ℚ) ^ exponent = 2 ^ exponent.toNat / 2 ^ (-exponent).toNat := by
    conv_lhs => rw [split]
    rw [zpow_sub₀ two_ne_zero, zpow_natCast, zpow_natCast]
  rw [powers, mul_div_assoc']
  simp only [value, ofBinary, Nat.pow_eq, Nat.cast_mul, Nat.cast_pow, Nat.cast_ofNat]

theorem Ratio.value_shift (ratio : Ratio) (places : ℕ) :
    (ratio.shift places).value = ratio.value * 10 ^ places := by
  have none : (-(places : ℤ)).toNat = 0 := by omega
  simp only [value, shift, none, Int.toNat_natCast, Nat.pow_eq, Nat.pow_zero, Nat.mul_one,
    Nat.cast_mul, Nat.cast_pow, Nat.cast_ofNat]
  rw [mul_div_right_comm]

theorem Ratio.denominator_ofBinary_pos (mantissa : ℕ) (exponent : ℤ) :
    0 < (Ratio.ofBinary mantissa exponent).denominator :=
  Nat.pow_pos (by decide)

theorem Ratio.denominator_shift_pos {ratio : Ratio} (positive : 0 < ratio.denominator)
    (places : ℕ) : 0 < (ratio.shift places).denominator :=
  Nat.mul_pos positive (Nat.pow_pos (by decide))

section

variable {quotient : ℕ} {fraction : ℚ}

theorem nearestEven_below (least : 0 ≤ fraction) (less : fraction < 1 / 2) :
    NearestEven (quotient + fraction) quotient := by
  have distance : |(quotient : ℚ) - (quotient + fraction)| = fraction := by
    rw [sub_add_cancel_left, abs_neg, abs_of_nonneg least]
  constructor
  case near => exact distance.le.trans less.le
  case even => exact fun tie => absurd (distance.symm.trans tie) less.ne

theorem nearestEven_above (more : 1 / 2 < fraction) (most : fraction < 1) :
    NearestEven (quotient + fraction) (quotient + 1) := by
  have distance : |((quotient + 1 : ℕ) : ℚ) - (quotient + fraction)| = 1 - fraction := by
    rw [Nat.cast_succ, add_sub_add_left_eq_sub, abs_of_pos (sub_pos.mpr most)]
  constructor
  case near =>
    rw [distance]
    linarith
  case even =>
    intro tie
    rw [distance] at tie
    linarith

theorem nearestEven_tie (quotient : ℕ) :
    NearestEven (quotient + 1 / 2) (if quotient % 2 = 0 then quotient else quotient + 1) := by
  split
  · rename_i even
    have distance : |(quotient : ℚ) - (quotient + 1 / 2)| = 1 / 2 := by
      rw [sub_add_cancel_left, abs_neg, abs_of_pos one_half_pos]
    exact ⟨distance.le, fun _ => even⟩
  · have distance : |((quotient + 1 : ℕ) : ℚ) - (quotient + 1 / 2)| = 1 / 2 := by
      rw [Nat.cast_succ, add_sub_add_left_eq_sub]
      norm_num
    exact ⟨distance.le, fun _ => by omega⟩

end

theorem Ratio.nearestEven_round {ratio : Ratio} (positive : 0 < ratio.denominator) :
    NearestEven ratio.value (ratio.round .toEven) := by
  obtain ⟨numerator, denominator⟩ := ratio
  have above : (0 : ℚ) < denominator := Nat.cast_pos.mpr positive
  have division : (numerator : ℚ) =
      denominator * (numerator / denominator : ℕ) + (numerator % denominator : ℕ) := by
    exact_mod_cast (Nat.div_add_mod numerator denominator).symm
  have bounded : numerator % denominator < denominator := Nat.mod_lt _ positive
  simp only [Ratio.value, Ratio.round]
  generalize numerator / denominator = quotient at division ⊢
  generalize numerator % denominator = remainder at division bounded ⊢
  have value : (numerator : ℚ) / denominator = quotient + remainder / denominator := by
    rw [division]
    field_simp
  rw [value]
  -- The fraction behind the quotient is compared with a half.
  split
  · rename_i more
    refine nearestEven_above ?_ ?_
    · rw [div_lt_div_iff₀ two_pos above]
      exact_mod_cast (by omega : 1 * denominator < remainder * 2)
    · rw [div_lt_one above]
      exact_mod_cast bounded
  · rename_i upTo
    split
    · rename_i less
      refine nearestEven_below (by positivity) ?_
      rw [div_lt_div_iff₀ above two_pos]
      exact_mod_cast (by omega : remainder * 2 < 1 * denominator)
    · rename_i least
      have half : (remainder : ℚ) / denominator = 1 / 2 := by
        rw [div_eq_div_iff above.ne' two_ne_zero]
        exact_mod_cast (by omega : remainder * 2 = 1 * denominator)
      rw [half]
      exact nearestEven_tie quotient

namespace NearestEven

variable {value : ℚ} {point bound : ℕ}

theorem le (nearest : NearestEven value point) (most : value ≤ bound) : point ≤ bound := by
  have far := (abs_le.mp nearest.near).2
  have less : (point : ℚ) < bound + 1 := by linarith
  exact Nat.lt_succ_iff.mp (by exact_mod_cast less)

theorem ge (nearest : NearestEven value point) (least : bound ≤ value) : bound ≤ point := by
  have far := (abs_le.mp nearest.near).1
  have less : (bound : ℚ) < point + 1 := by linarith
  exact Nat.lt_succ_iff.mp (by exact_mod_cast less)

theorem eq_bound_iff (nearest : NearestEven value point) (most : value ≤ bound)
    (even : bound % 2 = 0) : point = bound ↔ bound - 1 / 2 ≤ value := by
  have far := abs_le.mp nearest.near
  constructor
  · rintro rfl
    linarith
  · intro upper
    refine (nearest.le most).antisymm (Nat.not_lt.mp fun less => ?_)
    have next : (point : ℚ) + 1 ≤ bound := by exact_mod_cast less
    have half : value = point + 1 / 2 := by linarith
    have tie : |(point : ℚ) - value| = 1 / 2 := by
      rw [half, sub_add_cancel_left, abs_neg, abs_of_pos one_half_pos]
    have last : (point : ℚ) + 1 = bound := by linarith
    have odd : point + 1 = bound := by exact_mod_cast last
    have parity := nearest.even tie
    omega

end NearestEven

theorem ofFloat_finite {number : Float} (finite : number.isFinite = true) :
    ∃ negative mantissa exponent, Binary.ofFloat number = .finite negative mantissa exponent := by
  have unpacked : number.toModel.unpack.isFinite = true := finite
  unfold Binary.ofFloat
  generalize number.toModel.unpack = model at unpacked
  cases model with
  | notANumber => cases unpacked
  | infinity sign => cases unpacked
  | zero sign => exact ⟨_, _, _, rfl⟩
  | finite sign mantissa exponent positive => exact ⟨_, _, _, rfl⟩

theorem fixed_finite {number : Float} {negative : Bool} {mantissa : ℕ} {exponent : ℤ}
    (binary : Binary.ofFloat number = .finite negative mantissa exponent) (places : ℕ) :
    ∃ point whole decimals, NearestEven (mantissa * 2 ^ exponent * 10 ^ places) point ∧
      Placed point places whole decimals ∧
      fixed number places = signed negative (whole ++ behindPoint decimals) := by
  have positive := Ratio.denominator_shift_pos
    (Ratio.denominator_ofBinary_pos mantissa exponent) places
  have nearest := Ratio.nearestEven_round positive
  rw [Ratio.value_shift, Ratio.value_ofBinary] at nearest
  obtain ⟨whole, decimals, placed, written⟩ := withPoint_placed
    (((Ratio.ofBinary mantissa exponent).shift places).round .toEven) places
  refine ⟨_, whole, decimals, nearest, placed, ?_⟩
  simp only [fixed, binary, fixedMagnitude, written]

end Phrasebook.Decimal
