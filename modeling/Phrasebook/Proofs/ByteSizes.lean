import Phrasebook.Proofs.FixedPlaces
import Phrasebook.Proofs.Precisions
import Phrasebook.Proofs.Widening

/-!
Byte sizes. A number that is not below 1024 is divided by 1024 without rounding, since only its
exponent changes. So the unit is chosen by the exact quotient, and only the text is rounded. The
text may therefore show 1024 where the quotient is below it.
-/

namespace Phrasebook

namespace Decimal

open Float.Model Float.Model.UnpackedFloat

/-- The mantissa is full, or the exponent is as low as possible. -/
structure Stored (mantissa : ℕ) (exponent : ℤ) : Prop where
  least : -1074 ≤ exponent
  most : exponent ≤ 971
  filled : mantissa.log2 + 1 = mantissaBits ∨ mantissa < 2 ^ 52 ∧ exponent = -1074

variable {number : Float} {sign : Sign} {mantissa : ℕ} {exponent : ℤ} {positive : 0 < mantissa}

theorem log2_implicit_append (bits : BitVec 52) : (1#1 ++ bits).toNat.log2 + 1 = mantissaBits := by
  have bounded : bits.toNat < 2 ^ 52 := bits.isLt
  have value : (1#1 ++ bits).toNat = 2 ^ 52 + bits.toNat := by
    rw [BitVec.toNat_append, ← Nat.shiftLeft_add_eq_or_of_lt bounded]
    rfl
  have log : (1#1 ++ bits).toNat.log2 = 52 :=
    (Nat.log2_eq_iff (by omega)).mpr (by omega)
  rw [log, mantissaBits]

theorem stored_of_unpack
    (unpacked : number.toModel.unpack = .finite sign mantissa exponent positive) :
    Stored mantissa exponent := by
  have bias : (Format.exponentBias .binary64 : ℤ) = 1023 := rfl
  have bounded := (@unpackExponent .binary64 number.toModel.toBits.toBitVec).isLt
  simp only [Float.Model.unpack, UnpackedFloat.unpack, bias] at unpacked
  -- An exponent of ones marks no finite number, and one of zeros a short mantissa.
  split at unpacked
  · split at unpacked <;> cases unpacked
  · rename_i not_ones
    split at unpacked
    · rename_i zeros
      split at unpacked
      · cases unpacked
      · cases unpacked
        have few := (@unpackMantissa .binary64 number.toModel.toBits.toBitVec).isLt
        rw [zeros]
        exact ⟨by decide, by decide, .inr ⟨few, by decide⟩⟩
    · rename_i not_zeros
      rw [← BitVec.toNat_inj] at not_zeros not_ones
      cases unpacked
      generalize (@unpackExponent .binary64 number.toModel.toBits.toBitVec).toNat = biased
        at not_zeros not_ones bounded ⊢
      have most : biased ≠ 2047 := not_ones
      have least : biased ≠ 0 := not_zeros
      have all : biased < 2 ^ 11 := bounded
      exact ⟨by omega, by omega, .inl (log2_implicit_append _)⟩

theorem unpack_pack_subnormal (sign : Sign) (positive : 0 < mantissa) (few : mantissa < 2 ^ 52) :
    (Float.Model.pack (.finite sign mantissa (-1074) positive)).unpack =
      .finite sign mantissa (-1074) positive := by
  have log := (Nat.log2_lt (Nat.ne_of_gt positive)).mpr few
  have bits : mantissa.log2 + 1 ≠ Format.mantissaBits .binary64 := by
    change mantissa.log2 + 1 ≠ 53
    omega
  have kept : (BitVec.ofNat 52 mantissa).toNat = mantissa := by
    rw [BitVec.toNat_ofNat, Nat.mod_eq_of_lt few]
  have some_bits : BitVec.ofNat 52 mantissa ≠ 0#52 := by
    intro same
    have value := congrArg BitVec.toNat same
    rw [kept, BitVec.toNat_zero] at value
    omega
  have zeros : (0#11 = -1#11) = False := eq_false (by decide)
  have packed : UnpackedFloat.pack .binary64 (.finite sign mantissa (-1074) positive) =
      packComponents .binary64 sign 0#11 (BitVec.ofNat 52 mantissa) := by
    simp only [UnpackedFloat.pack]
    rw [if_neg (by decide), if_neg bits]
  simp only [Float.Model.unpack, Float.Model.pack, packed, UnpackedFloat.unpack,
    unpackExponent_packComponents, unpackMantissa_packComponents, unpackSign_packComponents,
    Sign.ofBitVec_toBitVec, zeros, some_bits, kept, if_true, if_false, dif_neg, not_false_eq_true]
  rfl

theorem Stored.unpack_pack (stored : Stored mantissa exponent) (sign : Sign)
    (positive : 0 < mantissa) :
    (Float.Model.pack (.finite sign mantissa exponent positive)).unpack =
      .finite sign mantissa exponent positive := by
  rcases stored.filled with full | ⟨few, rfl⟩
  · exact unpack_pack_full full sign stored.least stored.most
  · exact unpack_pack_subnormal sign positive few

theorem Stored.lt_two_pow (stored : Stored mantissa exponent) : mantissa < 2 ^ 53 := by
  rcases stored.filled with full | ⟨few, -⟩
  · exact lt_of_full full
  · exact few.trans (by decide)

theorem Stored.le_value_iff (stored : Stored mantissa exponent) :
    (1024 : ℚ) ≤ mantissa * 2 ^ exponent ↔ -42 ≤ exponent := by
  -- The exponent alone tells the numbers below 1024 from the others.
  constructor
  · contrapose!
    intro small
    have power : (2 : ℚ) ^ exponent ≤ 2 ^ (-43 : ℤ) := zpow_le_zpow_right₀ one_le_two (by omega)
    have below : (mantissa : ℚ) < 2 ^ 53 := by exact_mod_cast stored.lt_two_pow
    calc (mantissa : ℚ) * 2 ^ exponent ≤ mantissa * 2 ^ (-43 : ℤ) := by gcongr
      _ < 2 ^ 53 * 2 ^ (-43 : ℤ) := by gcongr
      _ = 1024 := by norm_num
  · intro large
    have full := stored.filled.resolve_right (by omega)
    have least : (2 ^ 52 : ℚ) ≤ mantissa := by
      exact_mod_cast (Nat.le_log2 (pos_of_full full).ne').mp (Nat.succ.inj full).ge
    have power : (2 : ℚ) ^ (-42 : ℤ) ≤ 2 ^ exponent := zpow_le_zpow_right₀ one_le_two large
    calc (1024 : ℚ) = 2 ^ 52 * 2 ^ (-42 : ℤ) := by norm_num
      _ ≤ mantissa * 2 ^ exponent := by gcongr

theorem unpack_1024 :
    (1024.0 : Float).toModel.unpack = .finite .positive (2 ^ 52) (-42) (by decide) := rfl

theorem le_1024_finite_iff (stored : Stored mantissa exponent) (positive : 0 < mantissa) :
    UnpackedFloat.le (.finite .positive (2 ^ 52) (-42) (by decide))
      (.finite .positive mantissa exponent positive) = true ↔ -42 ≤ exponent := by
  change ((compare (-42) exponent).then (compare (2 ^ 52) mantissa)).isLE = true ↔ _
  rw [Ordering.isLE_then_iff_or, Int.compare_eq_lt, Int.compare_eq_eq, Nat.isLE_compare]
  constructor
  · omega
  · intro large
    rcases large.lt_or_eq with less | same
    · exact .inl less
    · have full := stored.filled.resolve_right (by omega)
      exact .inr ⟨same, (Nat.le_log2 positive.ne').mp (Nat.succ.inj full).ge⟩

def magnitude (number : Float) : ℚ :=
  match Binary.ofFloat number with
  | .finite _ mantissa exponent => mantissa * 2 ^ exponent
  | _ => 0

theorem unpack_of_ofFloat {negative : Bool}
    (binary : Binary.ofFloat number = .finite negative mantissa exponent) :
    ∃ sign, isNegativeSign sign = negative ∧
      (mantissa = 0 ∧ number.toModel.unpack = .zero sign ∨
        ∃ positive, number.toModel.unpack = .finite sign mantissa exponent positive) := by
  unfold Binary.ofFloat at binary
  generalize number.toModel.unpack = model at binary
  cases model with
  | notANumber => cases binary
  | infinity sign => cases binary
  | zero sign =>
      cases binary
      exact ⟨sign, rfl, .inl ⟨rfl, rfl⟩⟩
  | finite sign mantissa exponent positive =>
      cases binary
      exact ⟨sign, rfl, .inr ⟨positive, rfl⟩⟩

theorem le_abs_iff {negative : Bool}
    (binary : Binary.ofFloat number = .finite negative mantissa exponent) :
    1024.0 ≤ number.abs ↔ (1024 : ℚ) ≤ mantissa * 2 ^ exponent := by
  change decide (UnpackedFloat.le (1024.0 : Float).toModel.unpack
    (Float.Model.pack number.toModel.unpack.abs).unpack = true) = true ↔ _
  rw [decide_eq_true_eq]
  obtain ⟨sign, -, ⟨rfl, zero⟩ | ⟨positive, finite⟩⟩ := unpack_of_ofFloat binary
  · rw [zero, Nat.cast_zero, zero_mul]
    exact iff_of_false (by cases sign <;> decide) (by norm_num)
  · have stored := stored_of_unpack finite
    have kept := stored.unpack_pack .positive positive
    rw [finite, stored.le_value_iff, unpack_1024, UnpackedFloat.abs, kept,
      le_1024_finite_iff stored]

theorem div_positive (sign : Sign) : sign / .positive = sign := by
  cases sign <;> rfl

theorem divCore_1024 (full : mantissa.log2 + 1 = mantissaBits) (large : -42 ≤ exponent) :
    divCore .binary64 mantissa exponent (2 ^ 52) (-42) =
      (mantissa * 2 ^ 1, exponent - 11, .exact) := by
  have log : mantissa.log2 = 52 := Nat.succ.inj full
  have target : min (exponent - -42) (Format.binary64.targetExponent
      (totalExponent mantissa exponent - totalExponent (2 ^ 52) (-42))) = exponent - 11 := by
    have divisor : Nat.log2 (2 ^ 52) = 52 := Nat.log2_two_pow
    simp only [Format.targetExponent, totalExponent, log, divisor, Format.mantissaBits,
      Format.minExponent]
    omega
  have amount : (exponent - -42 - (exponent - 11)).toNat = 53 := by omega
  have doubled : mantissa <<< 53 = mantissa * 2 ^ 1 * 2 ^ 52 := by
    rw [Nat.shiftLeft_eq, Nat.mul_assoc, ← Nat.pow_add]
  simp only [divCore, target, amount, doubled, Nat.mul_mod_left,
    Nat.mul_div_cancel _ (Nat.two_pow_pos 52)]
  rfl

theorem ofFloat_div_1024 {negative : Bool}
    (binary : Binary.ofFloat number = .finite negative mantissa exponent)
    (large : (1024 : ℚ) ≤ mantissa * 2 ^ exponent) :
    Binary.ofFloat (number / 1024.0) = .finite negative mantissa (exponent - 10) := by
  -- Twice the mantissa is divided without a remainder, and rounding takes the factor off again.
  obtain ⟨sign, rfl, ⟨rfl, zero⟩ | ⟨positive, finite⟩⟩ := unpack_of_ofFloat binary
  · norm_num at large
  · have stored := stored_of_unpack finite
    rw [stored.le_value_iff] at large
    have full := stored.filled.resolve_right (by omega)
    have most := stored.most
    have divided : (number / 1024.0).toModel.unpack =
        .finite sign mantissa (exponent - 10) positive := by
      change (Float.Model.pack (UnpackedFloat.div .binary64 number.toModel.unpack
        (1024.0 : Float).toModel.unpack)).unpack = _
      have normal : -1074 ≤ exponent - 11 + (1 : ℕ) := by omega
      have rounded := roundWithAccuracy_whole full sign 1 normal
      have lowered : exponent - 11 + (1 : ℕ) = exponent - 10 := by omega
      rw [finite, unpack_1024]
      simp only [UnpackedFloat.div, divCore_1024 full large, div_positive, rounded, lowered]
      exact unpack_pack_full full sign (by omega) (by omega)
    exact ofFloat_of_unpack divided

end Decimal

namespace FormatHandler

theorem value_lowered (mantissa : ℕ) (exponent : ℤ) (level : ℕ) :
    (mantissa : ℚ) * 2 ^ (exponent - 10 * level) = mantissa * 2 ^ exponent / 1024 ^ level := by
  have power : (2 : ℚ) ^ (10 * (level : ℤ)) = 1024 ^ level := by
    rw [zpow_mul, zpow_natCast]
    norm_num
  rw [zpow_sub₀ two_ne_zero, power, mul_div_assoc]

/-- The number divided by 1024 once for each level that its unit is above the first one. -/
structure Scaled (negative : Bool) (mantissa : ℕ) (exponent : ℤ) (units : List String)
    (level : ℕ) (scaled : Float × String) : Prop where
  unit : units[level]? = some scaled.2
  binary : Decimal.Binary.ofFloat scaled.1 = .finite negative mantissa (exponent - 10 * level)
  below : level + 1 < units.length → (mantissa : ℚ) * 2 ^ (exponent - 10 * level) < 1024
  above : 0 < level → 1 ≤ (mantissa : ℚ) * 2 ^ (exponent - 10 * level)

section

variable {number : Float} {negative : Bool} {mantissa : ℕ} {exponent : ℤ}

theorem Scaled.unscaled {unit : String} {larger : List String}
    (binary : Decimal.Binary.ofFloat number = .finite negative mantissa exponent)
    (below : larger ≠ [] → (mantissa : ℚ) * 2 ^ exponent < 1024) :
    Scaled negative mantissa exponent (unit :: larger) 0 (number, unit) := by
  have same : exponent - 10 * (0 : ℕ) = exponent := by omega
  constructor
  case unit => rfl
  case binary => rw [same, binary]
  case below =>
    intro more
    rw [same]
    exact below (List.length_pos_iff.mp (Nat.lt_of_succ_lt_succ more))
  case above => exact fun positive => absurd positive (Nat.lt_irrefl 0)

theorem Scaled.succ {unit : String} {larger : List String} {level : ℕ} {scaled : Float × String}
    (large : 1024 ≤ (mantissa : ℚ) * 2 ^ exponent)
    (divided : Scaled negative mantissa (exponent - 10) larger level scaled) :
    Scaled negative mantissa exponent (unit :: larger) (level + 1) scaled := by
  -- One turn of the loop takes ten from the exponent.
  have lowered : exponent - 10 * (level + 1 : ℕ) = exponent - 10 - 10 * level := by omega
  constructor
  case unit => exact divided.unit
  case binary => rw [lowered, divided.binary]
  case below =>
    intro more
    rw [lowered]
    exact divided.below (Nat.lt_of_succ_lt_succ more)
  case above =>
    intro _
    rcases Nat.eq_zero_or_pos level with rfl | positive
    · rw [value_lowered, zero_add, pow_one, one_le_div (by norm_num)]
      exact large
    · rw [lowered]
      exact divided.above positive

theorem scaleBytes_scaled
    (binary : Decimal.Binary.ofFloat number = .finite negative mantissa exponent) (unit : String)
    (larger : List String) :
    ∃ level, Scaled negative mantissa exponent (unit :: larger) level
      (scaleBytes number unit larger) := by
  induction larger generalizing number exponent unit with
  | nil => exact ⟨0, .unscaled binary (absurd rfl)⟩
  | cons next larger ih =>
      unfold scaleBytes
      split
      · rename_i reached
        have large := (Decimal.le_abs_iff binary).mp reached
        obtain ⟨level, scaled⟩ := ih (Decimal.ofFloat_div_1024 binary large) next
        exact ⟨level + 1, scaled.succ large⟩
      · rename_i unreached
        rw [Decimal.le_abs_iff binary, not_le] at unreached
        exact ⟨0, .unscaled binary fun _ => unreached⟩

end

def units : List String := smallestUnit :: largerUnits

def decimals (unit : String) (places : ℕ) : ℕ := if unit = smallestUnit then 0 else places

theorem units_level {level : ℕ} {unit : String} (found : units[level]? = some unit) :
    level ≤ 4 ∧ (unit = smallestUnit ↔ level = 0) ∧ (unit = "TB" ↔ level = 4) := by
  have few : level < 5 := (List.getElem?_eq_some_iff.mp found).1
  interval_cases level <;> cases found <;> decide

end FormatHandler

namespace FormatRegistry

open Format

/-- A size in the unit of the given level, as it is shown with its decimals. -/
structure ByteSize (size : ℚ) (level decimals : ℕ) (shown : Decimal.Scientific) : Prop where
  grid : shown.exponent = -(decimals : ℤ)
  nearest : Decimal.NearestEven (size / 1024 ^ level * 10 ^ decimals) shown.digits
  below : level < 4 → size / 1024 ^ level < 1024
  above : 0 < level → 1 ≤ size / 1024 ^ level

namespace ByteSize

variable {size : ℚ} {level decimals : ℕ} {shown : Decimal.Scientific}

theorem value (byteSize : ByteSize size level decimals shown) :
    shown.value = shown.digits / 10 ^ decimals := by
  rw [Decimal.Scientific.value, byteSize.grid, zpow_neg, zpow_natCast, div_eq_mul_inv]

theorem one_le (byteSize : ByteSize size level decimals shown) (larger : 0 < level) :
    1 ≤ shown.value := by
  have least : ((10 ^ decimals : ℕ) : ℚ) ≤ size / 1024 ^ level * 10 ^ decimals := by
    rw [Nat.cast_pow, Nat.cast_ofNat]
    exact le_mul_of_one_le_left (by positivity) (byteSize.above larger)
  have reached := byteSize.nearest.ge least
  rw [byteSize.value, one_le_div (by positivity)]
  exact_mod_cast reached

theorem scaled_le (byteSize : ByteSize size level decimals shown) (smaller : level < 4) :
    size / 1024 ^ level * 10 ^ decimals ≤ (1024 * 10 ^ decimals : ℕ) := by
  push_cast
  gcongr
  exact (byteSize.below smaller).le

theorem le_1024 (byteSize : ByteSize size level decimals shown) (smaller : level < 4) :
    shown.value ≤ 1024 := by
  have kept := byteSize.nearest.le (byteSize.scaled_le smaller)
  rw [byteSize.value, div_le_iff₀ (by positivity)]
  exact_mod_cast kept

/-- The quotient is rounded up to 1024 from half a point of the decimal grid below it. -/
theorem eq_1024_iff (byteSize : ByteSize size level decimals shown) (smaller : level < 4) :
    shown.value = 1024 ↔ 1024 - 1 / (2 * 10 ^ decimals) ≤ size / 1024 ^ level := by
  have even : 1024 * 10 ^ decimals % 2 = 0 := by
    rw [Nat.mul_mod]
    simp
  have bound := byteSize.nearest.eq_bound_iff (byteSize.scaled_le smaller) even
  have positive : (0 : ℚ) < 10 ^ decimals := by positivity
  have grid : shown.value = 1024 ↔ shown.digits = 1024 * 10 ^ decimals := by
    rw [byteSize.value, div_eq_iff positive.ne']
    exact_mod_cast Iff.rfl
  have half : (1024 : ℚ) - 1 / (2 * 10 ^ decimals) =
      ((1024 * 10 ^ decimals : ℕ) - 1 / 2) / 10 ^ decimals := by
    push_cast
    field_simp
  rw [grid, bound, half, div_le_iff₀ positive]

end ByteSize

theorem byteSize_of_scaled {negative : Bool} {mantissa : ℕ} {exponent : ℤ} {level decimals : ℕ}
    {point : ℕ} {scaled : Float × String}
    (reached : FormatHandler.Scaled negative mantissa exponent FormatHandler.units level scaled)
    (nearest : Decimal.NearestEven
      (mantissa * 2 ^ (exponent - 10 * level) * 10 ^ decimals) point) :
    ByteSize (mantissa * 2 ^ exponent) level decimals ⟨point, -(decimals : ℤ)⟩ := by
  obtain ⟨-, -, below, above⟩ := reached
  rw [FormatHandler.value_lowered] at nearest below above
  exact ⟨rfl, nearest, fun smaller => below (Nat.succ_lt_succ smaller), above⟩

/-- A finite number is shown in the unit in which its exact quotient is at least one and below 1024,
as far as there are such units. What is read back is at least one too, and at most 1024. It is 1024
if half a point of the decimal grid or less is missing. -/
theorem byte_size_shown {number : Float} (finite : number.isFinite = true) {suffix : List Char}
    {places : ℕ} (accepts : Accepts 1 suffix places) :
    ∃ negative digits shown level unit,
      defaults.format number (String.ofList (['b', 'y', 't', 'e', 's'] ++ suffix)) =
        .ok (String.ofList (Decimal.signed negative digits ++ ' ' :: unit.toList)) ∧
      Decimal.scientific? digits = some shown ∧ FormatHandler.units[level]? = some unit ∧
      ByteSize (Decimal.magnitude number) level (FormatHandler.decimals unit places) shown ∧
      (unit ≠ "TB" → shown.value ≤ 1024 ∧
        (shown.value = 1024 ↔ 1024 - 1 / (2 * 10 ^ FormatHandler.decimals unit places) ≤
          Decimal.magnitude number / 1024 ^ level)) ∧
      (unit ≠ FormatHandler.smallestUnit → 1 ≤ shown.value) := by
  obtain ⟨negative, mantissa, exponent, binary⟩ := Decimal.ofFloat_finite finite
  have size : Decimal.magnitude number = mantissa * 2 ^ exponent := by
    rw [Decimal.magnitude, binary]
  obtain ⟨level, reached⟩ := FormatHandler.scaleBytes_scaled binary FormatHandler.smallestUnit
    FormatHandler.largerUnits
  have asked : ['b', 'y', 't', 'e', 's'] ∈ Style.bytes.marks := List.mem_singleton_self _
  have suits : Style.bytes.Suits number := trivial
  have written := format_accepted asked suits accepts
  simp only [Style.text] at written
  generalize FormatHandler.scaleBytes number FormatHandler.smallestUnit
    FormatHandler.largerUnits = scaled at reached written
  obtain ⟨quotient, unit⟩ := scaled
  rw [← FormatHandler.decimals] at written
  obtain ⟨point, whole, behind, nearest, placed, text⟩ :=
    Decimal.fixed_finite reached.binary (FormatHandler.decimals unit places)
  rw [text] at written
  have byteSize := byteSize_of_scaled reached nearest
  rw [← size] at byteSize
  obtain ⟨most, smallest, largest⟩ := FormatHandler.units_level reached.unit
  refine ⟨negative, whole ++ Decimal.behindPoint behind, _, level, unit, written,
    Decimal.scientific?_placed placed, reached.unit, byteSize, fun smaller => ?_, fun larger => ?_⟩
  · have lower : level < 4 := most.lt_of_ne fun top => smaller (largest.mpr top)
    exact ⟨byteSize.le_1024 lower, byteSize.eq_1024_iff lower⟩
  · exact byteSize.one_le (Nat.pos_of_ne_zero fun bottom => larger (smallest.mpr bottom))

theorem byte_size_shown_kilobytes :
    (-1536.0 : Float).isFinite = true ∧ Accepts 1 ['2'] 2 ∧
      ∃ negative digits shown level unit,
        "-1.50 KB" = String.ofList (Decimal.signed negative digits ++ ' ' :: unit.toList) ∧
        Decimal.scientific? digits = some shown ∧ FormatHandler.units[level]? = some unit ∧
        ByteSize (Decimal.magnitude (-1536.0)) level (FormatHandler.decimals unit 2) shown ∧
        (unit ≠ FormatHandler.smallestUnit → 1 ≤ shown.value) := by
  have accepts : Accepts 1 ['2'] 2 := (precision?_eq_some_iff 1 ['2'] 2).mp rfl
  have finite : (-1536.0 : Float).isFinite = true := rfl
  have kilobytes : defaults.format (-1536.0) "bytes2" = .ok "-1.50 KB" := rfl
  obtain ⟨negative, digits, shown, level, unit, written, read, found, byteSize, -, least⟩ :=
    byte_size_shown finite accepts
  exact ⟨finite, accepts, negative, digits, shown, level, unit,
    Except.ok.inj (kilobytes.symm.trans written), read, found, byteSize, least⟩

/-- One byte less than a megabyte is shown as 1024 kilobytes. -/
theorem byte_size_carried :
    defaults.format 1048575.0 "bytes" = .ok "1024.0 KB" ∧
      Decimal.scientific? "1024.0".toList = some ⟨10240, -1⟩ ∧
      (⟨10240, -1⟩ : Decimal.Scientific).value = 1024 := by
  refine ⟨rfl, rfl, ?_⟩
  norm_num [Decimal.Scientific.value]

end FormatRegistry

end Phrasebook
