import Mathlib
import Phrasebook.Decimal.Shortest

/-!
Integers as floating-point numbers. A widened integer is again an integer, with at most 53
significant bits. If the integer has no more itself, it is widened without rounding, and its
mantissa and its exponent are known.
-/

namespace Phrasebook.Decimal

open Float.Model Float.Model.UnpackedFloat

/-- A number with no more significant bits than a mantissa has. -/
def Representable (number : Nat) : Prop :=
  ∃ bits shift, bits < 2 ^ mantissaBits ∧ number = bits * 2 ^ shift

/-- The mantissa has all of its bits, and with the exponent it stands for the number. -/
structure Exactly (number mantissa : Nat) (exponent : Int) : Prop where
  full : mantissa.log2 + 1 = mantissaBits
  value : mantissa * 2 ^ exponent.toNat = number * 2 ^ (-exponent).toNat

theorem log2_mul_two_pow {number : Nat} (positive : 0 < number) (shift : Nat) :
    (number * 2 ^ shift).log2 = number.log2 + shift := by
  induction shift with
  | zero => simp
  | succ shift ih =>
      have nonzero : number * 2 ^ shift ≠ 0 :=
        Nat.ne_of_gt (Nat.mul_pos positive (Nat.two_pow_pos _))
      rw [Nat.pow_succ, ← Nat.mul_assoc, Nat.mul_comm _ 2, Nat.log2_two_mul nonzero, ih]
      rfl

theorem pos_of_full {mantissa : Nat} (full : mantissa.log2 + 1 = mantissaBits) : 0 < mantissa := by
  obtain rfl | positive := Nat.eq_zero_or_pos mantissa
  · simp [mantissaBits] at full
  · exact positive

theorem lt_of_full {mantissa : Nat} (full : mantissa.log2 + 1 = mantissaBits) :
    mantissa < 2 ^ mantissaBits := by
  rw [← full]
  exact Nat.lt_log2_self

theorem representable_of_le {number : Nat} (small : number ≤ 2 ^ mantissaBits) :
    Representable number := by
  obtain less | same := Nat.lt_or_eq_of_le small
  · exact ⟨number, 0, less, (Nat.mul_one number).symm⟩
  · exact ⟨1, mantissaBits, by decide, by rw [same, Nat.one_mul]⟩

namespace Exactly

variable {number mantissa : Nat} {exponent : Int}

theorem number_pos (exact : Exactly number mantissa exponent) : 0 < number := by
  have positive : 0 < mantissa * 2 ^ exponent.toNat :=
    Nat.mul_pos (pos_of_full exact.full) (Nat.two_pow_pos _)
  rw [exact.value] at positive
  exact Nat.pos_of_mul_pos_right positive

theorem exponent_eq (exact : Exactly number mantissa exponent) :
    exponent = number.log2 - 52 := by
  have logs := congrArg Nat.log2 exact.value
  rw [log2_mul_two_pow (pos_of_full exact.full), log2_mul_two_pow exact.number_pos] at logs
  have full := exact.full
  simp only [mantissaBits] at full
  omega

theorem of_full (full : mantissa.log2 + 1 = mantissaBits) (exponent : Nat) :
    Exactly (mantissa * 2 ^ exponent) mantissa exponent where
  full := full
  value := by simp

theorem of_representable (positive : 0 < number) (representable : Representable number) :
    ∃ mantissa exponent, Exactly number mantissa exponent := by
  -- The mantissa is filled up with zeros, which the exponent takes back.
  obtain ⟨bits, shift, few, rfl⟩ := representable
  have bits_pos : 0 < bits := Nat.pos_of_mul_pos_right positive
  have log : bits.log2 < 53 := (Nat.log2_lt (Nat.ne_of_gt bits_pos)).mpr few
  refine ⟨bits * 2 ^ (52 - bits.log2), shift - (52 - bits.log2 : Nat), ?_, ?_⟩
  · rw [log2_mul_two_pow bits_pos]
    simp only [mantissaBits]
    omega
  · rw [Nat.mul_assoc, Nat.mul_assoc, ← Nat.pow_add, ← Nat.pow_add]
    congr 2
    omega

end Exactly

theorem shiftRight_whole (mantissa shift : Nat) :
    (⟨mantissa * 2 ^ shift, false, false⟩ : ExtendedMantissa) >>> shift =
      ⟨mantissa, false, false⟩ := by
  change Nat.repeat ExtendedMantissa.shiftRightOne shift _ = _
  induction shift generalizing mantissa with
  | zero => simp [Nat.repeat]
  | succ shift ih =>
      have regrouped : mantissa * 2 ^ (shift + 1) = mantissa * 2 * 2 ^ shift := by
        rw [Nat.pow_succ, Nat.mul_comm (2 ^ shift), Nat.mul_assoc]
      rw [Nat.repeat, regrouped, ih]
      simp [ExtendedMantissa.shiftRightOne]

variable {mantissa : Nat} {exponent : Int}

theorem shiftToTargetExponent_long {number spare : Nat} (long : number.log2 = 52 + spare)
    (normal : -1074 ≤ exponent + spare) :
    shiftToTargetExponent .binary64 number exponent .exact =
      ((⟨number, false, false⟩ : ExtendedMantissa) >>> spare, exponent + spare) := by
  have target : Format.binary64.targetExponent (totalExponent number exponent) =
      exponent + spare := by
    simp only [Format.targetExponent, totalExponent, long, Format.mantissaBits,
      Format.minExponent]
    omega
  have amount : (exponent + spare - exponent).toNat = spare := by omega
  simp only [shiftToTargetExponent, target, shiftToExponent, amount,
    ExtendedMantissa.ofMantissaAndAccuracy]

theorem shiftToTargetExponent_whole (full : mantissa.log2 + 1 = mantissaBits) (shift : Nat)
    (normal : -1074 ≤ exponent + shift) :
    shiftToTargetExponent .binary64 (mantissa * 2 ^ shift) exponent .exact =
      (⟨mantissa, false, false⟩, exponent + shift) := by
  have long : (mantissa * 2 ^ shift).log2 = 52 + shift := by
    rw [log2_mul_two_pow (pos_of_full full), Nat.succ.inj full]
  rw [shiftToTargetExponent_long long normal, shiftRight_whole]

/-- Rounding takes zeros off the end of a full mantissa and changes nothing else. -/
theorem roundWithAccuracy_whole (full : mantissa.log2 + 1 = mantissaBits) (sign : Sign)
    (shift : Nat) (normal : -1074 ≤ exponent + shift) :
    roundWithAccuracy .binary64 sign (mantissa * 2 ^ shift) exponent .exact =
      .finite sign mantissa (exponent + shift) (pos_of_full full) := by
  have first := shiftToTargetExponent_whole full shift normal
  have second : shiftToTargetExponent .binary64 mantissa (exponent + shift) .exact =
      (⟨mantissa, false, false⟩, exponent + shift) := by
    have still : -1074 ≤ exponent + shift + (0 : Nat) := by omega
    simpa using shiftToTargetExponent_whole full 0 still
  have nonzero : mantissa ≠ 0 := Nat.ne_of_gt (pos_of_full full)
  simp [roundWithAccuracy, first, second, ExtendedMantissa.roundedMantissa,
    ExtendedMantissa.accuracy, Accuracy.roundToNearestEven, nonzero]

theorem mantissa_shiftRight (extended : ExtendedMantissa) (shift : Nat) :
    (extended >>> shift).mantissa = extended.mantissa / 2 ^ shift := by
  change (Nat.repeat ExtendedMantissa.shiftRightOne shift extended).mantissa = _
  induction shift with
  | zero => simp [Nat.repeat]
  | succ shift ih =>
      rw [Nat.repeat, ExtendedMantissa.shiftRightOne, ih, Nat.div_div_eq_div_mul, Nat.pow_succ]

theorem roundedMantissa_near (extended : ExtendedMantissa) :
    extended.roundedMantissa = extended.mantissa ∨
      extended.roundedMantissa = extended.mantissa + 1 := by
  obtain ⟨mantissa, round, sticky⟩ := extended
  cases round with
  | false => cases sticky <;> exact .inl rfl
  | true =>
      cases sticky with
      | false =>
          change mantissa + mantissa % 2 = mantissa ∨ mantissa + mantissa % 2 = mantissa + 1
          omega
      | true => exact .inr rfl

theorem div_two_pow_bounds {number spare : Nat} (long : number.log2 = 52 + spare) :
    2 ^ 52 ≤ number / 2 ^ spare ∧ number / 2 ^ spare < 2 ^ 53 := by
  have nonzero : number ≠ 0 := by
    rintro rfl
    rw [Nat.log2_zero] at long
    omega
  have least := Nat.log2_self_le nonzero
  have largest : number < 2 ^ (number.log2 + 1) := Nat.lt_log2_self
  rw [long, Nat.pow_add] at least
  rw [long, Nat.add_right_comm, Nat.pow_add] at largest
  rw [Nat.le_div_iff_mul_le (Nat.two_pow_pos spare),
    Nat.div_lt_iff_lt_mul (Nat.two_pow_pos spare)]
  exact ⟨least, largest⟩

/-- A long number is rounded to a full mantissa, maybe with a carry into its exponent. -/
theorem roundWithAccuracy_long {number : Nat} (sign : Sign) {spare : Nat}
    (long : number.log2 = 52 + spare) (normal : -1074 ≤ exponent + spare) :
    ∃ (mantissa carry : Nat) (full : mantissa.log2 + 1 = mantissaBits), carry ≤ 1 ∧
      roundWithAccuracy .binary64 sign number exponent .exact =
        .finite sign mantissa (exponent + spare + carry) (pos_of_full full) := by
  have first := shiftToTargetExponent_long long normal
  have bounds := div_two_pow_bounds long
  generalize cut_eq : (⟨number, false, false⟩ : ExtendedMantissa) >>> spare = cut at first
  have kept : cut.mantissa = number / 2 ^ spare := by rw [← cut_eq, mantissa_shiftRight]
  have near := roundedMantissa_near cut
  obtain ⟨mantissa, carry, full, carry_le, rounded⟩ : ∃ mantissa carry : Nat,
      ∃ _ : mantissa.log2 + 1 = mantissaBits, carry ≤ 1 ∧
        cut.roundedMantissa = mantissa * 2 ^ carry := by
    by_cases short : cut.roundedMantissa < 2 ^ 53
    · have log := (Nat.log2_eq_iff (by omega)).mpr ⟨by omega, short⟩
      exact ⟨cut.roundedMantissa, 0, congrArg (· + 1) log, by decide, (Nat.mul_one _).symm⟩
    · exact ⟨2 ^ 52, 1, by decide, by decide, by omega⟩
  have second := shiftToTargetExponent_whole full carry
    (by omega : -1074 ≤ exponent + spare + carry)
  have nonzero : mantissa ≠ 0 := Nat.ne_of_gt (pos_of_full full)
  refine ⟨mantissa, carry, full, carry_le, ?_⟩
  simp only [roundWithAccuracy, first, rounded, second, nonzero, dif_neg, not_false_eq_true]

theorem toNat_implicit_append (full : mantissa.log2 + 1 = mantissaBits) :
    (1#1 ++ BitVec.ofNat 52 mantissa).toNat = mantissa := by
  -- A full mantissa loses its first bit when it is packed, and gets it back.
  have nonzero : mantissa ≠ 0 := Nat.ne_of_gt (pos_of_full full)
  have bounds : 2 ^ 52 ≤ mantissa ∧ mantissa < 2 ^ 53 :=
    (Nat.log2_eq_iff nonzero).mp (by simpa [mantissaBits] using full)
  rw [BitVec.toNat_append, ← Nat.shiftLeft_add_eq_or_of_lt (BitVec.isLt _), BitVec.toNat_ofNat,
    BitVec.toNat_ofNat, Nat.shiftLeft_eq]
  omega

/-- The exponent is packed with a bias, which keeps it away from the patterns of zeros and ones
that mark the numbers without a full mantissa. -/
theorem unpack_pack_full (full : mantissa.log2 + 1 = mantissaBits) (sign : Sign)
    (normal : -1074 ≤ exponent) (finite : exponent ≤ 971) :
    (Float.Model.pack (.finite sign mantissa exponent (pos_of_full full))).unpack =
      .finite sign mantissa exponent (pos_of_full full) := by
  generalize biased_eq : (exponent + 1075).toNat = biased
  have bias : Format.exponentBias .binary64 = 1023 := by decide
  have bits : mantissa.log2 + 1 = Format.mantissaBits .binary64 := full
  have biased_bits : (BitVec.ofNat 11 biased).toNat = biased := by
    rw [BitVec.toNat_ofNat]
    omega
  have not_zeros : BitVec.ofNat 11 biased ≠ 0#11 := by
    intro same
    have value := congrArg BitVec.toNat same
    simp only [biased_bits, BitVec.toNat_zero] at value
    omega
  have not_ones : BitVec.ofNat 11 biased ≠ -1#11 := by
    intro same
    have value := congrArg BitVec.toNat same
    simp only [biased_bits, BitVec.neg_one_eq_allOnes, BitVec.toNat_allOnes] at value
    omega
  have packed : UnpackedFloat.pack .binary64 (.finite sign mantissa exponent (pos_of_full full)) =
      packComponents .binary64 sign (BitVec.ofNat 11 biased) (BitVec.ofNat 52 mantissa) := by
    have shifted : exponent + (Format.exponentBias .binary64 : Int) + (52 : Nat) =
        exponent + 1075 := by omega
    simp only [UnpackedFloat.pack, shifted, biased_eq, bits]
    rw [if_neg (by omega), if_pos trivial]
  simp only [Float.Model.unpack, Float.Model.pack, packed, UnpackedFloat.unpack,
    unpackExponent_packComponents, unpackMantissa_packComponents, unpackSign_packComponents,
    not_zeros, not_ones, toNat_implicit_append full, biased_bits, Sign.ofBitVec_toBitVec, bias,
    if_false]
  congr 1
  omega

theorem round_exact {number : Nat} (exact : Exactly number mantissa exponent)
    (bounded : number < 2 ^ 64) (sign : Sign) :
    UnpackedFloat.round .binary64 sign number 0 =
      .finite sign mantissa exponent (pos_of_full exact.full) := by
  have log := (Nat.log2_lt (Nat.ne_of_gt exact.number_pos)).mpr bounded
  have exponent_eq := exact.exponent_eq
  have target : Format.binary64.targetExponent (totalExponent number 0) = exponent := by
    simp only [Format.targetExponent, totalExponent, Format.mantissaBits, Format.minExponent]
    omega
  have decreased : decreaseExponent number 0 exponent =
      (mantissa * 2 ^ exponent.toNat, -((-exponent).toNat : Int)) := by
    simp only [decreaseExponent, Int.zero_sub, Nat.shiftLeft_eq, exact.value]
  have whole : -((-exponent).toNat : Int) + exponent.toNat = exponent := by omega
  have rounded := roundWithAccuracy_whole exact.full sign exponent.toNat
    (by omega : -1074 ≤ -((-exponent).toNat : Int) + exponent.toNat)
  simp only [UnpackedFloat.round, target, decreased, rounded, whole]

theorem unpack_ofUInt64 {number : UInt64} (exact : Exactly number.toNat mantissa exponent) :
    (Float.Model.ofUInt64 number).unpack =
      .finite .positive mantissa exponent (pos_of_full exact.full) := by
  have bounded : number.toNat < 2 ^ 64 := number.toNat_lt
  have log := (Nat.log2_lt (Nat.ne_of_gt exact.number_pos)).mpr bounded
  have exponent_eq := exact.exponent_eq
  have above : compare (number.toNat : Int) 0 = .gt := by
    rw [Int.compare_eq_gt]
    exact Int.natCast_pos.mpr exact.number_pos
  simp only [Float.Model.ofUInt64, UnpackedFloat.ofUInt64, UnpackedFloat.ofNat,
    UnpackedFloat.ofInt, UnpackedFloat.normalize, above, Int.toNat_natCast,
    round_exact exact bounded]
  exact unpack_pack_full exact.full .positive (by omega) (by omega)

theorem unpack_one : (Float.ofBits 0x3FF0000000000000).toModel.unpack =
    .finite .positive (2 ^ 52) (-52) (by decide) := rfl

theorem unpack_pack_whole (full : mantissa.log2 + 1 = mantissaBits) (shift : Nat)
    (normal : -1074 ≤ exponent) (finite : exponent ≤ 971) :
    (Float.Model.pack (roundWithAccuracy .binary64 .positive (mantissa * 2 ^ shift)
      (exponent - shift) .exact)).unpack =
        .finite .positive mantissa exponent (pos_of_full full) := by
  have back : exponent - shift + shift = exponent := by omega
  have rounded := roundWithAccuracy_whole full .positive shift (back.symm ▸ normal)
  simp only [back] at rounded
  rw [rounded, unpack_pack_full full .positive normal finite]

theorem unpack_ofNat_short {number : Nat} (exact : Exactly number mantissa exponent)
    (short : number < 2 ^ mantissaBits) :
    (Float.ofNat number).toModel.unpack =
      .finite .positive mantissa exponent (pos_of_full exact.full) := by
  have bounded : number < 2 ^ 64 := Nat.lt_trans short (by decide)
  have log := (Nat.log2_lt (Nat.ne_of_gt exact.number_pos)).mpr bounded
  have exponent_eq := exact.exponent_eq
  have modulo : number.toUInt64.toNat = number := by
    rw [Nat.toUInt64_eq, UInt64.toNat_ofNat', Nat.mod_eq_of_lt bounded]
  have product : Float.ofNat number =
      number.toUInt64.toFloat * Float.ofBits 0x3FF0000000000000 := by
    change Float.ofScientific number false 0 = _
    rw [mantissaBits] at short
    simp only [Float.ofScientific, short, Nat.zero_le, and_self, dif_pos]
    rfl
  have widened : number.toUInt64.toFloat.toModel.unpack =
      .finite .positive mantissa exponent (pos_of_full exact.full) :=
    unpack_ofUInt64 (modulo.symm ▸ exact)
  rw [product]
  change (Float.Model.pack (UnpackedFloat.mul .binary64 number.toUInt64.toFloat.toModel.unpack
    (Float.ofBits 0x3FF0000000000000).toModel.unpack)).unpack = _
  rw [widened, unpack_one]
  exact unpack_pack_whole exact.full 52 (by omega) (by omega)

theorem toModel_ofNat_long {number : Nat} (long : 2 ^ mantissaBits ≤ number) :
    (Float.ofNat number).toModel =
      .pack (roundWithAccuracy .binary64 .positive (number * 2 ^ 53) (-53) .exact) := by
  -- A longer number is rounded after it has been shifted.
  have nonzero : number ≠ 0 := Nat.ne_of_gt (Nat.lt_of_lt_of_le (by decide) long)
  have above : ¬ number < 2 ^ 53 := Nat.not_lt.mpr long
  have slow : Float.ofNat number = .ofModel (Float.Model.ofScientific number 0) := by
    change Float.ofScientific number false 0 = _
    simp only [Float.ofScientific, above, false_and, dif_neg, not_false_eq_true]
    rfl
  have few : ¬ (0 : Int) > 2 ^ 11 := by decide
  have many : ¬ (0 : Int) < -(2 ^ 11 + number.log2) := by omega
  have product : UnpackedFloat.ofScientific .binary64 number 0 =
      roundWithAccuracy .binary64 .positive ((number <<< 53) * 10 ^ 0) (-53) .exact := by
    rw [UnpackedFloat.ofScientific, dif_neg nonzero, if_neg few, if_neg many,
      if_pos (Int.le_refl 0)]
    rfl
  rw [Nat.shiftLeft_eq, Nat.pow_zero, Nat.mul_one] at product
  rw [slow, Float.Model.ofScientific, product]

theorem unpack_ofNat {number : Nat} (exact : Exactly number mantissa exponent)
    (bounded : number < 2 ^ 64) :
    (Float.ofNat number).toModel.unpack =
      .finite .positive mantissa exponent (pos_of_full exact.full) := by
  have nonzero := Nat.ne_of_gt exact.number_pos
  have log := (Nat.log2_lt nonzero).mpr bounded
  have exponent_eq := exact.exponent_eq
  obtain short | long := Nat.lt_or_ge number (2 ^ mantissaBits)
  · exact unpack_ofNat_short exact short
  · have log_le : mantissaBits ≤ number.log2 := (Nat.le_log2 nonzero).mpr long
    rw [mantissaBits] at log_le
    have value := exact.value
    have none : (-exponent).toNat = 0 := by omega
    rw [none, Nat.pow_zero, Nat.mul_one] at value
    have start : exponent - (exponent.toNat + 53 : Nat) = -53 := by omega
    have rounded := unpack_pack_whole exact.full (exponent.toNat + 53)
      (by omega : -1074 ≤ exponent) (by omega)
    rw [start, Nat.pow_add, ← Nat.mul_assoc, value] at rounded
    rw [toModel_ofNat_long long]
    exact rounded

theorem unpack_ofNat_long {number : Nat} (long : 2 ^ mantissaBits ≤ number)
    (bounded : number < 2 ^ 64) :
    ∃ (mantissa exponent : Nat) (full : mantissa.log2 + 1 = mantissaBits), exponent ≤ 12 ∧
      (Float.ofNat number).toModel.unpack =
        .finite .positive mantissa exponent (pos_of_full full) := by
  -- Any longer number is widened to an integer with a full mantissa.
  have positive : 0 < number := Nat.lt_of_lt_of_le (by decide) long
  have log_le : mantissaBits ≤ number.log2 := (Nat.le_log2 (Nat.ne_of_gt positive)).mpr long
  have log_lt : number.log2 < 64 := (Nat.log2_lt (Nat.ne_of_gt positive)).mpr bounded
  rw [mantissaBits] at log_le
  have shifted : (number * 2 ^ 53).log2 = 52 + (number.log2 + 1) := by
    rw [log2_mul_two_pow positive]
    omega
  obtain ⟨mantissa, carry, full, carry_le, rounded⟩ :=
    @roundWithAccuracy_long (-53) _ .positive _ shifted (by omega)
  have whole : -53 + ((number.log2 + 1 : Nat) : Int) + carry =
      (number.log2 - 52 + carry : Nat) := by omega
  simp only [whole] at rounded
  refine ⟨mantissa, number.log2 - 52 + carry, full, by omega, ?_⟩
  rw [toModel_ofNat_long long, rounded]
  exact unpack_pack_full full .positive (by omega) (by omega)

theorem ofFloat_of_unpack {number : Float} {sign : Sign} {positive : 0 < mantissa}
    (unpacked : number.toModel.unpack = .finite sign mantissa exponent positive) :
    Binary.ofFloat number = .finite (isNegativeSign sign) mantissa exponent := by
  simp only [Binary.ofFloat, unpacked]

theorem ofFloat_ofInt_of_unpack {number : Int} (full : mantissa.log2 + 1 = mantissaBits)
    (normal : -1074 ≤ exponent) (finite : exponent ≤ 971)
    (widened : (Float.ofNat number.natAbs).toModel.unpack =
      .finite .positive mantissa exponent (pos_of_full full)) :
    Binary.ofFloat (Float.ofInt number) = .finite (number < 0) mantissa exponent := by
  cases number with
  | ofNat number =>
      have positive : ¬ Int.ofNat number < 0 := Int.not_lt.mpr (Int.natCast_nonneg _)
      rw [decide_eq_false positive]
      exact ofFloat_of_unpack widened
  | negSucc number =>
      have negated : (Float.neg (Float.ofNat number.succ)).toModel.unpack =
          .finite .negative mantissa exponent (pos_of_full full) := by
        change (Float.Model.pack (Float.ofNat number.succ).toModel.unpack.neg).unpack = _
        change (Float.ofNat number.succ).toModel.unpack = _ at widened
        rw [widened]
        exact unpack_pack_full full .negative normal finite
      rw [decide_eq_true (Int.negSucc_lt_zero number)]
      exact ofFloat_of_unpack negated

theorem ofFloat_ofInt {number : Int} (exact : Exactly number.natAbs mantissa exponent)
    (bounded : number.natAbs < 2 ^ 64) :
    Binary.ofFloat (Float.ofInt number) = .finite (number < 0) mantissa exponent := by
  have log := (Nat.log2_lt (Nat.ne_of_gt exact.number_pos)).mpr bounded
  have exponent_eq := exact.exponent_eq
  exact ofFloat_ofInt_of_unpack exact.full (by omega) (by omega) (unpack_ofNat exact bounded)

theorem ofFloat_ofInt_nonzero {number : Int} (nonzero : number ≠ 0)
    (bounded : number.natAbs < 2 ^ 64) :
    ∃ value mantissa exponent, Exactly value mantissa exponent ∧ Representable value ∧
      (Representable number.natAbs → value = number.natAbs) ∧
      Binary.ofFloat (Float.ofInt number) = .finite (number < 0) mantissa exponent := by
  by_cases representable : Representable number.natAbs
  · obtain ⟨mantissa, exponent, exact⟩ :=
      Exactly.of_representable (Int.natAbs_pos.mpr nonzero) representable
    exact ⟨_, mantissa, exponent, exact, representable, fun _ => rfl,
      ofFloat_ofInt exact bounded⟩
  · have long : 2 ^ mantissaBits ≤ number.natAbs :=
      Nat.le_of_not_lt fun short => representable (representable_of_le (Nat.le_of_lt short))
    obtain ⟨mantissa, exponent, full, exponent_le, widened⟩ := unpack_ofNat_long long bounded
    exact ⟨mantissa * 2 ^ exponent, mantissa, exponent, .of_full full exponent,
      ⟨mantissa, exponent, lt_of_full full, rfl⟩, fun fits => absurd fits representable,
      ofFloat_ofInt_of_unpack full (by omega) (by omega) widened⟩

end Phrasebook.Decimal
