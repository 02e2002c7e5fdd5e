import Lindenmayer.Proofs.Number.Conversion

/-!
# Significands with an accuracy

An operation on doubles finds a whole significand and two bits about what comes after it: whether
this is half a unit or more, and whether anything is left after that half. The bits are all that
rounding to the nearest even number needs, and they are kept up to date when the significand is
shifted. So an operation rounds the exact value that it found, whatever its bits were.
-/

namespace Lindenmayer

open Float.Model (Format UnpackedFloat totalExponent)
open Float.Model.UnpackedFloat

/-- What is known of the part after a significand. -/
def accuracyOf (rest : ℚ) : Accuracy :=
  if rest = 0 then .exact else .inexact (compare (2 * rest) 1)

/-- A significand and its bits stand for a value. -/
structure Represents (extended : ExtendedMantissa) (value : ℚ) : Prop where
  low : (extended.mantissa : ℚ) ≤ value
  high : value < extended.mantissa + 1
  accuracy : extended.accuracy = accuracyOf (value - extended.mantissa)

section Accuracy

variable {rest : ℚ}

theorem accuracyOf_eq_exact_iff : accuracyOf rest = .exact ↔ rest = 0 := by
  rw [accuracyOf]
  split
  next hzero => exact iff_of_true rfl hzero
  next hzero => exact iff_of_false nofun hzero

theorem accuracyOf_of_compare {order : Ordering} (hzero : rest ≠ 0)
    (horder : compare (2 * rest) 1 = order) : accuracyOf rest = .inexact order := by
  rw [accuracyOf, if_neg hzero, horder]

theorem accuracy_eq_exact_iff {extended : ExtendedMantissa} :
    extended.accuracy = .exact ↔ (extended.roundBit || extended.stickyBit) = false := by
  obtain ⟨mantissa, half, rest⟩ := extended
  cases half <;> cases rest <;> simp [ExtendedMantissa.accuracy]

@[simp] theorem mantissa_ofMantissaAndAccuracy (mantissa : ℕ) (accuracy : Accuracy) :
    (ExtendedMantissa.ofMantissaAndAccuracy mantissa accuracy).mantissa = mantissa := by
  obtain _ | ⟨_ | _ | _⟩ := accuracy <;> rfl

@[simp] theorem accuracy_ofMantissaAndAccuracy (mantissa : ℕ) (accuracy : Accuracy) :
    (ExtendedMantissa.ofMantissaAndAccuracy mantissa accuracy).accuracy = accuracy := by
  obtain _ | ⟨_ | _ | _⟩ := accuracy <;> rfl

end Accuracy

namespace Represents

variable {extended : ExtendedMantissa} {value : ℚ}

/-- A significand with the accuracy of what comes after it stands for both together. -/
theorem ofMantissa {mantissa : ℕ} {rest : ℚ} (hnonneg : 0 ≤ rest) (hlt : rest < 1) :
    Represents (.ofMantissaAndAccuracy mantissa (accuracyOf rest)) (mantissa + rest) := by
  refine ⟨?_, ?_, ?_⟩ <;> rw [mantissa_ofMantissaAndAccuracy]
  · linarith
  · linarith
  · rw [accuracy_ofMantissaAndAccuracy, add_sub_cancel_left]

theorem whole (mantissa : ℕ) : Represents (.ofMantissaAndAccuracy mantissa .exact) mantissa := by
  have hexact : accuracyOf 0 = .exact := accuracyOf_eq_exact_iff.mpr rfl
  rw [← hexact, ← add_zero (mantissa : ℚ)]
  exact ofMantissa le_rfl zero_lt_one

theorem nonneg (hvalue : Represents extended value) : 0 ≤ value :=
  (Nat.cast_nonneg _).trans hvalue.low

/-- The bits tell how a value is rounded. -/
theorem roundedMantissa_eq (hvalue : Represents extended value) :
    extended.roundedMantissa = roundEven value := by
  have hfloor : ⌊value⌋₊ = extended.mantissa :=
    (Nat.floor_eq_iff hvalue.nonneg).mpr ⟨hvalue.low, hvalue.high⟩
  rw [ExtendedMantissa.roundedMantissa, hvalue.accuracy, roundEven, hfloor, accuracyOf]
  split
  next hzero =>
    rw [hzero, mul_zero, compare_lt_iff_lt.mpr one_pos]
    rfl
  next => cases compare (2 * (value - extended.mantissa)) 1 <;> rfl

/-- A shift by one place halves the value. What was after the significand comes after a bit of it
and is less than that bit. -/
theorem shiftRightOne (hvalue : Represents extended value) :
    Represents extended.shiftRightOne (value / 2) := by
  have hlow := hvalue.low
  have hhigh := hvalue.high
  have hsplit : (2 : ℚ) * (extended.mantissa / 2 : ℕ) + (extended.mantissa % 2 : ℕ) =
      extended.mantissa := by
    exact_mod_cast Nat.div_add_mod extended.mantissa 2
  have hsticky : (extended.roundBit || extended.stickyBit) = false ↔ value = extended.mantissa := by
    rw [← accuracy_eq_exact_iff, hvalue.accuracy, accuracyOf_eq_exact_iff, sub_eq_zero]
  have hmantissa : extended.shiftRightOne.mantissa = extended.mantissa / 2 := rfl
  have hbits : extended.shiftRightOne.accuracy =
      (⟨0, extended.mantissa % 2 != 0, extended.roundBit || extended.stickyBit⟩ :
        ExtendedMantissa).accuracy := by
    rw [ExtendedMantissa.shiftRightOne]
    cases extended.mantissa % 2 != 0 <;>
      cases extended.roundBit || extended.stickyBit <;> rfl
  rcases Nat.mod_two_eq_zero_or_one extended.mantissa with hbit | hbit
  · rw [hbit, Nat.cast_zero, add_zero] at hsplit
    refine ⟨by rw [hmantissa]; linarith, by rw [hmantissa]; linarith, ?_⟩
    rw [hbits, hbit, hmantissa]
    by_cases hexact : value = extended.mantissa
    · rw [hsticky.mpr hexact, accuracyOf_eq_exact_iff.mpr (by linarith)]
      rfl
    · have hbelow : compare (2 * (value / 2 - (extended.mantissa / 2 : ℕ))) 1 = .lt :=
        compare_lt_iff_lt.mpr (by linarith)
      have habove := lt_of_le_of_ne hlow (Ne.symm hexact)
      rw [Bool.eq_true_of_not_eq_false (hsticky.not.mpr hexact),
        accuracyOf_of_compare (by linarith) hbelow]
      rfl
  · rw [hbit, Nat.cast_one] at hsplit
    refine ⟨by rw [hmantissa]; linarith, by rw [hmantissa]; linarith, ?_⟩
    rw [hbits, hbit, hmantissa]
    by_cases hexact : value = extended.mantissa
    · have htie : compare (2 * (value / 2 - (extended.mantissa / 2 : ℕ))) 1 = .eq :=
        compare_eq_iff_eq.mpr (by linarith)
      rw [hsticky.mpr hexact, accuracyOf_of_compare (by linarith) htie]
      rfl
    · have habove := lt_of_le_of_ne hlow (Ne.symm hexact)
      have hmore : compare (2 * (value / 2 - (extended.mantissa / 2 : ℕ))) 1 = .gt :=
        compare_gt_iff_gt.mpr (by linarith)
      rw [Bool.eq_true_of_not_eq_false (hsticky.not.mpr hexact),
        accuracyOf_of_compare (by linarith) hmore]
      rfl

theorem shiftRight (hvalue : Represents extended value) (count : ℕ) :
    Represents (extended >>> count) (value / 2 ^ count) := by
  change Represents (Nat.repeat ExtendedMantissa.shiftRightOne count extended) _
  induction count with
  | zero => rwa [pow_zero, div_one]
  | succ count ih =>
      rw [pow_succ, ← div_div]
      exact ih.shiftRightOne

end Represents

section Rounding

variable {mantissa : ℕ} {exponent target : ℤ} {accuracy : Accuracy} {value : ℚ}

theorem limit_double : BinaryFormat.double.limit = 2 ^ 53 := by
  decide

theorem targetExponent_eq (total : ℤ) :
    Format.binary64.targetExponent total = max (total - 53) (-1074) :=
  rfl

/-- A significand with all bits of the format, or at the least exponent, is never widened. -/
theorem le_targetExponent (hfull : 2 ^ 52 ≤ mantissa ∨ exponent ≤ -1074) :
    exponent ≤ Format.binary64.targetExponent (totalExponent mantissa exponent) := by
  rw [targetExponent_eq, totalExponent]
  rcases hfull with hfull | hmin
  · have hlog := (Nat.le_log2 (by omega)).mpr hfull
    omega
  · omega

/-- Moving a significand to a larger exponent keeps what it stands for. -/
theorem exists_shiftToExponent
    (hvalue : Represents (.ofMantissaAndAccuracy mantissa accuracy) value)
    (hle : exponent ≤ target) :
    ∃ extended, shiftToExponent mantissa exponent accuracy target = (extended, target) ∧
      Represents extended (value * 2 ^ exponent * 2 ^ (-target)) := by
  obtain ⟨count, rfl⟩ := Int.le.dest hle
  have hcount : (exponent + count - exponent).toNat = count := by omega
  refine ⟨ExtendedMantissa.ofMantissaAndAccuracy mantissa accuracy >>> count, ?_, ?_⟩
  · rw [shiftToExponent, hcount]
  · have hscaled : value * 2 ^ exponent * 2 ^ (-(exponent + count : ℤ)) = value / 2 ^ count := by
      rw [mul_assoc, ← zpow_add₀ two_ne_zero, div_eq_mul_inv, ← zpow_natCast, ← zpow_neg]
      congr 2
      ring
    rw [hscaled]
    exact hvalue.shiftRight count

/-- The total exponent of a significand bounds what it stands for from above. -/
theorem Represents.lt_total (hvalue : Represents (.ofMantissaAndAccuracy mantissa accuracy) value)
    (exponent : ℤ) : value * 2 ^ exponent < 2 ^ totalExponent mantissa exponent := by
  have hhigh := hvalue.high
  rw [mantissa_ofMantissaAndAccuracy] at hhigh
  have hlength : (mantissa : ℚ) + 1 ≤ 2 ^ ((mantissa.log2 : ℤ) + 1) := by
    have hlt : mantissa < 2 ^ (mantissa.log2 + 1) := Nat.lt_log2_self
    exact_mod_cast hlt
  rw [totalExponent, zpow_add₀ two_ne_zero]
  exact mul_lt_mul_of_pos_right (hhigh.trans_le hlength) (by positivity)

/-- The total exponent of a significand that is not zero bounds what it stands for from below. -/
theorem Represents.total_le (hvalue : Represents (.ofMantissaAndAccuracy mantissa accuracy) value)
    (hpos : 0 < mantissa) (exponent : ℤ) :
    2 ^ totalExponent mantissa exponent ≤ 2 * (value * 2 ^ exponent) := by
  have hlow := hvalue.low
  rw [mantissa_ofMantissaAndAccuracy] at hlow
  have hlength : (2 : ℚ) ^ ((mantissa.log2 : ℤ) + 1) ≤ 2 * value := by
    have hlog : (2 : ℚ) ^ mantissa.log2 ≤ mantissa := by
      exact_mod_cast Nat.log2_self_le hpos.ne'
    rw [zpow_add_one₀ two_ne_zero, zpow_natCast]
    linarith
  rw [totalExponent, zpow_add₀ two_ne_zero, ← mul_assoc]
  exact mul_le_mul_of_nonneg_right hlength (by positivity)

/-- What a significand stands for fits the format at the exponent that is found for it. -/
theorem Represents.fits (hvalue : Represents (.ofMantissaAndAccuracy mantissa accuracy) value)
    (hle : exponent ≤ Format.binary64.targetExponent (totalExponent mantissa exponent)) :
    BinaryFormat.double.Fits (value * 2 ^ exponent)
      (Format.binary64.targetExponent (totalExponent mantissa exponent)) := by
  rw [targetExponent_eq] at hle ⊢
  refine ⟨le_max_right _ _, ?_, ?_⟩
  · rw [BinaryFormat.limit_mul_zpow]
    calc value * 2 ^ exponent < 2 ^ totalExponent mantissa exponent := hvalue.lt_total exponent
      _ ≤ 2 ^ (max (totalExponent mantissa exponent - 53) (-1074) + 53) :=
          zpow_le_zpow_right₀ one_le_two (by omega)
  · rcases le_or_gt (totalExponent mantissa exponent - 53) (-1074) with hmin | hlt
    · exact Or.inr (max_eq_right hmin)
    · have hpos : 0 < mantissa := by
        apply Nat.pos_of_ne_zero
        rintro rfl
        have htotal : totalExponent 0 exponent = 1 + exponent := by
          rw [totalExponent, Nat.log2_zero, Nat.cast_zero, zero_add]
        omega
      refine Or.inl ?_
      rw [BinaryFormat.limit_mul_zpow, max_eq_left hlt.le]
      calc (2 : ℚ) ^ (totalExponent mantissa exponent - 53 + 53) =
            2 ^ totalExponent mantissa exponent := congrArg _ (sub_add_cancel _ _)
        _ ≤ 2 * (value * 2 ^ exponent) := hvalue.total_le hpos exponent

/-- A rounded significand that has reached the limit is carried over to the next exponent. -/
def carried (significand : ℕ) (exponent : ℤ) : Magnitude :=
  if significand = BinaryFormat.double.limit then ⟨BinaryFormat.double.limit / 2, exponent + 1⟩
  else ⟨significand, exponent⟩

theorem shiftToTargetExponent_exact {significand : ℕ}
    (hlimit : significand ≤ BinaryFormat.double.limit) (hmin : -1074 ≤ exponent) :
    (shiftToTargetExponent Format.binary64 significand exponent .exact).1.mantissa =
        (carried significand exponent).significand ∧
      (shiftToTargetExponent Format.binary64 significand exponent .exact).2 =
        (carried significand exponent).exponent := by
  rw [shiftToTargetExponent, targetExponent_eq, totalExponent, shiftToExponent, carried]
  rw [limit_double] at hlimit ⊢
  by_cases hfull : significand = 2 ^ 53
  · have hcount :
        (max (((2 ^ 53 : ℕ).log2 : ℤ) + 1 + exponent - 53) (-1074) - exponent).toNat = 1 := by
      rw [Nat.log2_two_pow]
      omega
    rw [if_pos hfull, hfull, hcount]
    exact ⟨rfl, rfl⟩
  · have hlog : significand.log2 ≤ 52 := by
      rcases Nat.eq_zero_or_pos significand with rfl | hpos
      · decide
      · have hlt := (Nat.log2_lt hpos.ne').mpr (lt_of_le_of_ne hlimit hfull)
        omega
    have hcount :
        (max ((significand.log2 : ℤ) + 1 + exponent - 53) (-1074) - exponent).toNat = 0 := by
      omega
    rw [if_neg hfull, hcount]
    exact ⟨rfl, add_zero exponent⟩

/-- Rounding a significand rounds what it stands for, at the exponent where this fits. -/
theorem roundWithAccuracy_eq (negative : Bool)
    (hvalue : Represents (.ofMantissaAndAccuracy mantissa accuracy) value)
    (hle : exponent ≤ Format.binary64.targetExponent (totalExponent mantissa exponent)) :
    ∃ target, BinaryFormat.double.Fits (value * 2 ^ exponent) target ∧
      roundWithAccuracy Format.binary64 (FloatParts.sign negative) mantissa exponent accuracy =
        (FloatParts.finite negative
          (carried (roundEven (value * 2 ^ exponent * 2 ^ (-target))) target)).unpacked := by
  have hfits := hvalue.fits hle
  obtain ⟨extended, hshift, hextended⟩ := exists_shiftToExponent hvalue hle
  refine ⟨_, hfits, ?_⟩
  rw [roundWithAccuracy, shiftToTargetExponent]
  generalize Format.binary64.targetExponent (totalExponent mantissa exponent) = target at *
  have hlimit : roundEven (value * 2 ^ exponent * 2 ^ (-target)) ≤ BinaryFormat.double.limit := by
    apply roundEven_le hextended.nonneg
    rw [zpow_neg, ← div_eq_mul_inv, div_le_iff₀ (by positivity)]
    exact hfits.lt_limit.le
  obtain ⟨hmantissa, hexponent⟩ := shiftToTargetExponent_exact hlimit hfits.min_le
  rw [hshift]
  simp only [hextended.roundedMantissa_eq, hmantissa, hexponent]
  rfl

/-- The double that a result is packed into. -/
def packed (result : UnpackedFloat) : Float :=
  Float.ofModel (Float.Model.pack result)

theorem packed_unpacked {parts : FloatParts} (hparts : parts.Canonical) :
    packed parts.unpacked = parts.toFloat :=
  FloatParts.ofModel_pack hparts

/-- Beyond the largest exponent all significands are packed as infinity. -/
theorem packed_of_large {sign : Sign} (hpos : 0 < mantissa) (hlarge : 971 < exponent) :
    packed (.finite sign mantissa exponent hpos) = packed (.infinity sign) := by
  have hbias : Format.binary64.exponentBias = 1023 := by decide
  have hpack : UnpackedFloat.pack Format.binary64 (.finite sign mantissa exponent hpos) =
      UnpackedFloat.pack Format.binary64 (.infinity sign) := by
    rw [UnpackedFloat.pack, UnpackedFloat.pack]
    apply if_pos
    rw [hbias]
    change 2 ^ 11 ≤ (exponent + 1023 + 52).toNat + 1
    omega
  simp only [packed, Float.Model.pack, hpack]

theorem significand_carried_pos (hfits : BinaryFormat.double.Fits value target)
    (hlarge : 971 < (carried (roundEven (value * 2 ^ (-target))) target).exponent) :
    0 < (carried (roundEven (value * 2 ^ (-target))) target).significand := by
  have hfilled : 1 ≤ roundEven (value * 2 ^ (-target)) := by
    have hmin : target ≠ BinaryFormat.double.minExponent := by
      rintro rfl
      have hmin : BinaryFormat.double.minExponent = -1074 := rfl
      rw [carried, hmin] at hlarge
      split at hlarge <;> dsimp only at hlarge <;> omega
    have hfills := hfits.fills.resolve_right hmin
    apply le_roundEven
    rw [zpow_neg, ← div_eq_mul_inv, le_div_iff₀ (by positivity)]
    have hpower : (0 : ℚ) < 2 ^ target := by positivity
    rw [limit_double] at hfills
    push_cast at hfills ⊢
    linarith
  rw [carried]
  split
  next => exact Nat.zero_lt_of_ne_zero nofun
  next => exact hfilled

/-- A value rounded where it fits is packed as the double nearest to it. -/
theorem packed_carried (negative : Bool) {ratio : Ratio} (hpos : 0 < ratio.value)
    (hfits : BinaryFormat.double.Fits ratio.value target) :
    packed (FloatParts.finite negative
      (carried (roundEven (ratio.value * 2 ^ (-target))) target)).unpacked =
        nearestFloat negative ratio := by
  have hround := BinaryFormat.round_of_fits hpos hfits
  change BinaryFormat.double.round ratio =
    (if (carried (roundEven (ratio.value * 2 ^ (-target))) target).exponent ≤ 971 then
      some (carried (roundEven (ratio.value * 2 ^ (-target))) target) else none) at hround
  generalize hmagnitude : carried (roundEven (ratio.value * 2 ^ (-target))) target = magnitude
    at hround ⊢
  by_cases hrange : magnitude.exponent ≤ 971
  · rw [if_pos hrange] at hround
    have hcanonical : (FloatParts.finite negative magnitude).Canonical :=
      BinaryFormat.admits_of_round (by decide) (by decide) hround
    rw [packed_unpacked hcanonical, nearestFloat, hround]
  · rw [if_neg hrange] at hround
    have hcanonical : (FloatParts.infinite negative).Canonical := trivial
    have hsignificand : magnitude.significand ≠ 0 := by
      rw [← hmagnitude] at hrange ⊢
      exact (significand_carried_pos hfits (not_le.mp hrange)).ne'
    rw [nearestFloat, hround, FloatParts.unpacked_of_ne_zero hsignificand,
      packed_of_large _ (not_le.mp hrange)]
    exact packed_unpacked hcanonical

theorem exists_ratio (hnonneg : 0 ≤ value) : ∃ ratio : Ratio, ratio.value = value := by
  refine ⟨⟨value.num.toNat, value.den, value.pos⟩, ?_⟩
  have hnum : ((value.num.toNat : ℕ) : ℚ) = value.num := by
    exact_mod_cast Int.toNat_of_nonneg (Rat.num_nonneg.mpr hnonneg)
  rw [Ratio.value, hnum, Rat.num_div_den]

/-- Rounding a significand rounds what it stands for correctly. -/
theorem rounds_roundWithAccuracy (negative : Bool)
    (hvalue : Represents (.ofMantissaAndAccuracy mantissa accuracy) value)
    (hle : exponent ≤ Format.binary64.targetExponent (totalExponent mantissa exponent))
    (hpos : 0 < value) :
    BinaryFormat.double.Rounds negative (value * 2 ^ exponent)
      (packed (roundWithAccuracy Format.binary64 (FloatParts.sign negative) mantissa exponent
        accuracy)) := by
  have hscaled : 0 < value * 2 ^ exponent := by positivity
  obtain ⟨ratio, hratio⟩ := exists_ratio hscaled.le
  obtain ⟨target, hfits, hround⟩ := roundWithAccuracy_eq negative hvalue hle
  rw [← hratio] at hfits hround hscaled ⊢
  rw [hround, packed_carried negative hscaled hfits]
  exact rounds_nearestFloat negative ratio

/-- A significand that is widened has the same total exponent. -/
theorem totalExponent_shiftLeft (hpos : 0 < mantissa) (exponent : ℤ) (count : ℕ) :
    totalExponent (mantissa <<< count) (exponent - count) = totalExponent mantissa exponent := by
  have hwide : mantissa <<< count = mantissa * 2 ^ count := Nat.shiftLeft_eq _ _
  have hwidePos : 0 < mantissa * 2 ^ count := by positivity
  have hlog : (mantissa <<< count).log2 = mantissa.log2 + count := by
    rw [hwide, Nat.log2_eq_iff hwidePos.ne', add_right_comm, pow_add, pow_add]
    exact ⟨Nat.mul_le_mul_right _ (Nat.log2_self_le hpos.ne'),
      Nat.mul_lt_mul_of_pos_right Nat.lt_log2_self (by positivity)⟩
  rw [totalExponent, totalExponent, hlog]
  omega

/-- A significand that is widened has the same value. -/
theorem shiftLeft_value (mantissa count : ℕ) (exponent : ℤ) :
    ((mantissa <<< count : ℕ) : ℚ) * 2 ^ (exponent - count) = mantissa * 2 ^ exponent := by
  rw [Nat.shiftLeft_eq, zpow_sub₀ two_ne_zero, zpow_natCast]
  push_cast
  field_simp

/-- Rounding a whole significand, which may have to be widened first. -/
theorem rounds_round (negative : Bool) (hpos : 0 < mantissa) :
    BinaryFormat.double.Rounds negative (mantissa * 2 ^ exponent)
      (packed (UnpackedFloat.round Format.binary64 (FloatParts.sign negative) mantissa
        exponent)) := by
  rw [UnpackedFloat.round, decreaseExponent]
  generalize htarget : Format.binary64.targetExponent (totalExponent mantissa exponent) = target
  generalize hcount : (exponent - target).toNat = count
  have hwidePos : 0 < mantissa <<< count := by
    rw [Nat.shiftLeft_eq]
    positivity
  have hle : exponent - count ≤ Format.binary64.targetExponent
      (totalExponent (mantissa <<< count) (exponent - count)) := by
    rw [totalExponent_shiftLeft hpos, htarget]
    omega
  rw [← shiftLeft_value mantissa count exponent]
  exact rounds_roundWithAccuracy negative (.whole _) hle (Nat.cast_pos.mpr hwidePos)

end Rounding

end Lindenmayer
