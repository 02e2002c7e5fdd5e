import Lindenmayer.Number.Binary
import Lindenmayer.Proofs.Number.Value

/-!
# Rounding to a binary format

Every positive value has one exponent at which it fits a format, and rounding finds it. So rounding
depends on the value of a ratio alone, returns the magnitudes of the format as they are, fails from
half a unit above the largest magnitude on, and gives zero up to half the least magnitude.
-/

namespace Lindenmayer.BinaryFormat

/-- A value lies below the limit of a format at an exponent, and it fills the precision there unless
the exponent is the least one. -/
structure Fits (format : BinaryFormat) (value : ℚ) (exponent : ℤ) : Prop where
  min_le : format.minExponent ≤ exponent
  lt_limit : value < format.limit * 2 ^ exponent
  fills : format.limit * 2 ^ exponent ≤ 2 * value ∨ exponent = format.minExponent

/-- The magnitudes of a format, each in the one form that rounding gives it. -/
structure Admits (format : BinaryFormat) (magnitude : Magnitude) : Prop where
  lt_limit : magnitude.significand < format.limit
  fills : format.limit ≤ 2 * magnitude.significand ∨ magnitude.exponent = format.minExponent
  min_le : format.minExponent ≤ magnitude.exponent
  le_max : magnitude.exponent ≤ format.maxExponent

variable {format : BinaryFormat} {ratio : Ratio} {value : ℚ} {exponent : ℤ}

theorem limit_cast (format : BinaryFormat) : (format.limit : ℚ) = 2 ^ format.precision := by
  change ((2 ^ format.precision : ℕ) : ℚ) = _
  push_cast
  rfl

theorem limit_pos (format : BinaryFormat) : (0 : ℚ) < format.limit := by
  rw [limit_cast]
  positivity

theorem limit_mul_zpow (format : BinaryFormat) (exponent : ℤ) :
    (format.limit : ℚ) * 2 ^ exponent = 2 ^ (exponent + format.precision) := by
  rw [limit_cast, zpow_add₀ two_ne_zero, zpow_natCast, mul_comm]

/-- The exponent at which a value fits is unique. -/
theorem Fits.eq {other : ℤ} (hfits : format.Fits value exponent)
    (hother : format.Fits value other) : exponent = other := by
  -- At the lesser of two exponents the value would be too large.
  have hnot : ∀ {low high : ℤ}, format.Fits value low → format.Fits value high → ¬ low < high := by
    intro low high hlow hhigh hlt
    have hmin := hlow.min_le
    rcases hhigh.fills with hfills | heq
    · have hbelow := hlow.lt_limit
      rw [limit_mul_zpow] at hfills hbelow
      have hpow : (2 : ℚ) ^ (low + format.precision + 1) ≤ 2 ^ (high + format.precision) :=
        zpow_le_zpow_right₀ one_le_two (by omega)
      rw [zpow_add_one₀ two_ne_zero] at hpow
      linarith
    · omega
  exact le_antisymm (not_lt.mp (hnot hother hfits)) (not_lt.mp (hnot hfits hother))

/-- A positive ratio lies between the powers of two that the lengths of its parts tell. -/
theorem value_bounds (hpos : 0 < ratio.value) :
    (2 : ℚ) ^ ((ratio.numerator.log2 : ℤ) - ratio.denominator.log2 - 1) < ratio.value ∧
      ratio.value < 2 ^ ((ratio.numerator.log2 : ℤ) - ratio.denominator.log2 + 1) := by
  have hnumerator : ratio.numerator ≠ 0 := Ratio.value_pos.mp hpos
  have hdenominator := ratio.denominator_pos_cast
  have hlow : (2 : ℚ) ^ ratio.numerator.log2 ≤ ratio.numerator := by
    exact_mod_cast Nat.log2_self_le hnumerator
  have hhigh : (ratio.numerator : ℚ) < 2 ^ (ratio.numerator.log2 + 1) := by
    exact_mod_cast Nat.lt_log2_self
  have hlow' : (2 : ℚ) ^ ratio.denominator.log2 ≤ ratio.denominator := by
    exact_mod_cast Nat.log2_self_le ratio.denominator_pos.ne'
  have hhigh' : (ratio.denominator : ℚ) < 2 ^ (ratio.denominator.log2 + 1) := by
    exact_mod_cast Nat.lt_log2_self
  rw [Ratio.value, lt_div_iff₀ hdenominator, div_lt_iff₀ hdenominator]
  constructor
  · calc (2 : ℚ) ^ ((ratio.numerator.log2 : ℤ) - ratio.denominator.log2 - 1) * ratio.denominator
        < 2 ^ ((ratio.numerator.log2 : ℤ) - ratio.denominator.log2 - 1) *
            2 ^ (ratio.denominator.log2 + 1) := by gcongr
      _ = 2 ^ ratio.numerator.log2 := by
          rw [← zpow_natCast, ← zpow_natCast, ← zpow_add₀ two_ne_zero]
          congr 1
          push_cast
          ring
      _ ≤ ratio.numerator := hlow
  · calc (ratio.numerator : ℚ) < 2 ^ (ratio.numerator.log2 + 1) := hhigh
      _ = 2 ^ ((ratio.numerator.log2 : ℤ) - ratio.denominator.log2 + 1) *
            2 ^ ratio.denominator.log2 := by
          rw [← zpow_natCast, ← zpow_natCast, ← zpow_add₀ two_ne_zero]
          congr 1
          push_cast
          ring
      _ ≤ 2 ^ ((ratio.numerator.log2 : ℤ) - ratio.denominator.log2 + 1) *
            ratio.denominator := by gcongr

/-- Rounding looks at a positive ratio where it fits. -/
theorem fits_exponentFor (format : BinaryFormat) (hpos : 0 < ratio.value) :
    format.Fits ratio.value (format.exponentFor ratio) := by
  obtain ⟨hlow, hhigh⟩ := value_bounds hpos
  unfold exponentFor
  extract_lets guess exact
  have hguess : guess + format.precision = ratio.numerator.log2 - ratio.denominator.log2 := by
    simp only [guess]
    omega
  have hexact : ratio.value < format.limit * 2 ^ exact ∧
      format.limit * 2 ^ exact ≤ 2 * ratio.value := by
    have hfloor : format.limit ≤ (ratio.scaleTwo (-guess)).floor ↔
        format.limit * 2 ^ guess ≤ ratio.value := by
      rw [Ratio.floor_eq, Nat.le_floor_iff (Ratio.value_nonneg _), Ratio.value_scaleTwo, zpow_neg,
        ← div_eq_mul_inv, le_div_iff₀ (by positivity)]
    have hdouble : 2 * (2 : ℚ) ^ (guess + format.precision - 1) =
        2 ^ (guess + format.precision) := by
      rw [← zpow_one_add₀ two_ne_zero]
      congr 1
      omega
    simp only [exact]
    -- The lengths of the parts leave two exponents, and the floor tells which of them it is.
    split
    next hle =>
      rw [hfloor] at hle
      rw [limit_mul_zpow, add_right_comm, hguess]
      rw [limit_mul_zpow, hguess] at hle
      refine ⟨hhigh, ?_⟩
      rw [zpow_add_one₀ two_ne_zero]
      linarith
    next hnot =>
      rw [hfloor, not_le] at hnot
      refine ⟨hnot, ?_⟩
      rw [limit_mul_zpow, ← hdouble, hguess]
      linarith
  refine ⟨le_max_right _ _, ?_, ?_⟩
  · apply hexact.1.trans_le
    have hlimit := format.limit_pos
    gcongr
    · exact one_le_two
    · exact le_max_left _ _
  · rcases le_total format.minExponent exact with hle | hle
    · rw [max_eq_left hle]
      exact Or.inl hexact.2
    · exact Or.inr (max_eq_right hle)

/-- Rounding, told by the value of the ratio and the exponent at which it fits. -/
theorem round_of_fits (hpos : 0 < ratio.value) (hfits : format.Fits ratio.value exponent) :
    format.round ratio =
      let significand := roundEven (ratio.value * 2 ^ (-exponent))
      let magnitude : Magnitude :=
        if significand = format.limit then ⟨format.limit / 2, exponent + 1⟩
        else ⟨significand, exponent⟩
      if magnitude.exponent ≤ format.maxExponent then some magnitude else none := by
  rw [round, if_neg (Ratio.value_pos.mp hpos), (format.fits_exponentFor hpos).eq hfits]
  simp only [Ratio.nearest_eq, Ratio.value_scaleTwo]

theorem round_of_value_eq_zero (hzero : ratio.value = 0) :
    format.round ratio = some ⟨0, format.minExponent⟩ := by
  rw [round, if_pos (Ratio.value_eq_zero.mp hzero)]

/-- Ratios of one value are rounded alike. -/
theorem round_congr (format : BinaryFormat) {first second : Ratio}
    (hvalue : first.value = second.value) : format.round first = format.round second := by
  rcases first.value_nonneg.eq_or_lt with hzero | hpos
  · rw [round_of_value_eq_zero hzero.symm, round_of_value_eq_zero (hvalue ▸ hzero.symm)]
  · have hfits := format.fits_exponentFor hpos
    rw [round_of_fits hpos hfits, round_of_fits (hvalue ▸ hpos) (hvalue ▸ hfits), hvalue]

/-- The magnitudes of a format are rounded to themselves. -/
theorem round_of_admits {magnitude : Magnitude} (hadmits : format.Admits magnitude)
    (hvalue : ratio.value = magnitude.significand * 2 ^ magnitude.exponent) :
    format.round ratio = some magnitude := by
  obtain ⟨significand, exponent⟩ := magnitude
  obtain ⟨hlt, hfills, hmin, hmax⟩ := hadmits
  dsimp only at hlt hfills hmin hmax hvalue
  rcases Nat.eq_zero_or_pos significand with rfl | hsignificand
  · have hexponent : exponent = format.minExponent := by
      apply hfills.resolve_left
      intro hle
      have hlimit := format.limit_pos
      rw [Nat.cast_pos] at hlimit
      omega
    rw [round_of_value_eq_zero (by simpa using hvalue), hexponent]
  · have hcast : (0 : ℚ) < significand := Nat.cast_pos.mpr hsignificand
    have hpos : 0 < ratio.value := by
      rw [hvalue]
      positivity
    have hfits : format.Fits ratio.value exponent := by
      refine ⟨hmin, ?_, hfills.imp_left fun hle => ?_⟩
      · rw [hvalue]
        gcongr
      · have hle' : (format.limit : ℚ) ≤ 2 * significand := by exact_mod_cast hle
        rw [hvalue, ← mul_assoc]
        gcongr
    have hscaled : ratio.value * 2 ^ (-exponent) = significand := by
      rw [hvalue, mul_assoc, ← zpow_add₀ two_ne_zero, add_neg_cancel, zpow_zero, mul_one]
    rw [round_of_fits hpos hfits, hscaled, roundEven_natCast]
    simp only [hlt.ne, if_false, if_pos hmax]

theorem two_le_limit (hprecision : 0 < format.precision) : (2 : ℚ) ≤ format.limit := by
  rw [limit_cast]
  exact le_self_pow₀ one_le_two hprecision.ne'

theorem two_mul_half_limit (hprecision : 0 < format.precision) :
    2 * (format.limit / 2) = format.limit := by
  obtain ⟨count, hcount⟩ := Nat.exists_eq_succ_of_ne_zero hprecision.ne'
  rw [limit, hcount]
  exact Nat.mul_div_cancel' ⟨2 ^ count, Nat.mul_comm ..⟩

theorem half_limit_even (hprecision : 1 < format.precision) : format.limit / 2 % 2 = 0 := by
  obtain ⟨count, hcount⟩ := Nat.exists_eq_add_of_le hprecision
  have hlimit : format.limit = 2 ^ 2 * 2 ^ count := by
    rw [limit, hcount]
    exact pow_add 2 2 count
  omega

/-- Rounding carries over to the next exponent from half a unit below the limit on. -/
theorem roundEven_eq_limit_iff (hprecision : 0 < format.precision)
    (hfits : format.Fits ratio.value exponent) :
    roundEven (ratio.value * 2 ^ (-exponent)) = format.limit ↔
      (2 * (format.limit : ℚ) - 1) * 2 ^ exponent ≤ 2 * ratio.value := by
  have hnonneg := ratio.value_nonneg
  have hhalf := two_mul_half_limit hprecision
  have heven : format.limit % 2 = 0 := by omega
  have hscaled : ratio.value * 2 ^ (-exponent) < format.limit := by
    rw [zpow_neg, ← div_eq_mul_inv, div_lt_iff₀ (by positivity)]
    exact hfits.lt_limit
  rw [roundEven_eq_iff_of_even (by positivity) heven hscaled, zpow_neg, ← div_eq_mul_inv,
    ← mul_div_assoc, le_div_iff₀ (by positivity)]

/-- A value is beyond the range of a format from half a unit above its largest magnitude on. -/
theorem round_eq_none_iff (hprecision : 0 < format.precision)
    (hrange : format.minExponent ≤ format.maxExponent) :
    format.round ratio = none ↔
      (2 * (format.limit : ℚ) - 1) * 2 ^ format.maxExponent ≤ 2 * ratio.value := by
  have hlimit := two_le_limit hprecision
  have hmax : (0 : ℚ) < 2 ^ format.maxExponent := by positivity
  rcases ratio.value_nonneg.eq_or_lt with hzero | hpos
  · rw [round_of_value_eq_zero hzero.symm, ← hzero]
    refine ⟨fun hnone => by simp at hnone, fun hle => ?_⟩
    nlinarith
  · have hfits := format.fits_exponentFor hpos
    rw [round_of_fits hpos hfits]
    generalize format.exponentFor ratio = exponent at hfits
    have hcarry := roundEven_eq_limit_iff hprecision hfits
    obtain ⟨hmin, hlt, hfills⟩ := hfits
    rcases lt_trichotomy exponent format.maxExponent with hbelow | rfl | habove
    · -- Below the largest exponent the value stays under the range even if it carries.
      have hpow : (2 : ℚ) ^ exponent * 2 ≤ 2 ^ format.maxExponent := by
        rw [← zpow_add_one₀ two_ne_zero]
        exact zpow_le_zpow_right₀ one_le_two hbelow
      refine ⟨fun hnone => ?_, fun hle => ?_⟩
      · have hcarried : exponent + 1 ≤ format.maxExponent := hbelow
        dsimp only at hnone
        by_cases hfull : roundEven (ratio.value * 2 ^ (-exponent)) = format.limit
        · rw [if_pos hfull, if_pos hcarried] at hnone
          exact absurd hnone (Option.some_ne_none _)
        · rw [if_neg hfull, if_pos hbelow.le] at hnone
          exact absurd hnone (Option.some_ne_none _)
      · nlinarith
    · -- At the largest exponent it is the carry that leaves the range.
      rw [← hcarry]
      dsimp only
      by_cases hfull :
          roundEven (ratio.value * 2 ^ (-format.maxExponent)) = format.limit
      · rw [if_pos hfull, if_neg (not_le.mpr (lt_add_one _))]
        exact iff_of_true rfl hfull
      · rw [if_neg hfull, if_pos le_rfl]
        exact iff_of_false (Option.some_ne_none _) hfull
    · have hpow : (2 : ℚ) ^ format.maxExponent * 2 ≤ 2 ^ exponent := by
        rw [← zpow_add_one₀ two_ne_zero]
        exact zpow_le_zpow_right₀ one_le_two habove
      have hfilled := hfills.resolve_right (by omega)
      refine ⟨fun _ => by nlinarith, fun _ => ?_⟩
      dsimp only
      split <;> rw [if_neg] <;> simp only <;> omega

theorem round_of_small (hprecision : 0 < format.precision)
    (hrange : format.minExponent ≤ format.maxExponent)
    (hsmall : 2 * ratio.value ≤ 2 ^ format.minExponent) :
    format.round ratio = some ⟨0, format.minExponent⟩ := by
  have hlimit := two_le_limit hprecision
  have hmin : (0 : ℚ) < 2 ^ format.minExponent := by positivity
  rcases ratio.value_nonneg.eq_or_lt with hzero | hpos
  · exact round_of_value_eq_zero hzero.symm
  · have hfits : format.Fits ratio.value format.minExponent :=
      ⟨le_rfl, by nlinarith, Or.inr rfl⟩
    have hzero : roundEven (ratio.value * 2 ^ (-format.minExponent)) = 0 := by
      apply roundEven_eq_zero
      rw [zpow_neg, ← div_eq_mul_inv, ← mul_div_assoc, div_le_one hmin]
      exact hsmall
    have hne : 0 ≠ format.limit := by
      rintro heq
      rw [← heq, Nat.cast_zero] at hlimit
      linarith
    rw [round_of_fits hpos hfits, hzero]
    simp only [hne, if_false, if_pos hrange]

end Lindenmayer.BinaryFormat
