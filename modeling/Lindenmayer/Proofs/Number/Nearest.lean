import Lindenmayer.Proofs.Number.Magnitudes

/-!
# Nearest magnitudes

Rounding gives the magnitude of a format that is nearest to a value, and of two equally near ones
the one with the even significand. A value has no rounding from half a unit above the largest
magnitude on.
-/

namespace Lindenmayer

namespace BinaryFormat

/-- The magnitude of a format that is nearest to a value. One that has an equal is even. -/
structure IsNearest (format : BinaryFormat) (value : ℚ) (magnitude : Magnitude) : Prop where
  admits : format.Admits magnitude
  nearest : ∀ other, format.Admits other → |magnitude.value - value| ≤ |other.value - value|
  even : ∀ other, format.Admits other → |magnitude.value - value| = |other.value - value| →
    magnitude.value ≠ other.value → magnitude.significand % 2 = 0

/-- Values from half a unit above the largest magnitude on are beyond the range of a format. -/
def Overflows (format : BinaryFormat) (value : ℚ) : Prop :=
  format.largest.value + 2 ^ format.maxExponent / 2 ≤ value

/-- A value is rounded to a magnitude of the format. -/
structure RoundsTo (format : BinaryFormat) (value : ℚ) (magnitude : Magnitude) : Prop where
  range : ¬ format.Overflows value
  nearest : format.IsNearest value magnitude

variable {format : BinaryFormat} {ratio : Ratio} {value : ℚ} {exponent : ℤ}
  {magnitude other : Magnitude}

/-- Of two points the nearer one is on the same side of their middle. -/
theorem two_mul_le_of_abs_le {first second : ℚ} (hlt : first < second)
    (hle : |first - value| ≤ |second - value|) : 2 * value ≤ first + second := by
  rw [← sq_le_sq] at hle
  nlinarith

theorem le_two_mul_of_abs_le {first second : ℚ} (hlt : first < second)
    (hle : |second - value| ≤ |first - value|) : first + second ≤ 2 * value := by
  rw [← sq_le_sq] at hle
  nlinarith

/-- Where a value fits, a multiple of the unit is as near to it as any magnitude of the format. -/
theorem Fits.exists_multiple (hprecision : 0 < format.precision)
    (hfits : format.Fits value exponent) (hother : format.Admits other) :
    ∃ number : ℕ, |number * (2 : ℚ) ^ exponent - value| ≤ |other.value - value| ∧
      (|number * (2 : ℚ) ^ exponent - value| = |other.value - value| →
        number * (2 : ℚ) ^ exponent = other.value) := by
  rcases le_or_gt exponent other.exponent with hle | hlt
  · obtain ⟨number, hvalue⟩ := Magnitude.exists_multiple hle
    exact ⟨number, by rw [hvalue], fun _ => hvalue.symm⟩
  · -- A magnitude with a lesser exponent lies below the least value that fills the precision.
    have hmin := hother.min_le
    have hfilled := hfits.fills.resolve_right (by omega)
    have hhalf : (2 : ℚ) * (format.limit / 2 : ℕ) = format.limit := by
      exact_mod_cast two_mul_half_limit hprecision
    have hlow : ((format.limit / 2 : ℕ) : ℚ) * 2 ^ exponent ≤ value := by
      rw [← hhalf] at hfilled
      linarith
    have hbelow : other.value < ((format.limit / 2 : ℕ) : ℚ) * 2 ^ exponent := by
      have hless := hother.two_mul_lt hlt
      rw [← hhalf] at hless
      linarith
    have hnearer : |((format.limit / 2 : ℕ) : ℚ) * 2 ^ exponent - value| <
        |other.value - value| := by
      rw [abs_of_nonpos (by linarith), abs_of_nonpos (by linarith)]
      linarith
    exact ⟨format.limit / 2, hnearer.le, fun heq => absurd heq hnearer.ne⟩

theorem abs_scaled_sub (number : ℕ) (value : ℚ) (exponent : ℤ) :
    |number * (2 : ℚ) ^ exponent - value| =
      |(number : ℚ) - value * 2 ^ (-exponent)| * 2 ^ exponent := by
  have hpower : (0 : ℚ) < 2 ^ exponent := by positivity
  rw [← abs_of_pos hpower, ← abs_mul, abs_of_pos hpower, sub_mul, mul_assoc value,
    ← zpow_add₀ two_ne_zero, neg_add_cancel, zpow_zero, mul_one]

theorem round_eq_none_iff_overflows (hprecision : 0 < format.precision)
    (hrange : format.minExponent ≤ format.maxExponent) :
    format.round ratio = none ↔ format.Overflows ratio.value := by
  rw [round_eq_none_iff hprecision hrange, Overflows, largest_value]
  constructor <;> intro hle <;> linarith

/-- What rounding gives is a magnitude of the format. -/
theorem admits_of_round (hprecision : 0 < format.precision)
    (hrange : format.minExponent ≤ format.maxExponent)
    (hround : format.round ratio = some magnitude) : format.Admits magnitude := by
  have hlimit : 0 < format.limit := by exact_mod_cast format.limit_pos
  have hhalf := two_mul_half_limit hprecision
  rcases ratio.value_nonneg.eq_or_lt with hzero | hpos
  · rw [round_of_value_eq_zero hzero.symm, Option.some.injEq] at hround
    subst hround
    exact ⟨hlimit, .inr rfl, le_rfl, hrange⟩
  · have hfits := format.fits_exponentFor hpos
    rw [round_of_fits hpos hfits] at hround
    generalize format.exponentFor ratio = exponent at hfits hround
    obtain ⟨hmin, hlt, hfills⟩ := hfits
    have hpower : (0 : ℚ) < 2 ^ exponent := by positivity
    have hscaled : ratio.value * 2 ^ (-exponent) = ratio.value / 2 ^ exponent := by
      rw [zpow_neg, div_eq_mul_inv]
    have hbelow : roundEven (ratio.value * 2 ^ (-exponent)) ≤ format.limit := by
      apply roundEven_le (by positivity)
      rw [hscaled, div_le_iff₀ hpower]
      exact hlt.le
    have habove : format.limit ≤ 2 * roundEven (ratio.value * 2 ^ (-exponent)) ∨
        exponent = format.minExponent := by
      refine hfills.imp_left fun hfilled => ?_
      have hle : format.limit / 2 ≤ roundEven (ratio.value * 2 ^ (-exponent)) := by
        apply le_roundEven
        have hcast : (2 : ℚ) * (format.limit / 2 : ℕ) = format.limit := by exact_mod_cast hhalf
        rw [hscaled, le_div_iff₀ hpower]
        rw [← hcast] at hfilled
        linarith
      omega
    dsimp only at hround
    by_cases hcarry : roundEven (ratio.value * 2 ^ (-exponent)) = format.limit
    · rw [if_pos hcarry, Option.ite_none_right_eq_some, Option.some.injEq] at hround
      obtain ⟨hmax, rfl⟩ := hround
      exact ⟨by dsimp only; omega, .inl hhalf.ge, by dsimp only; omega, hmax⟩
    · rw [if_neg hcarry, Option.ite_none_right_eq_some, Option.some.injEq] at hround
      obtain ⟨hmax, rfl⟩ := hround
      exact ⟨lt_of_le_of_ne hbelow hcarry, habove, hmin, hmax⟩

/-- What rounding gives at the exponent where a value fits: the rounded significand, which carries
over at the limit. -/
theorem exists_of_round (hprecision : 1 < format.precision) (hpos : 0 < ratio.value)
    (hfits : format.Fits ratio.value exponent) (hround : format.round ratio = some magnitude) :
    magnitude.value = roundEven (ratio.value * 2 ^ (-exponent)) * 2 ^ exponent ∧
      (roundEven (ratio.value * 2 ^ (-exponent)) % 2 = 0 → magnitude.significand % 2 = 0) := by
  rw [round_of_fits hpos hfits] at hround
  dsimp only at hround
  rw [Option.ite_none_right_eq_some, Option.some.injEq] at hround
  obtain ⟨-, rfl⟩ := hround
  split
  next hcarry =>
    have hhalf : (2 : ℚ) * (format.limit / 2 : ℕ) = format.limit := by
      exact_mod_cast two_mul_half_limit (zero_lt_one.trans hprecision)
    refine ⟨?_, fun _ => half_limit_even hprecision⟩
    rw [hcarry, Magnitude.value, zpow_add_one₀ two_ne_zero, ← hhalf]
    ring
  next => exact ⟨rfl, id⟩

/-- Rounding gives the nearest magnitude. -/
theorem isNearest_of_round (hprecision : 1 < format.precision)
    (hrange : format.minExponent ≤ format.maxExponent)
    (hround : format.round ratio = some magnitude) : format.IsNearest ratio.value magnitude := by
  have hprecision' : 0 < format.precision := zero_lt_one.trans hprecision
  have hadmits := admits_of_round hprecision' hrange hround
  rcases ratio.value_nonneg.eq_or_lt with hzero | hpos
  · rw [round_of_value_eq_zero hzero.symm, Option.some.injEq] at hround
    subst hround
    refine ⟨hadmits, fun other _ => ?_, fun _ _ _ _ => rfl⟩
    rw [← hzero, Magnitude.value, Nat.cast_zero, zero_mul, sub_zero, abs_zero]
    exact abs_nonneg _
  · have hfits := format.fits_exponentFor hpos
    obtain ⟨hvalue, hparity⟩ := exists_of_round hprecision hpos hfits hround
    generalize format.exponentFor ratio = exponent at hfits hvalue hparity
    have hpower : (0 : ℚ) < 2 ^ exponent := by positivity
    have hscaled : 0 ≤ ratio.value * 2 ^ (-exponent) := by positivity
    have hgrid : ∀ number : ℕ, |magnitude.value - ratio.value| ≤
        |number * 2 ^ exponent - ratio.value| := by
      intro number
      rw [hvalue, abs_scaled_sub, abs_scaled_sub]
      exact mul_le_mul_of_nonneg_right (roundEven_nearest hscaled number).1 hpower.le
    refine ⟨hadmits, fun other hother => ?_, fun other hother htie hne => ?_⟩
    · obtain ⟨number, hle, -⟩ := hfits.exists_multiple hprecision' hother
      exact (hgrid number).trans hle
    · obtain ⟨number, hle, hsame⟩ := hfits.exists_multiple hprecision' hother
      have htie' := le_antisymm (hgrid number) (hle.trans_eq htie.symm)
      have hother' := hsame (htie'.symm.trans htie)
      apply hparity
      rw [hvalue, abs_scaled_sub, abs_scaled_sub, mul_left_inj' hpower.ne'] at htie'
      refine (roundEven_nearest hscaled number).2 htie' fun heq => hne ?_
      rw [hvalue, heq, hother']

theorem roundsTo_of_round (hprecision : 1 < format.precision)
    (hrange : format.minExponent ≤ format.maxExponent)
    (hround : format.round ratio = some magnitude) : format.RoundsTo ratio.value magnitude := by
  refine ⟨?_, isNearest_of_round hprecision hrange hround⟩
  rw [← round_eq_none_iff_overflows (zero_lt_one.trans hprecision) hrange, hround]
  exact nofun

/-- Up to the largest magnitude no value overflows. -/
theorem not_overflows (hvalue : value ≤ format.largest.value) : ¬ format.Overflows value := by
  have hpower : (0 : ℚ) < 2 ^ format.maxExponent := by positivity
  rw [Overflows, not_le]
  linarith

/-- What is rounded to a magnitude is at most half a unit away from it, unless the unit below it is
smaller. -/
theorem RoundsTo.bounds (hprecision : 0 < format.precision) {significand : ℕ}
    (hrounds : format.RoundsTo value ⟨significand, exponent⟩) (hpos : 0 < significand)
    (hfills : format.limit ≤ 2 * (significand - 1) ∨ exponent = format.minExponent) :
    (2 * significand - 1) * 2 ^ exponent ≤ 2 * value ∧
      2 * value ≤ (2 * significand + 1) * 2 ^ exponent := by
  obtain ⟨hrange, hadmits, hnearest, -⟩ := hrounds
  have ⟨hlimit, _, hmin, hmax⟩ := hadmits
  have hpower : (0 : ℚ) < 2 ^ exponent := by positivity
  constructor
  · have hprevious : format.Admits ⟨significand - 1, exponent⟩ :=
      ⟨(Nat.sub_le _ _).trans_lt hlimit, hfills, hmin, hmax⟩
    have hvalue : (⟨significand - 1, exponent⟩ : Magnitude).value =
        (significand - 1) * 2 ^ exponent := by
      rw [Magnitude.value, Nat.cast_pred hpos]
    have hle := le_two_mul_of_abs_le (by rw [hvalue, Magnitude.value]; linarith)
      (hnearest _ hprevious)
    rw [hvalue, Magnitude.value] at hle
    linarith
  · rcases hadmits.exists_succ hprecision with ⟨next, hnext, hvalue⟩ | hlargest
    · push_cast at hvalue
      have hle := two_mul_le_of_abs_le (by rw [hvalue, Magnitude.value]; linarith)
        (hnearest _ hnext)
      rw [hvalue, Magnitude.value] at hle
      linarith
    · obtain ⟨rfl, rfl⟩ := Magnitude.mk.inj hlargest
      rw [Overflows, not_le, ← hlargest, Magnitude.value] at hrange
      linarith

end BinaryFormat

end Lindenmayer
