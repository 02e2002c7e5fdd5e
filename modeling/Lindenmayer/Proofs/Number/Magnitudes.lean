import Lindenmayer.Proofs.Number.Rounding

/-!
# Magnitudes of a format

The magnitudes of a format are ordered by their exponents first. Each one but the largest has a next
one a unit above it, and every number with few enough digits is one of them.
-/

namespace Lindenmayer

/-- The rational number that a magnitude is. -/
def Magnitude.value (magnitude : Magnitude) : ℚ :=
  magnitude.significand * 2 ^ magnitude.exponent

/-- A magnitude is a multiple of every power of two up to its own one. -/
theorem Magnitude.exists_multiple {magnitude : Magnitude} {exponent : ℤ}
    (hle : exponent ≤ magnitude.exponent) :
    ∃ number : ℕ, magnitude.value = number * 2 ^ exponent := by
  obtain ⟨shift, hshift⟩ := Int.le.dest hle
  refine ⟨magnitude.significand * 2 ^ shift, ?_⟩
  rw [value, ← hshift, zpow_add₀ two_ne_zero, zpow_natCast]
  push_cast
  ring

namespace BinaryFormat

/-- A format has the magnitudes of another one and those half way between them. -/
structure Refines (fine coarse : BinaryFormat) : Prop where
  limit_le : 2 * coarse.limit ≤ fine.limit
  min_lt : fine.minExponent < coarse.minExponent
  max_le : coarse.maxExponent ≤ fine.maxExponent

variable {format fine coarse : BinaryFormat} {magnitude first second : Magnitude} {exponent : ℤ}

/-- A magnitude with a lesser exponent is less than half of what fills the precision at a greater
one. -/
theorem Admits.two_mul_lt (hadmits : format.Admits magnitude)
    (hlt : magnitude.exponent < exponent) : 2 * magnitude.value < format.limit * 2 ^ exponent := by
  have hlimit := format.limit_pos
  have hpower : (0 : ℚ) < 2 ^ magnitude.exponent := by positivity
  have hbelow : (magnitude.significand : ℚ) < format.limit := by exact_mod_cast hadmits.lt_limit
  have hdouble : 2 * (2 : ℚ) ^ magnitude.exponent ≤ 2 ^ exponent := by
    rw [mul_comm, ← zpow_add_one₀ two_ne_zero]
    exact zpow_le_zpow_right₀ one_le_two hlt
  calc 2 * magnitude.value
      = magnitude.significand * (2 * 2 ^ magnitude.exponent) := by
        rw [Magnitude.value]
        ring
    _ < format.limit * (2 * 2 ^ magnitude.exponent) := by gcongr
    _ ≤ format.limit * 2 ^ exponent := by gcongr

theorem Admits.lt_of_exponent_lt (hfirst : format.Admits first) (hsecond : format.Admits second)
    (hlt : first.exponent < second.exponent) : first.value < second.value := by
  have hmin := hfirst.min_le
  have hfills : (format.limit : ℚ) ≤ 2 * second.significand := by
    exact_mod_cast hsecond.fills.resolve_right (by omega)
  have hpower : (0 : ℚ) < 2 ^ second.exponent := by positivity
  have hfilled : format.limit * 2 ^ second.exponent ≤ 2 * second.value := by
    rw [Magnitude.value, ← mul_assoc]
    gcongr
  linarith [hfirst.two_mul_lt hlt]

/-- Magnitudes of a format are ordered by their exponents first. -/
theorem Admits.lt_iff (hfirst : format.Admits first) (hsecond : format.Admits second) :
    first.value < second.value ↔ first.exponent < second.exponent ∨
      first.exponent = second.exponent ∧ first.significand < second.significand := by
  rcases lt_trichotomy first.exponent second.exponent with hlt | heq | hgt
  · simp only [hfirst.lt_of_exponent_lt hsecond hlt, hlt, true_or]
  · have hpower : (0 : ℚ) < 2 ^ second.exponent := by positivity
    rw [Magnitude.value, Magnitude.value, heq, mul_lt_mul_iff_left₀ hpower, Nat.cast_lt]
    simp
  · have hless := hsecond.lt_of_exponent_lt hfirst hgt
    simp only [hless.not_gt, hgt.not_gt, hgt.ne', false_and, or_self]

/-- The next magnitude is at least a unit greater. -/
theorem Admits.succ_le (hfirst : format.Admits first) (hsecond : format.Admits second)
    (hlt : first.value < second.value) :
    (first.significand + 1 : ℕ) * (2 : ℚ) ^ first.exponent ≤ second.value := by
  have horder := (hfirst.lt_iff hsecond).mp hlt
  have hle : first.exponent ≤ second.exponent := by omega
  obtain ⟨number, hvalue⟩ := Magnitude.exists_multiple hle
  have hpower : (0 : ℚ) < 2 ^ first.exponent := by positivity
  rw [hvalue] at hlt ⊢
  have hless := lt_of_mul_lt_mul_right hlt hpower.le
  rw [Nat.cast_lt] at hless
  gcongr
  exact hless

theorem largest_value (format : BinaryFormat) :
    format.largest.value = (format.limit - 1) * 2 ^ format.maxExponent := by
  have hlimit : 0 < format.limit := by exact_mod_cast format.limit_pos
  rw [Magnitude.value, largest, Nat.cast_pred hlimit]

/-- Every number of the right size with few enough digits is a magnitude of the format. -/
theorem exists_admits {significand : ℕ} (hlimit : significand < format.limit)
    (hmin : format.minExponent ≤ exponent) (hmax : exponent ≤ format.maxExponent) :
    ∃ magnitude, format.Admits magnitude ∧ magnitude.value = significand * 2 ^ exponent := by
  -- The significand is doubled until it fills the precision or the exponent is the least one.
  induction hcount : (exponent - format.minExponent).toNat generalizing significand exponent with
  | zero => exact ⟨⟨significand, exponent⟩, ⟨hlimit, .inr (by dsimp only; omega), hmin, hmax⟩, rfl⟩
  | succ count ih =>
      by_cases hfills : format.limit ≤ 2 * significand
      · exact ⟨⟨significand, exponent⟩, ⟨hlimit, .inl hfills, hmin, hmax⟩, rfl⟩
      · have hdoubled : 2 * significand < format.limit := not_le.mp hfills
        have hmin' : format.minExponent ≤ exponent - 1 := by omega
        obtain ⟨magnitude, hadmits, hvalue⟩ := ih hdoubled hmin' (by omega) (by omega)
        refine ⟨magnitude, hadmits, ?_⟩
        rw [hvalue, zpow_sub_one₀ two_ne_zero]
        push_cast
        ring

theorem Refines.exists_wide (hrefines : fine.Refines coarse) (hadmits : coarse.Admits magnitude) :
    ∃ wide, fine.Admits wide ∧ wide.value = magnitude.value := by
  obtain ⟨hlimit, hmin, hmax⟩ := hrefines
  refine exists_admits ?_ (hmin.le.trans hadmits.min_le) (hadmits.le_max.trans hmax)
  have hbelow := hadmits.lt_limit
  omega

theorem admits_largest (hprecision : 0 < format.precision)
    (hrange : format.minExponent ≤ format.maxExponent) : format.Admits format.largest := by
  have hlimit : 2 ≤ format.limit := by exact_mod_cast two_le_limit hprecision
  refine ⟨?_, .inl ?_, hrange, le_rfl⟩ <;> rw [largest] <;> dsimp only <;> omega

theorem Admits.value_le_largest (hadmits : format.Admits magnitude) :
    magnitude.value ≤ format.largest.value := by
  have hlimit : 0 < format.limit := by exact_mod_cast format.limit_pos
  have hsignificand : (magnitude.significand : ℚ) ≤ format.limit - 1 := by
    rw [← Nat.cast_pred hlimit, Nat.cast_le]
    exact Nat.le_pred_of_lt hadmits.lt_limit
  have hexponent : (2 : ℚ) ^ magnitude.exponent ≤ 2 ^ format.maxExponent :=
    zpow_le_zpow_right₀ one_le_two hadmits.le_max
  rw [largest_value, Magnitude.value]
  have hnonneg : (0 : ℚ) ≤ format.limit - 1 := (Nat.cast_nonneg _).trans hsignificand
  gcongr

/-- A magnitude that is not the largest one has a next one a unit above it. -/
theorem Admits.exists_succ (hprecision : 0 < format.precision)
    (hadmits : format.Admits magnitude) :
    (∃ next, format.Admits next ∧
      next.value = (magnitude.significand + 1 : ℕ) * 2 ^ magnitude.exponent) ∨
        magnitude = format.largest := by
  obtain ⟨significand, exponent⟩ := magnitude
  obtain ⟨hlimit, -, hmin, hmax⟩ := hadmits
  dsimp only at hlimit hmin hmax ⊢
  have hhalf := two_mul_half_limit hprecision
  by_cases hcarry : significand + 1 < format.limit
  · exact .inl (exists_admits hcarry hmin hmax)
  · by_cases hlast : exponent + 1 ≤ format.maxExponent
    · -- At the limit the next magnitude has the next exponent.
      have hbelow : format.limit / 2 < format.limit := by omega
      obtain ⟨next, hnext, hvalue⟩ := exists_admits hbelow (by omega) hlast
      have hcast : ((significand + 1 : ℕ) : ℚ) = 2 * (format.limit / 2 : ℕ) := by
        exact_mod_cast (show significand + 1 = 2 * (format.limit / 2) by omega)
      refine .inl ⟨next, hnext, ?_⟩
      rw [hvalue, hcast, zpow_add_one₀ two_ne_zero]
      ring
    · refine .inr ?_
      rw [largest, Magnitude.mk.injEq]
      omega

end BinaryFormat

end Lindenmayer
