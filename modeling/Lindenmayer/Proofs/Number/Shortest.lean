import Lindenmayer.Proofs.Number.Decimal
import Lindenmayer.Proofs.Number.Nearest

/-!
# Shortest decimal forms

Of the decimal numbers that are rounded to a magnitude the shortest ones have the fewest digits. A
number is known as the shortest one from the multiples of two powers of ten: none of the greater
power is rounded to the magnitude, and no multiple of the lesser one is nearer to it.
-/

namespace Lindenmayer

open BinaryFormat

variable {format : BinaryFormat} {magnitude : Magnitude} {decimal : Decimal} {count : ℕ}

/-- A decimal number is rounded to a magnitude and has the fewest digits of those that are. None of
these with as few digits is nearer to the magnitude. -/
structure IsShortest (format : BinaryFormat) (magnitude : Magnitude) (decimal : Decimal) :
    Prop where
  rounds : format.RoundsTo decimal.ratio.value magnitude
  fewest : ∀ (other : Decimal) (count : ℕ), format.RoundsTo other.ratio.value magnitude →
    other.digits < 10 ^ count → decimal.digits < 10 ^ count
  nearest : ∀ other : Decimal, format.RoundsTo other.ratio.value magnitude →
    (∀ count, decimal.digits < 10 ^ count → other.digits < 10 ^ count) →
      |decimal.ratio.value - magnitude.value| ≤ |other.ratio.value - magnitude.value|

/-- A number with few digits is a multiple of a power of ten unless it is small. -/
theorem Decimal.exists_multiple (hdigits : decimal.digits < 10 ^ count) (exponent : ℤ) :
    (∃ number : ℕ, decimal.ratio.value = number * 10 ^ exponent) ∨
      decimal.ratio.value < 10 ^ (count + exponent - 1) := by
  rw [Decimal.value_ratio]
  rcases le_or_gt exponent decimal.exponent with hle | hlt
  · obtain ⟨shift, hshift⟩ := Int.le.dest hle
    refine .inl ⟨decimal.digits * 10 ^ shift, ?_⟩
    rw [← hshift, zpow_add₀ (by norm_num), zpow_natCast]
    push_cast
    ring
  · refine .inr ?_
    have hcast : (decimal.digits : ℚ) < 10 ^ (count : ℤ) := by
      rw [zpow_natCast]
      exact_mod_cast hdigits
    have hpower : (10 : ℚ) ^ decimal.exponent ≤ 10 ^ (exponent - 1) :=
      zpow_le_zpow_right₀ (by norm_num) (by omega)
    calc (decimal.digits : ℚ) * 10 ^ decimal.exponent
        < 10 ^ (count : ℤ) * 10 ^ decimal.exponent := by gcongr
      _ ≤ 10 ^ (count : ℤ) * 10 ^ (exponent - 1) := by gcongr
      _ = 10 ^ (count + exponent - 1) := by
          rw [← zpow_add₀ (by norm_num), add_sub_assoc]

/-- Within half a unit no other multiple of the unit is nearer. -/
theorem abs_sub_le_of_half {unit target : ℚ} {number : ℕ} (hunit : 0 < unit)
    (hhalf : 2 * |number * unit - target| ≤ unit) (other : ℕ) :
    |number * unit - target| ≤ |other * unit - target| := by
  rcases eq_or_ne number other with rfl | hne
  · exact le_rfl
  · have happart : unit ≤ |number * unit - other * unit| := by
      have hone : (1 : ℚ) ≤ |(number : ℚ) - other| := by
        exact_mod_cast Int.one_le_abs (show (number : ℤ) - other ≠ 0 by omega)
      rw [← sub_mul, abs_mul, abs_of_pos hunit]
      exact le_mul_of_one_le_left hunit.le hone
    have hbetween := abs_sub_le (number * unit) target (other * unit)
    rw [abs_sub_comm target] at hbetween
    linarith

theorem isShortest_of_multiples (hrounds : format.RoundsTo decimal.ratio.value magnitude)
    (hdigits : decimal.digits < 10 ^ (count + 1))
    (hlow : ∀ value, format.RoundsTo value magnitude → 10 ^ (count + decimal.exponent) ≤ value)
    (hnone : ∀ number : ℕ, ¬ format.RoundsTo (number * 10 ^ (decimal.exponent + 1)) magnitude)
    (hhalf : 2 * |decimal.ratio.value - magnitude.value| ≤ 10 ^ decimal.exponent) :
    IsShortest format magnitude decimal := by
  refine ⟨hrounds, fun other length hother hlength => ?_, fun other hother hlength => ?_⟩
  · by_contra hnot
    have hless : length < count + 1 :=
      (Nat.pow_lt_pow_iff_right (by decide)).mp ((not_lt.mp hnot).trans_lt hdigits)
    have hfew : other.digits < 10 ^ count :=
      hlength.trans_le (Nat.pow_le_pow_right (by decide) (Nat.le_of_lt_succ hless))
    rcases Decimal.exists_multiple hfew (decimal.exponent + 1) with ⟨number, hvalue⟩ | hsmall
    · exact hnone number (hvalue ▸ hother)
    · have hle := hlow _ hother
      rw [← add_assoc, add_sub_cancel_right] at hsmall
      linarith
  · rcases Decimal.exists_multiple (hlength _ hdigits) decimal.exponent with
      ⟨number, hvalue⟩ | hsmall
    · rw [hvalue]
      rw [Decimal.value_ratio] at hhalf ⊢
      exact abs_sub_le_of_half (by positivity) hhalf number
    · have hle := hlow _ hother
      have hsum : ((count + 1 : ℕ) : ℤ) + decimal.exponent - 1 = count + decimal.exponent := by
        push_cast
        ring
      rw [hsum] at hsmall
      linarith

/-- A shortest form is known by inequalities: the values that are rounded to the magnitude lie
between two multiples of the next power of ten, and the form is within half a unit of it. -/
theorem isShortest_of_round (count below : ℕ) {significand : ℕ} {exponent : ℤ}
    (hprecision : 1 < format.precision) (hrange : format.minExponent ≤ format.maxExponent)
    (hround : format.round decimal.ratio = some ⟨significand, exponent⟩) (hpos : 0 < significand)
    (hfills : format.limit ≤ 2 * (significand - 1) ∨ exponent = format.minExponent)
    (hdigits : decimal.digits < 10 ^ (count + 1))
    (hlow : 2 * 10 ^ (count + decimal.exponent) ≤ (2 * significand - 1 : ℚ) * 2 ^ exponent)
    (hbelow : 2 * (below * 10 ^ (decimal.exponent + 1)) < (2 * significand - 1 : ℚ) * 2 ^ exponent)
    (habove : (2 * significand + 1 : ℚ) * 2 ^ exponent <
      2 * ((below + 1) * 10 ^ (decimal.exponent + 1)))
    (hhalf : 2 * |decimal.digits * (10 : ℚ) ^ decimal.exponent - significand * 2 ^ exponent| ≤
      10 ^ decimal.exponent) :
    IsShortest format ⟨significand, exponent⟩ decimal := by
  have hbounds : ∀ value, format.RoundsTo value ⟨significand, exponent⟩ →
      (2 * significand - 1) * 2 ^ exponent ≤ 2 * value ∧
        2 * value ≤ (2 * significand + 1) * 2 ^ exponent := fun value hrounds =>
    hrounds.bounds (zero_lt_one.trans hprecision) hpos hfills
  refine isShortest_of_multiples (roundsTo_of_round hprecision hrange hround) hdigits
    (fun value hrounds => ?_) (fun number hrounds => ?_) ?_
  · have hvalue := (hbounds value hrounds).1
    linarith
  · obtain ⟨hleft, hright⟩ := hbounds _ hrounds
    have hpower : (0 : ℚ) < 10 ^ (decimal.exponent + 1) := by positivity
    have hless : (below : ℚ) < number :=
      lt_of_mul_lt_mul_right (show below * (10 : ℚ) ^ (decimal.exponent + 1) < _ by linarith)
        hpower.le
    have hmore : (number : ℚ) < below + 1 :=
      lt_of_mul_lt_mul_right (show number * (10 : ℚ) ^ (decimal.exponent + 1) < _ by linarith)
        hpower.le
    norm_cast at hless hmore
    omega
  · rw [Decimal.value_ratio]
    exact hhalf

end Lindenmayer
