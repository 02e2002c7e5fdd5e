import Lindenmayer.Number.Decimal
import Lindenmayer.Proofs.Number.Double

/-!
# Decimal numbers read and written

A decimal number is read as the double nearest to its value, whatever its digits and its exponent
are. The digits chosen for a double stand for a number that is read as this double again.
-/

namespace Lindenmayer

theorem BinaryFormat.double_precision_pos : 0 < BinaryFormat.double.precision := by decide

theorem BinaryFormat.double_range :
    BinaryFormat.double.minExponent ≤ BinaryFormat.double.maxExponent := by decide

/-- A double is the nearest one to every ratio that rounds to its magnitude. -/
theorem nearestFloat_of_round {float : Float} {negative : Bool} {magnitude : Magnitude}
    {ratio : Ratio} (hparts : FloatParts.ofFloat float = .finite negative magnitude)
    (hround : BinaryFormat.double.round ratio = some magnitude) :
    nearestFloat negative ratio = float := by
  rw [nearestFloat, hround]
  change (FloatParts.finite negative magnitude).toFloat = float
  rw [← hparts, FloatParts.toFloat_ofFloat]

namespace Magnitude

@[simp] theorem value_ratio (magnitude : Magnitude) :
    magnitude.ratio.value = magnitude.significand * 2 ^ magnitude.exponent := by
  rw [ratio, Ratio.value_scaleTwo, Ratio.value_ofNat]

end Magnitude

namespace Decimal

@[simp] theorem value_ratio (decimal : Decimal) :
    decimal.ratio.value = decimal.digits * 10 ^ decimal.exponent := by
  rw [ratio, Ratio.value_scaleTen, Ratio.value_ofNat]

/-- A positive number with an exponent above 400 is beyond the range. -/
theorem round_of_large {decimal : Decimal} (hdigits : decimal.digits ≠ 0)
    (hlarge : 400 < decimal.exponent) : BinaryFormat.double.round decimal.ratio = none := by
  rw [BinaryFormat.round_eq_none_iff BinaryFormat.double_precision_pos BinaryFormat.double_range,
    value_ratio]
  have hone : (1 : ℚ) ≤ decimal.digits := by
    exact_mod_cast Nat.one_le_iff_ne_zero.mpr hdigits
  have hlimit : (2 * (BinaryFormat.double.limit : ℚ) - 1) ≤ 2 ^ (54 : ℤ) := by
    rw [BinaryFormat.limit_cast]
    change 2 * (2 : ℚ) ^ 53 - 1 ≤ _
    norm_num
  calc (2 * (BinaryFormat.double.limit : ℚ) - 1) * 2 ^ BinaryFormat.double.maxExponent
      ≤ 2 ^ (54 : ℤ) * 2 ^ (971 : ℤ) := mul_le_mul_of_nonneg_right hlimit (by positivity)
    _ ≤ (2 : ℚ) ^ (3 * decimal.exponent) := by
        rw [← zpow_add₀ two_ne_zero]
        exact zpow_le_zpow_right₀ one_le_two (by omega)
    _ = 8 ^ decimal.exponent := by
        rw [zpow_mul]
        norm_num
    _ ≤ 10 ^ decimal.exponent := by
        obtain ⟨exponent, hexponent⟩ := Int.eq_ofNat_of_zero_le (a := decimal.exponent) (by omega)
        rw [hexponent, zpow_natCast, zpow_natCast]
        gcongr
        norm_num
    _ ≤ 2 * (decimal.digits * 10 ^ decimal.exponent) := by
        have hpow : (0 : ℚ) < 10 ^ decimal.exponent := by positivity
        nlinarith

/-- A number below `2 ^ -1100` rounds to zero. -/
theorem round_of_tiny {decimal : Decimal}
    (htiny : decimal.digits.log2 + 1 + 3 * decimal.exponent < -1100) :
    BinaryFormat.double.round decimal.ratio = some ⟨0, -1074⟩ := by
  apply BinaryFormat.round_of_small BinaryFormat.double_precision_pos BinaryFormat.double_range
  rw [value_ratio]
  have hdigits : (decimal.digits : ℚ) ≤ 2 ^ ((decimal.digits.log2 : ℤ) + 1) := by
    have hlt : (decimal.digits : ℚ) < 2 ^ (decimal.digits.log2 + 1) := by
      exact_mod_cast Nat.lt_log2_self
    exact_mod_cast hlt.le
  have hpow : (10 : ℚ) ^ decimal.exponent ≤ 2 ^ (3 * decimal.exponent) := by
    obtain ⟨exponent, hexponent⟩ := Int.eq_ofNat_of_zero_le (a := -decimal.exponent) (by omega)
    have heq : decimal.exponent = -exponent := by omega
    rw [heq, zpow_mul, zpow_neg, zpow_neg, zpow_natCast, zpow_natCast]
    gcongr
    norm_num
  calc 2 * (decimal.digits * (10 : ℚ) ^ decimal.exponent)
      ≤ 2 * (2 ^ ((decimal.digits.log2 : ℤ) + 1) * 2 ^ (3 * decimal.exponent)) := by gcongr
    _ = 2 ^ (1 + ((decimal.digits.log2 : ℤ) + 1 + 3 * decimal.exponent)) := by
        rw [← zpow_add₀ two_ne_zero, ← zpow_one_add₀ two_ne_zero]
    _ ≤ 2 ^ BinaryFormat.double.minExponent := by
        apply zpow_le_zpow_right₀ one_le_two
        change _ ≤ (-1074 : ℤ)
        omega

/-- A decimal number is read as the double that is nearest to its value. -/
theorem toFloat_eq (decimal : Decimal) :
    decimal.toFloat = nearestFloat decimal.negative decimal.ratio := by
  unfold toFloat
  split
  next hdigits =>
    rw [nearestFloat, BinaryFormat.round_of_value_eq_zero (by rw [value_ratio, hdigits]; simp)]
    rfl
  next hdigits =>
    split
    next hlarge => rw [nearestFloat, round_of_large hdigits hlarge]
    next =>
      split
      next htiny => rw [nearestFloat, round_of_tiny htiny]
      next => rfl

/-- Numbers of one sign and one value are read alike. -/
theorem toFloat_congr {first second : Decimal} (hnegative : first.negative = second.negative)
    (hvalue : first.ratio.value = second.ratio.value) : first.toFloat = second.toFloat := by
  rw [toFloat_eq, toFloat_eq, nearestFloat, nearestFloat, hnegative,
    BinaryFormat.round_congr _ hvalue]

/-- All digits of a magnitude have its value. -/
theorem value_exact (negative : Bool) (magnitude : Magnitude) :
    (exact negative magnitude).ratio.value = magnitude.ratio.value := by
  obtain ⟨significand, exponent⟩ := magnitude
  rw [value_ratio, Magnitude.value_ratio]
  cases exponent with
  | ofNat exponent =>
      change ((significand * 2 ^ exponent : ℕ) : ℚ) * 10 ^ (0 : ℤ) =
        significand * 2 ^ (exponent : ℤ)
      rw [zpow_zero, mul_one, zpow_natCast]
      push_cast
      rfl
  | negSucc exponent =>
      change ((significand * 5 ^ (exponent + 1) : ℕ) : ℚ) * 10 ^ Int.negSucc exponent =
        significand * 2 ^ Int.negSucc exponent
      have hten : (10 : ℚ) ^ (exponent + 1) = 5 ^ (exponent + 1) * 2 ^ (exponent + 1) := by
        rw [← mul_pow]
        norm_num
      rw [zpow_negSucc, zpow_negSucc, hten]
      push_cast
      field_simp

theorem shorten_reads_back {negative : Bool} {magnitude : Magnitude} (count : ℕ) {best : Decimal}
    (hnegative : best.negative = negative)
    (hbest : BinaryFormat.double.round best.ratio = some magnitude) :
    (shorten negative magnitude count best).negative = negative ∧
      BinaryFormat.double.round (shorten negative magnitude count best).ratio = some magnitude := by
  induction count generalizing best with
  | zero => exact ⟨hnegative, hbest⟩
  | succ count ih =>
      unfold shorten
      extract_lets exponent
      split
      next shorter hfound =>
        have hreads : readsBack magnitude shorter = true := List.find?_some hfound
        refine ih ?_ (of_decide_eq_true hreads)
        have hmem := List.mem_of_find?_eq_some hfound
        unfold neighbours at hmem
        dsimp only at hmem
        split at hmem <;> simp only [List.mem_cons, List.not_mem_nil, or_false] at hmem <;>
          rcases hmem with rfl | rfl <;> rfl
      next => exact ⟨hnegative, hbest⟩

/-- The digits of a double are read as the double. -/
theorem toFloat_shortest {float : Float} {negative : Bool} {magnitude : Magnitude}
    (hparts : FloatParts.ofFloat float = .finite negative magnitude) :
    (shortest negative magnitude).toFloat = float := by
  have hadmits := FloatParts.admits_of_ofFloat hparts
  have hround : ∀ {ratio : Ratio}, ratio.value = magnitude.ratio.value →
      BinaryFormat.double.round ratio = some magnitude := fun hvalue =>
    BinaryFormat.round_of_admits hadmits (hvalue.trans magnitude.value_ratio)
  have hshortest : (shortest negative magnitude).negative = negative ∧
      BinaryFormat.double.round (shortest negative magnitude).ratio = some magnitude := by
    unfold shortest
    split
    next hzero =>
      refine ⟨rfl, hround ?_⟩
      rw [value_ratio, Magnitude.value_ratio, hzero]
      simp
    next =>
      refine shorten_reads_back 17 ?_ (hround (value_exact negative magnitude))
      unfold exact
      split <;> rfl
  rw [toFloat_eq, hshortest.1]
  exact nearestFloat_of_round hparts hshortest.2

end Decimal

end Lindenmayer
