import Lindenmayer.Number.Ratio
import Mathlib.Algebra.Order.Field.Power
import Mathlib.Algebra.Order.Floor.Semifield
import Mathlib.Data.Rat.Floor
import Mathlib.Tactic.FieldSimp
import Mathlib.Tactic.Linarith

/-!
# Values of ratios

What is done with ratios depends on their values as rational numbers alone: scaling multiplies the
value by a power, and both ways to make a whole number of a ratio are functions of its value.
-/

namespace Lindenmayer

/-- The nearest whole number to a rational one that is not negative; a tie goes to the even
neighbour. -/
def roundEven (value : ℚ) : ℕ :=
  match compare (2 * (value - ⌊value⌋₊)) 1 with
  | .lt => ⌊value⌋₊
  | .eq => ⌊value⌋₊ + ⌊value⌋₊ % 2
  | .gt => ⌊value⌋₊ + 1

@[simp] theorem roundEven_natCast (number : ℕ) : roundEven number = number := by
  have hcompare : compare (2 * ((number : ℚ) - ⌊(number : ℚ)⌋₊)) 1 = .lt := by
    rw [Nat.floor_natCast, sub_self, mul_zero]
    exact compare_lt_iff_lt.mpr one_pos
  rw [roundEven, hcompare]
  exact Nat.floor_natCast number

/-- What is below a half rounds down, and a half does so to an even number. -/
theorem roundEven_eq_zero {value : ℚ} (hvalue : 2 * value ≤ 1) : roundEven value = 0 := by
  have hfloor : ⌊value⌋₊ = 0 := Nat.floor_eq_zero.mpr (by linarith)
  have hne : compare (2 * (value - ⌊value⌋₊)) 1 ≠ .gt := by
    rw [hfloor, Nat.cast_zero, sub_zero]
    exact compare_le_iff_le.mpr hvalue
  unfold roundEven
  split
  next => exact hfloor
  next => rw [hfloor]
  next hgt => exact absurd hgt hne

/-- Rounding goes up to an even number exactly from half a unit below it on. -/
theorem roundEven_eq_iff_of_even {value : ℚ} {number : ℕ} (hnonneg : 0 ≤ value)
    (heven : number % 2 = 0) (hlt : value < number) :
    roundEven value = number ↔ 2 * (number : ℚ) - 1 ≤ 2 * value := by
  have hlow := Nat.floor_le hnonneg
  have hhigh := Nat.lt_floor_add_one value
  have hfloor : ⌊value⌋₊ < number := (Nat.floor_lt hnonneg).mpr hlt
  have hstep : (⌊value⌋₊ : ℚ) + 1 ≤ number := by exact_mod_cast hfloor
  unfold roundEven
  split
  next hcompare =>
    rw [compare_lt_iff_lt] at hcompare
    exact ⟨fun heq => absurd heq hfloor.ne, fun hle => by linarith⟩
  next hcompare =>
    -- A tie goes up exactly if the number below it is odd.
    rw [compare_eq_iff_eq] at hcompare
    constructor
    · intro heq
      have hodd : ⌊value⌋₊ + 1 = number := by omega
      have hcast : (⌊value⌋₊ : ℚ) + 1 = number := by exact_mod_cast hodd
      linarith
    · intro hle
      have hcast : (number : ℚ) ≤ ⌊value⌋₊ + 1 := by linarith
      have hnat : number ≤ ⌊value⌋₊ + 1 := by exact_mod_cast hcast
      omega
  next hcompare =>
    rw [compare_gt_iff_gt] at hcompare
    constructor
    · intro heq
      have hcast : (⌊value⌋₊ : ℚ) + 1 = number := by exact_mod_cast heq
      linarith
    · intro hle
      have hcast : (number : ℚ) - 1 < ⌊value⌋₊ + 1 := by linarith
      have hnat : number < ⌊value⌋₊ + 1 + 1 := by
        have : (number : ℚ) < ⌊value⌋₊ + 1 + 1 := by linarith
        exact_mod_cast this
      omega

theorem roundEven_le {value : ℚ} {number : ℕ} (hnonneg : 0 ≤ value) (hle : value ≤ number) :
    roundEven value ≤ number := by
  rcases hle.eq_or_lt with rfl | hlt
  · rw [roundEven_natCast]
  · have hfloor : ⌊value⌋₊ < number := (Nat.floor_lt hnonneg).mpr hlt
    unfold roundEven
    split <;> omega

theorem le_roundEven {value : ℚ} {number : ℕ} (hle : (number : ℚ) ≤ value) :
    number ≤ roundEven value := by
  have hfloor : number ≤ ⌊value⌋₊ := Nat.le_floor hle
  unfold roundEven
  split <;> omega

section Nearest

variable {value : ℚ}

theorem abs_roundEven_sub_le (hnonneg : 0 ≤ value) : 2 * |(roundEven value : ℚ) - value| ≤ 1 := by
  have hlow := Nat.floor_le hnonneg
  have hhigh := Nat.lt_floor_add_one value
  have hparity : ((⌊value⌋₊ % 2 : ℕ) : ℚ) ≤ 1 := by exact_mod_cast (show ⌊value⌋₊ % 2 ≤ 1 by omega)
  have hparity' : (0 : ℚ) ≤ (⌊value⌋₊ % 2 : ℕ) := Nat.cast_nonneg _
  rw [← abs_two, ← abs_mul, abs_le]
  unfold roundEven
  split
  next hcompare =>
    rw [compare_lt_iff_lt] at hcompare
    constructor <;> linarith
  next hcompare =>
    rw [compare_eq_iff_eq] at hcompare
    push_cast at hparity hparity' ⊢
    constructor <;> linarith
  next hcompare =>
    rw [compare_gt_iff_gt] at hcompare
    push_cast
    constructor <;> linarith

/-- What is half a unit away was rounded to an even number. -/
theorem roundEven_even (hnonneg : 0 ≤ value) (htie : 2 * |(roundEven value : ℚ) - value| = 1) :
    roundEven value % 2 = 0 := by
  have hlow := Nat.floor_le hnonneg
  have hhigh := Nat.lt_floor_add_one value
  unfold roundEven at htie ⊢
  split at htie
  next hcompare =>
    rw [compare_lt_iff_lt] at hcompare
    rw [abs_of_nonpos (by linarith)] at htie
    linarith
  next => omega
  next hcompare =>
    rw [compare_gt_iff_gt] at hcompare
    push_cast at htie
    rw [abs_of_nonneg (by linarith)] at htie
    linarith

/-- No whole number is nearer than the one of rounding, and only an even one has an equal. -/
theorem roundEven_nearest (hnonneg : 0 ≤ value) (number : ℕ) :
    |(roundEven value : ℚ) - value| ≤ |(number : ℚ) - value| ∧
      (|(roundEven value : ℚ) - value| = |(number : ℚ) - value| → roundEven value ≠ number →
        roundEven value % 2 = 0) := by
  rcases eq_or_ne (roundEven value) number with hsame | hne
  · rw [hsame]
    exact ⟨le_rfl, fun _ hne => absurd rfl hne⟩
  · have happart : (1 : ℚ) ≤ |(roundEven value : ℚ) - number| := by
      have hne' : (roundEven value : ℤ) - number ≠ 0 := by omega
      exact_mod_cast Int.one_le_abs hne'
    have hbetween := abs_sub_le (roundEven value : ℚ) value number
    rw [abs_sub_comm value] at hbetween
    have hhalf := abs_roundEven_sub_le hnonneg
    refine ⟨by linarith, fun htie _ => roundEven_even hnonneg (by linarith)⟩

end Nearest

namespace Ratio

/-- The rational number that a ratio is. -/
def value (ratio : Ratio) : ℚ :=
  ratio.numerator / ratio.denominator

theorem denominator_pos_cast (ratio : Ratio) : (0 : ℚ) < ratio.denominator :=
  Nat.cast_pos.mpr ratio.denominator_pos

theorem value_nonneg (ratio : Ratio) : 0 ≤ ratio.value :=
  div_nonneg (Nat.cast_nonneg _) (Nat.cast_nonneg _)

theorem value_eq_zero {ratio : Ratio} : ratio.value = 0 ↔ ratio.numerator = 0 := by
  rw [value, div_eq_zero_iff, Nat.cast_eq_zero]
  exact or_iff_left ratio.denominator_pos_cast.ne'

theorem value_pos {ratio : Ratio} : 0 < ratio.value ↔ ratio.numerator ≠ 0 := by
  rw [ratio.value_nonneg.lt_iff_ne', ne_eq, value_eq_zero]

@[simp] theorem value_ofNat (number : ℕ) : (ofNat number).value = number := by
  simp [value, ofNat]

@[simp] theorem value_scale (ratio : Ratio) (base : ℕ) (hbase : 0 < base) (exponent : ℤ) :
    (ratio.scale base hbase exponent).value = ratio.value * (base : ℚ) ^ exponent := by
  have hdenominator := ratio.denominator_pos_cast.ne'
  cases exponent with
  | ofNat exponent =>
      change ((ratio.numerator * base ^ exponent : ℕ) : ℚ) / ratio.denominator = _
      rw [Int.ofNat_eq_natCast, zpow_natCast, value]
      push_cast
      ring
  | negSucc exponent =>
      change (ratio.numerator : ℚ) / ((ratio.denominator * base ^ (exponent + 1) : ℕ) : ℚ) = _
      rw [zpow_negSucc, value]
      push_cast
      rw [div_mul_eq_div_div, div_eq_mul_inv _ ((base : ℚ) ^ (exponent + 1))]

@[simp] theorem value_scaleTwo (ratio : Ratio) (exponent : ℤ) :
    (ratio.scaleTwo exponent).value = ratio.value * 2 ^ exponent :=
  ratio.value_scale 2 (by decide) exponent

@[simp] theorem value_scaleTen (ratio : Ratio) (exponent : ℤ) :
    (ratio.scaleTen exponent).value = ratio.value * 10 ^ exponent :=
  ratio.value_scale 10 (by decide) exponent

theorem floor_eq (ratio : Ratio) : ratio.floor = ⌊ratio.value⌋₊ :=
  (Nat.floor_div_eq_div _ _).symm

theorem ceil_eq (ratio : Ratio) : ratio.ceil = ⌈ratio.value⌉₊ := by
  have hpos := ratio.denominator_pos
  apply eq_of_forall_ge_iff
  intro bound
  rw [Nat.ceil_le, value, div_le_iff₀ ratio.denominator_pos_cast, ceil,
    Nat.div_le_iff_le_mul_add_pred hpos]
  have hcast : (ratio.numerator : ℚ) ≤ bound * ratio.denominator ↔
      ratio.numerator ≤ ratio.denominator * bound := by
    rw [mul_comm (ratio.denominator : ℕ)]
    exact_mod_cast Iff.rfl
  rw [hcast]
  omega

/-- The part of a ratio after its whole number. -/
theorem value_sub_floor (ratio : Ratio) :
    ratio.value - ⌊ratio.value⌋₊ =
      (ratio.numerator % ratio.denominator : ℕ) / (ratio.denominator : ℚ) := by
  rw [← floor_eq, floor, value]
  have hdenominator := ratio.denominator_pos_cast.ne'
  have hdivision : (ratio.numerator : ℚ) =
      ratio.denominator * (ratio.numerator / ratio.denominator : ℕ) +
        (ratio.numerator % ratio.denominator : ℕ) := by
    exact_mod_cast (Nat.div_add_mod ratio.numerator ratio.denominator).symm
  rw [eq_div_iff hdenominator, sub_mul, div_mul_cancel₀ _ hdenominator]
  linarith

theorem compareHalf_eq (ratio : Ratio) :
    ratio.compareHalf = compare (2 * (ratio.value - ⌊ratio.value⌋₊)) 1 := by
  have hdenominator := ratio.denominator_pos_cast
  rw [value_sub_floor, compareHalf, ← mul_div_assoc]
  rcases lt_trichotomy (2 * (ratio.numerator % ratio.denominator)) ratio.denominator with
    hlt | heq | hgt
  · rw [compare_lt_iff_lt.mpr hlt, compare_lt_iff_lt.mpr]
    rw [div_lt_one hdenominator]
    exact_mod_cast hlt
  · rw [compare_eq_iff_eq.mpr heq, compare_eq_iff_eq.mpr]
    rw [div_eq_one_iff_eq hdenominator.ne']
    exact_mod_cast heq
  · rw [compare_gt_iff_gt.mpr hgt, compare_gt_iff_gt.mpr]
    rw [one_lt_div hdenominator]
    exact_mod_cast hgt

/-- Rounding to the nearest whole number depends on the value alone. -/
theorem nearest_eq (ratio : Ratio) : ratio.nearest = roundEven ratio.value := by
  rw [nearest, compareHalf_eq, floor_eq]
  rfl

end Ratio

end Lindenmayer
