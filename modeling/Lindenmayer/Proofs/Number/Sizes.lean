import Lindenmayer.Proofs.Number.Arithmetic

/-!
# Sizes of results

Rounding never crosses the value of a double: what is not below one is not rounded below it, and
what is not above one is not rounded above it. So a size is bounded through a calculation, and
infinity counts as a large size.
-/

namespace Lindenmayer

open BinaryFormat

/-- A value that some double has, sign apart. -/
def IsDouble (value : ℚ) : Prop :=
  ∃ magnitude, double.Admits magnitude ∧ magnitude.value = value

/-- A double without a sign that is not below a bound; infinity is below none. -/
def AtLeast (bound : ℚ) (float : Float) : Prop :=
  (∃ value, Denotes float false value ∧ bound ≤ value) ∨ FloatParts.ofFloat float = .infinite false

/-- A finite double without a sign that is not above a bound. -/
def AtMost (bound : ℚ) (float : Float) : Prop :=
  ∃ value, Denotes float false value ∧ value ≤ bound

section Rounding

variable {float : Float} {value bound : ℚ} {magnitude : Magnitude} {negative : Bool}

theorem isDouble {significand : ℕ} {exponent : ℤ} (hlimit : significand < 2 ^ 53)
    (hmin : -1074 ≤ exponent) (hmax : exponent ≤ 971) :
    IsDouble (significand * 2 ^ exponent) :=
  exists_admits (limit_double ▸ hlimit) hmin hmax

theorem Denotes.isDouble (hfloat : Denotes float negative value) : IsDouble value := by
  obtain ⟨magnitude, hparts, rfl⟩ := hfloat
  exact ⟨magnitude, FloatParts.admits_of_ofFloat hparts, rfl⟩

theorem Denotes.nonneg (hfloat : Denotes float negative value) : 0 ≤ value := by
  obtain ⟨magnitude, -, rfl⟩ := hfloat
  rw [Magnitude.value]
  positivity

theorem isDouble_power {exponent : ℤ} (hmin : -1074 ≤ exponent) (hmax : exponent ≤ 1023) :
    IsDouble (2 ^ exponent) := by
  rcases le_or_gt exponent 971 with hle | hlt
  · have hpower := isDouble (by decide : 1 < 2 ^ 53) hmin hle
    rwa [Nat.cast_one, one_mul] at hpower
  · obtain ⟨count, rfl⟩ := Int.le.dest hlt.le
    have hcount : count < 53 := by omega
    have hpower := isDouble (Nat.pow_lt_pow_right one_lt_two hcount) (by decide) (le_refl 971)
    rw [Nat.cast_pow, Nat.cast_ofNat, ← zpow_natCast, ← zpow_add₀ two_ne_zero, add_comm] at hpower
    exact hpower

theorem isDouble_zero : IsDouble 0 := by
  have hzero := @isDouble 0 0 (by decide) (by decide) (by decide)
  rwa [Nat.cast_zero, zero_mul] at hzero

theorem isDouble_one : IsDouble 1 := by
  have hone := @isDouble_power 0 (by decide) (by decide)
  rwa [zpow_zero] at hone

theorem largest_double : double.largest.value = (2 ^ 53 - 1) * 2 ^ (971 : ℤ) := by
  have hmax : double.maxExponent = 971 := rfl
  rw [largest_value, limit_double, hmax, Nat.cast_pow, Nat.cast_ofNat]

theorem range_eq : (2 : ℚ) ^ (1024 : ℤ) = 2 ^ 53 * 2 ^ (971 : ℤ) := by
  rw [← zpow_natCast, ← zpow_add₀ two_ne_zero]
  rfl

/-- All finite doubles are less than `2 ^ 1024`. -/
theorem Denotes.lt_range (hfloat : Denotes float negative value) : value < 2 ^ (1024 : ℤ) := by
  obtain ⟨magnitude, hparts, rfl⟩ := hfloat
  have hpower : (0 : ℚ) < 2 ^ (971 : ℤ) := by positivity
  apply (FloatParts.admits_of_ofFloat hparts).value_le_largest.trans_lt
  rw [largest_double, range_eq]
  exact mul_lt_mul_of_pos_right (sub_one_lt _) hpower

theorem overflows_of_range_le (hle : 2 ^ (1024 : ℤ) ≤ value) : double.Overflows value := by
  have hmax : double.maxExponent = 971 := rfl
  have hpower : (0 : ℚ) < 2 ^ (971 : ℤ) := by positivity
  rw [range_eq] at hle
  rw [Overflows, largest_double, hmax]
  generalize (2 : ℚ) ^ (971 : ℤ) = unit at hpower hle ⊢
  linarith

theorem le_of_isNearest (hbound : IsDouble bound) (hnearest : double.IsNearest value magnitude)
    (hle : bound ≤ value) : bound ≤ magnitude.value := by
  obtain ⟨other, hother, rfl⟩ := hbound
  by_contra hlt
  rw [not_le] at hlt
  have hnear := hnearest.nearest other hother
  rw [abs_of_nonpos (by linarith), abs_of_nonpos (by linarith)] at hnear
  linarith

theorem ge_of_isNearest (hbound : IsDouble bound) (hnearest : double.IsNearest value magnitude)
    (hle : value ≤ bound) : magnitude.value ≤ bound := by
  obtain ⟨other, hother, rfl⟩ := hbound
  by_contra hlt
  rw [not_le] at hlt
  have hnear := hnearest.nearest other hother
  rw [abs_of_nonneg (by linarith), abs_of_nonneg (by linarith)] at hnear
  linarith

theorem BinaryFormat.Rounds.atLeast (hrounds : double.Rounds false value float)
    (hbound : IsDouble bound) (hle : bound ≤ value) : AtLeast bound float := by
  cases hrounds with
  | finite hrounds hfloat =>
      exact .inl ⟨_, hfloat, le_of_isNearest hbound hrounds.nearest hle⟩
  | infinite _ hfloat => exact .inr hfloat

theorem BinaryFormat.Rounds.atMost (hrounds : double.Rounds false value float)
    (hbound : IsDouble bound) (hle : value ≤ bound) : AtMost bound float := by
  have hrange : ¬double.Overflows value := by
    obtain ⟨other, hother, rfl⟩ := hbound
    exact not_overflows (hle.trans hother.value_le_largest)
  obtain ⟨magnitude, hrounds, hfloat⟩ := hrounds.exists_roundsTo hrange
  exact ⟨_, hfloat, ge_of_isNearest hbound hrounds.nearest hle⟩

/-- What overflows is rounded to infinity. -/
theorem BinaryFormat.Rounds.infinite_of_overflows (hrounds : double.Rounds negative value float)
    (hover : double.Overflows value) : FloatParts.ofFloat float = .infinite negative := by
  cases hrounds with
  | finite hrounds => exact absurd hover hrounds.range
  | infinite _ hfloat => exact hfloat

theorem Denotes.placeOf_eq (hfloat : Denotes float negative value) :
    float.isNaN = false ∧ placeOf float = ((signed negative value : WithTop ℚ) : Line) := by
  obtain ⟨magnitude, hparts, rfl⟩ := hfloat
  rw [FloatParts.isNaN_eq_false_iff, placeOf, hparts]
  exact ⟨FloatParts.noConfusion, rfl⟩

theorem signed_eq_zero : signed negative value = 0 ↔ value = 0 := by
  cases negative with
  | false => exact Iff.rfl
  | true => exact neg_eq_zero

theorem denotes_literal_zero : Denotes 0 false 0 :=
  ⟨⟨0, -1074⟩, by decide, FloatParts.value_of_zero rfl⟩

theorem beq_zero_iff : (float == 0) = true ↔ ∃ negative, Denotes float negative 0 := by
  obtain ⟨hzeroNumber, hzero⟩ := denotes_literal_zero.placeOf_eq
  rw [beq_iff_placeOf]
  constructor
  · rintro ⟨hnumber, -, hsame⟩
    rw [hzero] at hsame
    rw [FloatParts.isNaN_eq_false_iff] at hnumber
    cases hparts : FloatParts.ofFloat float with
    | nan => exact absurd hparts hnumber
    | infinite negative =>
        rw [placeOf, hparts] at hsame
        cases negative with
        | false => exact absurd (WithBot.coe_inj.mp hsame).symm WithTop.coe_ne_top
        | true => exact absurd hsame.symm WithBot.coe_ne_bot
    | finite negative magnitude =>
        have hfloat : Denotes float negative magnitude.value := ⟨magnitude, hparts, rfl⟩
        rw [hfloat.placeOf_eq.2, WithBot.coe_inj, WithTop.coe_inj, signed_eq_zero.mpr rfl,
          signed_eq_zero] at hsame
        exact ⟨negative, magnitude, hparts, hsame⟩
  · rintro ⟨negative, hfloat⟩
    obtain ⟨hnumber, hplace⟩ := hfloat.placeOf_eq
    rw [hplace, hzero, signed_eq_zero.mpr rfl, signed_eq_zero.mpr rfl]
    exact ⟨hnumber, hzeroNumber, rfl⟩

/-- A value that is not below a positive double is not rounded to zero. -/
theorem BinaryFormat.Rounds.ne_zero (hrounds : double.Rounds negative value float)
    (hbound : IsDouble bound) (hpos : 0 < bound) (hle : bound ≤ value) : (float == 0) = false := by
  rw [Bool.eq_false_iff, ne_eq, beq_zero_iff]
  rintro ⟨sign, hzero⟩
  obtain ⟨-, magnitude, hrounds, hvalue⟩ := hrounds.of_denotes hzero
  have hlow := le_of_isNearest hbound hrounds.nearest hle
  linarith

end Rounding

section Infinity

open Float.Model (Format UnpackedFloat)

variable {first second : Float} {negative : Bool}

theorem isFinite_of_infinite (hfirst : FloatParts.ofFloat first = .infinite negative) :
    first.isFinite = false := by
  rw [Bool.eq_false_iff, ne_eq, FloatParts.isFinite_iff, hfirst]
  rintro ⟨_, _, hparts⟩
  exact nomatch hparts

theorem ofFloat_packed_infinity (negative : Bool) :
    FloatParts.ofFloat (packed (.infinity (FloatParts.sign negative))) = .infinite negative := by
  have hcanonical : (FloatParts.infinite negative).Canonical := trivial
  rw [← FloatParts.ofFloat_toFloat hcanonical, ← packed_unpacked hcanonical]
  rfl

/-- What is added to infinity, or infinity to, makes no difference. -/
theorem infinite_add (hfirst : FloatParts.ofFloat first = .infinite false)
    (hsecond : AtLeast 0 second) :
    FloatParts.ofFloat (first + second) = .infinite false ∧
      FloatParts.ofFloat (second + first) = .infinite false := by
  have hinfinity := ofFloat_packed_infinity false
  rcases hsecond with ⟨_, ⟨magnitude, hparts, -⟩, -⟩ | hparts
  · rw [add_eq_packed hfirst hparts, add_eq_packed hparts hfirst]
    exact FloatParts.unpacked_induction ⟨hinfinity, hinfinity⟩
      (fun _ _ _ => ⟨hinfinity, hinfinity⟩) magnitude
  · rw [add_eq_packed hfirst hparts, add_eq_packed hparts hfirst]
    exact ⟨hinfinity, hinfinity⟩

theorem sqrt_infinite (hfirst : FloatParts.ofFloat first = .infinite false) :
    FloatParts.ofFloat first.sqrt = .infinite false := by
  rw [sqrt_eq_packed hfirst]
  exact ofFloat_packed_infinity false

/-- A finite double divided by infinity is zero. -/
theorem div_infinite {value : ℚ} (hfirst : Denotes first negative value)
    (hsecond : FloatParts.ofFloat second = .infinite false) : (first / second == 0) = true := by
  obtain ⟨magnitude, hparts, -⟩ := hfirst
  have hquotient : first / second = packed (.zero (FloatParts.sign negative)) := by
    have hsign := FloatParts.sign_div negative false
    rw [Bool.xor_false] at hsign
    rw [div_eq_packed hparts hsecond, ← hsign]
    exact FloatParts.unpacked_induction rfl (fun _ _ _ => rfl) magnitude
  rw [hquotient, beq_zero_iff]
  exact ⟨negative, denotes_zero negative⟩

end Infinity

section Calculation

variable {first second : Float} {bound other : ℚ}

theorem AtLeast.mono (hfirst : AtLeast bound first) (hle : other ≤ bound) :
    AtLeast other first := by
  rcases hfirst with ⟨value, hvalue, hbound⟩ | hinfinite
  · exact .inl ⟨value, hvalue, hle.trans hbound⟩
  · exact .inr hinfinite

theorem denotes_literal_one : Denotes 1 false 1 := by
  refine ⟨⟨2 ^ 52, -52⟩, by decide, ?_⟩
  rw [Magnitude.value]
  norm_num

theorem AtLeast.one_le (hfirst : AtLeast 1 first) : (1 : Float) ≤ first := by
  obtain ⟨hone, hplace⟩ := denotes_literal_one.placeOf_eq
  rw [le_iff_placeOf, hplace]
  rcases hfirst with ⟨value, hvalue, hle⟩ | hparts
  · obtain ⟨hnumber, hfirst⟩ := hvalue.placeOf_eq
    rw [hfirst]
    exact ⟨hone, hnumber, WithBot.coe_le_coe.mpr (WithTop.coe_le_coe.mpr hle)⟩
  · rw [@FloatParts.isNaN_eq_false_iff first, placeOf, hparts]
    exact ⟨hone, FloatParts.noConfusion, WithBot.coe_le_coe.mpr le_top⟩

/-- No finite double is `2 ^ 1024` or more. -/
theorem AtLeast.infinite (hfirst : AtLeast (2 ^ (1024 : ℤ)) first) :
    FloatParts.ofFloat first = .infinite false := by
  rcases hfirst with ⟨value, hvalue, hle⟩ | hinfinite
  · exact absurd hle hvalue.lt_range.not_ge
  · exact hinfinite

/-- The square of a double has no sign. -/
theorem rounds_square {negative : Bool} {value : ℚ} (hfirst : Denotes first negative value) :
    double.Rounds false (value * value) (first * first) := by
  have hrounds := rounds_mul hfirst hfirst
  rwa [Bool.xor_self] at hrounds

/-- A sum is not below any of its parts. -/
theorem AtLeast.add (hfirst : AtLeast bound first) (hsecond : AtLeast other second)
    (hbound : 0 ≤ bound) (hother : 0 ≤ other) :
    AtLeast bound (first + second) ∧ AtLeast other (first + second) := by
  have hfirstSize := hfirst.mono hbound
  have hsecondSize := hsecond.mono hother
  rcases hfirst with ⟨value, hvalue, hle⟩ | hinfinite
  · rcases hsecond with ⟨size, hsize, hless⟩ | hinfinite
    · have hrounds := rounds_add hvalue hsize
      have hvalueNonneg := hvalue.nonneg
      have hsizeNonneg := hsize.nonneg
      exact ⟨(hrounds.atLeast hvalue.isDouble (by linarith)).mono hle,
        (hrounds.atLeast hsize.isDouble (by linarith)).mono hless⟩
    · have hsum := (infinite_add hinfinite hfirstSize).2
      exact ⟨.inr hsum, .inr hsum⟩
  · have hsum := (infinite_add hinfinite hsecondSize).1
    exact ⟨.inr hsum, .inr hsum⟩

theorem AtMost.add {sum : ℚ} (hfirst : AtMost bound first) (hsecond : AtMost other second)
    (hsum : IsDouble sum) (hle : bound + other ≤ sum) : AtMost sum (first + second) := by
  obtain ⟨value, hvalue, hbound⟩ := hfirst
  obtain ⟨size, hsize, hother⟩ := hsecond
  exact (rounds_add hvalue hsize).atMost hsum (by linarith)

/-- Three squares of this size stay in the range together, whatever is rounded on the way. -/
theorem AtMost.sum_three {third : Float} (hfirst : AtMost (2 ^ (1022 : ℤ)) first)
    (hsecond : AtMost (2 ^ (1022 : ℤ)) second) (hthird : AtMost (2 ^ (1022 : ℤ)) third) :
    AtMost ((3 * 2 ^ 51 : ℕ) * 2 ^ (971 : ℤ)) (first + second + third) := by
  have hunit : (2 : ℚ) ^ (1022 : ℤ) = 2 ^ 51 * 2 ^ (971 : ℤ) := by
    rw [← zpow_natCast, ← zpow_add₀ two_ne_zero]
    rfl
  have hnext : (2 : ℚ) ^ (1022 : ℤ) + 2 ^ (1022 : ℤ) = 2 ^ (1023 : ℤ) := by
    rw [← two_mul, ← zpow_one_add₀ two_ne_zero]
    rfl
  have hsum : (2 : ℚ) ^ (1023 : ℤ) + 2 ^ (1022 : ℤ) ≤ (3 * 2 ^ 51 : ℕ) * 2 ^ (971 : ℤ) := by
    rw [← hnext, hunit]
    generalize (2 : ℚ) ^ (971 : ℤ) = unit
    push_cast
    linarith
  have htwo := hfirst.add hsecond (isDouble_power (by decide) (by decide)) hnext.le
  exact htwo.add hthird (isDouble (by decide) (by decide) (by decide)) hsum

theorem AtLeast.sqrt (hfirst : AtLeast 1 first) : AtLeast 1 first.sqrt := by
  rcases hfirst with ⟨value, hvalue, hle⟩ | hinfinite
  · obtain ⟨root, hpowers, hrounds⟩ := rounds_sqrt hvalue
    have hroot := hpowers 0
    rw [mul_zero, zpow_zero] at hroot
    exact hrounds.atLeast isDouble_one (hroot.mpr hle)
  · exact .inr (sqrt_infinite hinfinite)

/-- The root of a finite double is finite. -/
theorem AtMost.sqrt (hfirst : AtMost bound first) : AtMost (2 ^ (512 : ℤ)) first.sqrt := by
  obtain ⟨value, hvalue, -⟩ := hfirst
  obtain ⟨root, hpowers, hrounds⟩ := rounds_sqrt hvalue
  have hbound := @isDouble_power 512 (by decide) (by decide)
  refine hrounds.atMost hbound (le_of_not_ge fun hge => ?_)
  exact hvalue.lt_range.not_ge ((hpowers 512).mp hge)

end Calculation

end Lindenmayer
