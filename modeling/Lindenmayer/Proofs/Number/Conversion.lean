import Lindenmayer.Proofs.Number.Decimal
import Lindenmayer.Proofs.Number.Nearest
import Lindenmayer.Proofs.Number.Order
import Lindenmayer.Token.Parameter

/-!
# Conversions to doubles

Decimal numbers become doubles, and doubles numbers of 32 bits, by rounding: to the nearest
magnitude of the format, or beyond its range to an infinity. All numbers of 32 bits are doubles.
-/

namespace Lindenmayer

open BinaryFormat

/-- A finite double with this sign and, without the sign, this value. -/
def Denotes (float : Float) (negative : Bool) (value : ℚ) : Prop :=
  ∃ magnitude, FloatParts.ofFloat float = .finite negative magnitude ∧ magnitude.value = value

/-- A double is what a value with a sign is rounded to in a format. -/
inductive BinaryFormat.Rounds (format : BinaryFormat) (negative : Bool) (value : ℚ)
    (float : Float) : Prop
  | finite {magnitude} (hrounds : format.RoundsTo value magnitude)
      (hfloat : Denotes float negative magnitude.value)
  | infinite (hover : format.Overflows value)
      (hfloat : FloatParts.ofFloat float = .infinite negative)

variable {float number : Float} {negative : Bool} {value : ℚ} {magnitude : Magnitude}

theorem Denotes.isFinite (hfloat : Denotes float negative value) : float.isFinite = true := by
  obtain ⟨magnitude, hparts, -⟩ := hfloat
  exact FloatParts.isFinite_iff.mpr ⟨negative, magnitude, hparts⟩

theorem Denotes.not_infinite (hfloat : Denotes float negative value) (sign : Bool) :
    FloatParts.ofFloat float ≠ .infinite sign := by
  obtain ⟨magnitude, hparts, -⟩ := hfloat
  rw [hparts]
  exact nofun

theorem Denotes.unique {otherSign : Bool} {otherValue : ℚ} (hfloat : Denotes float negative value)
    (hother : Denotes float otherSign otherValue) : otherSign = negative ∧ otherValue = value := by
  obtain ⟨magnitude, hparts, rfl⟩ := hfloat
  obtain ⟨_, hparts', rfl⟩ := hother
  obtain ⟨rfl, rfl⟩ := FloatParts.finite.inj (hparts'.symm.trans hparts)
  exact ⟨rfl, rfl⟩

theorem denotes_toFloat (hadmits : double.Admits magnitude) :
    Denotes (FloatParts.finite negative magnitude).toFloat negative magnitude.value :=
  ⟨magnitude, FloatParts.ofFloat_toFloat hadmits, rfl⟩

theorem rounds_nearestFloat (negative : Bool) (ratio : Ratio) :
    double.Rounds negative ratio.value (nearestFloat negative ratio) := by
  rw [nearestFloat]
  cases hround : double.round ratio with
  | none =>
      rw [round_eq_none_iff_overflows double_precision_pos double_range] at hround
      exact .infinite hround (FloatParts.ofFloat_toFloat trivial)
  | some magnitude =>
      have hrounds := roundsTo_of_round (by decide) double_range hround
      exact .finite hrounds (denotes_toFloat hrounds.nearest.admits)

/-- A decimal number is rounded correctly. -/
theorem rounds_toFloat (decimal : Decimal) :
    double.Rounds decimal.negative decimal.ratio.value decimal.toFloat := by
  rw [Decimal.toFloat_eq]
  exact rounds_nearestFloat _ _

theorem double_refines_single : double.Refines single := by
  constructor <;> decide

theorem denotes_nearestFloat (hadmits : single.Admits magnitude) :
    Denotes (nearestFloat negative magnitude.ratio) negative magnitude.value := by
  obtain ⟨wide, hwide, hvalue⟩ := double_refines_single.exists_wide hadmits
  rw [nearestFloat, round_of_admits hwide (magnitude.value_ratio.trans hvalue.symm), ← hvalue]
  exact denotes_toFloat hwide

/-- A finite double is rounded correctly to 32 bits. -/
theorem rounds_nearestSingle (hfloat : Denotes float negative value) :
    single.Rounds negative value (nearestSingle float) := by
  obtain ⟨magnitude, hparts, rfl⟩ := hfloat
  have hvalue : magnitude.ratio.value = magnitude.value := magnitude.value_ratio
  rw [nearestSingle, hparts]
  dsimp only
  cases hround : single.round magnitude.ratio with
  | none =>
      rw [round_eq_none_iff_overflows (by decide) (by decide), hvalue] at hround
      exact .infinite hround (FloatParts.ofFloat_toFloat trivial)
  | some rounded =>
      have hrounds := roundsTo_of_round (by decide) (by decide) hround
      rw [hvalue] at hrounds
      exact .finite hrounds (denotes_nearestFloat hrounds.nearest.admits)

namespace BinaryFormat.Rounds

variable {format : BinaryFormat}

/-- What is rounded to a finite double has its sign and a nearest magnitude. -/
theorem of_denotes {sign : Bool} {size : ℚ} (hrounds : format.Rounds negative value float)
    (hfloat : Denotes float sign size) :
    sign = negative ∧ ∃ magnitude, format.RoundsTo value magnitude ∧ magnitude.value = size := by
  cases hrounds with
  | finite hrounds hfloat' =>
      obtain ⟨hsign, hsize⟩ := hfloat'.unique hfloat
      exact ⟨hsign, _, hrounds, hsize.symm⟩
  | infinite _ hinfinite => exact absurd hinfinite (hfloat.not_infinite _)

/-- A value that does not overflow is rounded to a finite double. -/
theorem exists_roundsTo (hrounds : format.Rounds negative value float)
    (hrange : ¬ format.Overflows value) :
    ∃ magnitude, format.RoundsTo value magnitude ∧ Denotes float negative magnitude.value := by
  cases hrounds with
  | finite hrounds hfloat => exact ⟨_, hrounds, hfloat⟩
  | infinite hover _ => exact absurd hover hrange

end BinaryFormat.Rounds

theorem denotes_largestSingle : Denotes largestSingle false single.largest.value :=
  denotes_nearestFloat (admits_largest (by decide) (by decide))

theorem largestSingle_lt_abs_iff (hfloat : Denotes float negative value) :
    largestSingle < float.abs ↔ single.largest.value < value := by
  obtain ⟨magnitude, hparts, rfl⟩ := hfloat
  obtain ⟨largest, hlargest, hvalue⟩ := denotes_largestSingle
  have habs : FloatParts.ofFloat float.abs = .finite false magnitude := by
    rw [FloatParts.ofFloat_abs, hparts]
    rfl
  rw [FloatParts.lt_iff_of_finite hlargest habs, hvalue]

/-- Numbers are kept with 32 bits up to the largest one. -/
theorem singlePrecision?_eq_some_iff :
    singlePrecision? float = some number ↔ ∃ negative value, Denotes float negative value ∧
      value ≤ single.largest.value ∧ nearestSingle float = number := by
  rw [singlePrecision?, Option.ite_none_right_eq_some, Option.some.injEq]
  constructor
  · rintro ⟨⟨hfinite, hle⟩, hnumber⟩
    obtain ⟨negative, magnitude, hparts⟩ := FloatParts.isFinite_iff.mp hfinite
    have hfloat : Denotes float negative magnitude.value := ⟨magnitude, hparts, rfl⟩
    rw [largestSingle_lt_abs_iff hfloat, not_lt] at hle
    exact ⟨negative, magnitude.value, hfloat, hle, hnumber⟩
  · rintro ⟨negative, value, hfloat, hle, hnumber⟩
    rw [largestSingle_lt_abs_iff hfloat, not_lt]
    exact ⟨⟨hfloat.isFinite, hle⟩, hnumber⟩

theorem isFinite_of_singlePrecision? (hkept : singlePrecision? float = some number) :
    number.isFinite = true := by
  obtain ⟨negative, value, hfloat, hle, rfl⟩ := singlePrecision?_eq_some_iff.mp hkept
  obtain ⟨_, -, hnumber⟩ := (rounds_nearestSingle hfloat).exists_roundsTo (not_overflows hle)
  exact hnumber.isFinite

theorem singlePrecision?_eq_none (hfloat : Denotes float negative value)
    (hlt : single.largest.value < value) : singlePrecision? float = none := by
  rw [← largestSingle_lt_abs_iff hfloat] at hlt
  exact if_neg fun hkept => hkept.2 hlt

/-- Doubles that stand for numbers are rounded down. -/
theorem floorFloat?_eq (float : Float) :
    floorFloat? float = (FloatParts.ofFloat float).number?.map Int.floor := by
  rw [floorFloat?]
  cases FloatParts.ofFloat float with
  | nan => rfl
  | infinite => rfl
  | finite negative magnitude =>
      have hnonneg := magnitude.ratio.value_nonneg
      have hvalue : magnitude.ratio.value = magnitude.value := magnitude.value_ratio
      cases negative with
      | false =>
          change some (magnitude.ratio.floor : ℤ) = some ⌊magnitude.value⌋
          rw [Ratio.floor_eq, Int.natCast_floor_eq_floor hnonneg, hvalue]
      | true =>
          change some (-(magnitude.ratio.ceil : ℤ)) = some ⌊-magnitude.value⌋
          rw [Ratio.ceil_eq, Int.natCast_ceil_eq_ceil hnonneg, Int.floor_neg, hvalue]

end Lindenmayer
