import Lindenmayer.Proofs.Number.Sizes
import Lindenmayer.Space.Rotation

/-!
# Norms of vectors

The norm of a vector is calculated from the squares of its coordinates, and these leave the range of
doubles long before the coordinates do. Where some coordinate is one or more, the norm is infinite
or at least one, and so a vector is taken for the origin exactly if its norm is infinite.
-/

namespace Lindenmayer

open BinaryFormat

namespace Vec3

variable {vector : Vec3} {axis : Axis} {negative : Bool} {size bound : ℚ}

/-- All coordinates of a vector are finite. -/
def IsFinite (vector : Vec3) : Prop :=
  ∀ axis, (vector.coordinate axis).isFinite = true

/-- What the norm is the square root of. -/
def sumOfSquares (vector : Vec3) : Float :=
  vector.x * vector.x + vector.y * vector.y + vector.z * vector.z

theorem IsFinite.exists_denotes (hfinite : vector.IsFinite) (axis : Axis) :
    ∃ negative size, Denotes (vector.coordinate axis) negative size := by
  obtain ⟨negative, magnitude, hparts⟩ := FloatParts.isFinite_iff.mp (hfinite axis)
  exact ⟨negative, magnitude.value, magnitude, hparts, rfl⟩

theorem IsFinite.atLeast_square (hfinite : vector.IsFinite) (axis : Axis) :
    AtLeast 0 (vector.coordinate axis * vector.coordinate axis) := by
  obtain ⟨negative, size, hsize⟩ := hfinite.exists_denotes axis
  exact (rounds_square hsize).atLeast isDouble_zero (mul_self_nonneg size)

/-- The sum of the squares is not below any of them. -/
theorem IsFinite.atLeast_sum (hfinite : vector.IsFinite) (hbound : 0 ≤ bound)
    (hsquare : AtLeast bound (vector.coordinate axis * vector.coordinate axis)) :
    AtLeast bound vector.sumOfSquares := by
  have hx := hfinite.atLeast_square .x
  have hy := hfinite.atLeast_square .y
  have hz := hfinite.atLeast_square .z
  cases axis with
  | x => exact ((hsquare.add hy hbound le_rfl).1.add hz hbound le_rfl).1
  | y => exact ((hx.add hsquare le_rfl hbound).2.add hz hbound le_rfl).1
  | z => exact ((hx.add hy le_rfl le_rfl).1.add hsquare le_rfl hbound).2

theorem IsFinite.atLeast_norm (hfinite : vector.IsFinite)
    (hsize : Denotes (vector.coordinate axis) negative size) (hle : 1 ≤ size) :
    AtLeast 1 vector.norm := by
  have hsquare := (rounds_square hsize).atLeast isDouble_one
    (one_le_mul_of_one_le_of_one_le hle hle)
  exact (hfinite.atLeast_sum zero_le_one hsquare).sqrt

/-- The norm is infinite from `2 ^ 512` on. -/
theorem IsFinite.norm_infinite (hfinite : vector.IsFinite)
    (hsize : Denotes (vector.coordinate axis) negative size) (hle : 2 ^ (512 : ℤ) ≤ size) :
    FloatParts.ofFloat vector.norm = .infinite false := by
  have hover : double.Overflows (size * size) := by
    apply overflows_of_range_le
    calc (2 : ℚ) ^ (1024 : ℤ) = 2 ^ (512 : ℤ) * 2 ^ (512 : ℤ) := by
          rw [← zpow_add₀ two_ne_zero]
          rfl
      _ ≤ size * size := mul_self_le_mul_self (by positivity) hle
  have hsquare := (rounds_square hsize).infinite_of_overflows hover
  exact sqrt_infinite (hfinite.atLeast_sum (by positivity) (.inr hsquare)).infinite

/-- The norm is finite up to `2 ^ 511`. -/
theorem atMost_norm (hsmall : ∀ axis, ∃ negative size,
    Denotes (vector.coordinate axis) negative size ∧ size ≤ 2 ^ (511 : ℤ)) :
    AtMost (2 ^ (512 : ℤ)) vector.norm := by
  have hsquare : ∀ axis, AtMost (2 ^ (1022 : ℤ))
      (vector.coordinate axis * vector.coordinate axis) := by
    intro axis
    obtain ⟨negative, size, hsize, hle⟩ := hsmall axis
    refine (rounds_square hsize).atMost (isDouble_power (by decide) (by decide)) ?_
    calc size * size ≤ 2 ^ (511 : ℤ) * 2 ^ (511 : ℤ) := mul_self_le_mul_self hsize.nonneg hle
      _ = 2 ^ (1022 : ℤ) := by
          rw [← zpow_add₀ two_ne_zero]
          rfl
  exact ((hsquare .x).sum_three (hsquare .y) (hsquare .z)).sqrt

theorem beq_origin (vector : Vec3) :
    (vector == origin) = true ↔ ∀ axis, (vector.coordinate axis == 0) = true := by
  have hbeq : (vector == origin) = (vector.x == 0 && vector.y == 0 && vector.z == 0) := rfl
  rw [hbeq, Bool.and_eq_true, Bool.and_eq_true]
  constructor
  · rintro ⟨⟨hx, hy⟩, hz⟩ axis
    cases axis
    · exact hx
    · exact hy
    · exact hz
  · exact fun hzero => ⟨⟨hzero .x, hzero .y⟩, hzero .z⟩

theorem coordinate_divide (vector : Vec3) (divisor : Float) (axis : Axis) :
    (vector.divide divisor).coordinate axis = vector.coordinate axis / divisor := by
  cases axis <;> rfl

/-- A vector with a coordinate of one or more is taken for the origin if its norm is infinite, and
only then. -/
theorem IsFinite.normalize_beq_origin (hfinite : vector.IsFinite)
    (hsize : Denotes (vector.coordinate axis) negative size) (hle : 1 ≤ size) :
    (vector.normalize == origin) = true ↔ vector.norm.isFinite = false := by
  have hone := hfinite.atLeast_norm hsize hle
  have hnormalize : vector.normalize = vector.divide vector.norm := by
    apply if_neg
    exact fun hsmall => absurd (le_trans_double hone.one_le hsmall) (by decide)
  rw [hnormalize, beq_origin]
  simp only [coordinate_divide]
  rcases hone with ⟨norm, hnorm, hge⟩ | hinfinite
  · refine iff_of_false (fun hzero => ?_) (by rw [hnorm.isFinite]; exact nofun)
    have hpos : 0 < norm := by linarith
    have hquotient : (2 : ℚ) ^ (-1024 : ℤ) ≤ size / norm := by
      rw [zpow_neg, le_div_iff₀ hpos, inv_mul_le_iff₀ (by positivity)]
      exact hnorm.lt_range.le.trans (le_mul_of_one_le_right (by positivity) hle)
    have hne := (rounds_div hsize hnorm hpos.ne').ne_zero
      (isDouble_power (by decide) (by decide)) (by positivity) hquotient
    exact absurd (hzero axis) (hne ▸ nofun)
  · refine iff_of_true (fun axis => ?_) (isFinite_of_infinite hinfinite)
    obtain ⟨negative, size, hsize⟩ := hfinite.exists_denotes axis
    exact div_infinite hsize hinfinite

end Vec3

end Lindenmayer
