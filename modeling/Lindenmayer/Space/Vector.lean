/-!
# Vectors

Points and directions in space, with coordinates in floating point. All sums run from the first
coordinate to the last.
-/

namespace Lindenmayer

/-- A point or a direction in space. -/
structure Vec3 where
  x : Float
  y : Float
  z : Float
deriving DecidableEq

namespace Vec3

/-- Vectors are equal in number if their coordinates are; zeros of both signs are equal. -/
instance : BEq Vec3 where
  beq first second := first.x == second.x && first.y == second.y && first.z == second.z

/-- The point where all coordinates are zero. -/
def origin : Vec3 := ⟨0, 0, 0⟩

/-- The direction of the second axis. -/
def up : Vec3 := ⟨0, 1, 0⟩

instance : Add Vec3 where
  add first second := ⟨first.x + second.x, first.y + second.y, first.z + second.z⟩

instance : Sub Vec3 where
  sub first second := ⟨first.x - second.x, first.y - second.y, first.z - second.z⟩

/-- A vector with its coordinates multiplied by a factor. -/
def scale (vector : Vec3) (factor : Float) : Vec3 :=
  ⟨vector.x * factor, vector.y * factor, vector.z * factor⟩

/-- A vector with its coordinates divided by a number, which is not the same as scaling. -/
def divide (vector : Vec3) (divisor : Float) : Vec3 :=
  ⟨vector.x / divisor, vector.y / divisor, vector.z / divisor⟩

/-- The length of a vector. The squares are not protected against leaving the range. -/
def norm (vector : Vec3) : Float :=
  (vector.x * vector.x + vector.y * vector.y + vector.z * vector.z).sqrt

/-- Vectors up to this length have no direction. -/
def negligible : Float := 1e-5

/-- The vector of length one in the same direction, and the origin for a vector without one. -/
def normalize (vector : Vec3) : Vec3 :=
  if vector.norm ≤ negligible then origin else vector.divide vector.norm

/-- The scalar product, summed from the first coordinate on. -/
def dot (first second : Vec3) : Float :=
  first.x * second.x + first.y * second.y + first.z * second.z

end Vec3

end Lindenmayer
