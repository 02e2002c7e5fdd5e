import Lindenmayer.Fault
import Lindenmayer.Space.Vector

/-!
# Rotations

Right-handed rotations about the three fixed axes of space, as matrices. All nine entries take part
in a product, so a coordinate that is no number spoils the others.
-/

namespace Lindenmayer

/-- The three axes of space. -/
inductive Axis where
  | x
  | y
  | z
deriving DecidableEq

/-- The axis with a number from zero to two. -/
def Axis.ofIndex? : Int → Option Axis
  | 0 => some .x
  | 1 => some .y
  | 2 => some .z
  | _ => none

/-- The coordinate of a vector along an axis. -/
def Vec3.coordinate (vector : Vec3) : Axis → Float
  | .x => vector.x
  | .y => vector.y
  | .z => vector.z

/-- A matrix by its rows. -/
structure Matrix where
  first : Vec3
  second : Vec3
  third : Vec3
deriving DecidableEq

/-- The product of a matrix and a vector. -/
def Matrix.apply (matrix : Matrix) (vector : Vec3) : Vec3 :=
  ⟨matrix.first.dot vector, matrix.second.dot vector, matrix.third.dot vector⟩

/-- An angle in radians, from one in degrees. -/
def radians (degrees : Float) : Float :=
  degrees * (3.141592653589793 / 180)

/-- The rotation about an axis by an angle of the given cosine and sine. -/
def rotationOf (axis : Axis) (cosine sine : Float) : Matrix :=
  match axis with
  | .x => ⟨⟨1, 0, 0⟩, ⟨0, cosine, -sine⟩, ⟨0, sine, cosine⟩⟩
  | .y => ⟨⟨cosine, 0, sine⟩, ⟨0, 1, 0⟩, ⟨-sine, 0, cosine⟩⟩
  | .z => ⟨⟨cosine, -sine, 0⟩, ⟨sine, cosine, 0⟩, ⟨0, 0, 1⟩⟩

/-- The cosine and the sine of an angle in degrees. An infinite angle has none. -/
def cosineSine (degrees : Float) : Except Fault (Float × Float) :=
  if degrees.isInf then .error .infiniteAngle
  else .ok ((radians degrees).cos, (radians degrees).sin)

/-- The rotation about an axis by an angle in degrees. -/
def rotation (axis : Axis) (degrees : Float) : Except Fault Matrix :=
  (cosineSine degrees).map fun (cosine, sine) => rotationOf axis cosine sine

/-- A vector turned about an axis by an angle in degrees. -/
def Vec3.rotate (vector : Vec3) (axis : Axis) (degrees : Float) : Except Fault Vec3 :=
  (rotation axis degrees).map (·.apply vector)

/-- The rotation about the axis with a given number. The angle is looked at before the number. -/
def rotationAbout (index : Int) (degrees : Float) : Except Fault Matrix :=
  match cosineSine degrees, Axis.ofIndex? index with
  | .error fault, _ => .error fault
  | .ok _, none => .error (.unknownAxis index)
  | .ok (cosine, sine), some axis => .ok (rotationOf axis cosine sine)

end Lindenmayer
