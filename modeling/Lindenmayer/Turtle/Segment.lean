import Lindenmayer.Fault
import Lindenmayer.Space.Vector

/-!
# Segments

A segment is a straight line that the turtle has drawn, with the width and the material it had then.
The bounds of a drawing are the least and greatest coordinates of the ends of its segments; a
coordinate that is no number makes the bounds of its column no number.
-/

namespace Lindenmayer

/-- A line with a width and a material. -/
structure Segment (μ : Type) where
  start : Vec3
  finish : Vec3
  width : Float
  material : μ
deriving DecidableEq

namespace Segment

variable {μ : Type}

/-- The way from start to finish. -/
def vector (segment : Segment μ) : Vec3 :=
  segment.finish - segment.start

/-- The distance from start to finish. -/
def length (segment : Segment μ) : Float :=
  segment.vector.norm

/-- The point halfway between start and finish. -/
def midpoint (segment : Segment μ) : Vec3 :=
  (segment.start + segment.finish).divide 2

/-- The direction from start to finish; a segment that is too short has none. -/
def direction (segment : Segment μ) : Vec3 :=
  segment.vector.normalize

/-- The two ends of a segment. -/
def ends (segment : Segment μ) : List Vec3 :=
  [segment.start, segment.finish]

end Segment

/-- The lesser of two numbers. What is no number wins. -/
def lesser (first second : Float) : Float :=
  if first.isNaN then first
  else if second.isNaN then second
  else if second < first then second
  else first

/-- The greater of two numbers. What is no number wins. -/
def greater (first second : Float) : Float :=
  if first.isNaN then first
  else if second.isNaN then second
  else if first < second then second
  else first

namespace Vec3

/-- The lesser coordinates of two points. -/
def lesser (first second : Vec3) : Vec3 :=
  ⟨Lindenmayer.lesser first.x second.x, Lindenmayer.lesser first.y second.y,
    Lindenmayer.lesser first.z second.z⟩

/-- The greater coordinates of two points. -/
def greater (first second : Vec3) : Vec3 :=
  ⟨Lindenmayer.greater first.x second.x, Lindenmayer.greater first.y second.y,
    Lindenmayer.greater first.z second.z⟩

end Vec3

/-- The least box along the axes that holds some points. -/
structure Bounds where
  least : Vec3
  greatest : Vec3
deriving DecidableEq

namespace Bounds

/-- The box that holds one point. -/
def ofPoint (point : Vec3) : Bounds :=
  ⟨point, point⟩

/-- The least box that holds another point too. -/
def extend (bounds : Bounds) (point : Vec3) : Bounds :=
  ⟨bounds.least.lesser point, bounds.greatest.greater point⟩

/-- The bounds of a drawing; an empty one has none. -/
def ofSegments {μ : Type} (segments : List (Segment μ)) : Except Fault Bounds :=
  match segments.flatMap Segment.ends with
  | [] => .error .emptyDrawing
  | point :: points => .ok (points.foldl extend (ofPoint point))

end Bounds

end Lindenmayer
