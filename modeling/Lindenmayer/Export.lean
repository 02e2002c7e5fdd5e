import Lindenmayer.Document.Basic
import Lindenmayer.Turtle.Segment

/-!
# Drawings as documents

A drawing is exported under a name, with its segments in order.
-/

namespace Lindenmayer

/-- A vector is the array of its coordinates. -/
def Vec3.toDocument (vector : Vec3) : Document :=
  .array [.number vector.x, .number vector.y, .number vector.z]

/-- A material is its name, and a missing one is null. -/
def materialDocument : Option Text → Document
  | none => .null
  | some text => .string text

/-- A segment as an object, with its material as `material` describes it. -/
def Segment.toDocument {μ : Type} (material : μ → Document) (segment : Segment μ) : Document :=
  .object [("start", segment.start.toDocument), ("end", segment.finish.toDocument),
    ("width", .number segment.width), ("material", material segment.material)]

/-- A drawing is an object with its name and its segments in order. -/
def drawingDocument {μ : Type} (material : μ → Document) (name : Text)
    (segments : List (Segment μ)) : Document :=
  .object [("name", .string name), ("segments", .array (segments.map (·.toDocument material)))]

end Lindenmayer
