import Lindenmayer.Text.CodePoint

/-!
# Faults of a scene

What keeps a document from being a scene. Places in the document are named by the members and
indices on the way to them.
-/

namespace Lindenmayer

/-- The kinds of values that are asked for. -/
inductive Kind where
  | number
  | integer
  | string
  | object
  | array
deriving DecidableEq

/-- A kind as messages name it. -/
def Kind.text : Kind → Text
  | .number => "a number"
  | .integer => "an integer"
  | .string => "a string"
  | .object => "an object"
  | .array => "an array"

/-- Why a document is not a scene. -/
inductive SceneFault where
  | wrongKind (place : Text) (kind : Kind)
  | notFinite (place : Text)
  | notPositive (place : Text)
  /-- A whole number is beyond the range of floating point. -/
  | beyondRange
  | emptyStart
  | iterationsOutOfRange
  | notPair (place : Text)
  | emptyKey (place : Text)
  | notThreeComponents (place : Text)
  | zeroHeading
deriving DecidableEq

/-- The largest number of iterations that a scene may have. -/
def maxIterations : Nat := 10

/-- What is told about a fault. -/
def SceneFault.message : SceneFault → Text
  | wrongKind place kind => place ++ " must be " ++ kind.text
  | notFinite place => place ++ " must be finite"
  | notPositive place => place ++ " must be > 0"
  | beyondRange => "int too large to convert to float"
  | emptyStart => "axiom must be non-empty"
  | iterationsOutOfRange => "iterations must be between 0 and " ++ Text.ofNat maxIterations
  | notPair place => place ++ " must be a [key, replacement] pair"
  | emptyKey place => place ++ ".key must be non-empty"
  | notThreeComponents place => place ++ " must have exactly 3 components"
  | zeroHeading => "turtle.heading must be non-zero"

end Lindenmayer
