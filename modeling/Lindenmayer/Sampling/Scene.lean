import Lindenmayer.Sampling.Word
import Lindenmayer.Scene.Reader

/-!
# Random scenes

A random scene has one rule for `F`, or rules for `F` and for a bud `X`, and a turtle with two
materials. It is drawn as the document that describes it, and this document is checked before it is
given out.
-/

namespace Lindenmayer

/-- A part of the rule for a bud. -/
inductive BudPart where
  | forward
  | bud
  | turn (symbol : CodePoint)
  /-- A branch with a bud of the second material. -/
  | leaf
deriving DecidableEq

namespace BudPart

/-- The symbols of a part. -/
def text : BudPart → Text
  | .forward => "F"
  | .bud => "X"
  | .turn symbol => [symbol]
  | .leaf => "[M(1)X]"

/-- Draw some parts of the rule for a bud. -/
def draw {σ : Type} (source : Source σ) : (count : Nat) → σ → List BudPart × σ
  | 0, state => ([], state)
  | count + 1, state =>
      let (roll, afterRoll) := source.unit state
      let (part, afterPart) :=
        if roll < 0.4 then (.forward, afterRoll)
        else if roll < 0.6 then (.bud, afterRoll)
        else if roll < 0.85 then
          let (symbol, next) := source.pick WordPart.turns WordPart.turns_length_pos afterRoll
          (.turn symbol, next)
        else (.leaf, afterRoll)
      let (rest, last) := draw source count afterPart
      (part :: rest, last)

/-- The word of some parts. A word without a step forward gets one at its end. -/
def word (parts : List BudPart) : Text :=
  (if parts.contains .forward then parts else parts ++ [.forward]).flatMap text

end BudPart

namespace RandomScene

/-- The angles of turns that are drawn from; one of them is no whole number. -/
def angles : List Document :=
  [.integer 15, .integer 20, .number 22.5, .integer 25, .integer 30, .integer 36, .integer 45,
    .integer 60, .integer 90]

/-- The lengths of steps that are drawn from. -/
def lengths : List Float :=
  [0.5, 1, 1.5, 2]

/-- A rule as an object. -/
def rule (key replacement : Text) : Document :=
  .object [("key", .string key), ("replacement", .string replacement)]

/-- The start word and the rules of a scene with or without a bud. -/
def grammar {σ : Type} (source : Source σ) (state : σ) : (Text × List Document) × σ :=
  let (coin, afterCoin) := source.unit state
  if coin < 0.5 then
    let (length, afterLength) := source.between 4 10 afterCoin
    let (stem, afterStem) := randomWord source usualBranching length afterLength
    let (count, afterCount) := source.between 3 6 afterStem
    let (parts, last) := BudPart.draw source count afterCount
    (("X", [rule "F" stem, rule "X" (BudPart.word parts)]), last)
  else
    let (length, afterLength) := source.between 6 14 afterCoin
    let (stem, last) := randomWord source usualBranching length afterLength
    (("F", [rule "F" stem]), last)

/-- The turtle of a random scene as an object; only the angle and the length are drawn. -/
def turtle (angle : Document) (length : Float) : Document :=
  .object [("angle", angle), ("length", .number length), ("width", .number 0.1),
    ("width_scale", .number 0.7), ("length_scale", .number 0.9),
    ("heading", .array [.integer 0, .integer 1, .integer 0]),
    ("materials", .array [.string "bark", .string "leaf"]), ("default_material", .string "bark")]

/-- Draw the document of a scene. -/
def document {σ : Type} (source : Source σ) (state : σ) : Document × σ :=
  let (angle, afterAngle) := source.pick angles (by decide) state
  let (iterations, afterIterations) := source.between 2 4 afterAngle
  let (length, afterLength) := source.pick lengths (by decide) afterIterations
  let ((start, rules), last) := grammar source afterLength
  (.object [("name", .string "Random L-System"), ("axiom", .string start),
    ("iterations", .integer iterations), ("rules", .array rules), ("turtle", turtle angle length)],
    last)

/-- Draw the document of a scene and make sure that it can be read. -/
def checked {σ : Type} (source : Source σ) (state : σ) : Report SceneFault Document := do
  let (document, _) := document source state
  let _ ← Scene.ofDocument document
  return document

end RandomScene

end Lindenmayer
