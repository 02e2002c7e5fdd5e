import Lindenmayer.Document.Basic
import Lindenmayer.Scene.Basic
import Lindenmayer.Scene.Fault

/-!
# Reading scenes

A scene is read from a document. Missing members have defaults, unknown ones are ignored, and the
first fault in a fixed order of checks is reported.
-/

namespace Lindenmayer.Scene

/-- The members of an object. -/
def asObject (place : Text) : Document → Except SceneFault (List (Text × Document))
  | .object members => .ok members
  | _ => .error (.wrongKind place .object)

/-- The items of an array. -/
def asArray (place : Text) : Document → Except SceneFault (List Document)
  | .array items => .ok items
  | _ => .error (.wrongKind place .array)

/-- The text of a string. -/
def asString (place : Text) : Document → Except SceneFault Text
  | .string text => .ok text
  | _ => .error (.wrongKind place .string)

/-- A whole number; truth values are none. -/
def asInteger (place : Text) : Document → Except SceneFault Int
  | .integer value => .ok value
  | _ => .error (.wrongKind place .integer)

/-- A finite number of either kind, rounded to floating point; truth values are none. -/
def asNumber (place : Text) : Document → Except SceneFault Float
  | .integer value =>
      match floatOfInt? value with
      | some number => .ok number
      | none => .error .beyondRange
  | .number value => if value.isFinite then .ok value else .error (.notFinite place)
  | _ => .error (.wrongKind place .number)

/-- The value of a member, or a default for a missing one. -/
def member (members : List (Text × Document)) (name : Text) (default : Document) : Document :=
  (members.lookup name).getD default

/-- A check that has to hold. -/
def require (condition : Prop) [Decidable condition] (fault : SceneFault) :
    Except SceneFault Unit :=
  if condition then .ok () else .error fault

/-- The place of an item inside an array. -/
def itemPlace (place : Text) (index : Nat) : Text :=
  place ++ "[" ++ Text.ofNat index ++ "]"

/-- Read the items of an array in order, each with its place. -/
def readItems {α : Type} (read : Text → Document → Except SceneFault α) (place : Text) :
    Nat → List Document → Except SceneFault (List α)
  | _, [] => .ok []
  | index, item :: items => do
      let first ← read (itemPlace place index) item
      let rest ← readItems read place (index + 1) items
      return first :: rest

/-- A rule as written: an object with a key, or a pair. -/
def readRule (place : Text) (item : Document) : Except SceneFault Rule := do
  let rule ← match item with
    | .object members => do
        let key ← asString (place ++ ".key") (member members "key" .null)
        let replacement ← asString (place ++ ".replacement")
          (member members "replacement" (.string []))
        pure (Rule.mk key replacement)
    | _ => do
        match ← asArray place item with
        | [first, second] => do
            let key ← asString (itemPlace place 0) first
            let replacement ← asString (itemPlace place 1) second
            pure (Rule.mk key replacement)
        | _ => .error (.notPair place)
  require (rule.key ≠ []) (.emptyKey place)
  return rule

/-- Read rules in order and cut their keys, with what is to be told about them. -/
def readRules (place : Text) : Nat → List Document → Report SceneFault (List Rule)
  | _, [] => pure []
  | index, item :: items => do
      let rule ← Report.ofExcept (readRule (itemPlace place index) item)
      Report.tell rule.notices
      let rules ← readRules place (index + 1) items
      return rule.cut :: rules

/-- A vector, from an array of its three coordinates. -/
def readHeading (place : Text) (document : Document) : Except SceneFault Vec3 := do
  match ← asArray place document with
  | [first, second, third] => do
      let x ← asNumber (itemPlace place 0) first
      let y ← asNumber (itemPlace place 1) second
      let z ← asNumber (itemPlace place 2) third
      return ⟨x, y, z⟩
  | _ => .error (.notThreeComponents place)

/-- Read what the turtle starts with. -/
def readSetup (document : Document) : Except SceneFault (Setup (Option Text)) := do
  let members ← asObject "turtle" document
  let angle ← asNumber "turtle.angle" (member members "angle" (.number defaultSetup.angle))
  let length ← asNumber "turtle.length" (member members "length" (.number defaultSetup.length))
  let width ← asNumber "turtle.width" (member members "width" (.number defaultSetup.width))
  -- Lengths are compared with zero once both of them are read, and so are the scales.
  require (0 < length) (.notPositive "turtle.length")
  require (0 < width) (.notPositive "turtle.width")
  let widthScale ← asNumber "turtle.width_scale"
    (member members "width_scale" (.number defaultSetup.widthScale))
  let lengthScale ← asNumber "turtle.length_scale"
    (member members "length_scale" (.number defaultSetup.lengthScale))
  require (0 < widthScale) (.notPositive "turtle.width_scale")
  require (0 < lengthScale) (.notPositive "turtle.length_scale")
  let up := defaultSetup.heading
  let heading ← readHeading "turtle.heading"
    (member members "heading" (.array [.number up.x, .number up.y, .number up.z]))
  require (¬ heading.normalize == Vec3.origin) .zeroHeading
  let materials ← readItems asString "turtle.materials" 0
    (← asArray "turtle.materials" (member members "materials" (.array [])))
  let defaultMaterial ← match member members "default_material" .null with
    | .null => pure none
    | material => (asString "turtle.default_material" material).map some
  return ⟨angle, widthScale, lengthScale, materials.map some, defaultMaterial, heading, length,
    width⟩

/-- Read the number of iterations, which has two bounds. -/
def readIterations (document : Document) : Except SceneFault Nat := do
  let iterations ← asInteger "iterations" document
  require (0 ≤ iterations ∧ iterations ≤ maxIterations) .iterationsOutOfRange
  return iterations.toNat

/-- Read the start word, which is not empty. -/
def readStart (document : Document) : Except SceneFault Text := do
  let start ← asString "axiom" document
  require (start ≠ []) .emptyStart
  return start

/-- Read a scene, with what is to be told about its rules. -/
def ofDocument (document : Document) : Report SceneFault Scene := do
  let members ← Report.ofExcept (asObject "root" document)
  let name ← Report.ofExcept (asString "name" (member members "name" (.string "L-System")))
  let start ← Report.ofExcept (readStart (member members "axiom" (.string [])))
  let iterations ← Report.ofExcept (readIterations (member members "iterations" (.integer 0)))
  let items ← Report.ofExcept (asArray "rules" (member members "rules" (.array [])))
  let rules ← readRules "rules" 0 items
  let setup ← Report.ofExcept (readSetup (member members "turtle" (.object [])))
  return ⟨name, start, iterations, rules, setup⟩

end Lindenmayer.Scene
