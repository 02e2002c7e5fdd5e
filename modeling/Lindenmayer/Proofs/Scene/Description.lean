import Lindenmayer.Export
import Lindenmayer.Scene.Basic
import Lindenmayer.Scene.Fault
import Mathlib.Data.Int.Notation
import Mathlib.Data.List.Forall2
import Mathlib.Data.Nat.Notation

/-!
# Documents that describe scenes

What a document has to be like to describe a scene, member by member: which kind of value stands
where, what a missing member stands for, and which values are excluded. No order of checks matters
here, and members that are not named do not matter either.
-/

namespace Lindenmayer

/-- The least size of a whole number that is beyond the range of doubles. It lies half a unit above
the largest double. -/
def floatRange : ℕ := (Nat.pow 2 54 - 1) * Nat.pow 2 970

namespace Scene

/-- A member has the given value; a missing one stands for its default. -/
def Given (members : List (Text × Document)) (name : Text) (default value : Document) : Prop :=
  members.lookup name = some value ∨ members.lookup name = none ∧ value = default

/-- A finite number of either kind, as a double. -/
inductive IsNumber : Document → Float → Prop where
  | whole {value : ℤ} (hrange : value.natAbs < floatRange) :
      IsNumber (.integer value) (nearestFloat (value < 0) (Ratio.ofNat value.natAbs))
  | finite {value : Float} (hfinite : value.isFinite = true) : IsNumber (.number value) value

/-- A rule in either spelling: a pair of strings, or an object with a key and a replacement that may
be missing. The key is not empty. -/
inductive IsRule : Document → Rule → Prop where
  | pair {rule : Rule} (hkey : rule.key ≠ []) :
      IsRule (.array [.string rule.key, .string rule.replacement]) rule
  | object {members : List (Text × Document)} {rule : Rule} (hkey : rule.key ≠ [])
      (hmember : members.lookup (Text.ofString "key") = some (.string rule.key))
      (hreplacement : Given members "replacement" (.string []) (.string rule.replacement)) :
      IsRule (.object members) rule

/-- A member is a finite number, given or by default. -/
def GivesNumber (members : List (Text × Document)) (name : Text) (default value : Float) : Prop :=
  ∃ document, Given members name (.number default) document ∧ IsNumber document value

/-- Three finite numbers. -/
def IsVector (document : Document) (vector : Vec3) : Prop :=
  ∃ x y z, document = .array [x, y, z] ∧ IsNumber x vector.x ∧ IsNumber y vector.y ∧
    IsNumber z vector.z

/-- What the members of an object say about the setup of a turtle. -/
structure DescribesSetup (members : List (Text × Document)) (setup : Setup (Option Text)) :
    Prop where
  angle : GivesNumber members "angle" 25 setup.angle
  length : GivesNumber members "length" 1 setup.length
  width : GivesNumber members "width" 0.1 setup.width
  widthScale : GivesNumber members "width_scale" 2 setup.widthScale
  lengthScale : GivesNumber members "length_scale" 1.5 setup.lengthScale
  length_pos : 0 < setup.length
  width_pos : 0 < setup.width
  widthScale_pos : 0 < setup.widthScale
  lengthScale_pos : 0 < setup.lengthScale
  heading : ∃ document, Given members "heading" Vec3.up.toDocument document ∧
    IsVector document setup.heading
  heading_ne_zero : (setup.heading.normalize == Vec3.origin) = false
  materials : ∃ names : List Text, Given members "materials" (.array [])
    (.array (names.map .string)) ∧ setup.materials = names.map some
  defaultMaterial : Given members "default_material" .null
    (materialDocument setup.defaultMaterial)

/-- What the members of an object say about a scene. The keys of its rules are cut to one symbol. -/
structure DescribesScene (members : List (Text × Document)) (scene : Scene) : Prop where
  name : Given members "name" (.string "L-System") (.string scene.name)
  start : Given members "axiom" (.string []) (.string scene.start)
  start_ne_nil : scene.start ≠ []
  iterations : Given members "iterations" (.integer 0) (.integer scene.iterations)
  iterations_le : scene.iterations ≤ maxIterations
  rules : ∃ items rules, Given members "rules" (.array []) (.array items) ∧
    List.Forall₂ IsRule items rules ∧ scene.rules = rules.map Rule.cut
  setup : ∃ turtle, Given members "turtle" (.object []) (.object turtle) ∧
    DescribesSetup turtle scene.setup

/-- A document describes a scene if it is an object whose members do. -/
def Describes (document : Document) (scene : Scene) : Prop :=
  ∃ members, document = .object members ∧ DescribesScene members scene

end Scene

end Lindenmayer
