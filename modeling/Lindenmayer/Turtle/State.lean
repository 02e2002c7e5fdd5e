import Lindenmayer.Number.Binary
import Lindenmayer.Space.Rotation
import Lindenmayer.Token.Basic
import Lindenmayer.Turtle.Segment

/-!
# The turtle

A turtle has a place, a heading, a step length, a width and a material. Commands change it one at a
time; opening and closing branches is not the turtle's business but its driver's
(`Lindenmayer.Turtle.Machine`).
-/

namespace Lindenmayer

/-- What a turtle starts with, and what its commands use when they have no parameter. -/
structure Setup (μ : Type) where
  angle : Float
  widthScale : Float
  lengthScale : Float
  materials : List μ
  defaultMaterial : μ
  heading : Vec3
  length : Float
  width : Float
deriving DecidableEq

/-- The setup with the usual values and no materials to choose from. -/
def Setup.standard {μ : Type} (defaultMaterial : μ) : Setup μ :=
  ⟨25, 2, 1.5, [], defaultMaterial, Vec3.up, 1, 0.1⟩

/-- Where the turtle is and what it carries. -/
structure State (μ : Type) where
  position : Vec3
  heading : Vec3
  length : Float
  width : Float
  material : μ
deriving DecidableEq

/-- What a symbol tells the turtle. -/
inductive Command where
  | forward
  /-- Turn about an axis, against the right hand if `backward`. -/
  | turn (axis : Axis) (backward : Bool)
  | widen
  | narrow
  | lengthen
  | shorten
  | choose
  | openBranch
  | closeBranch
  | ignore
deriving DecidableEq

/-- The command that a character stands for. -/
def Command.ofChar : Char → Command
  | 'F' => .forward
  | '+' => .turn .z false
  | '-' => .turn .z true
  | '&' => .turn .x false
  | '^' => .turn .x true
  | '/' => .turn .y false
  | '\\' => .turn .y true
  | '!' => .widen
  | '?' => .narrow
  | '"' => .lengthen
  | '_' => .shorten
  | 'M' => .choose
  | '[' => .openBranch
  | ']' => .closeBranch
  | _ => .ignore

/-- The command of a token. Symbols that are not one character are ignored. -/
def Token.command (token : Token) : Command :=
  match token.symbol with
  | [point] => (point.toChar?.map Command.ofChar).getD .ignore
  | _ => .ignore

namespace State

variable {μ : Type}

/-- The turtle before the first command, at the origin. -/
def initial (setup : Setup μ) : State μ :=
  ⟨Vec3.origin, setup.heading.normalize, setup.length, setup.width, setup.defaultMaterial⟩

/-- The segment that a step forward draws. -/
def segment (state : State μ) (parameter : Option Float) : Segment μ :=
  ⟨state.position, state.position + state.heading.scale (parameter.getD state.length), state.width,
    state.material⟩

/-- The material with the number that a parameter rounds down to, if there is one. -/
def chosen? (setup : Setup μ) (parameter : Option Float) : Option μ := do
  let number ← parameter
  let slot ← floorFloat? number
  if slot < 0 then none else setup.materials[slot.toNat]?

/-- The turtle after a command. Opening and closing a branch leave it as it is. -/
def obey (setup : Setup μ) (state : State μ) (command : Command) (parameter : Option Float) :
    Except Fault (State μ) :=
  match command with
  | .forward => .ok { state with position := (state.segment parameter).finish }
  | .turn axis backward =>
      let angle := parameter.getD setup.angle
      (state.heading.rotate axis (if backward then -angle else angle)).map fun heading =>
        { state with heading := heading.normalize }
  | .widen => .ok { state with width := state.width * setup.widthScale }
  | .narrow => .ok { state with width := state.width / setup.widthScale }
  | .lengthen => .ok { state with length := state.length * setup.lengthScale }
  | .shorten => .ok { state with length := state.length / setup.lengthScale }
  | .choose => .ok { state with material := (chosen? setup parameter).getD state.material }
  | .openBranch | .closeBranch | .ignore => .ok state

end State

end Lindenmayer
