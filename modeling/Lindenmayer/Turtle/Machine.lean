import Lindenmayer.Report
import Lindenmayer.Turtle.State

/-!
# Drawing with branches

The machine drives a turtle over tokens. Opening a branch remembers the turtle, closing it brings
the remembered turtle back, and every step forward is kept as a segment. Branches that are still
open at the end are forgotten.
-/

namespace Lindenmayer

/-- A turtle, the turtles to come back to (the innermost branch first), the segments so far (the
last one first), and the number of tokens read. -/
structure Machine (μ : Type) where
  state : State μ
  branches : List (State μ)
  drawn : List (Segment μ)
  index : Nat

namespace Machine

variable {μ : Type}

/-- The machine before the first token. -/
def initial (setup : Setup μ) : Machine μ :=
  ⟨State.initial setup, [], [], 0⟩

/-- Obey one token. Closing a branch that is not open is a fault. -/
def step (setup : Setup μ) (machine : Machine μ) (token : Token) : Except Fault (Machine μ) :=
  match token.command with
  | .openBranch =>
      .ok ⟨machine.state, machine.state :: machine.branches, machine.drawn, machine.index + 1⟩
  | .closeBranch =>
      match machine.branches with
      | [] => .error (.branchUnderflow machine.index)
      | state :: branches => .ok ⟨state, branches, machine.drawn, machine.index + 1⟩
  | .forward =>
      (machine.state.obey setup .forward token.parameter).map fun state =>
        ⟨state, machine.branches, machine.state.segment token.parameter :: machine.drawn,
          machine.index + 1⟩
  | command =>
      (machine.state.obey setup command token.parameter).map fun state =>
        ⟨state, machine.branches, machine.drawn, machine.index + 1⟩

/-- Obey tokens one after the other, up to the first fault. -/
def run (setup : Setup μ) : Machine μ → List Token → Except Fault (Machine μ)
  | machine, [] => .ok machine
  | machine, token :: tokens =>
      match machine.step setup token with
      | .error fault => .error fault
      | .ok next => next.run setup tokens

@[simp] theorem run_nil (setup : Setup μ) (machine : Machine μ) :
    machine.run setup [] = .ok machine :=
  rfl

/-- Tokens can be read in two parts, one after the other. -/
theorem run_append (setup : Setup μ) (machine : Machine μ) (first second : List Token) :
    machine.run setup (first ++ second) =
      (machine.run setup first).bind fun middle => middle.run setup second := by
  induction first generalizing machine with
  | nil => rfl
  | cons token tokens ih =>
      simp only [List.cons_append, run]
      cases machine.step setup token with
      | error fault => rfl
      | ok next => exact ih next

/-- The segments in the order in which they were drawn. -/
def segments (machine : Machine μ) : List (Segment μ) :=
  machine.drawn.reverse

/-- Branches that are still open are told about. -/
def notices (machine : Machine μ) : List Notice :=
  if machine.branches.isEmpty then [] else [.unclosedBranches machine.branches.length]

end Machine

/-- The segments that a turtle draws over some tokens. -/
def interpret {μ : Type} (setup : Setup μ) (tokens : List Token) :
    Report Fault (List (Segment μ)) :=
  match (Machine.initial setup).run setup tokens with
  | .error fault => ⟨[], .error fault⟩
  | .ok machine => ⟨machine.notices, .ok machine.segments⟩

end Lindenmayer
