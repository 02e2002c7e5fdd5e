import Lindenmayer.CommandLine.Collected

/-!
# Invocations

There are three commands. What the arguments of a command line ask for is one of them with its
operands, or the arguments are refused.
-/

namespace Lindenmayer

/-- A command with its operands. -/
inductive Job where
  /-- Without an output there is no place to write to once the scene has been drawn. -/
  | generate (scene : Text) (output : Option Text)
  | validate (scene : Text)
  | random (output : Text) (seed : Option Int)
deriving DecidableEq

/-- A command, and whether to tell more about it. -/
structure Invocation where
  job : Job
  verbose : Bool
deriving DecidableEq

namespace Invocation

/-- What the arguments of a command come to. -/
def collected (flags : Flags) (wanted : Nat) (texts : List Text) : Except Refusal Collected := do
  let marks ← Mark.ofTexts flags texts
  Collected.collect flags wanted .start (marks.map Prod.fst)

/-- The command with a name and the given arguments, unless one is missing or too many. -/
def jobOf (name : Text) (texts : List Text) : Except Refusal Job := do
  if name = Text.ofString "generate" then
    let collected ← collected plainFlags 2 texts
    match collected.operands, collected.extra with
    | [some scene, output], false => return .generate scene output
    | _, _ => .error .badUsage
  else if name = Text.ofString "validate" then
    let collected ← collected plainFlags 1 texts
    match collected.operands, collected.extra with
    | [some scene], false => return .validate scene
    | _, _ => .error .badUsage
  else if name = Text.ofString "random" then
    let collected ← collected randomFlags 1 texts
    match collected.operands, collected.extra with
    | [some output], false => return .random output collected.seed
    | _, _ => .error .badUsage
  else .error .badUsage

/-- Read flags up to the name of the command, and the command from there on. -/
def ofMarks : Collected → List (Mark × Text) → Except Refusal Invocation
  | _, [] => .error .badUsage
  | _, (.separator, _) :: _ => .error .badUsage
  | collected, (.operand name, _) :: rest => do
      let job ← jobOf name (rest.map Prod.snd)
      if collected.extra then .error .badUsage
      return ⟨job, collected.verbose⟩
  | collected, (.option flag attached, _) :: rest => do
      ofMarks (← collected.withOption generalFlags flag attached) rest
  | collected, (.unknown, _) :: rest => ofMarks { collected with extra := true } rest

/-- What the arguments of a command line ask for. -/
def ofTexts (texts : List Text) : Except Refusal Invocation := do
  ofMarks .start (← Mark.ofTexts generalFlags texts)

end Invocation

end Lindenmayer
