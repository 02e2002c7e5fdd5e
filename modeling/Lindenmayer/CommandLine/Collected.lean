import Lindenmayer.CommandLine.Mark

/-!
# Collecting arguments

The marked arguments of a command are gone through once. Flags are carried out in order, so the last
of several seeds counts, and a fault before a call for help hides it.
-/

namespace Lindenmayer

/-- What has been collected from arguments. An operand without a text is a second separator in the
place of one, and an extra argument is bad usage in the end. -/
structure Collected where
  verbose : Bool
  seed : Option Int
  operands : List (Option Text)
  extra : Bool
deriving DecidableEq

namespace Collected

/-- Nothing has been collected yet. -/
def start : Collected := ⟨false, none, [], false⟩

/-- Carry out a flag without a value. -/
def apply (collected : Collected) : Flag → Except Refusal Collected
  | .help => .error .help
  | .verbose => .ok { collected with verbose := true }
  | .seed => .error .badUsage

/-- Carry out flags without values one after the other. -/
def applyAll : Collected → List Flag → Except Refusal Collected
  | collected, [] => .ok collected
  | collected, flag :: flags => do applyAll (← collected.apply flag) flags

/-- Take the value of the flag for the seed, which has to be an integer; the last one counts. -/
def withSeed (collected : Collected) (value : Text) : Except Refusal Collected :=
  match readInteger? value with
  | some seed => .ok { collected with seed := some seed }
  | none => .error .badUsage

/-- The flags with the given letters. Each letter must be that of a flag. -/
def lettered (flags : Flags) : Text → Except Refusal (List Flag)
  | [] => .ok []
  | letter :: rest =>
      match flags.lookup [CodePoint.ofChar '-', letter] with
      | none => .error .badUsage
      | some flag => (lettered flags rest).map (flag :: ·)

/-- Carry out a flag that needs no other argument. Joined flags are carried out after it, once all
their letters are known; there is at least one. -/
def withOption (flags : Flags) (collected : Collected) (flag : Flag) (attached : Attached) :
    Except Refusal Collected :=
  match flag, attached with
  | .seed, .none => .error .badUsage
  | .seed, .value text | .seed, .letters text => collected.withSeed text
  | _, .none => collected.apply flag
  | _, .value _ | _, .letters [] => .error .badUsage
  | _, .letters text => do collected.applyAll (flag :: (← lettered flags text))

/-- Take an operand, unless there are as many as `wanted` already. -/
def withOperand (wanted : Nat) (collected : Collected) (operand : Option Text) : Collected :=
  if collected.operands.length < wanted then
    { collected with operands := collected.operands ++ [operand] }
  else { collected with extra := true }

/-- Collect the arguments of a command that takes `wanted` operands. The separator belongs to the
operand next to it; an operand that looks like one and has none next to it is without a text. -/
def collect (flags : Flags) (wanted : Nat) : Collected → List Mark → Except Refusal Collected
  | collected, [] => .ok collected
  | collected, .separator :: .operand text :: rest
  | collected, .operand text :: .separator :: rest =>
      collect flags wanted (collected.withOperand wanted (some text)) rest
  | collected, .operand text :: rest =>
      let operand := if text = separatorText then none else some text
      collect flags wanted (collected.withOperand wanted operand) rest
  | collected, .option .seed .none :: .operand text :: rest => do
      collect flags wanted (← collected.withSeed text) rest
  | collected, .option flag attached :: rest => do
      collect flags wanted (← withOption flags collected flag attached) rest
  | collected, .separator :: rest | collected, .unknown :: rest =>
      collect flags wanted { collected with extra := true } rest

end Collected

end Lindenmayer
