import Lindenmayer.CommandLine.Flag
import Lindenmayer.Number.Numeral

/-!
# Marks

Each argument of a command line is marked as an operand, a separator or a flag, by its form alone. A
long flag may be shortened as long as it stays unique, and its value may follow after an equals
sign. What follows a short flag is the letters of more flags, whether an equals sign stands in
between or not. After a separator, every argument is an operand.
-/

namespace Lindenmayer

/-- What stands in one argument with a flag. -/
inductive Attached where
  | none
  | value (text : Text)
  /-- The letters of flags that are joined to a short one. -/
  | letters (text : Text)
deriving DecidableEq

/-- What an argument is on the command line. -/
inductive Mark where
  | operand (text : Text)
  | separator
  | option (flag : Flag) (attached : Attached)
  | unknown
deriving DecidableEq

namespace Mark

/-- A text in front of its first equals sign, and what comes after the sign. -/
def splitEquals (text : Text) : Text × Option Text :=
  match text.dropWhile (· ≠ CodePoint.ofChar '=') with
  | [] => (text, none)
  | _ :: value => (text.takeWhile (· ≠ CodePoint.ofChar '='), some value)

/-- Whether a name that starts with a hyphen is the name of a long flag. -/
def isLong (name : Text) : Bool :=
  (name.drop 1).head? = some (CodePoint.ofChar '-')

/-- What follows a name when a text may follow an equals sign. -/
def attachedTo (name : Text) : Option Text → Attached
  | none => .none
  | some text => if isLong name then .value text else .letters text

/-- What a shortened long flag, or joined short flags, can stand for. -/
def candidates (flags : Flags) (text : Text) : List Mark :=
  if isLong text then
    let (name, value) := splitEquals text
    (flags.filter fun known => name.isPrefixOf known.1).map fun known =>
      .option known.2 (attachedTo name value)
  else
    (flags.filter fun known => known.1 = text.take 2).map fun known =>
      .option known.2 (.letters (text.drop 2))

/-- Whether a text is a negative number, with an optional line feed at its end. -/
def isNegativeNumber (text : Text) : Bool :=
  let body := text.drop 1
  let number := if body.getLast? = some (CodePoint.ofChar '\n') then body.dropLast else body
  let (whole, rest) := takeDigits CodePoint.digit? number
  match rest with
  | [] => !whole.isEmpty
  | point :: fraction => point = '.' && !fraction.isEmpty && fraction.all CodePoint.isDigit

/-- What a text that starts with a hyphen is; none if it could be several flags. -/
def ofHyphened (flags : Flags) (text : Text) : Option Mark :=
  let (name, value) := splitEquals text
  match flags.lookup text, value.bind fun _ => flags.lookup name with
  | some flag, _ => some (.option flag .none)
  | none, some flag => some (.option flag (attachedTo name value))
  | none, none =>
      match candidates flags text with
      | [mark] => some mark
      | _ :: _ => none
      | [] =>
          if isNegativeNumber text ∨ text.contains ' ' then some (.operand text)
          else some .unknown

/-- What an argument is where the given flags are known; none if it could be several flags. -/
def ofText (flags : Flags) (text : Text) : Option Mark :=
  if text = Text.ofString "-" ∨ text.head? ≠ some (CodePoint.ofChar '-') then some (.operand text)
  else ofHyphened flags text

/-- What some arguments are, each with its text. An ambiguous one spoils them all. -/
def ofTexts (flags : Flags) : List Text → Except Refusal (List (Mark × Text))
  | [] => .ok []
  | text :: texts =>
      if text = separatorText then
        .ok ((.separator, text) :: texts.map fun text => (.operand text, text))
      else
        match ofText flags text with
        | none => .error .badUsage
        | some mark => (ofTexts flags texts).map ((mark, text) :: ·)

end Mark

end Lindenmayer
