import Lindenmayer.Number.Numeral
import Lindenmayer.Text.CodePoint

/-!
# Faults of a document's text

What can be wrong with the text of a document, and where. A place is named by its line, its column,
and its offset from the start. Apart from flaws, there are texts that ask for too much: a whole
number of too many digits, or containers that stand too deep inside each other.
-/

namespace Lindenmayer.Document

/-- What keeps a text from being the text of a document. -/
inductive Flaw where
  | expectedValue
  | expectedName
  | expectedColon
  | expectedComma
  | extraData
  /-- The string that starts here has no end. -/
  | unterminatedString
  | controlCharacter
  | invalidEscape
  | invalidUnicodeEscape
  | byteOrderMark
deriving DecidableEq

/-- A flaw in words. -/
def Flaw.text : Flaw → Text
  | .expectedValue => "Expecting value"
  | .expectedName => "Expecting property name enclosed in double quotes"
  | .expectedColon => "Expecting ':' delimiter"
  | .expectedComma => "Expecting ',' delimiter"
  | .extraData => "Extra data"
  | .unterminatedString => "Unterminated string starting at"
  | .controlCharacter => "Invalid control character at"
  | .invalidEscape => "Invalid \\escape"
  | .invalidUnicodeEscape => "Invalid \\uXXXX escape"
  | .byteOrderMark => "Unexpected UTF-8 BOM (decode using utf-8-sig)"

/-- A place in a text. Lines and columns are counted from one, offsets from zero. -/
structure Place where
  line : Nat
  column : Nat
  offset : Nat
deriving DecidableEq

/-- The place at an offset in a text. -/
def Place.at (text : Text) (offset : Nat) : Place :=
  let before := text.take offset
  let lastLine := before.reverse.takeWhile (· ≠ CodePoint.ofChar '\n')
  ⟨before.count (CodePoint.ofChar '\n') + 1, lastLine.length + 1, offset⟩

/-- The kinds of values that hold other values. -/
inductive Container where
  | array
  | object
deriving DecidableEq

/-- The word for a container. -/
def Container.text : Container → Text
  | .array => "array"
  | .object => "object"

/-- Why a text is not read as a document. -/
inductive ReadFault where
  | malformed (flaw : Flaw) (place : Place)
  | tooManyDigits (count : Nat)
  /-- A container opens where too many of them are open already. -/
  | tooDeep (container : Container)
deriving DecidableEq

/-- The text of a fault. -/
def ReadFault.message : ReadFault → Text
  | .malformed flaw place =>
      flaw.text ++ ": line " ++ Text.ofNat place.line ++ " column " ++ Text.ofNat place.column ++
        " (char " ++ Text.ofNat place.offset ++ ")"
  | .tooManyDigits count =>
      "Exceeds the limit (" ++ Text.ofNat integerDigitLimit ++
        " digits) for integer string conversion: value has " ++ Text.ofNat count ++
        " digits; use sys.set_int_max_str_digits() to increase the limit"
  | .tooDeep container =>
      "maximum recursion depth exceeded while decoding a JSON " ++ container.text ++
        " from a unicode string"

end Lindenmayer.Document
