/-!
# Text as code points

A text is a list of code points. A surrogate is a code point like any other, so a text can hold one
that stands alone; only its encoded form is missing. String and character literals stand for texts
and code points wherever these are expected.
-/

namespace Lindenmayer

/-- A number below `0x110000`, surrogates included. -/
structure CodePoint where
  value : Nat
  value_lt : value < 0x110000
deriving DecidableEq

/-- A finite sequence of code points. -/
abbrev Text := List CodePoint

namespace CodePoint

theorem char_lt (char : Char) : char.toNat < 0x110000 := by
  have hvalid := char.valid
  simp only [UInt32.isValidChar, Nat.isValidChar] at hvalid
  show char.val.toNat < 0x110000
  omega

/-- The code point of a character. -/
def ofChar (char : Char) : CodePoint :=
  ⟨char.toNat, char_lt char⟩

instance : Coe Char CodePoint := ⟨ofChar⟩

/-- The code point of a number; a replacement character stands for a number that is too large. -/
def ofNat (value : Nat) : CodePoint :=
  if hvalue : value < 0x110000 then ⟨value, hvalue⟩ else ofChar '\uFFFD'

/-- A surrogate is half of a pair of sixteen-bit units and stands for no character. -/
def isSurrogate (point : CodePoint) : Bool :=
  0xD800 ≤ point.value && point.value < 0xE000

/-- The character of a code point; a surrogate has none. -/
def toChar? (point : CodePoint) : Option Char :=
  if point.isSurrogate then none else some (Char.ofNat point.value)

end CodePoint

namespace Text

/-- The text of a string. -/
def ofString (string : String) : Text :=
  string.toList.map CodePoint.ofChar

instance : Coe String Text := ⟨ofString⟩

/-- The string of a text, in which a replacement character stands for each surrogate. -/
def toString (text : Text) : String :=
  String.ofList (text.map fun point => point.toChar?.getD '\uFFFD')

/-- A number in decimal digits. -/
def ofNat (number : Nat) : Text :=
  (Nat.toDigits 10 number).map CodePoint.ofChar

/-- An integer in decimal digits, after a minus sign if it is negative. -/
def ofInt : Int → Text
  | .ofNat number => ofNat number
  | .negSucc number => '-' :: ofNat (number + 1)

/-- The last `width` hexadecimal digits of a number, in small letters. -/
def ofHex : Nat → Nat → Text
  | 0, _ => []
  | width + 1, number =>
      ofHex width (number / 16) ++ [CodePoint.ofChar (Nat.digitChar (number % 16))]

/-- The texts one after the other with `separator` between neighbours. -/
def joinWith (separator : Text) (texts : List Text) : Text :=
  (texts.intersperse separator).flatten

/-- The parts of a text between separators; there is one more of them than separators. -/
def split (separator : CodePoint) : Text → List Text
  | [] => [[]]
  | point :: rest =>
      match split separator rest with
      | [] => [[point]]
      | first :: others =>
          if point = separator then [] :: first :: others else (point :: first) :: others

end Text

/-- Inclusive ranges of code point values, in ascending order. -/
abbrev Ranges := List (Nat × Nat)

/-- Look a value up in ascending ranges; the search stops at the first range above the value. -/
def Ranges.contains : Ranges → Nat → Bool
  | [], _ => false
  | (low, high) :: rest, value =>
      if value < low then false
      else if value ≤ high then true
      else contains rest value

end Lindenmayer
