import Lindenmayer.Number.Decimal
import Lindenmayer.Text.Blank
import Lindenmayer.Text.Digit

/-!
# Numerals

The parts of a written number and their value, and the two number grammars of the library: the one
of turtle parameters, which takes the digits of any script and blanks on both sides, and the one of
integers given on a command line.
-/

namespace Lindenmayer

/-- The longest run of digits at the start of a text, and what follows it. -/
def takeDigits (digit? : CodePoint → Option Nat) : Text → List Nat × Text
  | [] => ([], [])
  | point :: rest =>
      match digit? point with
      | none => ([], point :: rest)
      | some digit =>
          let (digits, after) := takeDigits digit? rest
          (digit :: digits, after)

/-- The number that decimal digits denote, the leading one first. -/
def digitsValue (digits : List Nat) : Nat :=
  digits.foldl (fun value digit => 10 * value + digit) 0

/-- A sign at the start of a text, and what follows it. A missing sign is a plus. -/
def takeSign : Text → Bool × Text
  | [] => (false, [])
  | point :: rest =>
      if point = '-' then (true, rest)
      else if point = '+' then (false, rest)
      else (false, point :: rest)

/-- A signed integer of at least one digit at the start of a text, and what follows it. -/
def takeInteger? (digit? : CodePoint → Option Nat) (text : Text) : Option (Int × Text) :=
  let (negative, afterSign) := takeSign text
  match takeDigits digit? afterSign with
  | ([], _) => none
  | (digits, rest) =>
      let value : Int := digitsValue digits
      some (if negative then -value else value, rest)

/-- A number as written: the digits before and after its point, and its exponent. -/
structure Numeral where
  negative : Bool
  whole : List Nat
  fraction : List Nat
  exponent : Int
deriving DecidableEq

namespace Numeral

/-- The value of a numeral: each digit after the point lowers the exponent by one. -/
def toDecimal (numeral : Numeral) : Decimal :=
  ⟨numeral.negative, digitsValue (numeral.whole ++ numeral.fraction),
    numeral.exponent - numeral.fraction.length⟩

/-- An exponent mark with an integer at the start of a text; without the mark the exponent is zero,
and a mark without an integer is refused. -/
def takeExponent? (digit? : CodePoint → Option Nat) : Text → Option (Int × Text)
  | [] => some (0, [])
  | point :: rest =>
      if point = 'e' ∨ point = 'E' then takeInteger? digit? rest
      else some (0, point :: rest)

/-- The fraction digits after a point, and what follows them. Without a point there are none. -/
def takeFraction (digit? : CodePoint → Option Nat) : Text → List Nat × Text
  | [] => ([], [])
  | point :: rest => if point = '.' then takeDigits digit? rest else ([], point :: rest)

/-- Read a parameter: a numeral with digits of any script on at least one side of its point,
between blanks. -/
def ofParameter? (text : Text) : Option Numeral :=
  let (negative, afterSign) := takeSign (text.dropWhile CodePoint.isBlank)
  let (whole, afterWhole) := takeDigits CodePoint.digit? afterSign
  let (fraction, afterFraction) := takeFraction CodePoint.digit? afterWhole
  if whole.isEmpty ∧ fraction.isEmpty then none
  else
    match takeExponent? CodePoint.digit? afterFraction with
    | none => none
    | some (exponent, rest) =>
        if rest.all CodePoint.isBlank then some ⟨negative, whole, fraction, exponent⟩ else none

end Numeral

/-- The most digits that an integer may be written with. -/
def integerDigitLimit : Nat := 4300

/-- Digits in which single underscores may stand between two digits, to the end of the text. -/
def groupedDigits? : Text → Option (List Nat)
  | [] => none
  | [point] => point.digit?.map ([·])
  | point :: next :: rest =>
      match point.digit? with
      | none => none
      | some digit =>
          if next = '_' then (groupedDigits? rest).map (digit :: ·)
          else (groupedDigits? (next :: rest)).map (digit :: ·)

/-- Whether a code point may stand beside an integer. -/
def isPadding (point : CodePoint) : Bool :=
  point.isBlank && !point.isUnitSeparator

/-- Read an integer: digits of any script with an optional sign, between blanks that are no unit
separators. -/
def readInteger? (text : Text) : Option Int :=
  let core := ((text.dropWhile isPadding).reverse.dropWhile isPadding).reverse
  let (negative, afterSign) := takeSign core
  match groupedDigits? afterSign with
  | none => none
  | some digits =>
      if integerDigitLimit < digits.length then none
      else
        let value : Int := digitsValue digits
        some (if negative then -value else value)

end Lindenmayer
