import Lindenmayer.Document.Basic
import Lindenmayer.Document.ReadFault

/-!
# Reading documents

The reader goes through a text from left to right and stops at the first place where it cannot be
the text of a document. The names of the values that are no numbers are read as such, a fraction or
an exponent makes a number a floating-point one, and two escaped surrogates that form a pair are
read as one code point. There is room for so many open containers only.
-/

namespace Lindenmayer.Document

/-- Why the reader stops. A flaw lies at the start of the text that is left. -/
inductive Stop where
  | flaw (flaw : Flaw) (rest : Text)
  | tooManyDigits (count : Nat)
  | tooDeep (container : Container)
deriving DecidableEq

/-- The blanks between the parts of a document. -/
def isSpace (point : CodePoint) : Bool :=
  point = ' ' || point = '\t' || point = '\n' || point = '\r'

/-- What follows the blanks at the start of a text. -/
def skipSpace (text : Text) : Text :=
  text.dropWhile isSpace

/-- The value of a hexadecimal digit. -/
def hexDigit? (point : CodePoint) : Option Nat :=
  let value := point.value
  if 0x30 ≤ value ∧ value ≤ 0x39 then some (value - 0x30)
  else if 0x41 ≤ value ∧ value ≤ 0x46 then some (value - 0x41 + 10)
  else if 0x61 ≤ value ∧ value ≤ 0x66 then some (value - 0x61 + 10)
  else none

/-- The number of four hexadecimal digits. -/
def hexNumber? (first second third fourth : CodePoint) : Option Nat := do
  let a ← hexDigit? first
  let b ← hexDigit? second
  let c ← hexDigit? third
  let d ← hexDigit? fourth
  return ((a * 16 + b) * 16 + c) * 16 + d

/-- The code point of an escape of one letter. -/
def simpleEscape? (point : CodePoint) : Option CodePoint :=
  if point = '"' ∨ point = '\\' ∨ point = '/' then some point
  else if point = 'b' then some '\x08'
  else if point = 'f' then some '\x0c'
  else if point = 'n' then some '\n'
  else if point = 'r' then some '\r'
  else if point = 't' then some '\t'
  else none

/-- Whether a code point is the first surrogate of a pair. -/
def isHighSurrogate (point : CodePoint) : Bool :=
  0xD800 ≤ point.value && point.value < 0xDC00

/-- Whether a code point is the second surrogate of a pair. -/
def isLowSurrogate (point : CodePoint) : Bool :=
  0xDC00 ≤ point.value && point.value < 0xE000

/-- The code point that a pair of surrogates stands for. -/
def joinSurrogates (high low : CodePoint) : CodePoint :=
  CodePoint.ofNat (0x10000 + (high.value - 0xD800) * 0x400 + (low.value - 0xDC00))

/-- Every pair of surrogates in a row becomes one code point. -/
def joinPairs : Text → Text
  | [] => []
  | [point] => [point]
  | first :: second :: rest =>
      if isHighSurrogate first ∧ isLowSurrogate second then
        joinSurrogates first second :: joinPairs rest
      else first :: joinPairs (second :: rest)

/-- Put a code point before the text that was read. -/
def consResult (point : CodePoint) (result : Except Stop (Text × Text)) :
    Except Stop (Text × Text) :=
  result.map fun (text, rest) => (point :: text, rest)

/-- Read the inside of a string up to its closing quotation mark; `whole` starts at its opening
one. An escape by number is read only if something follows it. -/
def readInside (whole : Text) : Text → Except Stop (Text × Text)
  | [] => .error (.flaw .unterminatedString whole)
  | point :: rest =>
      if point = '"' then .ok ([], rest)
      else if point = '\\' then
        match rest with
        | [] => .error (.flaw .unterminatedString whole)
        | letter :: after =>
            if letter = 'u' then
              match after with
              | a :: b :: c :: d :: tail =>
                  match hexNumber? a b c d, tail.isEmpty with
                  | some value, false => consResult (CodePoint.ofNat value) (readInside whole tail)
                  | _, _ => .error (.flaw .invalidUnicodeEscape rest)
              | _ => .error (.flaw .invalidUnicodeEscape rest)
            else
              match simpleEscape? letter with
              | some escaped => consResult escaped (readInside whole after)
              | none => .error (.flaw .invalidEscape (point :: rest))
      else if point.value < 0x20 then .error (.flaw .controlCharacter (point :: rest))
      else consResult point (readInside whole rest)

/-- Read a string after its opening quotation mark, with which `whole` starts. -/
def readString (whole inside : Text) : Except Stop (Text × Text) :=
  (readInside whole inside).map fun (text, rest) => (joinPairs text, rest)

/-- The digits of a whole part: a zero stands alone. -/
def takeWhole (text : Text) : List Nat × Text :=
  match takeDigits CodePoint.basicDigit? text with
  | (0 :: _, _) => ([0], text.drop 1)
  | result => result

/-- The digits of a fraction, if a point with a digit after it starts the text. -/
def takeFraction (text : Text) : List Nat × Text :=
  match Numeral.takeFraction CodePoint.basicDigit? text with
  | ([], _) => ([], text)
  | result => result

/-- The exponent at the start of a text, if there is a whole one. -/
def takeExponent (text : Text) : Option Int × Text :=
  match text with
  | [] => (none, [])
  | point :: rest =>
      if point = 'e' ∨ point = 'E' then
        match takeInteger? CodePoint.basicDigit? rest with
        | some (exponent, after) => (some exponent, after)
        | none => (none, text)
      else (none, text)

/-- Read a number at the start of a text. -/
def readNumber (text : Text) : Except Stop (Document × Text) :=
  let negative := text.head? = some (CodePoint.ofChar '-')
  let (whole, afterWhole) := takeWhole (if negative then text.drop 1 else text)
  let (fraction, afterFraction) := takeFraction afterWhole
  let (exponent, rest) := takeExponent afterFraction
  if whole.isEmpty then .error (.flaw .expectedValue text)
  else if fraction.isEmpty ∧ exponent.isNone then
    if integerDigitLimit < whole.length then .error (.tooManyDigits whole.length)
    else
      let value : Int := digitsValue whole
      .ok (.integer (if negative then -value else value), rest)
  else
    let numeral : Numeral := ⟨negative, whole, fraction, exponent.getD 0⟩
    .ok (.number numeral.toDecimal.toFloat, rest)

/-- The values that are written as a word. -/
def words : List (Text × Document) :=
  [("null", .null), ("true", .bool true), ("false", .bool false),
    ("NaN", .number FloatParts.nan.toFloat),
    ("Infinity", .number (FloatParts.infinite false).toFloat),
    ("-Infinity", .number (FloatParts.infinite true).toFloat)]

/-- Read one of the given words, and a number otherwise. -/
def readWord : List (Text × Document) → Text → Except Stop (Document × Text)
  | [], text => readNumber text
  | (word, value) :: others, text =>
      if word.isPrefixOf text then .ok (value, text.drop word.length) else readWord others text

/-- Go into a container that opens where there is room for so many. -/
def enter {α : Type} (container : Container) (room : Nat) (inside : Nat → Except Stop α) :
    Except Stop α :=
  match room with
  | 0 => .error (.tooDeep container)
  | room + 1 => inside room

mutual

/-- Read a value at the start of a text, with room for so many open containers. Going into a
container takes at least one code point and two from `fuel`, so more fuel than twice the length of
the text is never used up. -/
def readValue (room fuel : Nat) (text : Text) : Except Stop (Document × Text) :=
  match fuel, text with
  | 0, _ | _, [] => .error (.flaw .expectedValue text)
  | fuel + 1, point :: rest =>
      if point = '"' then (readString text rest).map fun (inside, after) => (.string inside, after)
      else if point = '[' then
        enter .array room fun room =>
          match skipSpace rest with
          | [] => .error (.flaw .expectedValue [])
          | next :: after =>
              if next = ']' then .ok (.array [], after)
              else (readItems room fuel (next :: after)).map fun (items, last) =>
                (.array items, last)
      else if point = '\x7b' then
        enter .object room fun room =>
          match skipSpace rest with
          | [] => .error (.flaw .expectedName [])
          | next :: after =>
              if next = '\x7d' then .ok (.object [], after)
              else (readMembers room fuel (next :: after)).map fun (members, last) =>
                (ofMembers members, last)
      else readWord words text

/-- Read the items of an array up to its end. -/
def readItems (room fuel : Nat) (text : Text) : Except Stop (List Document × Text) :=
  match fuel with
  | 0 => .error (.flaw .expectedValue text)
  | fuel + 1 => do
      let (item, afterItem) ← readValue room fuel text
      match skipSpace afterItem with
      | [] => .error (.flaw .expectedComma [])
      | next :: after =>
          if next = ']' then return ([item], after)
          else if next = ',' then
            let (items, last) ← readItems room fuel (skipSpace after)
            return (item :: items, last)
          else .error (.flaw .expectedComma (next :: after))

/-- Read the members of an object up to its end. -/
def readMembers (room fuel : Nat) (text : Text) : Except Stop (List (Text × Document) × Text) :=
  match fuel, text with
  | 0, _ | _, [] => .error (.flaw .expectedName text)
  | fuel + 1, mark :: rest => do
      if mark ≠ '"' then .error (.flaw .expectedName text)
      let (name, afterName) ← readString text rest
      match skipSpace afterName with
      | [] => .error (.flaw .expectedColon [])
      | colon :: afterColon =>
          if colon ≠ ':' then .error (.flaw .expectedColon (colon :: afterColon))
          let (value, afterValue) ← readValue room fuel (skipSpace afterColon)
          match skipSpace afterValue with
          | [] => .error (.flaw .expectedComma [])
          | next :: after =>
              if next = '\x7d' then return ([(name, value)], after)
              else if next = ',' then
                let (members, last) ← readMembers room fuel (skipSpace after)
                return ((name, value) :: members, last)
              else .error (.flaw .expectedComma (next :: after))

end

/-- Read a text that is one value between blanks. -/
def readAll (room : Nat) (text : Text) : Except Stop Document := do
  if text.head? = some (CodePoint.ofChar '\uFEFF') then .error (.flaw .byteOrderMark text)
  let (value, after) ← readValue room (2 * text.length + 1) (skipSpace text)
  let rest := skipSpace after
  if rest.isEmpty then return value else .error (.flaw .extraData rest)

/-- Read the document of a text, in which so many containers may be open at once. -/
def read (room : Nat) (text : Text) : Except ReadFault Document :=
  match readAll room text with
  | .ok value => .ok value
  | .error (.flaw flaw rest) => .error (.malformed flaw (.at text (text.length - rest.length)))
  | .error (.tooManyDigits count) => .error (.tooManyDigits count)
  | .error (.tooDeep container) => .error (.tooDeep container)

end Lindenmayer.Document
