import Lindenmayer.Text.CodePoint

/-!
# Texts as bytes

The encoding of texts in one to four bytes a code point. Surrogates have no encoded form. The
decoder accepts shortest forms only and names the first byte at which the bytes stop being a text.
-/

namespace Lindenmayer.Utf8

/-- The bytes of a code point that is no surrogate. -/
def encodePoint (point : CodePoint) : List UInt8 :=
  let value := point.value
  if value < 0x80 then [value.toUInt8]
  else if value < 0x800 then
    [(0xC0 + value / 0x40).toUInt8, (0x80 + value % 0x40).toUInt8]
  else if value < 0x10000 then
    [(0xE0 + value / 0x1000).toUInt8, (0x80 + value / 0x40 % 0x40).toUInt8,
      (0x80 + value % 0x40).toUInt8]
  else
    [(0xF0 + value / 0x40000).toUInt8, (0x80 + value / 0x1000 % 0x40).toUInt8,
      (0x80 + value / 0x40 % 0x40).toUInt8, (0x80 + value % 0x40).toUInt8]

/-- A surrogate that stops the encoding of a text, its position, and how many surrogates stand there
in a row. -/
structure EncodeFault where
  first : CodePoint
  position : Nat
  length : Nat
deriving DecidableEq

/-- The first surrogate of a text that stops its encoding, with the surrogates that follow it. -/
def runOf? (stops : CodePoint → Bool) (text : Text) : Option EncodeFault :=
  match text.dropWhile (!stops ·) with
  | [] => none
  | first :: rest =>
      some ⟨first, text.length - (rest.length + 1),
        1 + (rest.takeWhile CodePoint.isSurrogate).length⟩

/-- The first run of surrogates in a text. -/
def surrogateRun? (text : Text) : Option EncodeFault :=
  runOf? CodePoint.isSurrogate text

/-- The bytes of a text without surrogates. -/
def encode (text : Text) : Except EncodeFault (List UInt8) :=
  match surrogateRun? text with
  | some fault => .error fault
  | none => .ok (text.flatMap encodePoint)

/-- Positions from `position` on, counted by `length`, as messages name them. -/
def span (position length : Nat) : Text :=
  if length = 1 then Text.ofNat position
  else Text.ofNat position ++ "-" ++ Text.ofNat (position + length - 1)

/-- What is told about a text that has no encoded form. -/
def EncodeFault.message (fault : EncodeFault) : Text :=
  let what : Text :=
    if fault.length = 1 then " '\\u" ++ Text.ofHex 4 fault.first.value ++ "'" else "s"
  "'utf-8' codec can't encode character" ++ what ++ " in position " ++
    span fault.position fault.length ++ ": surrogates not allowed"

/-- Why bytes are not the encoded form of a text. -/
inductive DecodeReason where
  /-- No code point's encoding starts with this byte. -/
  | invalidStart
  /-- The bytes after the first one do not continue a code point. -/
  | invalidContinuation
  /-- The bytes end inside a code point. -/
  | unexpectedEnd
deriving DecidableEq

/-- A fault covers `length` bytes from `position` on, and `first` is the first of them. -/
structure DecodeFault where
  reason : DecodeReason
  first : UInt8
  position : Nat
  length : Nat
deriving DecidableEq

/-- A reason as messages name it. -/
def DecodeReason.text : DecodeReason → Text
  | .invalidStart => "invalid start byte"
  | .invalidContinuation => "invalid continuation byte"
  | .unexpectedEnd => "unexpected end of data"

/-- What is told about bytes that are not the encoded form of a text. -/
def DecodeFault.message (fault : DecodeFault) : Text :=
  let what : Text :=
    if fault.length = 1 then " 0x" ++ Text.ofHex 2 fault.first.toNat else "s"
  "'utf-8' codec can't decode byte" ++ what ++ " in position " ++
    span fault.position fault.length ++ ": " ++ fault.reason.text

/-- A code point of which `taken` bytes are read and `owed` bytes are missing. The next byte must
lie between `low` and `high`; nothing is pending while `owed` is zero. -/
structure Pending where
  first : UInt8
  taken : Nat
  owed : Nat
  low : Nat
  high : Nat
  value : Nat

/-- What a first byte announces. A byte between `low` and `high` comes next, which excludes longer
forms than necessary, surrogates, and values that are too large. -/
def lead? (byte : UInt8) : Option Pending :=
  let value := byte.toNat
  if value < 0x80 then some ⟨byte, 1, 0, 0x80, 0xBF, value⟩
  else if value < 0xC2 then none
  else if value < 0xE0 then some ⟨byte, 1, 1, 0x80, 0xBF, value - 0xC0⟩
  else if value = 0xE0 then some ⟨byte, 1, 2, 0xA0, 0xBF, 0⟩
  else if value = 0xED then some ⟨byte, 1, 2, 0x80, 0x9F, 0xD⟩
  else if value < 0xF0 then some ⟨byte, 1, 2, 0x80, 0xBF, value - 0xE0⟩
  else if value = 0xF0 then some ⟨byte, 1, 3, 0x90, 0xBF, 0⟩
  else if value < 0xF4 then some ⟨byte, 1, 3, 0x80, 0xBF, value - 0xF0⟩
  else if value = 0xF4 then some ⟨byte, 1, 3, 0x80, 0x8F, 4⟩
  else none

/-- The next byte of a pending code point, when it can continue it. -/
def Pending.continue? (pending : Pending) (byte : UInt8) : Option Pending :=
  if pending.low ≤ byte.toNat ∧ byte.toNat ≤ pending.high then
    some ⟨pending.first, pending.taken + 1, pending.owed - 1, 0x80, 0xBF,
      pending.value * 0x40 + (byte.toNat - 0x80)⟩
  else none

/-- Decode the bytes from `position` on, with the code point that is still incomplete there. -/
def decodeFrom (position : Nat) : Option Pending → List UInt8 → Except DecodeFault Text
  | none, [] => .ok []
  | some pending, [] =>
      .error ⟨.unexpectedEnd, pending.first, position - pending.taken, pending.taken⟩
  | none, byte :: rest =>
      match lead? byte with
      | none => .error ⟨.invalidStart, byte, position, 1⟩
      | some pending =>
          if pending.owed = 0 then
            (decodeFrom (position + 1) none rest).map (CodePoint.ofNat pending.value :: ·)
          else decodeFrom (position + 1) (some pending) rest
  | some pending, byte :: rest =>
      match pending.continue? byte with
      | none =>
          .error ⟨.invalidContinuation, pending.first, position - pending.taken, pending.taken⟩
      | some pending =>
          if pending.owed = 0 then
            (decodeFrom (position + 1) none rest).map (CodePoint.ofNat pending.value :: ·)
          else decodeFrom (position + 1) (some pending) rest

/-- The text of some bytes. -/
def decode (bytes : List UInt8) : Except DecodeFault Text :=
  decodeFrom 0 none bytes

end Lindenmayer.Utf8
