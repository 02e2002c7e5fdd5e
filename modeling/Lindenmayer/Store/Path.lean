import Lindenmayer.Text.Utf8

/-!
# Paths

A path is a text of names with slashes between them. An absolute path starts with a slash and is
followed from the root, any other one from a home directory. The system takes paths as bytes: a byte
that belongs to no text is written as a surrogate of its own, and a text with another surrogate or a
null character is no path at all.
-/

namespace Lindenmayer

/-- Whether a surrogate stands for a byte that belongs to no text. -/
def CodePoint.isLooseByte (point : CodePoint) : Bool :=
  0xDC80 ≤ point.value && point.value ≤ 0xDCFF

/-- Whether a surrogate stands for no byte. -/
def CodePoint.isUnsendable (point : CodePoint) : Bool :=
  point.isSurrogate && !point.isLooseByte

/-- What no path can hold. -/
inductive PathMisfit where
  | surrogates (fault : Utf8.EncodeFault)
  | null
deriving DecidableEq

/-- What is told about a text that is no path. -/
def PathMisfit.message : PathMisfit → Text
  | .surrogates fault => fault.message
  | .null => "embedded null byte"

namespace Path

/-- What keeps a text from being a part of a path, at a position of the path. Surrogates are noticed
before null characters. -/
def misfit? (position : Nat) (text : Text) : Option PathMisfit :=
  match Utf8.runOf? CodePoint.isUnsendable text with
  | some fault => some (.surrogates ⟨fault.first, position + fault.position, fault.length⟩)
  | none => if text.contains '\x00' then some .null else none

/-- The bytes of a path. -/
def bytes (path : Text) : List UInt8 :=
  path.flatMap fun point =>
    if point.isLooseByte then [point.value.toUInt8] else Utf8.encodePoint point

/-- The names of a path. Two slashes in a row have an empty name between them. -/
def names (path : Text) : List Text :=
  path.split '/'

/-- Where a path is followed from. -/
def origin (home : List Text) (path : Text) : List Text :=
  if path.head? = some (CodePoint.ofChar '/') then [] else home

/-- Whether a name leads to where one is already. -/
def isHere (name : Text) : Bool :=
  name.isEmpty || name = Text.ofString "."

/-- Whether a name leads one place back. -/
def isParent (name : Text) : Bool :=
  name = Text.ofString ".."

/-- The largest number of bytes in a name. -/
def maxNameBytes : Nat := 255

/-- Whether a name has too many bytes. -/
def isTooLong (name : Text) : Bool :=
  maxNameBytes < (bytes name).length

/-- The largest number of bytes in a path. -/
def maxBytes : Nat := 4095

/-- Whether a path has too many bytes to be followed. -/
def isUnfollowable (path : Text) : Bool :=
  maxBytes < (bytes path).length

/-- The names before the last one of a path, not counting slashes at its end. -/
def namesAbove (path : Text) : List Text :=
  (names (path.reverse.dropWhile (· = CodePoint.ofChar '/')).reverse).dropLast

/-- The place that a name leads to, as if every name on the way were one of a directory. -/
def next (reached : List Text) (name : Text) : List Text :=
  if isHere name then reached
  else if isParent name then reached.dropLast
  else reached ++ [name]

/-- The names from the root on, with the ways back to parents taken out. -/
def normal (home : List Text) (path : Text) : List Text :=
  (names path).foldl next (origin home path)

/-- The places that names lead to one after the other. -/
def placesFrom (reached : List Text) : List Text → List (List Text)
  | [] => [reached]
  | name :: names => reached :: placesFrom (next reached name) names

/-- The places on the way along a path. -/
def places (home : List Text) (path : Text) : List (List Text) :=
  placesFrom (origin home path) (names path)

/-- The path from the root along some names. -/
def absolute (names : List Text) : Text :=
  if names.isEmpty then "/" else names.flatMap fun name => "/" ++ name

end Path

end Lindenmayer
