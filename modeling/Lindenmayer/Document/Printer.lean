import Lindenmayer.Document.Basic
import Lindenmayer.Number.Layout

/-!
# Printing documents

A document is printed as a list of pieces, which are written one after the other. A string is
never divided between pieces, so a string without an encoded form stops the writing after everything
before it has been written.
-/

namespace Lindenmayer.Document

/-- How a document is laid out: on lines with an indentation, or on one line. Without `direct`,
code points outside the basic alphabet are escaped. -/
structure Style where
  indentation : Option Nat
  direct : Bool

namespace Style

/-- The style of files: an item a line, indented by two blanks a level. -/
def file : Style := ⟨some 2, true⟩

/-- The style of messages: one line in the basic alphabet. -/
def line : Style := ⟨none, false⟩

/-- The line feed and the indentation at a depth; on one line there is neither. -/
def newline (style : Style) (depth : Nat) : Text :=
  match style.indentation with
  | none => []
  | some width => '\n' :: List.replicate (width * depth) (CodePoint.ofChar ' ')

/-- What stands after an item that is not the last one. -/
def separator (style : Style) : Text :=
  if style.indentation.isSome then "," else ", "

end Style

/-- An escape by number, in two halves for a code point that needs more than four digits. -/
def numberEscape (point : CodePoint) : Text :=
  if point.value < 0x10000 then "\\u" ++ Text.ofHex 4 point.value
  else
    let offset := point.value - 0x10000
    "\\u" ++ Text.ofHex 4 (0xD800 + offset / 0x400) ++ "\\u" ++
      Text.ofHex 4 (0xDC00 + offset % 0x400)

/-- A code point as it stands inside a string. -/
def escape (style : Style) (point : CodePoint) : Text :=
  if point = '"' then "\\\""
  else if point = '\\' then "\\\\"
  else if point = '\n' then "\\n"
  else if point = '\r' then "\\r"
  else if point = '\t' then "\\t"
  else if point = '\x0c' then "\\f"
  else if point = '\x08' then "\\b"
  else if point.value < 0x20 then numberEscape point
  else if style.direct ∨ point.value < 0x7F then [point]
  else numberEscape point

/-- A string with its quotation marks. -/
def stringText (style : Style) (text : Text) : Text :=
  "\"" ++ text.flatMap (escape style) ++ "\""

/-- Put a text before the pieces of a value, into the first of them unless the value is a
container. -/
def lead (text : Text) (value : Document) : List Text → List Text
  | [] => [text]
  | first :: rest => if value.isContainer then text :: first :: rest else (text ++ first) :: rest

mutual

/-- The pieces of a document at a depth. -/
def pieces (style : Style) (depth : Nat) : Document → List Text
  | .null => ["null"]
  | .bool value => [if value then "true" else "false"]
  | .integer value => [Text.ofInt value]
  | .number value => [Layout.document.writeShortest value]
  | .string text => [stringText style text]
  | .array [] => ["[]"]
  | .array (item :: items) =>
      lead ("[" ++ style.newline (depth + 1)) item (pieces style (depth + 1) item) ++
        itemPieces style (depth + 1) items ++ [style.newline depth, "]"]
  | .object [] => ["\x7b\x7d"]
  | .object ((name, value) :: members) =>
      Text.ofString "\x7b" :: style.newline (depth + 1) :: stringText style name :: ": " ::
        pieces style (depth + 1) value ++ memberPieces style (depth + 1) members ++
        [style.newline depth, "\x7d"]

/-- The pieces of the items after the first one. -/
def itemPieces (style : Style) (depth : Nat) : List Document → List Text
  | [] => []
  | item :: items =>
      lead (style.separator ++ style.newline depth) item (pieces style depth item) ++
        itemPieces style depth items

/-- The pieces of the members after the first one. -/
def memberPieces (style : Style) (depth : Nat) : List (Text × Document) → List Text
  | [] => []
  | (name, value) :: members =>
      (style.separator ++ style.newline depth) :: stringText style name :: ": " ::
        pieces style depth value ++ memberPieces style depth members

end

/-- The text of a document. -/
def print (style : Style) (document : Document) : Text :=
  (document.pieces style 0).flatten

/-- The pieces of the file of a document, which ends with a line feed. -/
def filePieces (document : Document) : List Text :=
  document.pieces Style.file 0 ++ [Text.ofString "\n"]

end Lindenmayer.Document
