import Lindenmayer.Text.Printable

/-!
# Quoted texts

The form in which messages show a text: between quotation marks, with everything that has no visible
form of its own written as an escape. A quoted text holds no surrogate.
-/

namespace Lindenmayer

/-- The quotation mark around a text: the single one, unless only the double one is free. -/
def Text.quoteMark (text : Text) : CodePoint :=
  if text.contains '\'' && !text.contains '"' then '"' else '\''

/-- A code point between two quotation marks of the given kind. -/
def CodePoint.quoted (mark point : CodePoint) : Text :=
  if point = mark ∨ point = '\\' then ['\\', point]
  else if point = '\n' then "\\n"
  else if point = '\r' then "\\r"
  else if point = '\t' then "\\t"
  else if point.isPrintable then [point]
  else if point.value ≤ 0xFF then "\\x" ++ Text.ofHex 2 point.value
  else if point.value ≤ 0xFFFF then "\\u" ++ Text.ofHex 4 point.value
  else "\\U" ++ Text.ofHex 8 point.value

/-- A text as messages show it. -/
def Text.quoted (text : Text) : Text :=
  [text.quoteMark] ++ text.flatMap (CodePoint.quoted text.quoteMark) ++ [text.quoteMark]

end Lindenmayer
