import Lindenmayer.Text.CodePoint

/-!
# Blanks

The code points that separate words, line and paragraph, in Unicode 14.0.0. Four of them are
separators of information units: a number may be surrounded by all other blanks.
-/

namespace Lindenmayer.CodePoint

/-- The blanks, as ranges of code point values. -/
def blankRanges : Ranges :=
  [(0x9, 0xd), (0x1c, 0x20), (0x85, 0x85), (0xa0, 0xa0), (0x1680, 0x1680), (0x2000, 0x200a),
   (0x2028, 0x2029), (0x202f, 0x202f), (0x205f, 0x205f), (0x3000, 0x3000)]

/-- Whether a code point separates words, lines or paragraphs. -/
def isBlank (point : CodePoint) : Bool :=
  blankRanges.contains point.value

/-- The separators of files, groups, records and units. -/
def isUnitSeparator (point : CodePoint) : Bool :=
  0x1c ≤ point.value && point.value ≤ 0x1f

end Lindenmayer.CodePoint
