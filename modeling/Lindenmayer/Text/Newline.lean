import Lindenmayer.Text.CodePoint

/-!
# Line ends

A line of a text file may end in a line feed, a carriage return, or both in this order. Reading
makes each of them a line feed.
-/

namespace Lindenmayer.Text

/-- Line ends made uniform, where the code point before the text is a carriage return or not. -/
def uniformNewlinesAfter (afterReturn : Bool) : Text → Text
  | [] => []
  | point :: rest =>
      if point = '\r' then '\n' :: uniformNewlinesAfter true rest
      else if point = '\n' ∧ afterReturn then uniformNewlinesAfter false rest
      else point :: uniformNewlinesAfter false rest

/-- The text with a line feed for every line end. -/
def uniformNewlines (text : Text) : Text :=
  uniformNewlinesAfter false text

end Lindenmayer.Text
