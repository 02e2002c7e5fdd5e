import Lindenmayer.Text.Digit
import Lindenmayer.Text.Letter

/-!
# Pieces of a word

A word falls into pieces, from left to right: a code point that is skipped, a symbol alone, or a
symbol with a group, that is, with a text between parentheses directly after it. A group ends at the
first closing parenthesis and is not empty; an unclosed or empty group is no group.
-/

namespace Lindenmayer

/-- The symbols that are neither letters nor digits. -/
def operators : Text := "+-&^/\\[]!\"?_"

/-- Letters, digits and operators are symbols. -/
def CodePoint.isSymbol (point : CodePoint) : Bool :=
  point.isLetter || point.isDigit || operators.contains point

/-- A piece of a word: a code point that is no symbol, a symbol alone, or one with a group. -/
inductive Piece where
  | skipped (point : CodePoint)
  | bare (symbol : CodePoint)
  | group (symbol : CodePoint) (content : Text)
deriving DecidableEq

/-- The part of a word that a piece is. -/
def Piece.text : Piece → Text
  | .skipped point => [point]
  | .bare symbol => [symbol]
  | .group symbol content => [symbol] ++ "(" ++ content ++ ")"

/-- The part of a text before its first closing parenthesis. -/
def beforeClosing? : Text → Option Text
  | [] => none
  | point :: rest =>
      if point = ')' then some []
      else (beforeClosing? rest).map (point :: ·)

/-- What stands in the group at the start of a text. -/
def groupContent? : Text → Option Text
  | [] => none
  | point :: rest =>
      if point = '(' then (beforeClosing? rest).filter (!·.isEmpty) else none

/-- The pieces of a text after its first `skip` code points. -/
def piecesAfter : Nat → Text → List Piece
  | _, [] => []
  | skip + 1, _ :: rest => piecesAfter skip rest
  | 0, point :: rest =>
      if point.isSymbol then
        match groupContent? rest with
        | some content => .group point content :: piecesAfter (content.length + 2) rest
        | none => .bare point :: piecesAfter 0 rest
      else .skipped point :: piecesAfter 0 rest

/-- The pieces of a word. -/
def pieces (word : Text) : List Piece :=
  piecesAfter 0 word

/-- The part before the first closing parenthesis is free of them, and what follows starts there. -/
theorem beforeClosing?_eq_some {text content : Text}
    (hcontent : beforeClosing? text = some content) :
    CodePoint.ofChar ')' ∉ content ∧
      text = content ++ CodePoint.ofChar ')' :: text.drop (content.length + 1) := by
  induction text generalizing content with
  | nil => simp [beforeClosing?] at hcontent
  | cons point rest ih =>
      by_cases hpoint : point = CodePoint.ofChar ')'
      · simp only [beforeClosing?, hpoint, ↓reduceIte, Option.some.injEq] at hcontent
        subst hcontent
        simp [hpoint]
      · simp only [beforeClosing?, hpoint, ↓reduceIte, Option.map_eq_some_iff] at hcontent
        obtain ⟨inner, hinner, rfl⟩ := hcontent
        obtain ⟨hfree, hrest⟩ := ih hinner
        refine ⟨?_, ?_⟩
        · rw [List.mem_cons]
          rintro (heq | hmem)
          · exact hpoint heq.symm
          · exact hfree hmem
        · rw [List.length_cons, List.drop_succ_cons, List.cons_append, ← hrest]

/-- A group is written between parentheses, with something free of closing ones between them. -/
theorem groupContent?_eq_some {text content : Text} (hcontent : groupContent? text = some content) :
    content ≠ [] ∧ CodePoint.ofChar ')' ∉ content ∧
      text = CodePoint.ofChar '(' :: content ++
        CodePoint.ofChar ')' :: text.drop (content.length + 2) := by
  cases text with
  | nil => simp [groupContent?] at hcontent
  | cons point rest =>
      by_cases hpoint : point = CodePoint.ofChar '('
      · simp only [groupContent?, hpoint, ↓reduceIte, Option.filter_eq_some_iff] at hcontent
        obtain ⟨hbefore, hnonempty⟩ := hcontent
        obtain ⟨hfree, hrest⟩ := beforeClosing?_eq_some hbefore
        refine ⟨fun hempty => by simp [hempty] at hnonempty, hfree, ?_⟩
        rw [List.drop_succ_cons, List.cons_append, ← hrest, hpoint]
      · simp [groupContent?, hpoint] at hcontent

/-- The pieces put together are the word that they come from. -/
theorem flatMap_text_piecesAfter (skip : Nat) (word : Text) :
    (piecesAfter skip word).flatMap Piece.text = word.drop skip := by
  induction word generalizing skip with
  | nil => simp [piecesAfter]
  | cons point rest ih =>
      cases skip with
      | succ skip => exact ih skip
      | zero =>
          simp only [piecesAfter, List.drop_zero]
          split
          · split
            next content hcontent =>
              obtain ⟨_, _, hrest⟩ := groupContent?_eq_some hcontent
              rw [List.flatMap_cons, ih]
              conv => rhs; rw [hrest]
              simp [Piece.text, Text.ofString]
            next => rw [List.flatMap_cons, ih]; rfl
          · rw [List.flatMap_cons, ih]; rfl

/-- Nothing of a word is lost and nothing is read twice. -/
theorem flatMap_text_pieces (word : Text) : (pieces word).flatMap Piece.text = word :=
  flatMap_text_piecesAfter 0 word

end Lindenmayer
