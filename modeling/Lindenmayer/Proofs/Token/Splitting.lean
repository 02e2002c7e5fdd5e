import Lindenmayer.Text.Blank
import Lindenmayer.Token.Piece
import Mathlib.Data.List.Basic

/-!
# Words split into pieces

A word is split into pieces from left to right: what is no symbol is skipped, a symbol is taken with
the group directly after it, and a symbol without a group is taken alone. Every word is split in
exactly one way, and its pieces are the ones that are found in it.
-/

namespace Lindenmayer

theorem Ranges.exists_of_contains {ranges : Ranges} {value : Nat}
    (hcontains : ranges.contains value = true) :
    ∃ range ∈ ranges, range.1 ≤ value ∧ value ≤ range.2 := by
  induction ranges with
  | nil => exact nomatch hcontains
  | cons range ranges ih =>
      rw [contains] at hcontains
      split at hcontains
      next => exact nomatch hcontains
      next hlow =>
        split at hcontains
        next hhigh => exact ⟨range, List.mem_cons_self, Nat.not_lt.mp hlow, hhigh⟩
        next =>
          obtain ⟨other, hother, hbounds⟩ := ih hcontains
          exact ⟨other, .tail _ hother, hbounds⟩

/-- No blank is a symbol. -/
theorem CodePoint.isSymbol_of_isBlank {point : CodePoint} (hblank : point.isBlank = true) :
    point.isSymbol = false := by
  have hranges : ∀ range ∈ blankRanges, ∀ value ∈ List.range' range.1 (range.2 + 1 - range.1),
      letterRanges.contains value = false ∧ (digitIn digitRanges value).isSome = false ∧
        value ∉ operators.map CodePoint.value := by
    decide +kernel
  obtain ⟨range, hrange, hlow, hhigh⟩ := Ranges.exists_of_contains hblank
  have hvalue : point.value ∈ List.range' range.1 (range.2 + 1 - range.1) :=
    List.mem_range'_1.mpr ⟨hlow, by omega⟩
  obtain ⟨hletter, hdigit, hoperator⟩ := hranges range hrange point.value hvalue
  have hoperators : operators.contains point = false := by
    rw [Bool.eq_false_iff, ne_eq, List.contains_iff_mem]
    exact fun hmem => hoperator (List.mem_map_of_mem hmem)
  rw [isSymbol, isLetter, isDigit, digit?, hletter, hdigit, hoperators]
  rfl

/-- What follows a symbol without a group: no opening parenthesis, one that is not closed, or one
that is closed at once. -/
def NoGroup (rest : Text) : Prop :=
  rest.head? ≠ some (CodePoint.ofChar '(') ∨
    (∃ after, rest = CodePoint.ofChar '(' :: after ∧ CodePoint.ofChar ')' ∉ after) ∨
    ∃ after, rest = CodePoint.ofChar '(' :: CodePoint.ofChar ')' :: after

/-- A word split into pieces from left to right. -/
inductive Splits : Text → List Piece → Prop where
  | nil : Splits [] []
  | skipped {point : CodePoint} {rest : Text} {parts : List Piece}
      (hpoint : point.isBlank = true ∨ point.isSymbol = false) (hrest : Splits rest parts) :
      Splits (point :: rest) (.skipped point :: parts)
  | bare {symbol : CodePoint} {rest : Text} {parts : List Piece}
      (hsymbol : symbol.isSymbol = true) (halone : NoGroup rest) (hrest : Splits rest parts) :
      Splits (symbol :: rest) (.bare symbol :: parts)
  | group {symbol : CodePoint} {content rest : Text} {parts : List Piece}
      (hsymbol : symbol.isSymbol = true) (hne : content ≠ [])
      (hfree : CodePoint.ofChar ')' ∉ content) (hrest : Splits rest parts) :
      Splits (symbol :: CodePoint.ofChar '(' :: (content ++ CodePoint.ofChar ')' :: rest))
        (.group symbol content :: parts)

theorem beforeClosing?_eq_none {text : Text} (hfree : CodePoint.ofChar ')' ∉ text) :
    beforeClosing? text = none := by
  induction text with
  | nil => rfl
  | cons point text ih =>
      rw [List.mem_cons, not_or] at hfree
      rw [beforeClosing?, if_neg (Ne.symm hfree.1), ih hfree.2]
      rfl

theorem beforeClosing?_append {content : Text} (hfree : CodePoint.ofChar ')' ∉ content)
    (rest : Text) : beforeClosing? (content ++ CodePoint.ofChar ')' :: rest) = some content := by
  induction content with
  | nil => exact if_pos rfl
  | cons point content ih =>
      rw [List.mem_cons, not_or] at hfree
      rw [List.cons_append, beforeClosing?, if_neg (Ne.symm hfree.1), ih hfree.2]
      rfl

/-- A group is found where one stands. -/
theorem groupContent?_group {content : Text} (hne : content ≠ [])
    (hfree : CodePoint.ofChar ')' ∉ content) (rest : Text) :
    groupContent? (CodePoint.ofChar '(' :: (content ++ CodePoint.ofChar ')' :: rest)) =
      some content := by
  rw [groupContent?, if_pos rfl, beforeClosing?_append hfree, Option.filter_some]
  simp [hne]

/-- No group is found exactly where none stands. -/
theorem groupContent?_eq_none {rest : Text} : groupContent? rest = none ↔ NoGroup rest := by
  constructor
  · intro hnone
    cases rest with
    | nil => exact .inl nofun
    | cons point after =>
        by_cases hpoint : point = CodePoint.ofChar '('
        · subst hpoint
          by_cases hclosed : CodePoint.ofChar ')' ∈ after
          · obtain ⟨content, rest, rfl, hfree⟩ := List.eq_append_cons_of_mem hclosed
            cases content with
            | nil => exact .inr (.inr ⟨rest, rfl⟩)
            | cons first content =>
                rw [groupContent?_group (List.cons_ne_nil _ _) hfree] at hnone
                exact nomatch hnone
          · exact .inr (.inl ⟨after, rfl, hclosed⟩)
        · exact .inl fun hhead => hpoint (Option.some.inj hhead)
  · rintro (hhead | ⟨after, rfl, hopen⟩ | ⟨after, rfl⟩)
    · cases rest with
      | nil => rfl
      | cons point after => exact if_neg fun hpoint => hhead (congrArg some hpoint)
    · rw [groupContent?, if_pos rfl, beforeClosing?_eq_none hopen]
      rfl
    · rfl

theorem splits_piecesAfter (skip : Nat) (word : Text) :
    Splits (word.drop skip) (piecesAfter skip word) := by
  induction word generalizing skip with
  | nil =>
      rw [List.drop_nil, piecesAfter]
      exact .nil
  | cons point rest ih =>
      cases skip with
      | succ skip => exact ih skip
      | zero =>
          rw [List.drop_zero, piecesAfter]
          split
          next hsymbol =>
            split
            next content hcontent =>
              obtain ⟨hne, hfree, hrest⟩ := groupContent?_eq_some hcontent
              have hgroup := Splits.group hsymbol hne hfree (ih (content.length + 2))
              rwa [← List.cons_append, ← hrest] at hgroup
            next hnone => exact .bare hsymbol (groupContent?_eq_none.mp hnone) (ih 0)
          next hsymbol => exact .skipped (.inr (Bool.eq_false_iff.mpr hsymbol)) (ih 0)

/-- The pieces that are found in a word split it. -/
theorem splits_pieces (word : Text) : Splits word (pieces word) :=
  splits_piecesAfter 0 word

theorem piecesAfter_eq (skip : Nat) (word : Text) :
    piecesAfter skip word = pieces (word.drop skip) := by
  induction word generalizing skip with
  | nil => rw [List.drop_nil, pieces, piecesAfter, piecesAfter]
  | cons point rest ih =>
      cases skip with
      | succ skip => exact ih skip
      | zero => rfl

theorem pieces_cons_skipped {point : CodePoint} (hsymbol : point.isSymbol = false) (rest : Text) :
    pieces (point :: rest) = .skipped point :: pieces rest := by
  rw [pieces, piecesAfter, hsymbol]
  rfl

theorem pieces_cons_bare {symbol : CodePoint} (hsymbol : symbol.isSymbol = true) {rest : Text}
    (halone : NoGroup rest) : pieces (symbol :: rest) = .bare symbol :: pieces rest := by
  rw [pieces, piecesAfter, if_pos hsymbol, groupContent?_eq_none.mpr halone]
  rfl

theorem pieces_cons_group {symbol : CodePoint} (hsymbol : symbol.isSymbol = true) {content : Text}
    (hne : content ≠ []) (hfree : CodePoint.ofChar ')' ∉ content) (rest : Text) :
    pieces (symbol :: CodePoint.ofChar '(' :: (content ++ CodePoint.ofChar ')' :: rest)) =
      .group symbol content :: pieces rest := by
  have hdrop : (CodePoint.ofChar '(' :: (content ++ CodePoint.ofChar ')' :: rest)).drop
      (content.length + 2) = rest := by
    simp [List.drop_append]
  rw [pieces, piecesAfter, if_pos hsymbol, groupContent?_group hne hfree]
  simp only
  rw [piecesAfter_eq, hdrop]

/-- The pieces that split a word are the ones that are found in it. -/
theorem Splits.eq_pieces {word : Text} {parts : List Piece} (hsplits : Splits word parts) :
    parts = pieces word := by
  induction hsplits with
  | nil => rfl
  | skipped hpoint _ ih =>
      rw [ih, pieces_cons_skipped (hpoint.elim CodePoint.isSymbol_of_isBlank id)]
  | bare hsymbol halone _ ih => rw [ih, pieces_cons_bare hsymbol halone]
  | group hsymbol hne hfree _ ih => rw [ih, pieces_cons_group hsymbol hne hfree]

end Lindenmayer
