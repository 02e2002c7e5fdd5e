import Lindenmayer.Document.Printer
import Lindenmayer.Document.Reader
import Lindenmayer.Proofs.Number.Digits
import Lindenmayer.Proofs.Text.Utf8

/-!
# Strings in files

A string in a file is read as the text it was written for, whatever follows it, unless two
surrogates of the text form a pair. Escapes hide control characters, so no line end stands inside a
string.
-/

namespace Lindenmayer.Document

variable {whole rest text : Text} {point : CodePoint}

theorem hexDigit?_digitChar {digit : ℕ} (hdigit : digit < 16) :
    hexDigit? (CodePoint.ofChar digit.digitChar) = some digit := by
  have hall : ∀ digit < 16, hexDigit? (CodePoint.ofChar digit.digitChar) = some digit := by decide
  exact hall digit hdigit

theorem ofHex_four (number : ℕ) :
    Text.ofHex 4 number =
      [CodePoint.ofChar (number / 16 / 16 / 16 % 16).digitChar,
        CodePoint.ofChar (number / 16 / 16 % 16).digitChar,
        CodePoint.ofChar (number / 16 % 16).digitChar, CodePoint.ofChar (number % 16).digitChar] :=
  rfl

theorem hexNumber?_digits {number : ℕ} (hnumber : number < 0x10000) :
    hexNumber? (CodePoint.ofChar (number / 16 / 16 / 16 % 16).digitChar)
      (CodePoint.ofChar (number / 16 / 16 % 16).digitChar)
      (CodePoint.ofChar (number / 16 % 16).digitChar) (CodePoint.ofChar (number % 16).digitChar) =
      some number := by
  have hlt : ∀ part, part % 16 < 16 := fun part => Nat.mod_lt _ (by decide)
  rw [hexNumber?, hexDigit?_digitChar (hlt _), hexDigit?_digitChar (hlt _),
    hexDigit?_digitChar (hlt _), hexDigit?_digitChar (hlt _)]
  simp only [Option.bind_eq_bind, Option.bind_some, Option.pure_def, Option.some.injEq]
  omega

/-- An escape by number is read if something follows it. -/
theorem readInside_numberEscape (hpoint : point.value < 0x10000) (hrest : rest ≠ []) :
    readInside whole (numberEscape point ++ rest) = consResult point (readInside whole rest) := by
  have hempty : rest.isEmpty = false := by simpa using hrest
  rw [numberEscape, if_pos hpoint, ofHex_four]
  change readInside whole (CodePoint.ofChar '\\' :: CodePoint.ofChar 'u' :: _ :: _ :: _ :: _ ::
    rest) = _
  rw [readInside, if_neg (by decide), if_pos rfl, if_pos rfl, hexNumber?_digits hpoint, hempty]
  dsimp only
  rw [CodePoint.ofNat_value]

theorem readInside_simpleEscape {letter : CodePoint} (hletter : letter ≠ CodePoint.ofChar 'u')
    (hsimple : simpleEscape? letter = some point) :
    readInside whole (CodePoint.ofChar '\\' :: letter :: rest) =
      consResult point (readInside whole rest) := by
  rw [readInside.eq_def]
  dsimp only
  rw [if_neg (by decide), if_pos rfl, if_neg hletter, hsimple]

/-- A code point in a string of a file is read as itself. -/
theorem readInside_escape (point : CodePoint) (hrest : rest ≠ []) :
    readInside whole (escape Style.file point ++ rest) =
      consResult point (readInside whole rest) := by
  have hsimple : ∀ letter : Char, letter ≠ 'u' →
      simpleEscape? (CodePoint.ofChar letter) = some point →
      readInside whole ([CodePoint.ofChar '\\', CodePoint.ofChar letter] ++ rest) =
        consResult point (readInside whole rest) := fun letter hletter =>
    readInside_simpleEscape fun heq => hletter (CodePoint.ofChar_injective heq)
  unfold escape
  split
  next hpoint => exact hsimple '"' (by decide) (by rw [hpoint]; rfl)
  split
  next hpoint => exact hsimple '\\' (by decide) (by rw [hpoint]; rfl)
  split
  next hpoint => exact hsimple 'n' (by decide) (by rw [hpoint]; rfl)
  split
  next hpoint => exact hsimple 'r' (by decide) (by rw [hpoint]; rfl)
  split
  next hpoint => exact hsimple 't' (by decide) (by rw [hpoint]; rfl)
  split
  next hpoint => exact hsimple 'f' (by decide) (by rw [hpoint]; rfl)
  split
  next hpoint => exact hsimple 'b' (by decide) (by rw [hpoint]; rfl)
  split
  next hpoint => exact readInside_numberEscape (by omega) hrest
  next hmark hslash _ _ _ _ _ hcontrol =>
    rw [if_pos (show Style.file.direct = true ∨ _ from Or.inl rfl), List.singleton_append,
      readInside.eq_def]
    dsimp only
    rw [if_neg hmark, if_neg hslash, if_neg hcontrol]

/-- The inside of a string of a file is read up to its closing quotation mark. -/
theorem readInside_flatMap (whole text rest : Text) :
    readInside whole (text.flatMap (escape Style.file) ++ CodePoint.ofChar '"' :: rest) =
      .ok (text, rest) := by
  induction text with
  | nil => rw [List.flatMap_nil, List.nil_append, readInside.eq_def]; exact if_pos rfl
  | cons point text ih =>
      rw [List.flatMap_cons, List.append_assoc, readInside_escape point (by simp), ih]
      rfl

theorem joinPairs_of_encodable (htext : text.Encodable) : joinPairs text = text := by
  induction text with
  | nil => rfl
  | cons first text ih =>
      rw [Text.Encodable, List.forall_mem_cons] at htext
      cases text with
      | nil => rfl
      | cons second text =>
          -- A pair is joined only if both halves are surrogates.
          have hfirst : ¬ (isHighSurrogate first ∧ isLowSurrogate second) := by
            rintro ⟨hhigh, -⟩
            have hnot := htext.1
            simp only [isHighSurrogate, CodePoint.isSurrogate, Bool.and_eq_true,
              Bool.and_eq_false_iff, decide_eq_true_eq, decide_eq_false_iff_not] at hhigh hnot
            omega
          rw [joinPairs, if_neg hfirst, ih htext.2]

theorem stringText_append (text rest : Text) :
    stringText Style.file text ++ rest =
      CodePoint.ofChar '"' ::
        (text.flatMap (escape Style.file) ++ CodePoint.ofChar '"' :: rest) := by
  rw [stringText, List.append_assoc, List.append_assoc]
  rfl

theorem readString_flatMap (htext : text.Encodable) (whole rest : Text) :
    readString whole (text.flatMap (escape Style.file) ++ CodePoint.ofChar '"' :: rest) =
      .ok (text, rest) := by
  rw [readString, readInside_flatMap]
  change Except.ok (joinPairs text, rest) = _
  rw [joinPairs_of_encodable htext]

end Lindenmayer.Document
