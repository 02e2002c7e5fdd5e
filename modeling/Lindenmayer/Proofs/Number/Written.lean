import Lindenmayer.Document.Reader
import Lindenmayer.Number.Layout
import Lindenmayer.Proofs.Number.Decimal
import Lindenmayer.Proofs.Number.Digits

/-!
# Written numbers in documents

A written number has a sign, digits before and after a point, and an exponent. The reader takes one
apart as it is written, and every layout of a decimal number is such a number of the same value.
Hence a double in a document is read as itself.
-/

namespace Lindenmayer

/-- A number as it stands in a document. Without digits after it, the point is left out. -/
structure WrittenNumber where
  negative : Bool
  whole : List ℕ
  fraction : List ℕ
  exponent : Option (Bool × List ℕ)

namespace WrittenNumber

/-- The point and the digits after it. -/
def fractionText (fraction : List ℕ) : Text :=
  if fraction = [] then [] else CodePoint.ofChar '.' :: digitText fraction

/-- The mark, the sign and the digits of an exponent. -/
def exponentText : Option (Bool × List ℕ) → Text
  | none => []
  | some (negative, digits) =>
      CodePoint.ofChar 'e' :: CodePoint.ofChar (if negative then '-' else '+') :: digitText digits

/-- The exponent that a sign and digits denote. -/
def exponentValue (exponent : Bool × List ℕ) : ℤ :=
  if exponent.1 then -digitsValue exponent.2 else digitsValue exponent.2

/-- The text of a written number. -/
def text (number : WrittenNumber) : Text :=
  Layout.sign number.negative ++ digitText number.whole ++ fractionText number.fraction ++
    exponentText number.exponent

/-- The numeral that a written number is read as. -/
def toNumeral (number : WrittenNumber) : Numeral :=
  ⟨number.negative, number.whole, number.fraction, (number.exponent.map exponentValue).getD 0⟩

/-- A written number has digits only, it does not start with a zero before other digits, and its
exponent is not empty. -/
structure Valid (number : WrittenNumber) : Prop where
  whole_lt : ∀ digit ∈ number.whole, digit < 10
  fraction_lt : ∀ digit ∈ number.fraction, digit < 10
  exponent_lt : ∀ exponent ∈ number.exponent, ∀ digit ∈ exponent.2, digit < 10
  whole_ne_nil : number.whole ≠ []
  head?_ne_zero : number.whole = [0] ∨ number.whole.head? ≠ some 0
  exponent_ne_nil : ∀ exponent ∈ number.exponent, exponent.2 ≠ []

end WrittenNumber

/-- A text that cannot continue a number. -/
def EndsNumber (rest : Text) : Prop :=
  ∀ point ∈ rest.head?, point.basicDigit? = none ∧ point ≠ CodePoint.ofChar '.' ∧
    point ≠ CodePoint.ofChar 'e' ∧ point ≠ CodePoint.ofChar 'E'

theorem EndsNumber.noDigit {rest : Text} (hends : EndsNumber rest) : NoDigit rest :=
  fun point hpoint => (hends point hpoint).1

namespace WrittenNumber

open Document

variable {whole fraction : List ℕ} {rest : Text}

theorem noDigit_fractionText (hrest : NoDigit rest) : NoDigit (fractionText fraction ++ rest) := by
  rw [fractionText]
  split
  next => exact hrest
  next =>
    rintro point ⟨⟩
    decide

theorem noDigit_exponentText {exponent : Option (Bool × List ℕ)} (hrest : NoDigit rest) :
    NoDigit (exponentText exponent ++ rest) := by
  cases exponent with
  | none => exact hrest
  | some exponent =>
      rintro point ⟨⟩
      decide

theorem takeWhole_digitText (hwhole : ∀ digit ∈ whole, digit < 10)
    (hhead : whole = [0] ∨ whole.head? ≠ some 0) (hrest : NoDigit rest) :
    takeWhole (digitText whole ++ rest) = (whole, rest) := by
  rw [takeWhole, takeDigits_digitText @basicDigit?_digitPoint hwhole hrest]
  rcases hhead with rfl | hhead
  · rfl
  · split
    next heq =>
      rw [Prod.mk.injEq] at heq
      rw [heq.1] at hhead
      exact absurd rfl hhead
    next => rfl

theorem takeFraction_fractionText (hfraction : ∀ digit ∈ fraction, digit < 10)
    (hrest : NoDigit rest) (hpoint : ∀ point ∈ rest.head?, point ≠ CodePoint.ofChar '.') :
    takeFraction (fractionText fraction ++ rest) = (fraction, rest) := by
  rw [takeFraction, fractionText]
  cases fraction with
  | nil =>
      cases rest with
      | nil => rfl
      | cons point rest =>
          rw [if_pos rfl, List.nil_append, Numeral.takeFraction, if_neg (hpoint point rfl)]
  | cons digit fraction =>
      rw [if_neg (List.cons_ne_nil _ _), List.cons_append, Numeral.takeFraction, if_pos rfl,
        takeDigits_digitText @basicDigit?_digitPoint hfraction hrest]

theorem takeInteger?_digits {digits : List ℕ} (negative : Bool)
    (hdigits : ∀ digit ∈ digits, digit < 10) (hne : digits ≠ []) (hrest : NoDigit rest) :
    takeInteger? CodePoint.basicDigit?
        (CodePoint.ofChar (if negative then '-' else '+') :: digitText digits ++ rest) =
      some (exponentValue (negative, digits), rest) := by
  have hsign : takeSign (CodePoint.ofChar (if negative then '-' else '+') ::
      digitText digits ++ rest) = (negative, digitText digits ++ rest) := by
    cases negative <;> rfl
  rw [takeInteger?, hsign]
  dsimp only
  rw [takeDigits_digitText @basicDigit?_digitPoint hdigits hrest]
  split
  next heq => exact absurd (Prod.mk.inj heq).1 hne
  next heq =>
    rw [Prod.mk.injEq] at heq
    rw [exponentValue, heq.1, heq.2]

theorem takeExponent_exponentText {exponent : Option (Bool × List ℕ)}
    (hexponent : ∀ written ∈ exponent, ∀ digit ∈ written.2, digit < 10)
    (hne : ∀ written ∈ exponent, written.2 ≠ []) (hends : EndsNumber rest) :
    takeExponent (exponentText exponent ++ rest) = (exponent.map exponentValue, rest) := by
  cases exponent with
  | none =>
      cases rest with
      | nil => rfl
      | cons point rest =>
          obtain ⟨-, -, hsmall, hcapital⟩ := hends point rfl
          rw [exponentText, List.nil_append, takeExponent, if_neg (by tauto)]
          rfl
  | some exponent =>
      rw [exponentText, List.cons_append, takeExponent, if_pos (Or.inl rfl),
        takeInteger?_digits exponent.1 (hexponent exponent rfl) (hne exponent rfl) hends.noDigit]
      rfl

theorem head?_digitText_ne (hwhole : ∀ digit ∈ whole, digit < 10) (hne : whole ≠ []) :
    (digitText whole ++ rest).head? ≠ some (CodePoint.ofChar '-') := by
  obtain ⟨digit, others, rfl⟩ := List.exists_cons_of_ne_nil hne
  intro heq
  have hvalue := congrArg CodePoint.value (Option.some.inj heq)
  rw [value_digitPoint (hwhole digit List.mem_cons_self)] at hvalue
  change 48 + digit = 45 at hvalue
  omega

theorem head?_sign (negative : Bool) (hrest : rest.head? ≠ some (CodePoint.ofChar '-')) :
    ((Layout.sign negative ++ rest).head? = some (CodePoint.ofChar '-')) = (negative = true) := by
  cases negative with
  | true => exact (eq_true rfl).trans (eq_true rfl).symm
  | false => exact (eq_false hrest).trans (eq_false Bool.false_ne_true).symm

theorem drop_sign (negative : Bool) (rest : Text) :
    (if negative = true then (Layout.sign negative ++ rest).drop 1
      else Layout.sign negative ++ rest) = rest := by
  cases negative <;> rfl

theorem head?_exponentText_ne {exponent : Option (Bool × List ℕ)} (hends : EndsNumber rest) :
    ∀ point ∈ (exponentText exponent ++ rest).head?, point ≠ CodePoint.ofChar '.' := by
  cases exponent with
  | none => exact fun point hmem => (hends point hmem).2.1
  | some exponent =>
      rintro point ⟨⟩
      decide

/-- The reader takes a written number apart into its parts. -/
theorem readNumber_text {number : WrittenNumber} (hvalid : number.Valid) (hends : EndsNumber rest) :
    readNumber (number.text ++ rest) =
      if number.fraction.isEmpty ∧ number.exponent.isNone then
        if integerDigitLimit < number.whole.length then .error (.tooManyDigits number.whole.length)
        else
          .ok (.integer (if number.negative then -digitsValue number.whole
            else digitsValue number.whole), rest)
      else .ok (.number number.toNumeral.toDecimal.toFloat, rest) := by
  obtain ⟨negative, whole, fraction, exponent⟩ := number
  obtain ⟨hwhole, hfraction, hexponent, hne, hhead, hexponentNe⟩ := hvalid
  dsimp only at *
  have hexponentEnds : NoDigit (exponentText exponent ++ rest) :=
    noDigit_exponentText hends.noDigit
  have htext : text ⟨negative, whole, fraction, exponent⟩ ++ rest = Layout.sign negative ++
      (digitText whole ++ (fractionText fraction ++ (exponentText exponent ++ rest))) := by
    simp only [text, List.append_assoc]
  rw [htext, readNumber]
  -- The four parts are taken from the front, each up to what the next one starts with.
  simp only [head?_sign negative (head?_digitText_ne hwhole hne), drop_sign]
  rw [takeWhole_digitText hwhole hhead (noDigit_fractionText hexponentEnds)]
  dsimp only
  rw [takeFraction_fractionText hfraction hexponentEnds (head?_exponentText_ne hends)]
  dsimp only
  rw [takeExponent_exponentText hexponent hexponentNe hends]
  dsimp only
  rw [if_neg (by simpa using hne)]
  simp only [Option.isNone_map, Bool.decide_eq_true]
  rfl

end WrittenNumber

end Lindenmayer
