import Lindenmayer.Number.Layout
import Lindenmayer.Proofs.Number.Written
import Mathlib.Tactic.IntervalCases

/-!
# Layouts of numbers

A decimal number in positional notation or with an exponent is a written number of the same value.
So a finite double in a document is read as itself.
-/

namespace Lindenmayer

namespace WrittenNumber

/-- The value that a written number is read with. -/
theorem value_toDecimal (number : WrittenNumber) :
    number.toNumeral.toDecimal.ratio.value =
      digitsValue (number.whole ++ number.fraction) *
        10 ^ ((number.exponent.map exponentValue).getD 0 - number.fraction.length) :=
  Decimal.value_ratio _

/-- Digits whose first one stands for `10 ^ decade`, with at least one digit after the point. -/
def positional (negative : Bool) (digits : List ℕ) : ℤ → WrittenNumber
  | .negSucc zeros => ⟨negative, [0], List.replicate zeros 0 ++ digits, none⟩
  | .ofNat decade =>
      ⟨negative, digits.take (decade + 1) ++ List.replicate (decade + 1 - digits.length) 0,
        if digits.drop (decade + 1) = [] then [0] else digits.drop (decade + 1), none⟩

/-- Digits with the point after the first one, and at least two digits in the exponent. -/
def exponential (negative : Bool) (digits : List ℕ) (decade : ℤ) : WrittenNumber :=
  let exponent := decimalDigits decade.natAbs
  ⟨negative, digits.take 1, digits.drop 1,
    some (decade < 0, (if exponent.length < 2 then [0] else []) ++ exponent)⟩

variable {digits : List ℕ}

theorem text_positional (negative : Bool) (hne : digits ≠ []) (decade : ℤ) :
    Layout.sign negative ++ Layout.positional ".0" (digitText digits) decade =
      (positional negative digits decade).text := by
  cases decade with
  | negSucc zeros =>
      rw [Layout.positional, positional, text]
      simp only [fractionText, List.append_eq_nil_iff, hne, and_false, if_false, exponentText,
        digitText_append, digitText_replicate_zero, List.append_nil, List.append_assoc]
      rfl
  | ofNat decade =>
      have hzeros : decade + 1 - (digits.take (decade + 1)).length =
          decade + 1 - digits.length := by
        rw [List.length_take]
        omega
      rw [Layout.positional, positional, text, digitText_append, digitText_replicate_zero]
      simp only [digitText, ← List.map_take, ← List.map_drop, List.isEmpty_map, List.length_map,
        List.isEmpty_iff, exponentText, List.append_nil, List.append_assoc, fractionText, hzeros]
      split
      next => rfl
      next => rfl

theorem text_exponential (negative : Bool) (digits : List ℕ) (decade : ℤ) :
    Layout.sign negative ++ Layout.exponential (digitText digits) decade =
      (exponential negative digits decade).text := by
  have hempty : (digitText digits).drop 1 = [] ↔ digits.drop 1 = [] := by
    rw [digitText, ← List.map_drop, List.map_eq_nil_iff]
  have hsign : (if decade < 0 then (Text.ofString "-") else "+") =
      [CodePoint.ofChar (if decide (decade < 0) = true then '-' else '+')] := by
    simp only [decide_eq_true_eq]
    split <;> rfl
  have hpadding : (if (decimalDigits decade.natAbs).length < 2 then Text.ofString "0" else "") =
      digitText (if (decimalDigits decade.natAbs).length < 2 then [0] else []) := by
    split <;> rfl
  rw [Layout.exponential, exponential, text, exponentText, fractionText]
  simp only [Text.ofNat_eq, length_digitText, List.isEmpty_iff, hempty, hsign, hpadding]
  simp only [digitText, List.map_take, List.map_drop, List.map_append, List.append_assoc]
  congr 2
  split
  next hfraction =>
    rw [← List.map_drop, hfraction]
    rfl
  next => rfl

theorem value_positional (negative : Bool) (digits : List ℕ) (decade : ℤ) :
    (positional negative digits decade).toNumeral.toDecimal.ratio.value =
      digitsValue digits * 10 ^ (decade + 1 - digits.length) := by
  rw [value_toDecimal]
  cases decade with
  | negSucc zeros =>
      simp only [positional, List.singleton_append, digitsValue_zero_cons, digitsValue_zeros_append,
        List.length_append, List.length_replicate]
      congr 2
      simp
      omega
  | ofNat decade =>
      simp only [positional]
      split
      next hwhole =>
        rw [List.drop_eq_nil_iff] at hwhole
        -- The digits end before the point, and zeros fill the place up to it.
        rw [List.take_of_length_le hwhole, digitsValue_append, digitsValue_append_zeros]
        have hexponent : (Int.ofNat decade + 1 - digits.length : ℤ) =
            ((decade + 1 - digits.length : ℕ) : ℤ) := by
          rw [Int.ofNat_eq_natCast]
          omega
        rw [hexponent, zpow_natCast]
        simp only [Option.map_none, Option.getD_none, List.length_singleton]
        push_cast
        norm_num [digitsValue]
        ring
      next hfraction =>
        rw [List.drop_eq_nil_iff, not_le] at hfraction
        rw [Nat.sub_eq_zero_of_le hfraction.le, List.replicate_zero, List.append_nil,
          List.take_append_drop, List.length_drop]
        congr 2
        simp
        omega

/-- The sign and the digits of an exponent denote it, also with zeros before the digits. -/
theorem exponentValue_padded (exponent : ℤ) {padding : List ℕ}
    (hpadding : digitsValue padding = 0) :
    exponentValue (exponent < 0, padding ++ decimalDigits exponent.natAbs) = exponent := by
  rw [exponentValue, digitsValue_append, hpadding, zero_mul, zero_add, digitsValue_decimalDigits]
  simp only [decide_eq_true_eq]
  split <;> omega

theorem value_exponential (negative : Bool) (hne : digits ≠ []) (decade : ℤ) :
    (exponential negative digits decade).toNumeral.toDecimal.ratio.value =
      digitsValue digits * 10 ^ (decade + 1 - digits.length) := by
  have hlength : 0 < digits.length := List.length_pos_iff.mpr hne
  rw [value_toDecimal]
  simp only [exponential, List.take_append_drop, List.length_drop, Option.map_some,
    Option.getD_some]
  rw [exponentValue_padded decade (by split <;> rfl)]
  congr 2
  omega

theorem valid_positional (negative : Bool) (decade : ℤ) (hdigits : ∀ digit ∈ digits, digit < 10)
    (hhead : digits.head? ≠ some 0) (hne : digits ≠ []) :
    (positional negative digits decade).Valid := by
  have hzeros : ∀ count, ∀ digit ∈ List.replicate count 0, digit < 10 := fun count digit hdigit =>
    List.eq_of_mem_replicate hdigit ▸ (by decide)
  cases decade with
  | negSucc zeros =>
      refine ⟨by simp [positional], ?_, by simp [positional], by simp [positional],
        Or.inl rfl, by simp [positional]⟩
      exact fun digit hdigit => (List.mem_append.mp hdigit).elim (hzeros _ digit) (hdigits digit)
  | ofNat decade =>
      obtain ⟨first, others, rfl⟩ := List.exists_cons_of_ne_nil hne
      refine ⟨?_, ?_, by simp [positional], by simp [positional], Or.inr hhead,
        by simp [positional]⟩
      · exact fun digit hdigit => (List.mem_append.mp hdigit).elim
          (fun hmem => hdigits digit (List.mem_of_mem_take hmem)) (hzeros _ digit)
      · simp only [positional]
        split
        next => simp
        next => exact fun digit hdigit => hdigits digit (List.mem_of_mem_drop hdigit)

theorem valid_exponential (negative : Bool) (decade : ℤ) (hdigits : ∀ digit ∈ digits, digit < 10)
    (hhead : digits.head? ≠ some 0) (hne : digits ≠ []) :
    (exponential negative digits decade).Valid := by
  obtain ⟨first, others, rfl⟩ := List.exists_cons_of_ne_nil hne
  refine ⟨?_, ?_, ?_, by simp [exponential], Or.inr hhead, ?_⟩
  · exact fun digit hdigit => hdigits digit (List.mem_of_mem_take hdigit)
  · exact fun digit hdigit => hdigits digit (List.mem_of_mem_drop hdigit)
  · rintro exponent ⟨⟩ digit hdigit
    rcases List.mem_append.mp hdigit with hdigit | hdigit
    · split at hdigit <;> simp_all
    · exact decimalDigits.lt_ten _ digit hdigit
  · rintro exponent ⟨⟩ hnil
    exact decimalDigits.ne_nil _ (List.append_eq_nil_iff.mp hnil).2

theorem fraction_positional_ne_nil (negative : Bool) (decade : ℤ) (hne : digits ≠ []) :
    (positional negative digits decade).fraction ≠ [] := by
  cases decade with
  | negSucc zeros => exact List.append_ne_nil_of_right_ne_nil _ hne
  | ofNat decade =>
      simp only [positional]
      split
      next => simp
      next hfraction => exact hfraction

/-- Taking the zeros away from the end of a run of digits. -/
theorem exists_dropZeros (hdigits : ∀ digit ∈ digits, digit < 10) :
    ∃ kept zeros, ((digitText digits).reverse.dropWhile (· = CodePoint.ofChar '0')).reverse =
      digitText kept ∧ kept ++ List.replicate zeros 0 = digits := by
  induction digits using List.reverseRecOn with
  | nil => exact ⟨[], 0, rfl, rfl⟩
  | append_singleton digits digit ih =>
      rw [List.forall_mem_append] at hdigits
      have hdigit : digit < 10 := hdigits.2 digit List.mem_cons_self
      rw [digitText_append, List.reverse_append, digitText_cons, digitText_nil,
        List.reverse_singleton, List.singleton_append, List.dropWhile_cons]
      by_cases hzero : digit = 0
      · obtain ⟨kept, zeros, hkept, happend⟩ := ih hdigits.1
        refine ⟨kept, zeros + 1, ?_, ?_⟩
        · rw [if_pos (decide_eq_true ((digitPoint_eq_zero hdigit).mpr hzero)), hkept]
        · rw [List.replicate_succ', ← List.append_assoc, happend, hzero]
      · refine ⟨digits ++ [digit], 0, ?_, List.append_nil _⟩
        rw [if_neg (by rw [decide_eq_true_eq, digitPoint_eq_zero hdigit]; exact hzero),
          List.reverse_cons, List.reverse_reverse, digitText_append]
        rfl

/-- The significant digits of a number start with no zero, and with their decade they tell its
value. -/
theorem exists_significantDigits {decimal : Decimal} (hdecimal : decimal.digits ≠ 0) :
    ∃ digits, Layout.significantDigits decimal.digits = digitText digits ∧
      (∀ digit ∈ digits, digit < 10) ∧ digits ≠ [] ∧ digits.head? ≠ some 0 ∧
      decimal.ratio.value =
        digitsValue digits * 10 ^ (Layout.firstDecade decimal + 1 - digits.length) := by
  obtain ⟨digits, zeros, hdigits, hall⟩ := exists_dropZeros (decimalDigits.lt_ten decimal.digits)
  have hhead := decimalDigits.head?_ne_zero hdecimal
  have hne : digits ≠ [] := by
    rintro rfl
    obtain ⟨count, rfl⟩ : ∃ count, zeros = count + 1 :=
      Nat.exists_eq_succ_of_ne_zero fun hzeros =>
        decimalDigits.ne_nil decimal.digits (by rw [← hall, hzeros]; rfl)
    exact hhead (hall ▸ rfl)
  refine ⟨digits, ?_, ?_, hne, ?_, ?_⟩
  · rw [Layout.significantDigits, Text.ofNat_eq, hdigits]
  · exact fun digit hdigit => decimalDigits.lt_ten decimal.digits digit
      (hall ▸ List.mem_append_left _ hdigit)
  · rwa [← hall, List.head?_append, Option.or_of_isSome (by simpa using hne)] at hhead
  · have hvalue : decimal.digits = digitsValue digits * 10 ^ zeros := by
      rw [← digitsValue_append_zeros, hall, digitsValue_decimalDigits]
    have hdecade : Layout.firstDecade decimal + 1 - digits.length = zeros + decimal.exponent := by
      rw [Layout.firstDecade, if_neg hdecimal, Text.ofNat_eq, length_digitText, ← hall,
        List.length_append, List.length_replicate]
      omega
    rw [Decimal.value_ratio, hvalue, hdecade, zpow_add₀ (by norm_num), zpow_natCast]
    push_cast
    ring

/-- A decimal number in a document is a written number of its sign and value, with a point or an
exponent. -/
theorem exists_write (decimal : Decimal) :
    ∃ number : WrittenNumber, number.Valid ∧ Layout.document.write decimal = number.text ∧
      (number.fraction ≠ [] ∨ number.exponent ≠ none) ∧ number.negative = decimal.negative ∧
      number.toNumeral.toDecimal.ratio.value = decimal.ratio.value := by
  by_cases hdecimal : decimal.digits = 0
  · refine ⟨⟨decimal.negative, [0], [0], none⟩, ⟨by simp, by simp, by simp, by simp, Or.inl rfl,
      by simp⟩, ?_, Or.inl (by simp), rfl, ?_⟩
    · have hdecade : Layout.firstDecade decimal = 0 := by rw [Layout.firstDecade, if_pos hdecimal]
      have hdigits : Layout.significantDigits 0 = [] := by decide
      rw [Layout.write, hdecade, hdecimal, if_pos (by decide), hdigits]
      cases decimal.negative <;> rfl
    · rw [value_toDecimal, Decimal.value_ratio, hdecimal]
      simp [digitsValue]
  · obtain ⟨digits, hdigits, hlt, hne, hhead, hvalue⟩ := exists_significantDigits hdecimal
    rw [Layout.write, hdigits]
    split
    next =>
      refine ⟨positional decimal.negative digits (Layout.firstDecade decimal),
        valid_positional _ _ hlt hhead hne, text_positional _ hne _,
        Or.inl (fraction_positional_ne_nil _ _ hne), ?_, ?_⟩
      · cases Layout.firstDecade decimal <;> rfl
      · rw [value_positional, hvalue]
    next =>
      refine ⟨exponential decimal.negative digits (Layout.firstDecade decimal),
        valid_exponential _ _ hlt hhead hne, text_exponential _ _ _, Or.inr ?_, rfl, ?_⟩
      · simp [exponential]
      · rw [value_exponential _ hne, hvalue]

/-- An integer as a written number. -/
def integer (value : ℤ) : WrittenNumber :=
  ⟨value < 0, decimalDigits value.natAbs, [], none⟩

/-- An integer is written as its sign and its digits. -/
theorem ofInt_eq (value : ℤ) :
    Text.ofInt value = Layout.sign (value < 0) ++ digitText (decimalDigits value.natAbs) := by
  rw [← Text.ofNat_eq]
  cases value with
  | ofNat value => rfl
  | negSucc value => rw [decide_eq_true (Int.negSucc_lt_zero value)]; rfl

theorem text_integer (value : ℤ) : (integer value).text = Text.ofInt value := by
  simp only [ofInt_eq, integer, text, fractionText, exponentText, if_true, List.append_nil]

theorem valid_integer (value : ℤ) : (integer value).Valid := by
  refine ⟨decimalDigits.lt_ten _, by simp [integer], by simp [integer], decimalDigits.ne_nil _, ?_,
    by simp [integer]⟩
  rcases eq_or_ne value.natAbs 0 with hzero | hne
  · exact Or.inl (by rw [integer, hzero, decimalDigits.zero])
  · exact Or.inr (decimalDigits.head?_ne_zero hne)

end WrittenNumber

namespace Document

variable {rest : Text}

/-- No word starts as a number does. -/
theorem readWord_text {number : WrittenNumber} (hvalid : number.Valid) :
    readWord words (number.text ++ rest) = readNumber (number.text ++ rest) := by
  obtain ⟨negative, whole, fraction, exponent⟩ := number
  obtain ⟨digit, others, rfl⟩ := List.exists_cons_of_ne_nil hvalid.whole_ne_nil
  have hdigit : digit < 10 := hvalid.whole_lt digit List.mem_cons_self
  cases negative <;> interval_cases digit <;> rfl

/-- A decimal number is read as the double that is nearest to it. -/
theorem readWord_write (decimal : Decimal) (hends : EndsNumber rest) :
    readWord words (Layout.document.write decimal ++ rest) =
      .ok (.number decimal.toFloat, rest) := by
  obtain ⟨number, hvalid, htext, hkind, hnegative, hvalue⟩ := WrittenNumber.exists_write decimal
  rw [htext, readWord_text hvalid, WrittenNumber.readNumber_text hvalid hends, if_neg]
  · rw [Decimal.toFloat_congr hnegative hvalue]
  · rw [List.isEmpty_iff, Option.isNone_iff_eq_none]
    tauto

/-- A double is read as itself. -/
theorem readWord_writeShortest (float : Float) (hends : EndsNumber rest) :
    readWord words (Layout.document.writeShortest float ++ rest) = .ok (.number float, rest) := by
  rw [Layout.writeShortest, Layout.writeFloat]
  split
  next hparts =>
    rw [← FloatParts.toFloat_ofFloat float, hparts]
    rfl
  next negative hparts =>
    rw [← FloatParts.toFloat_ofFloat float, hparts]
    cases negative <;> rfl
  next negative magnitude hparts =>
    rw [readWord_write _ hends, Decimal.toFloat_shortest hparts]

theorem readWord_ofInt {value : ℤ} (hvalue : value.natAbs < 10 ^ integerDigitLimit)
    (hends : EndsNumber rest) :
    readWord words (Text.ofInt value ++ rest) = .ok (.integer value, rest) := by
  have hlength : (WrittenNumber.integer value).whole.length ≤ integerDigitLimit := by
    rw [WrittenNumber.integer, decimalDigits.length_eq]
    exact (Nat.length_toDigits_le_iff (by decide) (by decide)).mpr hvalue
  rw [← WrittenNumber.text_integer, readWord_text (WrittenNumber.valid_integer value),
    WrittenNumber.readNumber_text (WrittenNumber.valid_integer value) hends, if_pos ⟨rfl, rfl⟩,
    if_neg (not_lt.mpr hlength)]
  simp only [WrittenNumber.integer, digitsValue_decimalDigits, decide_eq_true_eq]
  congr 3
  split <;> omega

end Document

end Lindenmayer
