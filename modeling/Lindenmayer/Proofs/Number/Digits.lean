import Lindenmayer.Number.Numeral
import Lindenmayer.Text.CodePoint
import Mathlib.Data.List.Forall2
import Mathlib.Data.List.Induction
import Mathlib.Tactic.Ring

/-!
# Written digits

A natural number is written as the run of its decimal digits, which starts with a zero only for zero
itself. A run of digits is scanned to its end, and it denotes the number it was written for.
-/

namespace Lindenmayer

theorem CodePoint.ofChar_injective : Function.Injective CodePoint.ofChar := by
  intro first second heq
  have hvalue : first.toNat = second.toNat := congrArg CodePoint.value heq
  exact Char.toNat_inj.mp hvalue

@[simp] theorem CodePoint.ofChar_inj {first second : Char} :
    CodePoint.ofChar first = CodePoint.ofChar second ↔ first = second :=
  CodePoint.ofChar_injective.eq_iff

/-- The code point of a decimal digit. -/
def digitPoint (digit : ℕ) : CodePoint :=
  CodePoint.ofChar digit.digitChar

/-- The text of some decimal digits. -/
def digitText (digits : List ℕ) : Text :=
  digits.map digitPoint

/-- The decimal digits of a number, the leading one first. -/
def decimalDigits (number : ℕ) : List ℕ :=
  if number < 10 then [number] else decimalDigits (number / 10) ++ [number % 10]

theorem value_digitPoint {digit : ℕ} (hdigit : digit < 10) :
    (digitPoint digit).value = 0x30 + digit := by
  have hall : ∀ digit < 10, (digitPoint digit).value = 0x30 + digit := by decide
  exact hall digit hdigit

theorem basicDigit?_digitPoint {digit : ℕ} (hdigit : digit < 10) :
    (digitPoint digit).basicDigit? = some digit := by
  rw [CodePoint.basicDigit?, value_digitPoint hdigit, if_pos (by omega), Nat.add_sub_cancel_left]

theorem digit?_digitPoint {digit : ℕ} (hdigit : digit < 10) :
    (digitPoint digit).digit? = some digit := by
  have hall : ∀ digit < 10, (digitPoint digit).digit? = some digit := by decide
  exact hall digit hdigit

theorem digitPoint_eq_zero {digit : ℕ} (hdigit : digit < 10) :
    digitPoint digit = CodePoint.ofChar '0' ↔ digit = 0 := by
  refine ⟨fun heq => ?_, fun heq => heq ▸ rfl⟩
  have hvalue := congrArg CodePoint.value heq
  rw [value_digitPoint hdigit] at hvalue
  change 48 + digit = 48 at hvalue
  omega

@[simp] theorem digitText_nil : digitText [] = [] := rfl

@[simp] theorem digitText_cons (digit : ℕ) (digits : List ℕ) :
    digitText (digit :: digits) = digitPoint digit :: digitText digits := rfl

@[simp] theorem digitText_append (first second : List ℕ) :
    digitText (first ++ second) = digitText first ++ digitText second :=
  List.map_append

@[simp] theorem length_digitText (digits : List ℕ) : (digitText digits).length = digits.length :=
  List.length_map _

theorem digitText_replicate_zero (count : ℕ) :
    digitText (List.replicate count 0) = List.replicate count (CodePoint.ofChar '0') :=
  List.map_replicate

namespace decimalDigits

theorem lt_ten (number : ℕ) : ∀ digit ∈ decimalDigits number, digit < 10 := by
  fun_induction decimalDigits number with
  | case1 number hlt => simpa using hlt
  | case2 number hle ih =>
      intro digit hdigit
      rcases List.mem_append.mp hdigit with hdigit | hdigit
      · exact ih digit hdigit
      · rw [List.mem_singleton.mp hdigit]
        exact Nat.mod_lt _ (by decide)

@[simp] theorem zero : decimalDigits 0 = [0] := by
  rw [decimalDigits, if_pos (by decide)]

theorem ne_nil (number : ℕ) : decimalDigits number ≠ [] := by
  rw [decimalDigits]
  split <;> simp

/-- Only zero is written with a leading zero. -/
theorem head?_ne_zero {number : ℕ} (hnumber : number ≠ 0) :
    (decimalDigits number).head? ≠ some 0 := by
  fun_induction decimalDigits number with
  | case1 number hlt => simpa using hnumber
  | case2 number hle ih =>
      rw [List.head?_append, Option.or_of_isSome (by simpa using ne_nil _)]
      exact ih (by omega)

theorem length_eq (number : ℕ) :
    (decimalDigits number).length = (Nat.toDigits 10 number).length := by
  fun_induction decimalDigits number with
  | case1 number hlt => rw [Nat.toDigits_of_lt_base hlt]; rfl
  | case2 number hle ih =>
      rw [Nat.toDigits_of_base_le (by decide) (by omega), List.length_append, List.length_append,
        ih]
      rfl

end decimalDigits

theorem Text.ofNat_eq (number : ℕ) : Text.ofNat number = digitText (decimalDigits number) := by
  rw [Text.ofNat]
  fun_induction decimalDigits number with
  | case1 number hlt => rw [Nat.toDigits_of_lt_base hlt]; rfl
  | case2 number hle ih =>
      rw [Nat.toDigits_of_base_le (by decide) (by omega), List.map_append, ih, digitText_append]
      rfl

theorem digitsValue_concat (digits : List ℕ) (digit : ℕ) :
    digitsValue (digits ++ [digit]) = 10 * digitsValue digits + digit := by
  rw [digitsValue, List.foldl_append]
  rfl

theorem digitsValue_append (first second : List ℕ) :
    digitsValue (first ++ second) =
      digitsValue first * 10 ^ second.length + digitsValue second := by
  induction second using List.reverseRecOn with
  | nil => simp [digitsValue]
  | append_singleton second digit ih =>
      rw [← List.append_assoc, digitsValue_concat, digitsValue_concat, ih, List.length_append,
        List.length_singleton, pow_succ]
      ring

@[simp] theorem digitsValue_replicate_zero (count : ℕ) :
    digitsValue (List.replicate count 0) = 0 := by
  induction count with
  | zero => rfl
  | succ count ih => rw [List.replicate_succ', digitsValue_append, ih]; rfl

@[simp] theorem digitsValue_zero_cons (digits : List ℕ) :
    digitsValue (0 :: digits) = digitsValue digits := rfl

@[simp] theorem digitsValue_zeros_append (count : ℕ) (digits : List ℕ) :
    digitsValue (List.replicate count 0 ++ digits) = digitsValue digits := by
  rw [digitsValue_append, digitsValue_replicate_zero, zero_mul, zero_add]

@[simp] theorem digitsValue_append_zeros (count : ℕ) (digits : List ℕ) :
    digitsValue (digits ++ List.replicate count 0) = digitsValue digits * 10 ^ count := by
  rw [digitsValue_append, digitsValue_replicate_zero, List.length_replicate, add_zero]

@[simp] theorem digitsValue_decimalDigits (number : ℕ) :
    digitsValue (decimalDigits number) = number := by
  fun_induction decimalDigits number with
  | case1 number hlt => simp [digitsValue]
  | case2 number hle ih =>
      rw [digitsValue_concat, ih]
      omega

/-- No digit of the basic alphabet starts a text. -/
def NoDigit (text : Text) : Prop :=
  ∀ point ∈ text.head?, point.basicDigit? = none

/-- The code points of a text are these digits. -/
def IsRun (digit? : CodePoint → Option ℕ) : Text → List ℕ → Prop :=
  List.Forall₂ fun point digit => digit? point = some digit

section Runs

variable {digit? : CodePoint → Option ℕ} {digits : List ℕ} {run rest : Text}

/-- A run of digits is scanned up to what cannot continue it. -/
theorem takeDigits_run (hrun : IsRun digit? run digits)
    (hrest : ∀ point ∈ rest.head?, digit? point = none) :
    takeDigits digit? (run ++ rest) = (digits, rest) := by
  induction hrun with
  | nil =>
      cases rest with
      | nil => rfl
      | cons point rest => rw [List.nil_append, takeDigits, hrest point rfl]
  | cons hdigit _ ih => rw [List.cons_append, takeDigits, hdigit, ih]

theorem exists_run_of_takeDigits {text : Text} (htake : takeDigits digit? text = (digits, rest)) :
    ∃ run, IsRun digit? run digits ∧ text = run ++ rest := by
  induction text generalizing digits with
  | nil =>
      obtain ⟨rfl, rfl⟩ := Prod.mk.inj htake
      exact ⟨[], .nil, rfl⟩
  | cons point text ih =>
      rw [takeDigits] at htake
      cases hdigit : digit? point with
      | none =>
          rw [hdigit] at htake
          obtain ⟨rfl, rfl⟩ := Prod.mk.inj htake
          exact ⟨[], .nil, rfl⟩
      | some digit =>
          rw [hdigit] at htake
          obtain ⟨rfl, rfl⟩ := Prod.mk.inj htake
          obtain ⟨run, hrun, htext⟩ := ih rfl
          exact ⟨point :: run, .cons hdigit hrun, congrArg (point :: ·) htext⟩

/-- Digits are a run in every script that has the digits of the basic alphabet. -/
theorem isRun_digitText (hread : ∀ digit < 10, digit? (digitPoint digit) = some digit)
    (hdigits : ∀ digit ∈ digits, digit < 10) : IsRun digit? (digitText digits) digits :=
  List.forall₂_map_left_iff.mpr (List.forall₂_same.mpr fun digit hdigit =>
    hread digit (hdigits digit hdigit))

theorem takeDigits_digitText (hread : ∀ digit < 10, digit? (digitPoint digit) = some digit)
    (hdigits : ∀ digit ∈ digits, digit < 10) (hrest : ∀ point ∈ rest.head?, digit? point = none) :
    takeDigits digit? (digitText digits ++ rest) = (digits, rest) :=
  takeDigits_run (isRun_digitText hread hdigits) hrest

end Runs

end Lindenmayer
