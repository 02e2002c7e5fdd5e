import Lindenmayer.Text.Utf8
import Mathlib.Data.List.TakeWhile

/-!
# Texts as bytes and back

A text has an encoded form exactly if it holds no surrogate, and decoding the encoded form gives the
text back.
-/

namespace Lindenmayer

/-- A text without surrogates. -/
def Text.Encodable (text : Text) : Prop :=
  ∀ point ∈ text, point.isSurrogate = false

instance (text : Text) : Decidable text.Encodable :=
  inferInstanceAs (Decidable (∀ point ∈ text, point.isSurrogate = false))

theorem Text.encodable_append {first second : Text} :
    (first ++ second).Encodable ↔ first.Encodable ∧ second.Encodable :=
  List.forall_mem_append

@[simp] theorem CodePoint.ofNat_value (point : CodePoint) :
    CodePoint.ofNat point.value = point := by
  rw [ofNat, dif_pos point.value_lt]

namespace Utf8

theorem toNat_toUInt8 {number : Nat} (hnumber : number < 256) :
    number.toUInt8.toNat = number := by
  simpa [Nat.toUInt8] using Nat.mod_eq_of_lt hnumber

theorem lead?_two {value : Nat} (hlow : 0x80 ≤ value) (hhigh : value < 0x800) :
    lead? (0xC0 + value / 0x40).toUInt8 =
      some ⟨(0xC0 + value / 0x40).toUInt8, 1, 1, 0x80, 0xBF, value / 0x40⟩ := by
  rw [lead?, toNat_toUInt8 (by omega)]
  rw [if_neg (by omega), if_neg (by omega), if_pos (by omega), Nat.add_sub_cancel_left]

/-- The first of three bytes excludes shorter forms and surrogates by the range of the next one. -/
theorem lead?_three {value : Nat} (hlow : 0x800 ≤ value) (hhigh : value < 0x10000)
    (hsurrogate : value < 0xD800 ∨ 0xE000 ≤ value) :
    ∃ low high, lead? (0xE0 + value / 0x1000).toUInt8 =
        some ⟨(0xE0 + value / 0x1000).toUInt8, 1, 2, low, high, value / 0x1000⟩ ∧
      low ≤ 0x80 + value / 0x40 % 0x40 ∧ 0x80 + value / 0x40 % 0x40 ≤ high := by
  rw [lead?, toNat_toUInt8 (by omega)]
  rw [if_neg (by omega), if_neg (by omega), if_neg (by omega)]
  by_cases hfirst : 0xE0 + value / 0x1000 = 0xE0
  · rw [if_pos hfirst]
    exact ⟨0xA0, 0xBF, by rw [show value / 0x1000 = 0 by omega], by omega, by omega⟩
  · rw [if_neg hfirst]
    by_cases hgap : 0xE0 + value / 0x1000 = 0xED
    · rw [if_pos hgap]
      exact ⟨0x80, 0x9F, by rw [show value / 0x1000 = 0xD by omega], by omega, by omega⟩
    · rw [if_neg hgap, if_pos (by omega), Nat.add_sub_cancel_left]
      exact ⟨0x80, 0xBF, rfl, by omega, by omega⟩

/-- The first of four bytes excludes shorter forms and values that are too large. -/
theorem lead?_four {value : Nat} (hlow : 0x10000 ≤ value) (hhigh : value < 0x110000) :
    ∃ low high, lead? (0xF0 + value / 0x40000).toUInt8 =
        some ⟨(0xF0 + value / 0x40000).toUInt8, 1, 3, low, high, value / 0x40000⟩ ∧
      low ≤ 0x80 + value / 0x1000 % 0x40 ∧ 0x80 + value / 0x1000 % 0x40 ≤ high := by
  rw [lead?, toNat_toUInt8 (by omega)]
  rw [if_neg (by omega), if_neg (by omega), if_neg (by omega), if_neg (by omega),
    if_neg (by omega), if_neg (by omega)]
  by_cases hfirst : 0xF0 + value / 0x40000 = 0xF0
  · rw [if_pos hfirst]
    exact ⟨0x90, 0xBF, by rw [show value / 0x40000 = 0 by omega], by omega, by omega⟩
  · rw [if_neg hfirst]
    by_cases hlast : 0xF0 + value / 0x40000 < 0xF4
    · rw [if_pos hlast, Nat.add_sub_cancel_left]
      exact ⟨0x80, 0xBF, rfl, by omega, by omega⟩
    · rw [if_neg hlast, if_pos (by omega)]
      exact ⟨0x80, 0x8F, by rw [show value / 0x40000 = 4 by omega], by omega, by omega⟩

variable {position : Nat} {first byte : UInt8} {taken owed low high value bits : Nat}
  {rest : List UInt8}

theorem decodeFrom_lead {pending : Pending} (hlead : lead? byte = some pending)
    (howed : pending.owed ≠ 0) :
    decodeFrom position none (byte :: rest) = decodeFrom (position + 1) (some pending) rest := by
  rw [decodeFrom, hlead]
  exact if_neg howed

/-- A byte that continues a code point brings six bits. -/
theorem decodeFrom_continue (hbits : bits < 0x40) (hlow : low ≤ 0x80 + bits)
    (hhigh : 0x80 + bits ≤ high) :
    decodeFrom position (some ⟨first, taken, owed + 2, low, high, value⟩)
        ((0x80 + bits).toUInt8 :: rest) =
      decodeFrom (position + 1)
        (some ⟨first, taken + 1, owed + 1, 0x80, 0xBF, value * 0x40 + bits⟩) rest := by
  rw [decodeFrom, Pending.continue?, toNat_toUInt8 (by omega), if_pos ⟨hlow, hhigh⟩,
    Nat.add_sub_cancel_left]
  exact if_neg (Nat.succ_ne_zero owed)

theorem decodeFrom_last (hbits : bits < 0x40) (hlow : low ≤ 0x80 + bits)
    (hhigh : 0x80 + bits ≤ high) :
    decodeFrom position (some ⟨first, taken, 1, low, high, value⟩)
        ((0x80 + bits).toUInt8 :: rest) =
      (decodeFrom (position + 1) none rest).map
        (CodePoint.ofNat (value * 0x40 + bits) :: ·) := by
  rw [decodeFrom, Pending.continue?, toNat_toUInt8 (by omega), if_pos ⟨hlow, hhigh⟩,
    Nat.add_sub_cancel_left]
  exact if_pos rfl

/-- A code point is decoded from its bytes, whatever follows them. -/
theorem decodeFrom_encodePoint (position : Nat) {point : CodePoint}
    (hpoint : point.isSurrogate = false) (rest : List UInt8) :
    decodeFrom position none (encodePoint point ++ rest) =
      (decodeFrom (position + (encodePoint point).length) none rest).map (point :: ·) := by
  have hlt := point.value_lt
  have hsurrogate : point.value < 0xD800 ∨ 0xE000 ≤ point.value := by
    rw [CodePoint.isSurrogate, Bool.and_eq_false_iff, decide_eq_false_iff_not,
      decide_eq_false_iff_not] at hpoint
    omega
  have hvalue : ∀ value, value = point.value → CodePoint.ofNat value = point := by
    rintro value rfl
    exact point.ofNat_value
  rw [encodePoint]
  -- The number of bytes decides what the first of them announces.
  by_cases hone : point.value < 0x80
  · rw [if_pos hone, List.singleton_append, decodeFrom, lead?, toNat_toUInt8 (by omega),
      if_pos hone]
    dsimp only
    rw [if_pos rfl, hvalue _ rfl, List.length_singleton]
  rw [if_neg hone]
  by_cases htwo : point.value < 0x800
  · rw [if_pos htwo, List.cons_append, List.singleton_append,
      decodeFrom_lead (lead?_two (by omega) htwo) (Nat.succ_ne_zero 0),
      decodeFrom_last (by omega) (by omega) (by omega), hvalue _ (by omega)]
    rfl
  rw [if_neg htwo]
  by_cases hthree : point.value < 0x10000
  · obtain ⟨low, high, hlead, hlow, hhigh⟩ := lead?_three (by omega) hthree hsurrogate
    rw [if_pos hthree, List.cons_append, List.cons_append, List.singleton_append,
      decodeFrom_lead hlead (Nat.succ_ne_zero 1), decodeFrom_continue (by omega) hlow hhigh,
      decodeFrom_last (by omega) (by omega) (by omega), hvalue _ (by omega)]
    rfl
  · obtain ⟨low, high, hlead, hlow, hhigh⟩ := lead?_four (by omega) hlt
    rw [if_neg hthree, List.cons_append, List.cons_append, List.cons_append, List.singleton_append,
      decodeFrom_lead hlead (Nat.succ_ne_zero 2), decodeFrom_continue (by omega) hlow hhigh,
      decodeFrom_continue (by omega) (by omega) (by omega),
      decodeFrom_last (by omega) (by omega) (by omega), hvalue _ (by omega)]
    rfl

theorem decodeFrom_flatMap {text : Text} (htext : text.Encodable) (position : Nat) :
    decodeFrom position none (text.flatMap encodePoint) = .ok text := by
  induction text generalizing position with
  | nil => rfl
  | cons point text ih =>
      rw [List.flatMap_cons, decodeFrom_encodePoint position (htext point List.mem_cons_self),
        ih fun other hother => htext other (List.mem_cons_of_mem _ hother)]
      rfl

/-- Decoding the encoded form of a text gives the text back. -/
theorem decode_flatMap {text : Text} (htext : text.Encodable) :
    decode (text.flatMap encodePoint) = .ok text :=
  decodeFrom_flatMap htext 0

theorem runOf?_eq_none {stops : CodePoint → Bool} {text : Text} :
    runOf? stops text = none ↔ ∀ point ∈ text, stops point = false := by
  have hdrop : text.dropWhile (!stops ·) = [] ↔ ∀ point ∈ text, stops point = false := by
    rw [List.dropWhile_eq_nil_iff]
    simp
  rw [← hdrop, runOf?]
  split
  next heq => simp [heq]
  next heq => simp [heq]

theorem surrogateRun?_eq_none {text : Text} : surrogateRun? text = none ↔ text.Encodable :=
  runOf?_eq_none

theorem encode_of_encodable {text : Text} (htext : text.Encodable) :
    encode text = .ok (text.flatMap encodePoint) := by
  rw [encode, surrogateRun?_eq_none.mpr htext]

theorem exists_encode_error {text : Text} (htext : ¬ text.Encodable) :
    ∃ fault, encode text = .error fault := by
  rw [← surrogateRun?_eq_none, ← ne_eq, Option.ne_none_iff_exists'] at htext
  obtain ⟨fault, hfault⟩ := htext
  exact ⟨fault, by rw [encode, hfault]⟩

end Utf8

end Lindenmayer
