import Lindenmayer.Proofs.Document.File

/-!
# What is too much for the reader

Apart from flaws, the reader stops at a whole number of too many digits, and at a container for
which there is no room left. It reads on from an end of the text, and it goes into a container at an
opening bracket. So wherever it stops for one of these reasons, the text has the digits, or it has
more opening brackets than there is room for.
-/

namespace Lindenmayer

/-- Whether a code point opens an array or an object. -/
def CodePoint.isOpening (point : CodePoint) : Bool :=
  point = '[' || point = '\x7b'

/-- Whether a text has so many digits in a row. -/
def Text.HasDigits (text : Text) (count : ℕ) : Prop :=
  ∃ run digits, run <:+: text ∧ IsRun CodePoint.basicDigit? run digits ∧ digits.length = count

namespace Document

variable {α β : Type} {room fuel : ℕ} {text last rest whole : Text} {stop : Stop}

/-- What a text is like at which the reader stops, if it is too much for the reader. -/
def Explains (room : ℕ) (text : Text) : Stop → Prop
  | .flaw .. => True
  | .tooManyDigits count => integerDigitLimit < count ∧ text.HasDigits count
  | .tooDeep _ => room < text.countP CodePoint.isOpening

/-- Reading goes on with an end of the text, or the text explains why it stops. -/
def Traced (room : ℕ) (text : Text) : Except Stop (α × Text) → Prop
  | .ok (_, rest) => rest <:+ text
  | .error stop => Explains room text stop

/-- A text explains what one of its ends explains. -/
theorem Explains.of_suffix (hexplains : Explains room last stop) (hlast : last <:+ text) :
    Explains room text stop := by
  cases stop with
  | flaw flaw rest => trivial
  | tooManyDigits count =>
      obtain ⟨hlong, run, digits, hrun, hdigits⟩ := hexplains
      exact ⟨hlong, run, digits, hrun.trans hlast.isInfix, hdigits⟩
  | tooDeep container => exact lt_of_lt_of_le hexplains (hlast.sublist.countP_le)

theorem Traced.of_suffix {outcome : Except Stop (α × Text)} (htraced : Traced room last outcome)
    (hlast : last <:+ text) : Traced room text outcome := by
  cases outcome with
  | ok result => exact List.IsSuffix.trans htraced hlast
  | error stop => exact Explains.of_suffix htraced hlast

theorem Traced.map {outcome : Except Stop (α × Text)} (change : α → β)
    (htraced : Traced room text outcome) :
    Traced room text (outcome.map fun result => (change result.1, result.2)) := by
  cases outcome <;> exact htraced

theorem Traced.bind {first : Except Stop (α × Text)} {next : α × Text → Except Stop (β × Text)}
    (hfirst : Traced room text first)
    (hnext : ∀ value rest, rest <:+ text → Traced room text (next (value, rest))) :
    Traced room text (first >>= next) := by
  cases first with
  | ok result => exact hnext result.1 result.2 hfirst
  | error stop => exact hfirst

/-- Going into a container is traced back to its opening bracket. -/
theorem Traced.enter {container : Container} {point : CodePoint}
    {inside : ℕ → Except Stop (α × Text)} (hpoint : point.isOpening = true)
    (hinside : ∀ room, Traced room rest (inside room)) :
    Traced room (point :: rest) (enter container room inside) := by
  have hcount : (point :: rest).countP CodePoint.isOpening =
      rest.countP CodePoint.isOpening + 1 := List.countP_cons_of_pos hpoint
  cases room with
  | zero => exact (Nat.succ_pos _).trans_eq hcount.symm
  | succ room =>
      have htraced := hinside room
      rw [Document.enter]
      cases houtcome : inside room with
      | ok result =>
          rw [houtcome] at htraced
          exact List.IsSuffix.trans htraced (List.suffix_cons point rest)
      | error stop =>
          rw [houtcome] at htraced
          cases stop with
          | flaw flaw left => trivial
          | tooManyDigits count =>
              have hexplains : Explains room rest (.tooManyDigits count) := htraced
              exact (hexplains.of_suffix (List.suffix_cons point rest) :)
          | tooDeep other => exact (Nat.succ_lt_succ htraced).trans_eq hcount.symm

/-- What is read with some fuel is traced, whatever the room and the text. -/
structure TracedWith (fuel : ℕ) : Prop where
  value : ∀ room text, Traced room text (readValue room fuel text)
  items : ∀ room text, Traced room text (readItems room fuel text)
  members : ∀ room text, Traced room text (readMembers room fuel text)

theorem TracedWith.zero : TracedWith 0 where
  value room text := by
    rw [readValue]
    trivial
  items room text := by
    rw [readItems]
    trivial
  members room text := by
    rw [readMembers]
    trivial

end Document

end Lindenmayer
