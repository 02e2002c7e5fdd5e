import Lindenmayer.CommandLine.Session
import Lindenmayer.Proofs.Number.Digits
import Lindenmayer.Proofs.Text.Utf8

/-!
# Lines that can be printed

A host that encodes its lines can print a line exactly if no surrogate stands in it. Numbers and the
words around them have none, so of all the lines of `validate` only the one with the name of the
scene can be refused.
-/

namespace Lindenmayer

/-- A host can print a text if it keeps texts as they are, or if the text has an encoded form. -/
def Host.Shows (host : Host) (text : Text) : Prop :=
  host.encodes = true → text.Encodable

instance (host : Host) (text : Text) : Decidable (host.Shows text) :=
  inferInstanceAs (Decidable (_ → _))

variable {host : Host} {text other line : Text}

theorem Host.shows_of_encodable (htext : text.Encodable) : host.Shows text :=
  fun _ => htext

theorem Host.shows_append (hother : other.Encodable) :
    host.Shows (other ++ text) ↔ host.Shows text := by
  rw [Shows, Shows, Text.encodable_append, and_iff_right hother]

theorem Host.accept_of_shows (hshows : host.Shows line) : host.accept line = .ok () := by
  rw [accept]
  split
  next hencodes =>
    rw [Utf8.encode_of_encodable (hshows hencodes)]
    rfl
  next => rfl

theorem Host.exists_accept_error (hshows : ¬ host.Shows line) :
    ∃ fault, host.accept line = .error fault := by
  rw [Shows, Classical.not_imp] at hshows
  obtain ⟨fault, hfault⟩ := Utf8.exists_encode_error hshows.2
  refine ⟨fault, ?_⟩
  rw [accept, if_pos hshows.1, hfault]
  rfl

namespace Text

theorem Encodable.subset (htext : text.Encodable) (hsubset : other ⊆ text) : other.Encodable :=
  fun point hpoint => htext point (hsubset hpoint)

theorem encodable_replicate {point : CodePoint} (count : ℕ) (hpoint : point.isSurrogate = false) :
    Encodable (List.replicate count point) := by
  intro other hother
  rw [List.eq_of_mem_replicate hother]
  exact hpoint

theorem encodable_ofNat (number : ℕ) : (ofNat number).Encodable := by
  have hall : ∀ digit < 10, (digitPoint digit).isSurrogate = false := by decide
  rw [ofNat_eq]
  intro point hpoint
  obtain ⟨digit, hdigit, rfl⟩ := List.mem_map.mp hpoint
  exact hall digit (decimalDigits.lt_ten number digit hdigit)

end Text

namespace Layout

variable {layout : Layout}

theorem encodable_sign (negative : Bool) : (sign negative).Encodable := by
  cases negative <;> decide

theorem encodable_significantDigits (digits : ℕ) : (significantDigits digits).Encodable := by
  refine (Text.encodable_ofNat digits).subset fun point hpoint => ?_
  rw [significantDigits, List.mem_reverse] at hpoint
  exact List.mem_reverse.mp ((List.dropWhile_sublist _).subset hpoint)

theorem encodable_positional {ending digits : Text} (hending : ending.Encodable)
    (hdigits : digits.Encodable) (decade : ℤ) : (positional ending digits decade).Encodable := by
  have hzero : (CodePoint.ofChar '0').isSurrogate = false := by decide
  cases decade with
  | negSucc zeros =>
      rw [positional, Text.encodable_append, Text.encodable_append]
      exact ⟨⟨by decide, Text.encodable_replicate _ hzero⟩, hdigits⟩
  | ofNat decade =>
      rw [positional, Text.encodable_append, Text.encodable_append]
      refine ⟨⟨hdigits.subset (List.take_subset _ _), Text.encodable_replicate _ hzero⟩, ?_⟩
      split
      next => exact hending
      next =>
        rw [Text.encodable_append]
        exact ⟨by decide, hdigits.subset (List.drop_subset _ _)⟩

theorem encodable_exponential {digits : Text} (hdigits : digits.Encodable) (decade : ℤ) :
    (exponential digits decade).Encodable := by
  have hchoice : ∀ (condition : Prop) [Decidable condition] (first second : Text),
      first.Encodable → second.Encodable → (if condition then first else second).Encodable := by
    intro condition _ first second hfirst hsecond
    split
    next => exact hfirst
    next => exact hsecond
  rw [exponential]
  simp only [Text.encodable_append]
  exact ⟨⟨⟨⟨⟨⟨hdigits.subset (List.take_subset _ _), hchoice _ _ _ (by decide) (by decide)⟩,
    hdigits.subset (List.drop_subset _ _)⟩, by decide⟩, hchoice _ _ _ (by decide) (by decide)⟩,
    hchoice _ _ _ (by decide) (by decide)⟩, Text.encodable_ofNat _⟩

/-- The texts of a layout have encoded forms. -/
structure Plain (layout : Layout) : Prop where
  wholeEnding : layout.wholeEnding.Encodable
  nan : layout.nan.Encodable
  infinity : layout.infinity.Encodable

theorem Plain.encodable_writeFloat (hplain : layout.Plain)
    (toDecimal : Bool → Magnitude → Decimal) (float : Float) :
    (layout.writeFloat toDecimal float).Encodable := by
  rw [writeFloat]
  split
  next => exact hplain.nan
  next => exact Text.encodable_append.mpr ⟨encodable_sign _, hplain.infinity⟩
  next =>
    rw [write, Text.encodable_append]
    refine ⟨encodable_sign _, ?_⟩
    split
    next => exact encodable_positional hplain.wholeEnding (encodable_significantDigits _) _
    next => exact encodable_exponential (encodable_significantDigits _) _

theorem encodable_writeShortest (float : Float) : (plain.writeShortest float).Encodable :=
  Plain.encodable_writeFloat ⟨by decide, by decide, by decide⟩ _ float

theorem encodable_writeBrief (float : Float) : (writeBrief float).Encodable :=
  Plain.encodable_writeFloat ⟨by decide, by decide, by decide⟩ _ float

end Layout

namespace Session

theorem vectorText_eq (write : Float → Text) (vector : Vec3) :
    vectorText write vector =
      "(" ++ write vector.x ++ ", " ++ write vector.y ++ ", " ++ write vector.z ++ ")" := by
  simp only [vectorText, Text.joinWith, List.intersperse_cons_cons, List.intersperse_singleton,
    List.flatten_cons, List.flatten_nil, List.append_nil, List.append_assoc]

theorem encodable_vectorText {write : Float → Text} (hwrite : ∀ float, (write float).Encodable)
    (vector : Vec3) : (vectorText write vector).Encodable := by
  rw [vectorText_eq]
  simp only [Text.encodable_append, hwrite, and_true]
  decide

theorem encodable_setupText (setup : Setup (Option Text)) : (setupText setup).Encodable := by
  rw [setupText]
  simp only [Text.encodable_append, Layout.encodable_writeShortest,
    encodable_vectorText Layout.encodable_writeShortest, and_true]
  decide

/-- All lines about a scene but the one with its name have an encoded form. -/
theorem encodable_sceneLines (scene : Scene) (table : RuleTable) :
    ∀ line ∈ (sceneLines scene table).tail, line.Encodable := by
  rw [sceneLines, List.tail_cons]
  simp only [List.forall_mem_cons, Text.encodable_append, Text.encodable_ofNat,
    encodable_setupText, and_true, true_and, List.not_mem_nil, false_imp_iff, implies_true]
  decide

theorem encodable_sampleLines (sample : Sample) (tokens segments : ℕ) :
    ∀ line ∈ sampleLines sample tokens segments, line.Encodable := by
  have hsize : sample.sizeText.Encodable := by
    rw [Sample.sizeText, Text.encodable_append]
    refine ⟨Text.encodable_ofNat _, ?_⟩
    split <;> decide
  rw [sampleLines, List.forall_mem_append]
  constructor
  · simp only [List.forall_mem_cons, Text.encodable_append, Text.encodable_ofNat, hsize, and_true,
      List.not_mem_nil, false_imp_iff, implies_true]
    decide
  · split
    next =>
      simp only [List.forall_mem_cons, Text.encodable_append, Text.encodable_ofNat, and_true,
        List.not_mem_nil, false_imp_iff, implies_true]
      decide
    next => exact nofun

theorem encodable_boundsLine (bounds : Bounds) : (boundsLine bounds).Encodable := by
  rw [boundsLine]
  simp only [Text.encodable_append, encodable_vectorText Layout.encodable_writeBrief, and_true]
  decide

end Session

end Lindenmayer
