import Lindenmayer.Proofs.Number.Digits
import Lindenmayer.Proofs.Token.Splitting
import Mathlib.Data.List.TakeWhile

/-!
# The form of parameters

A parameter is a sign, digits with a point between them or on one side of them, and a power of ten,
of which only the digits have to be there, with blanks around all of it. Reading takes a text apart
in the one way in which it has this form.
-/

namespace Lindenmayer

/-- An optional sign, and whether it is a minus. -/
inductive IsSign : Text → Bool → Prop
  | missing : IsSign [] false
  | plus : IsSign [CodePoint.ofChar '+'] false
  | minus : IsSign [CodePoint.ofChar '-'] true

/-- Digits before and after an optional point, on one side of it at least. -/
inductive IsFixed : Text → List ℕ → List ℕ → Prop
  | whole {run whole} (hwhole : IsRun CodePoint.digit? run whole) (hne : whole ≠ []) :
      IsFixed run whole []
  | pointed {before after whole fraction} (hwhole : IsRun CodePoint.digit? before whole)
      (hne : whole ≠ []) (hfraction : IsRun CodePoint.digit? after fraction) :
      IsFixed (before ++ CodePoint.ofChar '.' :: after) whole fraction
  | fraction {after fraction} (hfraction : IsRun CodePoint.digit? after fraction)
      (hne : fraction ≠ []) : IsFixed (CodePoint.ofChar '.' :: after) [] fraction

/-- The integer that a sign and digits denote. -/
def signedValue (negative : Bool) (digits : List ℕ) : ℤ :=
  if negative then -digitsValue digits else digitsValue digits

/-- An optional mark with the exponent of a power of ten. -/
inductive IsScale : Text → ℤ → Prop
  | missing : IsScale [] 0
  | marked {mark sign negative run digits}
      (hmark : mark = CodePoint.ofChar 'e' ∨ mark = CodePoint.ofChar 'E')
      (hsign : IsSign sign negative) (hrun : IsRun CodePoint.digit? run digits)
      (hne : digits ≠ []) : IsScale (mark :: (sign ++ run)) (signedValue negative digits)

/-- A text of blanks only, which may be empty. -/
def AllBlank (text : Text) : Prop :=
  ∀ point ∈ text, point.isBlank = true

/-- A text has the form of a parameter with these parts. -/
inductive IsParameter : Text → Numeral → Prop
  | between {before sign fixed scale after negative whole fraction exponent}
      (hbefore : AllBlank before) (hsign : IsSign sign negative)
      (hfixed : IsFixed fixed whole fraction) (hscale : IsScale scale exponent)
      (hafter : AllBlank after) :
      IsParameter (before ++ (sign ++ (fixed ++ (scale ++ after))))
        ⟨negative, whole, fraction, exponent⟩

variable {point other : CodePoint} {text run rest sign fixed scale : Text} {negative : Bool}
  {digits whole fraction : List ℕ} {exponent : ℤ}

theorem ne_of_digit? {digit : ℕ} (hdigit : point.digit? = some digit)
    (hother : other.digit? = none) : point ≠ other := by
  rintro rfl
  exact nomatch hdigit.symm.trans hother

theorem ne_of_isBlank (hblank : point.isBlank = true) (hother : other.isBlank = false) :
    point ≠ other := by
  rintro rfl
  exact nomatch hblank.symm.trans hother

theorem digit?_eq_none_of_isBlank (hblank : point.isBlank = true) : point.digit? = none := by
  have hsymbol := CodePoint.isSymbol_of_isBlank hblank
  rw [CodePoint.isSymbol, Bool.or_eq_false_iff, Bool.or_eq_false_iff] at hsymbol
  exact Option.not_isSome_iff_eq_none.mp (Bool.eq_false_iff.mp hsymbol.1.2)

/-- Digits start with one of these, or with a point before them. -/
def StartsDigits (point : CodePoint) : Prop :=
  point = CodePoint.ofChar '.' ∨ ∃ digit, point.digit? = some digit

theorem StartsDigits.ne_sign (hstarts : StartsDigits point) :
    point ≠ CodePoint.ofChar '-' ∧ point ≠ CodePoint.ofChar '+' := by
  rcases hstarts with rfl | ⟨digit, hdigit⟩
  · decide
  · exact ⟨ne_of_digit? hdigit (by decide), ne_of_digit? hdigit (by decide)⟩

theorem StartsDigits.isBlank_eq_false (hstarts : StartsDigits point) : point.isBlank = false := by
  rcases hstarts with rfl | ⟨digit, hdigit⟩
  · decide
  · rw [Bool.eq_false_iff]
    intro hblank
    exact nomatch hdigit.symm.trans (digit?_eq_none_of_isBlank hblank)

theorem IsRun.startsDigits (hrun : IsRun CodePoint.digit? run digits) (hne : digits ≠ []) :
    ∀ point ∈ (run ++ rest).head?, StartsDigits point := by
  cases hrun with
  | nil => exact absurd rfl hne
  | cons hdigit _ =>
      rintro point ⟨⟩
      exact .inr ⟨_, hdigit⟩

theorem IsFixed.startsDigits (hfixed : IsFixed fixed whole fraction) :
    ∀ point ∈ (fixed ++ rest).head?, StartsDigits point := by
  cases hfixed with
  | whole hwhole hne => exact hwhole.startsDigits hne
  | pointed hwhole hne _ =>
      rw [List.append_assoc]
      exact hwhole.startsDigits hne
  | fraction _ _ =>
      rintro point ⟨⟩
      exact .inl rfl

theorem IsFixed.ne_nil (hfixed : IsFixed fixed whole fraction) :
    ¬ (whole.isEmpty ∧ fraction.isEmpty) := by
  simp only [List.isEmpty_iff]
  cases hfixed with
  | whole _ hne | pointed _ hne _ => exact fun hnil => hne hnil.1
  | fraction _ hne => exact fun hnil => hne hnil.2

theorem IsSign.isBlank_eq_false (hsign : IsSign sign negative)
    (hrest : ∀ point ∈ rest.head?, StartsDigits point) :
    ∀ point ∈ (sign ++ rest).head?, point.isBlank = false := by
  cases hsign with
  | missing => exact fun point hpoint => (hrest point hpoint).isBlank_eq_false
  | plus | minus =>
      rintro point ⟨⟩
      decide

theorem dropBlanks_append {before : Text} (hbefore : AllBlank before)
    (hrest : ∀ point ∈ rest.head?, point.isBlank = false) :
    (before ++ rest).dropWhile CodePoint.isBlank = rest := by
  rw [List.dropWhile_append_of_pos hbefore]
  cases rest with
  | nil => rfl
  | cons point rest =>
      rw [List.dropWhile_cons_of_neg (Bool.eq_false_iff.mp (hrest point rfl))]

/-- What can follow the digits of a parameter. -/
def EndsDigits (rest : Text) : Prop :=
  ∀ point ∈ rest.head?, point.digit? = none ∧ point ≠ CodePoint.ofChar '.'

theorem AllBlank.endsDigits (hrest : AllBlank rest) : EndsDigits rest := by
  intro point hpoint
  have hblank := hrest point (List.mem_of_mem_head? hpoint)
  exact ⟨digit?_eq_none_of_isBlank hblank, ne_of_isBlank hblank (by decide)⟩

theorem IsScale.endsDigits (hscale : IsScale scale exponent) (hrest : AllBlank rest) :
    EndsDigits (scale ++ rest) := by
  cases hscale with
  | missing => exact hrest.endsDigits
  | marked hmark _ _ _ =>
      rintro point ⟨⟩
      rcases hmark with rfl | rfl <;> decide

theorem takeSign_append (hsign : IsSign sign negative)
    (hrest : ∀ point ∈ rest.head?, StartsDigits point) :
    takeSign (sign ++ rest) = (negative, rest) := by
  cases hsign with
  | missing =>
      cases rest with
      | nil => rfl
      | cons point rest =>
          obtain ⟨hminus, hplus⟩ := (hrest point rfl).ne_sign
          rw [List.nil_append, takeSign, if_neg hminus, if_neg hplus]
  | plus => rfl
  | minus => rfl

theorem exists_sign_of_takeSign (htake : takeSign text = (negative, rest)) :
    ∃ sign, IsSign sign negative ∧ text = sign ++ rest := by
  cases text with
  | nil =>
      obtain ⟨rfl, rfl⟩ := Prod.mk.inj htake
      exact ⟨[], .missing, rfl⟩
  | cons point text =>
      rw [takeSign] at htake
      split at htake
      next hminus =>
        obtain ⟨rfl, rfl⟩ := Prod.mk.inj htake
        exact ⟨_, .minus, by rw [hminus]; rfl⟩
      next =>
        split at htake
        next hplus =>
          obtain ⟨rfl, rfl⟩ := Prod.mk.inj htake
          exact ⟨_, .plus, by rw [hplus]; rfl⟩
        next =>
          obtain ⟨rfl, rfl⟩ := Prod.mk.inj htake
          exact ⟨_, .missing, rfl⟩

theorem takeInteger?_append (hsign : IsSign sign negative)
    (hrun : IsRun CodePoint.digit? run digits) (hne : digits ≠ []) (hrest : EndsDigits rest) :
    takeInteger? CodePoint.digit? (sign ++ (run ++ rest)) =
      some (signedValue negative digits, rest) := by
  rw [takeInteger?, takeSign_append hsign (hrun.startsDigits hne)]
  dsimp only
  rw [takeDigits_run hrun fun point hpoint => (hrest point hpoint).1]
  cases digits with
  | nil => exact absurd rfl hne
  | cons digit digits => rfl

theorem exists_signed_of_takeInteger?
    (htake : takeInteger? CodePoint.digit? text = some (exponent, rest)) :
    ∃ sign negative run digits, IsSign sign negative ∧ IsRun CodePoint.digit? run digits ∧
      digits ≠ [] ∧ exponent = signedValue negative digits ∧ text = sign ++ (run ++ rest) := by
  rcases hsign : takeSign text with ⟨negative, afterSign⟩
  rcases hdigits : takeDigits CodePoint.digit? afterSign with ⟨digits, after⟩
  rw [takeInteger?, hsign] at htake
  dsimp only at htake
  rw [hdigits] at htake
  obtain ⟨sign, hform, rfl⟩ := exists_sign_of_takeSign hsign
  obtain ⟨run, hrun, rfl⟩ := exists_run_of_takeDigits hdigits
  cases digits with
  | nil => exact nomatch htake
  | cons digit digits =>
      obtain ⟨rfl, rfl⟩ := Prod.mk.inj (Option.some.inj htake)
      exact ⟨sign, negative, run, digit :: digits, hform, hrun, List.cons_ne_nil _ _, rfl, rfl⟩

namespace Numeral

theorem takeExponent?_append (hscale : IsScale scale exponent) (hrest : AllBlank rest) :
    takeExponent? CodePoint.digit? (scale ++ rest) = some (exponent, rest) := by
  cases hscale with
  | missing =>
      cases rest with
      | nil => rfl
      | cons point rest =>
          have hblank := hrest point List.mem_cons_self
          rw [List.nil_append, takeExponent?, if_neg (not_or.mpr
            ⟨ne_of_isBlank hblank (by decide), ne_of_isBlank hblank (by decide)⟩)]
  | marked hmark hsign hrun hne =>
      rw [List.cons_append, takeExponent?, if_pos hmark, List.append_assoc]
      exact takeInteger?_append hsign hrun hne hrest.endsDigits

theorem exists_scale_of_takeExponent?
    (htake : takeExponent? CodePoint.digit? text = some (exponent, rest)) :
    ∃ scale, IsScale scale exponent ∧ text = scale ++ rest := by
  cases text with
  | nil =>
      obtain ⟨rfl, rfl⟩ := Prod.mk.inj (Option.some.inj htake)
      exact ⟨[], .missing, rfl⟩
  | cons point text =>
      rw [takeExponent?] at htake
      split at htake
      next hmark =>
        obtain ⟨sign, negative, run, digits, hsign, hrun, hne, rfl, rfl⟩ :=
          exists_signed_of_takeInteger? htake
        exact ⟨_, .marked hmark hsign hrun hne, by rw [List.cons_append, List.append_assoc]⟩
      next =>
        obtain ⟨rfl, rfl⟩ := Prod.mk.inj (Option.some.inj htake)
        exact ⟨[], .missing, rfl⟩

theorem take_fixed (hfixed : IsFixed fixed whole fraction) (hrest : EndsDigits rest) :
    ∃ after, takeDigits CodePoint.digit? (fixed ++ rest) = (whole, after) ∧
      takeFraction CodePoint.digit? after = (fraction, rest) := by
  have hdigit : ∀ point ∈ rest.head?, point.digit? = none := fun point hpoint =>
    (hrest point hpoint).1
  cases hfixed with
  | whole hwhole hne =>
      refine ⟨rest, takeDigits_run hwhole hdigit, ?_⟩
      cases rest with
      | nil => rfl
      | cons point rest => rw [takeFraction, if_neg (hrest point rfl).2]
  | @pointed before after _ _ hwhole hne hfraction =>
      refine ⟨CodePoint.ofChar '.' :: (after ++ rest), ?_, ?_⟩
      · rw [List.append_assoc]
        refine takeDigits_run hwhole ?_
        rintro point ⟨⟩
        decide
      · rw [takeFraction, if_pos rfl, takeDigits_run hfraction hdigit]
  | @fraction after _ hfraction hne =>
      refine ⟨CodePoint.ofChar '.' :: (after ++ rest), rfl, ?_⟩
      rw [takeFraction, if_pos rfl, takeDigits_run hfraction hdigit]

theorem exists_fixed {after : Text} (hwhole : takeDigits CodePoint.digit? text = (whole, after))
    (hfraction : takeFraction CodePoint.digit? after = (fraction, rest))
    (hne : ¬ (whole.isEmpty ∧ fraction.isEmpty)) :
    ∃ fixed, IsFixed fixed whole fraction ∧ text = fixed ++ rest := by
  obtain ⟨before, hbefore, rfl⟩ := exists_run_of_takeDigits hwhole
  simp only [List.isEmpty_iff] at hne
  have hnoPoint : fraction = [] → after = rest → ∃ fixed, IsFixed fixed whole fraction ∧
      before ++ after = fixed ++ rest := by
    rintro rfl rfl
    exact ⟨before, .whole hbefore fun hnil => hne ⟨hnil, rfl⟩, rfl⟩
  cases after with
  | nil =>
      obtain ⟨hnil, hafter⟩ := Prod.mk.inj hfraction
      exact hnoPoint hnil.symm hafter
  | cons point after =>
      rw [takeFraction] at hfraction
      split at hfraction
      next hpoint =>
        obtain ⟨behind, hbehind, rfl⟩ := exists_run_of_takeDigits hfraction
        subst hpoint
        rcases eq_or_ne whole [] with rfl | hwholeNe
        · obtain rfl : before = [] := List.forall₂_nil_right_iff.mp hbefore
          exact ⟨_, .fraction hbehind fun hnil => hne ⟨rfl, hnil⟩, rfl⟩
        · exact ⟨_, .pointed hbefore hwholeNe hbehind, by simp⟩
      next =>
        obtain ⟨hnil, hafter⟩ := Prod.mk.inj hfraction
        exact hnoPoint hnil.symm hafter

theorem ofParameter?_of_isParameter {numeral : Numeral} (hform : IsParameter text numeral) :
    ofParameter? text = some numeral := by
  cases hform with
  | @between before sign fixed scale after negative whole fraction exponent hbefore hsign hfixed
      hscale hafter =>
      have hstarts : ∀ point ∈ (fixed ++ (scale ++ after)).head?, StartsDigits point :=
        hfixed.startsDigits
      obtain ⟨afterWhole, hwhole, hfraction⟩ := take_fixed hfixed (hscale.endsDigits hafter)
      rw [ofParameter?, dropBlanks_append hbefore (hsign.isBlank_eq_false hstarts),
        takeSign_append hsign hstarts]
      dsimp only
      rw [hwhole]
      dsimp only
      rw [hfraction]
      dsimp only
      rw [if_neg hfixed.ne_nil, takeExponent?_append hscale hafter]
      exact if_pos (List.all_eq_true.mpr hafter)

theorem isParameter_of_ofParameter? {numeral : Numeral} (hread : ofParameter? text = some numeral) :
    IsParameter text numeral := by
  rcases hsign : takeSign (text.dropWhile CodePoint.isBlank) with ⟨negative, afterSign⟩
  rcases hwhole : takeDigits CodePoint.digit? afterSign with ⟨whole, afterWhole⟩
  rcases hfraction : takeFraction CodePoint.digit? afterWhole with ⟨fraction, afterFraction⟩
  rw [ofParameter?, hsign] at hread
  dsimp only at hread
  rw [hwhole] at hread
  dsimp only at hread
  rw [hfraction] at hread
  dsimp only at hread
  split at hread
  next => exact nomatch hread
  next hne =>
    split at hread
    next => exact nomatch hread
    next exponent after hexponent =>
      rw [Option.ite_none_right_eq_some] at hread
      obtain ⟨hafter, hnumeral⟩ := hread
      obtain rfl := Option.some.inj hnumeral
      obtain ⟨sign, hform, hafterBlanks⟩ := exists_sign_of_takeSign hsign
      obtain ⟨fixed, hfixed, rfl⟩ := exists_fixed hwhole hfraction hne
      obtain ⟨scale, hscale, rfl⟩ := exists_scale_of_takeExponent? hexponent
      rw [← List.takeWhile_append_dropWhile (p := CodePoint.isBlank) (l := text), hafterBlanks]
      exact .between (fun point hpoint => List.mem_takeWhile_imp hpoint) hform hfixed hscale
        (List.all_eq_true.mp hafter)

/-- A text is read as a numeral exactly if it has the form of a parameter with its parts. -/
theorem ofParameter?_eq_some_iff {numeral : Numeral} :
    ofParameter? text = some numeral ↔ IsParameter text numeral :=
  ⟨isParameter_of_ofParameter?, ofParameter?_of_isParameter⟩

end Numeral

end Lindenmayer
