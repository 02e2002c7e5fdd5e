import Lindenmayer.Proofs.Number.Parts

/-!
# Order of doubles

Doubles that are numbers lie on the line of the rational numbers with an end on either side, and
they compare as their places there do. So zeros of both signs are equal, and what is no number
compares with nothing.
-/

namespace Lindenmayer

open Float.Model (UnpackedFloat)

/-- A value with a sign. -/
def signed (negative : Bool) (value : ℚ) : ℚ :=
  if negative then -value else value

/-- The rational numbers with an end on either side. -/
abbrev Line := WithBot (WithTop ℚ)

theorem compare_eq_of_iff {α : Type} [LinearOrder α] {first second : α} {order : Ordering}
    (hless : order = .lt ↔ first < second) (hmore : order = .gt ↔ second < first) :
    order = compare first second := by
  cases order with
  | lt => exact (compare_lt_iff_lt.mpr (hless.mp rfl)).symm
  | gt => exact (compare_gt_iff_gt.mpr (hmore.mp rfl)).symm
  | eq =>
      refine (compare_eq_iff_eq.mpr (le_antisymm ?_ ?_)).symm
      · exact not_lt.mp fun hlt => nomatch hmore.mpr hlt
      · exact not_lt.mp fun hlt => nomatch hless.mpr hlt

namespace FloatParts

/-- The number that finite parts stand for. -/
def number? : FloatParts → Option ℚ
  | .finite negative magnitude => some (signed negative magnitude.value)
  | .nan | .infinite _ => none

/-- Where parts lie. What is no number is put at the lower end. -/
def place : FloatParts → Line
  | .nan | .infinite true => ⊥
  | .infinite false => ((⊤ : WithTop ℚ) : Line)
  | .finite negative magnitude => ((signed negative magnitude.value : WithTop ℚ) : Line)

section Unpacked

variable {negative : Bool} {magnitude : Magnitude}

theorem unpacked_of_ne_zero (hsignificand : magnitude.significand ≠ 0) :
    (finite negative magnitude).unpacked =
      .finite (sign negative) magnitude.significand magnitude.exponent
        (Nat.pos_of_ne_zero hsignificand) :=
  dif_neg hsignificand

theorem unpacked_of_zero (hsignificand : magnitude.significand = 0) :
    (finite negative magnitude).unpacked = .zero (sign negative) :=
  dif_pos hsignificand

/-- The operations take a finite double as a zero or as a significand with an exponent. -/
@[elab_as_elim]
theorem unpacked_induction {motive : UnpackedFloat → Prop} (hzero : motive (.zero (sign negative)))
    (hfinite : ∀ significand exponent hpos,
      motive (.finite (sign negative) significand exponent hpos)) (magnitude : Magnitude) :
    motive (finite negative magnitude).unpacked := by
  by_cases hsignificand : magnitude.significand = 0
  · rwa [unpacked_of_zero hsignificand]
  · rw [unpacked_of_ne_zero hsignificand]
    exact hfinite _ _ _

end Unpacked

section Compare

variable {first second : Magnitude}

/-- Positive magnitudes are compared by their exponents first. -/
theorem then_compare (hfirst : BinaryFormat.double.Admits first)
    (hsecond : BinaryFormat.double.Admits second) :
    (compare first.exponent second.exponent).then (compare first.significand second.significand) =
      compare first.value second.value := by
  apply compare_eq_of_iff
  · rw [hfirst.lt_iff hsecond, Ordering.then_eq_lt, compare_lt_iff_lt, compare_eq_iff_eq,
      compare_lt_iff_lt]
  · rw [hsecond.lt_iff hfirst, Ordering.then_eq_gt, compare_gt_iff_gt, compare_eq_iff_eq,
      compare_gt_iff_gt]
    simp only [eq_comm]

theorem compare_coe (first second : ℚ) :
    compare ((first : WithTop ℚ) : Line) ((second : WithTop ℚ) : Line) = compare first second := by
  symm
  apply compare_eq_of_iff
  · simp only [compare_lt_iff_lt, WithBot.coe_lt_coe, WithTop.coe_lt_coe]
  · simp only [compare_gt_iff_gt, WithBot.coe_lt_coe, WithTop.coe_lt_coe]

theorem value_pos {magnitude : Magnitude} (hzero : magnitude.significand ≠ 0) :
    0 < magnitude.value := by
  have hpos : (0 : ℚ) < magnitude.significand := Nat.cast_pos.mpr (Nat.pos_of_ne_zero hzero)
  rw [Magnitude.value]
  positivity

theorem value_of_zero {magnitude : Magnitude} (hzero : magnitude.significand = 0) :
    magnitude.value = 0 := by
  rw [Magnitude.value, hzero, Nat.cast_zero, zero_mul]

theorem signed_zero (negative : Bool) : signed negative 0 = 0 := by
  cases negative with
  | false => rfl
  | true => exact neg_zero

/-- A zero of either sign lies below all positive numbers and above all negative ones. -/
theorem compare_zero (hzero : first.significand = 0) (hne : second.significand ≠ 0)
    (sign other : Bool) :
    (unpacked (.finite sign first)).compare (unpacked (.finite other second)) =
        some (compare (signed sign first.value) (signed other second.value)) ∧
      (unpacked (.finite other second)).compare (unpacked (.finite sign first)) =
        some (compare (signed other second.value) (signed sign first.value)) := by
  have hpos := value_pos hne
  rw [unpacked_of_zero hzero, unpacked_of_ne_zero hne, value_of_zero hzero, signed_zero]
  cases other with
  | false =>
      have habove : 0 < signed false second.value := hpos
      rw [compare_lt_iff_lt.mpr habove, compare_gt_iff_gt.mpr habove]
      exact ⟨rfl, rfl⟩
  | true =>
      have hbelow : signed true second.value < 0 := neg_lt_zero.mpr hpos
      rw [compare_lt_iff_lt.mpr hbelow, compare_gt_iff_gt.mpr hbelow]
      exact ⟨rfl, rfl⟩

/-- Numbers other than zero are compared by their signs first, and negative ones in reverse. -/
theorem compare_nonzero (hfirst : BinaryFormat.double.Admits first)
    (hsecond : BinaryFormat.double.Admits second) (hfirstZero : first.significand ≠ 0)
    (hsecondZero : second.significand ≠ 0) (sign other : Bool) :
    (unpacked (.finite sign first)).compare (unpacked (.finite other second)) =
      some (compare (signed sign first.value) (signed other second.value)) := by
  have horder := then_compare hfirst hsecond
  have hfirstPos := value_pos hfirstZero
  have hsecondPos := value_pos hsecondZero
  rw [unpacked_of_ne_zero hfirstZero, unpacked_of_ne_zero hsecondZero]
  cases sign <;> cases other
  · exact congrArg some horder
  · have hmore : signed true second.value < signed false first.value :=
      (neg_lt_zero.mpr hsecondPos).trans hfirstPos
    rw [compare_gt_iff_gt.mpr hmore]
    rfl
  · have hless : signed true first.value < signed false second.value :=
      (neg_lt_zero.mpr hfirstPos).trans hsecondPos
    rw [compare_lt_iff_lt.mpr hless]
    rfl
  · have hswap : (compare first.value second.value).swap =
        compare (signed true first.value) (signed true second.value) := by
      apply compare_eq_of_iff
      · simp [Ordering.swap_eq_lt, signed, compare_gt_iff_gt]
      · simp [Ordering.swap_eq_gt, signed, compare_lt_iff_lt]
    rw [← hswap, ← horder]
    rfl

/-- Finite doubles compare as their numbers do. -/
theorem compare_finite (hfirst : BinaryFormat.double.Admits first)
    (hsecond : BinaryFormat.double.Admits second) (sign other : Bool) :
    (unpacked (.finite sign first)).compare (unpacked (.finite other second)) =
      some (compare (signed sign first.value) (signed other second.value)) := by
  by_cases hfirstZero : first.significand = 0
  · by_cases hsecondZero : second.significand = 0
    · rw [unpacked_of_zero hfirstZero, unpacked_of_zero hsecondZero, value_of_zero hfirstZero,
        value_of_zero hsecondZero, signed_zero, signed_zero, compare_eq_iff_eq.mpr rfl]
      rfl
    · exact (compare_zero hfirstZero hsecondZero sign other).1
  · by_cases hsecondZero : second.significand = 0
    · exact (compare_zero hsecondZero hfirstZero other sign).2
    · exact compare_nonzero hfirst hsecond hfirstZero hsecondZero sign other

theorem compare_infinite (sign other : Bool) (magnitude : Magnitude) :
    (unpacked (.infinite sign)).compare (unpacked (.finite other magnitude)) =
        some (compare (place (.infinite sign)) (place (.finite other magnitude))) ∧
      (unpacked (.finite other magnitude)).compare (unpacked (.infinite sign)) =
        some (compare (place (.finite other magnitude)) (place (.infinite sign))) := by
  cases sign with
  | false =>
      have habove : place (.finite other magnitude) < place (.infinite false) :=
        WithBot.coe_lt_coe.mpr (WithTop.coe_lt_top _)
      rw [compare_gt_iff_gt.mpr habove, compare_lt_iff_lt.mpr habove]
      exact unpacked_induction ⟨rfl, rfl⟩ (fun _ _ _ => ⟨rfl, rfl⟩) magnitude
  | true =>
      have hbelow : place (.infinite true) < place (.finite other magnitude) :=
        WithBot.bot_lt_coe _
      rw [compare_gt_iff_gt.mpr hbelow, compare_lt_iff_lt.mpr hbelow]
      exact unpacked_induction ⟨rfl, rfl⟩ (fun _ _ _ => ⟨rfl, rfl⟩) magnitude

/-- Parts that are numbers compare as their places do. -/
theorem compare_unpacked {parts others : FloatParts} (hparts : parts.Canonical)
    (hothers : others.Canonical) (hnumber : parts ≠ .nan) (hother : others ≠ .nan) :
    parts.unpacked.compare others.unpacked = some (compare parts.place others.place) := by
  cases parts with
  | nan => exact absurd rfl hnumber
  | infinite sign =>
      cases others with
      | nan => exact absurd rfl hother
      | infinite other => cases sign <;> cases other <;> rfl
      | finite other second => exact (compare_infinite sign other second).1
  | finite sign first =>
      cases others with
      | nan => exact absurd rfl hother
      | infinite other => exact (compare_infinite other sign first).2
      | finite other second => rw [compare_finite hparts hothers, place, place, compare_coe]

end Compare

theorem isNaN_eq_false_iff {float : Float} : float.isNaN = false ↔ ofFloat float ≠ .nan := by
  rw [Float.isNaN, Float.Model.isNaN, unpack_toModel]
  cases ofFloat float with
  | nan => simp [unpacked, UnpackedFloat.isNaN]
  | infinite negative => simp [unpacked, UnpackedFloat.isNaN]
  | finite negative magnitude =>
      simp only [unpacked]
      split <;> simp [UnpackedFloat.isNaN]

end FloatParts

/-- Where a double lies. -/
def placeOf (float : Float) : Line :=
  (FloatParts.ofFloat float).place

section Comparisons

variable {first second third : Float}

theorem compare_toModel {order : Ordering} :
    first.toModel.unpack.compare second.toModel.unpack = some order ↔
      first.isNaN = false ∧ second.isNaN = false ∧
        compare (placeOf first) (placeOf second) = order := by
  rw [FloatParts.unpack_toModel, FloatParts.unpack_toModel, FloatParts.isNaN_eq_false_iff,
    FloatParts.isNaN_eq_false_iff]
  by_cases hfirst : FloatParts.ofFloat first = .nan
  · rw [hfirst]
    exact iff_of_false nofun fun hnumbers => hnumbers.1 rfl
  by_cases hsecond : FloatParts.ofFloat second = .nan
  · rw [hsecond]
    refine iff_of_false ?_ fun hnumbers => hnumbers.2.1 rfl
    cases (FloatParts.ofFloat first).unpacked <;> exact nofun
  · rw [FloatParts.compare_unpacked (FloatParts.canonical_ofFloat first)
      (FloatParts.canonical_ofFloat second) hfirst hsecond, Option.some.injEq]
    exact ⟨fun horder => ⟨hfirst, hsecond, horder⟩, fun hboth => hboth.2.2⟩

theorem lt_iff_placeOf : first < second ↔
    first.isNaN = false ∧ second.isNaN = false ∧ placeOf first < placeOf second := by
  rw [← compare_lt_iff_lt, ← compare_toModel, ← beq_iff_eq]
  exact decide_eq_true_iff

theorem le_iff_placeOf : first ≤ second ↔
    first.isNaN = false ∧ second.isNaN = false ∧ placeOf first ≤ placeOf second := by
  have hle : first ≤ second ↔
      (first.toModel.unpack.compare second.toModel.unpack).any Ordering.isLE = true :=
    decide_eq_true_iff
  rw [hle, Option.any_eq_true]
  simp only [compare_toModel]
  constructor
  · rintro ⟨_, ⟨hfirst, hsecond, rfl⟩, horder⟩
    exact ⟨hfirst, hsecond, compare_le_iff_le.mp (Ordering.isLE_iff_ne_gt.mp horder)⟩
  · rintro ⟨hfirst, hsecond, horder⟩
    exact ⟨_, ⟨hfirst, hsecond, rfl⟩, Ordering.isLE_iff_ne_gt.mpr (compare_le_iff_le.mpr horder)⟩

theorem beq_iff_placeOf : (first == second) = true ↔
    first.isNaN = false ∧ second.isNaN = false ∧ placeOf first = placeOf second := by
  have hbeq : (first == second) = true ↔
      (first.toModel.unpack.compare second.toModel.unpack == some .eq) = true :=
    Iff.rfl
  rw [hbeq, beq_iff_eq, compare_toModel, compare_eq_iff_eq]

theorem le_self_double (hnumber : first.isNaN = false) : first ≤ first :=
  le_iff_placeOf.mpr ⟨hnumber, hnumber, le_rfl⟩

theorem le_trans_double (hfirst : first ≤ second) (hsecond : second ≤ third) : first ≤ third := by
  obtain ⟨hnumber, -, hless⟩ := le_iff_placeOf.mp hfirst
  obtain ⟨-, hother, hmore⟩ := le_iff_placeOf.mp hsecond
  exact le_iff_placeOf.mpr ⟨hnumber, hother, hless.trans hmore⟩

theorem le_of_lt_double (hlt : first < second) : first ≤ second := by
  obtain ⟨hfirst, hsecond, hplace⟩ := lt_iff_placeOf.mp hlt
  exact le_iff_placeOf.mpr ⟨hfirst, hsecond, hplace.le⟩

theorem le_of_not_lt_double (hfirst : first.isNaN = false) (hsecond : second.isNaN = false)
    (hlt : ¬second < first) : first ≤ second := by
  refine le_iff_placeOf.mpr ⟨hfirst, hsecond, not_lt.mp fun hplace => hlt ?_⟩
  exact lt_iff_placeOf.mpr ⟨hsecond, hfirst, hplace⟩

theorem beq_of_le_of_le (hle : first ≤ second) (hge : second ≤ first) :
    (first == second) = true := by
  obtain ⟨hfirst, hsecond, hplace⟩ := le_iff_placeOf.mp hle
  exact beq_iff_placeOf.mpr ⟨hfirst, hsecond, hplace.antisymm (le_iff_placeOf.mp hge).2.2⟩

/-- Doubles without a sign are ordered like their values. -/
theorem FloatParts.lt_iff_of_finite {less more : Magnitude}
    (hfirst : ofFloat first = .finite false less) (hsecond : ofFloat second = .finite false more) :
    first < second ↔ less.value < more.value := by
  rw [lt_iff_placeOf, isNaN_eq_false_iff, isNaN_eq_false_iff, placeOf, placeOf, hfirst, hsecond,
    place, place, WithBot.coe_lt_coe, WithTop.coe_lt_coe]
  simp [signed]

end Comparisons

end Lindenmayer
