import Lindenmayer.Proofs.Number.Order
import Lindenmayer.Space.Rotation
import Lindenmayer.Turtle.Segment

/-!
# Bounds of drawings

Along each axis the bounds of a drawing are extreme coordinates of the ends of its segments. The
extremes of a column do not depend on the order of its coordinates, and those of two columns
together are the extremes of their extremes. A coordinate that is no number spoils its own column
only.
-/

namespace Lindenmayer

/-- An extreme coordinate of a column in some order. What is no number spoils the column. -/
structure IsExtreme (order : Float → Float → Prop) (column : List Float) (extreme : Float) :
    Prop where
  attained : extreme ∈ column
  bound : (∀ coordinate ∈ column, coordinate.isNaN = false) →
    ∀ coordinate ∈ column, order extreme coordinate
  spoiled : (∃ coordinate ∈ column, coordinate.isNaN = true) → extreme.isNaN = true

/-- A choice of one of two coordinates that is their extreme. -/
structure Chooses (order : Float → Float → Prop) (choose : Float → Float → Float) : Prop where
  pair : ∀ first second, IsExtreme order [first, second] (choose first second)
  trans : ∀ {first second third : Float}, order first second → order second third →
    order first third
  antisymm : ∀ {first second : Float}, order first second → order second first →
    (first == second) = true

section Extremes

variable {order : Float → Float → Prop} {choose : Float → Float → Float}
variable {column others : List Float} {first second extreme : Float}

/-- Of two coordinates the second is chosen if it comes before the first, and what is no number in
any case. -/
theorem isExtreme_pair {before : Prop} [Decidable before]
    (hself : ∀ {coordinate : Float}, coordinate.isNaN = false → order coordinate coordinate)
    (hbefore : before → order second first)
    (hafter : first.isNaN = false → second.isNaN = false → ¬before → order first second) :
    IsExtreme order [first, second] (if first.isNaN then first
      else if second.isNaN then second
      else if before then second else first) := by
  have hmem : second ∈ [first, second] := List.mem_cons_of_mem _ List.mem_cons_self
  by_cases hfirst : first.isNaN = true
  · rw [if_pos hfirst]
    refine ⟨List.mem_cons_self, fun hnumbers => ?_, fun _ => hfirst⟩
    exact absurd (hnumbers first List.mem_cons_self) (hfirst ▸ nofun)
  rw [if_neg hfirst]
  by_cases hsecond : second.isNaN = true
  · rw [if_pos hsecond]
    refine ⟨hmem, fun hnumbers => ?_, fun _ => hsecond⟩
    exact absurd (hnumbers second hmem) (hsecond ▸ nofun)
  rw [if_neg hsecond]
  have hnone : ¬∃ coordinate ∈ [first, second], coordinate.isNaN = true := by
    simp only [List.exists_mem_cons_iff, List.not_mem_nil, false_and, exists_false, or_false]
    exact not_or.mpr ⟨hfirst, hsecond⟩
  rw [Bool.not_eq_true] at hfirst hsecond
  split
  next hless =>
    refine ⟨hmem, fun _ => ?_, fun hsome => absurd hsome hnone⟩
    exact List.forall_mem_cons.mpr ⟨hbefore hless, List.forall_mem_singleton.mpr (hself hsecond)⟩
  next hmore =>
    refine ⟨List.mem_cons_self, fun _ => ?_, fun hsome => absurd hsome hnone⟩
    exact List.forall_mem_cons.mpr
      ⟨hself hfirst, List.forall_mem_singleton.mpr (hafter hfirst hsecond hmore)⟩

theorem chooses_lesser : Chooses (· ≤ ·) lesser where
  pair _ _ := isExtreme_pair le_self_double le_of_lt_double le_of_not_lt_double
  trans := le_trans_double
  antisymm := beq_of_le_of_le

theorem chooses_greater : Chooses (fun greatest coordinate => coordinate ≤ greatest) greater where
  pair _ _ := isExtreme_pair le_self_double le_of_lt_double
    fun hfirst hsecond => le_of_not_lt_double hsecond hfirst
  trans hfirst hsecond := le_trans_double hsecond hfirst
  antisymm hfirst hsecond := beq_of_le_of_le hsecond hfirst

theorem IsExtreme.perm (hextreme : IsExtreme order column extreme) (hperm : column.Perm others) :
    IsExtreme order others extreme where
  attained := hperm.mem_iff.mp hextreme.attained
  bound hnumbers coordinate hmem :=
    hextreme.bound (fun _ hother => hnumbers _ (hperm.mem_iff.mp hother)) coordinate
      (hperm.mem_iff.mpr hmem)
  spoiled := by
    rintro ⟨coordinate, hmem, hspoiled⟩
    exact hextreme.spoiled ⟨coordinate, hperm.mem_iff.mpr hmem, hspoiled⟩

namespace Chooses

theorem singleton (hchoose : Chooses order choose) (coordinate : Float) :
    IsExtreme order [coordinate] coordinate := by
  have hpair := hchoose.pair coordinate coordinate
  have hsame : choose coordinate coordinate = coordinate := by
    simpa only [List.mem_cons, List.not_mem_nil, or_false, or_self] using hpair.attained
  rw [hsame] at hpair
  refine ⟨List.mem_singleton_self _, fun hnumbers => ?_, ?_⟩
  · have hself := hpair.bound (List.forall_mem_cons.mpr ⟨hnumbers _ List.mem_cons_self, hnumbers⟩)
      coordinate List.mem_cons_self
    exact List.forall_mem_singleton.mpr hself
  · rintro ⟨other, hother, hspoiled⟩
    exact List.mem_singleton.mp hother ▸ hspoiled

/-- The extreme of two columns is the extreme of their extremes. -/
theorem append (hchoose : Chooses order choose) (hfirst : IsExtreme order column first)
    (hsecond : IsExtreme order others second) :
    IsExtreme order (column ++ others) (choose first second) := by
  have hpair := hchoose.pair first second
  have hmem : second ∈ [first, second] := List.mem_cons_of_mem _ List.mem_cons_self
  refine ⟨?_, fun hnumbers coordinate hcoordinate => ?_, ?_⟩
  · rcases List.mem_pair.mp hpair.attained with heq | heq
    · rw [heq]
      exact List.mem_append_left _ hfirst.attained
    · rw [heq]
      exact List.mem_append_right _ hsecond.attained
  · obtain ⟨hcolumn, hothers⟩ := List.forall_mem_append.mp hnumbers
    have hboth := hpair.bound (List.forall_mem_cons.mpr
      ⟨hcolumn _ hfirst.attained, List.forall_mem_singleton.mpr (hothers _ hsecond.attained)⟩)
    rcases List.mem_append.mp hcoordinate with hmember | hmember
    · exact hchoose.trans (hboth _ List.mem_cons_self) (hfirst.bound hcolumn _ hmember)
    · exact hchoose.trans (hboth _ hmem) (hsecond.bound hothers _ hmember)
  · rintro ⟨coordinate, hcoordinate, hspoiled⟩
    rcases List.mem_append.mp hcoordinate with hmember | hmember
    · exact hpair.spoiled ⟨first, List.mem_cons_self, hfirst.spoiled ⟨_, hmember, hspoiled⟩⟩
    · exact hpair.spoiled ⟨second, hmem, hsecond.spoiled ⟨_, hmember, hspoiled⟩⟩

/-- Going on through a column from an extreme ends with an extreme. -/
theorem foldl (hchoose : Chooses order choose) (hextreme : IsExtreme order column extreme) :
    IsExtreme order (column ++ others) (others.foldl choose extreme) := by
  induction others generalizing column extreme with
  | nil => rwa [List.append_nil]
  | cons coordinate others ih =>
      rw [List.append_cons]
      exact ih (hchoose.append hextreme (hchoose.singleton coordinate))

/-- A column of numbers has one extreme. -/
theorem unique (hchoose : Chooses order choose) (hfirst : IsExtreme order column first)
    (hsecond : IsExtreme order column second)
    (hnumbers : ∀ coordinate ∈ column, coordinate.isNaN = false) : (first == second) = true :=
  hchoose.antisymm (hfirst.bound hnumbers _ hsecond.attained)
    (hsecond.bound hnumbers _ hfirst.attained)

end Chooses

end Extremes

section Drawings

variable {μ : Type} {segments others : List (Segment μ)}

/-- The coordinates of the ends of segments along an axis. -/
def column (segments : List (Segment μ)) (axis : Axis) : List Float :=
  (segments.flatMap Segment.ends).map (·.coordinate axis)

/-- The segment drawn the other way. -/
def Segment.turned (segment : Segment μ) : Segment μ :=
  { segment with start := segment.finish, finish := segment.start }

/-- The same segments in another order, some of them turned. -/
def Rearranged (segments others : List (Segment μ)) : Prop :=
  ∃ permuted, segments.Perm permuted ∧
    List.Forall₂ (fun segment other => other = segment ∨ other = segment.turned) permuted others

theorem column_append (segments others : List (Segment μ)) (axis : Axis) :
    column (segments ++ others) axis = column segments axis ++ column others axis := by
  rw [column, List.flatMap_append, List.map_append]
  rfl

theorem Rearranged.column_perm (hothers : Rearranged segments others) (axis : Axis) :
    (column segments axis).Perm (column others axis) := by
  obtain ⟨permuted, hperm, hturned⟩ := hothers
  apply ((hperm.flatMap_right Segment.ends).map _).trans
  apply List.Perm.map
  clear hperm
  induction hturned with
  | nil => exact .refl []
  | @cons segment other permuted others hends _ ih =>
      rw [List.flatMap_cons, List.flatMap_cons]
      refine List.Perm.append ?_ ih
      rcases hends with rfl | rfl
      · exact .refl _
      · exact .swap _ _ _

namespace Bounds

theorem foldl_extend (bounds : Bounds) (points : List Vec3) (axis : Axis) :
    (points.foldl extend bounds).least.coordinate axis =
        (points.map (·.coordinate axis)).foldl lesser (bounds.least.coordinate axis) ∧
      (points.foldl extend bounds).greatest.coordinate axis =
        (points.map (·.coordinate axis)).foldl greater (bounds.greatest.coordinate axis) := by
  induction points generalizing bounds with
  | nil => exact ⟨rfl, rfl⟩
  | cons point points ih =>
      rw [List.foldl_cons, (ih _).1, (ih _).2]
      cases axis <;> exact ⟨rfl, rfl⟩

/-- The bounds of a drawing are its extreme coordinates along every axis. -/
theorem exists_extremes (hsome : segments ≠ []) :
    ∃ bounds, ofSegments segments = .ok bounds ∧ ∀ axis,
      IsExtreme (· ≤ ·) (column segments axis) (bounds.least.coordinate axis) ∧
        IsExtreme (fun greatest coordinate => coordinate ≤ greatest) (column segments axis)
          (bounds.greatest.coordinate axis) := by
  obtain ⟨segment, rest, rfl⟩ := List.exists_cons_of_ne_nil hsome
  refine ⟨_, rfl, fun axis => ?_⟩
  rw [(foldl_extend _ _ axis).1, (foldl_extend _ _ axis).2]
  exact ⟨chooses_lesser.foldl (chooses_lesser.singleton (segment.start.coordinate axis)),
    chooses_greater.foldl (chooses_greater.singleton (segment.start.coordinate axis))⟩

/-- The bounds of two drawings together. -/
def join (bounds others : Bounds) : Bounds :=
  ⟨bounds.least.lesser others.least, bounds.greatest.greater others.greatest⟩

theorem coordinate_join (bounds others : Bounds) (axis : Axis) :
    (bounds.join others).least.coordinate axis =
        lesser (bounds.least.coordinate axis) (others.least.coordinate axis) ∧
      (bounds.join others).greatest.coordinate axis =
        greater (bounds.greatest.coordinate axis) (others.greatest.coordinate axis) := by
  cases axis <;> exact ⟨rfl, rfl⟩

/-- Bounds that compare equal along an axis. -/
def EqualAlong (axis : Axis) (bounds others : Bounds) : Prop :=
  (bounds.least.coordinate axis == others.least.coordinate axis) = true ∧
    (bounds.greatest.coordinate axis == others.greatest.coordinate axis) = true

end Bounds

/-- A column in which all coordinates are numbers. -/
def IsNumeric (column : List Float) : Prop :=
  ∀ coordinate ∈ column, coordinate.isNaN = false

/-- What the bounds of a drawing are. -/
structure IsBoundsOf (segments : List (Segment μ)) (bounds : Bounds) : Prop where
  /-- All coordinates along an axis are between the bounds. -/
  between : ∀ axis, IsNumeric (column segments axis) → ∀ coordinate ∈ column segments axis,
    bounds.least.coordinate axis ≤ coordinate ∧ coordinate ≤ bounds.greatest.coordinate axis
  /-- Both bounds are coordinates of ends. -/
  attained : ∀ axis, bounds.least.coordinate axis ∈ column segments axis ∧
    bounds.greatest.coordinate axis ∈ column segments axis
  /-- What is no number spoils the bounds along its own axis, whatever the other columns are. -/
  spoiled : ∀ axis, ¬IsNumeric (column segments axis) →
    (bounds.least.coordinate axis).isNaN = true ∧ (bounds.greatest.coordinate axis).isNaN = true
  /-- The bounds do not depend on the order of the segments, nor on the way they were drawn. -/
  rearranged : ∀ others, Rearranged segments others →
    ∃ same, Bounds.ofSegments others = .ok same ∧
      ∀ axis, IsNumeric (column segments axis) → bounds.EqualAlong axis same
  /-- The bounds of two drawings one after the other are those of both together. -/
  joined : ∀ others : List (Segment μ), others ≠ [] →
    ∃ further whole, Bounds.ofSegments others = .ok further ∧
      Bounds.ofSegments (segments ++ others) = .ok whole ∧
        ∀ axis, IsNumeric (column (segments ++ others) axis) →
          whole.EqualAlong axis (bounds.join further)

/-- An empty drawing has no bounds. All others have, and these are tight, do not depend on the order
of the segments, and are joined where drawings are. -/
theorem bounds_tight_and_order_free :
    Bounds.ofSegments ([] : List (Segment μ)) = .error .emptyDrawing ∧
      ∀ segments : List (Segment μ), segments ≠ [] →
        ∃ bounds, Bounds.ofSegments segments = .ok bounds ∧ IsBoundsOf segments bounds := by
  refine ⟨rfl, fun segments hsome => ?_⟩
  obtain ⟨bounds, hbounds, hextremes⟩ := Bounds.exists_extremes hsome
  refine ⟨bounds, hbounds, ?_⟩
  refine
    { between := fun axis hnumeric coordinate hmem =>
        ⟨(hextremes axis).1.bound hnumeric _ hmem, (hextremes axis).2.bound hnumeric _ hmem⟩
      attained := fun axis => ⟨(hextremes axis).1.attained, (hextremes axis).2.attained⟩
      spoiled := fun axis hspoiled => ?_
      rearranged := fun others hothers => ?_
      joined := fun others hmore => ?_ }
  · simp only [IsNumeric, not_forall, Bool.not_eq_false, exists_prop] at hspoiled
    exact ⟨(hextremes axis).1.spoiled hspoiled, (hextremes axis).2.spoiled hspoiled⟩
  · have hne : others ≠ [] := by
      rintro rfl
      have hlength := (hothers.column_perm .x).mem_iff.mp (hextremes .x).1.attained
      exact nomatch hlength
    obtain ⟨same, hsame, hother⟩ := Bounds.exists_extremes hne
    refine ⟨same, hsame, fun axis hnumeric => ?_⟩
    have hperm := (hothers.column_perm axis).symm
    exact ⟨chooses_lesser.unique (hextremes axis).1 ((hother axis).1.perm hperm) hnumeric,
      chooses_greater.unique (hextremes axis).2 ((hother axis).2.perm hperm) hnumeric⟩
  · obtain ⟨further, hfurther, hother⟩ := Bounds.exists_extremes hmore
    obtain ⟨whole, hwhole, hboth⟩ :=
      Bounds.exists_extremes (List.append_ne_nil_of_left_ne_nil hsome others)
    refine ⟨further, whole, hfurther, hwhole, fun axis hnumeric => ?_⟩
    have hleast := chooses_lesser.append (hextremes axis).1 (hother axis).1
    have hgreatest := chooses_greater.append (hextremes axis).2 (hother axis).2
    rw [← column_append] at hleast hgreatest
    obtain ⟨hjoinLeast, hjoinGreatest⟩ := bounds.coordinate_join further axis
    rw [Bounds.EqualAlong, hjoinLeast, hjoinGreatest]
    exact ⟨chooses_lesser.unique (hboth axis).1 hleast hnumeric,
      chooses_greater.unique (hboth axis).2 hgreatest hnumeric⟩

/-- Two segments, one of whose ends has no height. -/
def unboundedHeight : List (Segment Nat) :=
  [⟨⟨0, 2, -0⟩, ⟨-1, 0 / 0, 4⟩, 1, 0⟩, ⟨⟨3, -5, 0⟩, ⟨1e300, 1, -2⟩, 1, 1⟩]

theorem unboundedHeight_tight_and_order_free :
    unboundedHeight ≠ [] ∧
      Bounds.ofSegments unboundedHeight = .ok ⟨⟨-1, 0 / 0, -2⟩, ⟨1e300, 0 / 0, 4⟩⟩ ∧
        IsBoundsOf unboundedHeight ⟨⟨-1, 0 / 0, -2⟩, ⟨1e300, 0 / 0, 4⟩⟩ := by
  have hsome : unboundedHeight ≠ [] := nofun
  have hvalue : Bounds.ofSegments unboundedHeight =
      .ok ⟨⟨-1, 0 / 0, -2⟩, ⟨1e300, 0 / 0, 4⟩⟩ := by
    decide +kernel
  obtain ⟨bounds, hbounds, hfit⟩ := bounds_tight_and_order_free.2 unboundedHeight hsome
  rw [hvalue, Except.ok.injEq] at hbounds
  exact ⟨hsome, hvalue, hbounds ▸ hfit⟩

end Drawings

end Lindenmayer
