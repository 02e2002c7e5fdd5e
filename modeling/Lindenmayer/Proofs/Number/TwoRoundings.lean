import Lindenmayer.Proofs.Number.Nearest

/-!
# Rounding twice

A value that is rounded to a finer format first and then to a coarser one mostly ends where rounding
it to the coarser one at once would have ended. The only way to end elsewhere is that the first
rounding comes out exactly half way between two magnitudes of the coarser format.
-/

namespace Lindenmayer.BinaryFormat

variable {format fine coarse : BinaryFormat} {value : ℚ} {low high other : Magnitude}

/-- Between two magnitudes of the coarser format there is another one, or else their middle is a
magnitude of the finer format. -/
theorem Refines.exists_between (hrefines : fine.Refines coarse) (hprecision : 0 < coarse.precision)
    (hlow : coarse.Admits low) (hhigh : coarse.Admits high) (hlt : low.value < high.value) :
    (∃ next, coarse.Admits next ∧ low.value < next.value ∧ next.value < high.value) ∨
      ∃ middle, fine.Admits middle ∧ 2 * middle.value = low.value + high.value := by
  have hnotLargest : low ≠ coarse.largest := by
    rintro rfl
    exact absurd hlt hhigh.value_le_largest.not_gt
  obtain ⟨next, hnext, hvalue⟩ := (hlow.exists_succ hprecision).resolve_right hnotLargest
  have hpower : (0 : ℚ) < 2 ^ low.exponent := by positivity
  have habove : low.value < next.value := by
    rw [hvalue, Magnitude.value]
    gcongr
    exact Nat.lt_succ_self _
  rcases (hlow.succ_le hhigh hlt).lt_or_eq with hless | hsame
  · exact .inl ⟨next, hnext, habove, hvalue.trans_lt hless⟩
  · obtain ⟨hlimit, hmin, hmax⟩ := hrefines
    have hlowLimit := hlow.lt_limit
    have hlowMin := hlow.min_le
    have hlowMax := hlow.le_max
    have hmiddleLimit : 2 * low.significand + 1 < fine.limit := by omega
    have hmiddleMin : fine.minExponent ≤ low.exponent - 1 := by omega
    obtain ⟨middle, hmiddle, hmiddleValue⟩ := exists_admits hmiddleLimit hmiddleMin (by omega)
    refine .inr ⟨middle, hmiddle, ?_⟩
    rw [hmiddleValue, ← hsame, Magnitude.value, zpow_sub_one₀ two_ne_zero]
    push_cast
    ring

/-- Two magnitudes of the coarser format are parted by one of the finer format. Only half way
between the two can it be one of the values that are parted. -/
theorem Refines.exists_parting (hrefines : fine.Refines coarse) (hprecision : 0 < coarse.precision)
    (hlow : coarse.Admits low) (hhigh : coarse.Admits high) (hlt : low.value < high.value) :
    ∃ middle, fine.Admits middle ∧ ∀ below above, coarse.IsNearest below low →
      coarse.IsNearest above high → below ≤ middle.value ∧ middle.value ≤ above ∧
        (below = middle.value ∨ above = middle.value →
          2 * middle.value = low.value + high.value) := by
  rcases hrefines.exists_between hprecision hlow hhigh hlt with
    ⟨next, hnext, hless, hmore⟩ | ⟨middle, hmiddle, hvalue⟩
  · obtain ⟨wide, hwide, hvalue⟩ := hrefines.exists_wide hnext
    refine ⟨wide, hwide, fun below above hbelow habove => ?_⟩
    have hleft := two_mul_le_of_abs_le hless (hbelow.nearest next hnext)
    have hright := le_two_mul_of_abs_le hmore (habove.nearest next hnext)
    refine ⟨by linarith, by linarith, ?_⟩
    rintro (heq | heq) <;> linarith
  · refine ⟨middle, hmiddle, fun below above hbelow habove => ?_⟩
    have hleft := two_mul_le_of_abs_le hlt (hbelow.nearest high hhigh)
    have hright := le_two_mul_of_abs_le hlt (habove.nearest low hlow)
    exact ⟨by linarith, by linarith, fun _ => hvalue⟩

/-- Nothing of a format lies between a value and its nearest magnitude. -/
theorem IsNearest.eq_of_between {nearest : Magnitude} (hnearest : format.IsNearest value nearest)
    (hother : format.Admits other) (hbetween : value ≤ other.value ∧ other.value ≤ nearest.value ∨
      nearest.value ≤ other.value ∧ other.value ≤ value) : nearest.value = other.value := by
  have hle := hnearest.nearest other hother
  rcases hbetween with ⟨hlow, hhigh⟩ | ⟨hlow, hhigh⟩
  · rw [abs_of_nonneg (by linarith), abs_of_nonneg (by linarith)] at hle
    linarith
  · rw [abs_of_nonpos (by linarith), abs_of_nonpos (by linarith)] at hle
    linarith

variable {first rounded direct : Magnitude}

theorem Refines.first_halfway (hrefines : fine.Refines coarse)
    (hprecision : 0 < coarse.precision) (hfirst : fine.IsNearest value first)
    (hsecond : coarse.IsNearest first.value rounded) (hdirect : coarse.IsNearest value direct)
    (hne : rounded.value ≠ direct.value) : 2 * first.value = direct.value + rounded.value := by
  rcases hne.lt_or_gt with hlt | hgt
  · obtain ⟨middle, hmiddle, hparts⟩ :=
      hrefines.exists_parting hprecision hsecond.admits hdirect.admits hlt
    obtain ⟨hbelow, habove, hhalfway⟩ := hparts _ _ hsecond hdirect
    have hsame := hfirst.eq_of_between hmiddle (.inr ⟨hbelow, habove⟩)
    rw [hsame, hhalfway (.inl hsame), add_comm]
  · obtain ⟨middle, hmiddle, hparts⟩ :=
      hrefines.exists_parting hprecision hdirect.admits hsecond.admits hgt
    obtain ⟨hbelow, habove, hhalfway⟩ := hparts _ _ hdirect hsecond
    have hsame := hfirst.eq_of_between hmiddle (.inl ⟨hbelow, habove⟩)
    rw [hsame, hhalfway (.inr hsame)]

/-- Rounding twice ends where rounding at once does, or the first rounding is half way between the
two ends and the second one goes to the even one. -/
theorem Refines.rounded_twice (hrefines : fine.Refines coarse) (hprecision : 0 < coarse.precision)
    (hfirst : fine.IsNearest value first) (hsecond : coarse.IsNearest first.value rounded)
    (hdirect : coarse.IsNearest value direct) :
    rounded.value = direct.value ∨ rounded.value ≠ direct.value ∧
      2 * first.value = direct.value + rounded.value ∧ rounded.significand % 2 = 0 := by
  rcases eq_or_ne rounded.value direct.value with hsame | hne
  · exact .inl hsame
  · have hhalfway := hrefines.first_halfway hprecision hfirst hsecond hdirect hne
    refine .inr ⟨hne, hhalfway, hsecond.even direct hdirect.admits ?_ hne⟩
    rw [abs_sub_comm direct.value]
    congr 1
    linarith

/-- A value below the largest magnitude of the coarser format stays there in the finer format, if it
is rounded to another magnitude at once. -/
theorem Refines.le_largest (hrefines : fine.Refines coarse) (hprecision : 0 < coarse.precision)
    (hrange : coarse.minExponent ≤ coarse.maxExponent) (hdirect : coarse.IsNearest value direct)
    (hlt : direct.value < coarse.largest.value) :
    value < coarse.largest.value ∧
      ∀ first, fine.IsNearest value first → first.value ≤ coarse.largest.value := by
  have hlargest := admits_largest hprecision hrange
  have hmiddle := two_mul_le_of_abs_le hlt (hdirect.nearest _ hlargest)
  have hbelow : value < coarse.largest.value := by linarith
  refine ⟨hbelow, fun first hfirst => ?_⟩
  obtain ⟨wide, hwide, hvalue⟩ := hrefines.exists_wide hlargest
  by_contra hnot
  have hsame := hfirst.eq_of_between hwide (.inl ⟨by linarith, by linarith⟩)
  linarith

end Lindenmayer.BinaryFormat
