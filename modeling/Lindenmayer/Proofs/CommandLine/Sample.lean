import Lindenmayer.CommandLine.Sample
import Mathlib.Data.Nat.Find
import Mathlib.Order.Basic

/-!
# What is sampled

A sample is the last generation of a word if none of them is too long. Otherwise it is the beginning
of the first one that is, whatever later generations make of it.
-/

namespace Lindenmayer.RuleTable

variable {table : RuleTable} {count first : Nat} {word : Text}

/-- No generation is too long to be sampled as a whole. -/
def AllShort (table : RuleTable) (count : Nat) (word : Text) : Prop :=
  ∀ index ≤ count, (table.generation index word).length ≤ sampleLimit

instance (table : RuleTable) (count : Nat) (word : Text) : Decidable (table.AllShort count word) :=
  inferInstanceAs (Decidable (∀ index ≤ count, _))

/-- The first generation that is too long to be sampled as a whole. -/
structure FirstLong (table : RuleTable) (count : Nat) (word : Text) (first : Nat) : Prop where
  reached : first ≤ count
  long : sampleLimit < (table.generation first word).length
  earlier : ∀ index < first, (table.generation index word).length ≤ sampleLimit

/-- Unless all generations are short, one of them is the first long one. -/
theorem exists_firstLong (hlong : ¬ table.AllShort count word) :
    ∃ first, table.FirstLong count word first := by
  simp only [AllShort, not_forall, not_le] at hlong
  obtain ⟨index, hindex, hlong⟩ := hlong
  have hexists : ∃ index, sampleLimit < (table.generation index word).length := ⟨index, hlong⟩
  exact ⟨Nat.find hexists, (Nat.find_min' hexists hlong).trans hindex, Nat.find_spec hexists,
    fun earlier hearlier => not_lt.mp (Nat.find_min hexists hearlier)⟩

/-- There is one first long generation at most. -/
theorem FirstLong.unique {other : Nat} (hfirst : table.FirstLong count word first)
    (hother : table.FirstLong count word other) : first = other := by
  apply le_antisymm
  · exact not_lt.mp fun hlt => absurd hother.long (not_lt.mpr (hfirst.earlier other hlt))
  · exact not_lt.mp fun hlt => absurd hfirst.long (not_lt.mpr (hother.earlier first hlt))

theorem sampleFrom_of_allShort (generation : Nat) (hshort : table.AllShort count word) :
    table.sampleFrom generation count word =
      ⟨table.generation count word, generation + count, false⟩ := by
  have hstart : word.length ≤ sampleLimit := hshort 0 (Nat.zero_le _)
  induction count generalizing generation word with
  | zero =>
      rw [sampleFrom_zero]
      exact if_neg (not_lt.mpr hstart)
  | succ count ih =>
      have hlater : table.AllShort count (table.rewrite word) := fun index hindex =>
        hshort (index + 1) (Nat.succ_le_succ hindex)
      rw [sampleFrom_succ, if_neg (not_lt.mpr hstart),
        ih (generation + 1) hlater (hlater 0 (Nat.zero_le _)), Nat.add_right_comm]
      rfl

theorem sampleFrom_of_firstLong (generation : Nat) (hfirst : table.FirstLong count word first) :
    table.sampleFrom generation count word =
      ⟨(table.generation first word).take sampleLimit, generation + first, true⟩ := by
  induction count generalizing generation word first with
  | zero =>
      obtain rfl := Nat.le_zero.mp hfirst.reached
      rw [sampleFrom_zero]
      exact if_pos hfirst.long
  | succ count ih =>
      rw [sampleFrom_succ]
      cases first with
      | zero => exact if_pos hfirst.long
      | succ first =>
          have hstart : word.length ≤ sampleLimit := hfirst.earlier 0 (Nat.succ_pos _)
          have hlater : table.FirstLong count (table.rewrite word) first :=
            ⟨Nat.le_of_succ_le_succ hfirst.reached, hfirst.long,
              fun index hindex => hfirst.earlier (index + 1) (Nat.succ_lt_succ hindex)⟩
          rw [if_neg (not_lt.mpr hstart), ih (generation + 1) hlater, Nat.add_right_comm]
          rfl

/-- If no generation is too long, the sample is the last one. -/
theorem sample_of_allShort (hshort : table.AllShort count word) :
    table.sample count word = ⟨table.generation count word, count, false⟩ := by
  rw [sample, sampleFrom_of_allShort 0 hshort, Nat.zero_add]

/-- A sample ends with the beginning of the first generation that is too long. -/
theorem sample_of_firstLong (hfirst : table.FirstLong count word first) :
    table.sample count word = ⟨(table.generation first word).take sampleLimit, first, true⟩ := by
  rw [sample, sampleFrom_of_firstLong 0 hfirst, Nat.zero_add]

/-- A sample is the beginning of a generation; it is the last one unless an earlier one is long. -/
theorem exists_sample_word (table : RuleTable) (count : Nat) (word : Text) :
    ∃ reached ≤ count,
      (table.sample count word).word = (table.generation reached word).take sampleLimit ∧
      (reached = count ∨ sampleLimit < (table.generation reached word).length) := by
  by_cases hshort : table.AllShort count word
  · refine ⟨count, le_rfl, ?_, .inl rfl⟩
    rw [sample_of_allShort hshort]
    exact (List.take_of_length_le (hshort count le_rfl)).symm
  · obtain ⟨first, hfirst⟩ := exists_firstLong hshort
    refine ⟨first, hfirst.reached, ?_, .inr hfirst.long⟩
    rw [sample_of_firstLong hfirst]

end Lindenmayer.RuleTable
