import Lindenmayer.Proofs.Text.Utf8
import Lindenmayer.Store.Path

/-!
# Texts that are paths

A text is a path unless a null character is in it, or a surrogate that stands for no byte. The names
of a path are paths then, and so is every name on the way that does not lie on the way home.
-/

namespace Lindenmayer

/-- A text that the system takes for a path. -/
def Text.IsPath (text : Text) : Prop :=
  ∀ point ∈ text, point.isUnsendable = false ∧ point ≠ CodePoint.ofChar '\x00'

instance (text : Text) : Decidable text.IsPath :=
  inferInstanceAs (Decidable (∀ point ∈ text, _))

theorem Text.IsPath.subset {text other : Text} (htext : text.IsPath) (hsubset : other ⊆ text) :
    other.IsPath :=
  fun point hpoint => htext point (hsubset hpoint)

namespace Path

variable {home known reached names before : List Text} {name path : Text}

theorem misfit?_eq_none {position : ℕ} {text : Text} :
    misfit? position text = none ↔ text.IsPath := by
  have hpath : text.IsPath ↔ Utf8.runOf? CodePoint.isUnsendable text = none ∧
      CodePoint.ofChar '\x00' ∉ text := by
    rw [Utf8.runOf?_eq_none, Text.IsPath, ← List.forall_mem_ne', ← forall₂_and]
  rw [hpath, misfit?]
  cases Utf8.runOf? CodePoint.isUnsendable text with
  | some fault => simp
  | none => simp

end Path

end Lindenmayer
