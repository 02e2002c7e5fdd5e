import Lindenmayer.Proofs.Number.Conversion
import Lindenmayer.Proofs.Scene.Reading

/-!
# Numbers of scenes

The numbers of a scene are finite. A whole number that is too large for a double is a fault of its
own, and it is one of the numbers of the turtle.
-/

namespace Lindenmayer.Scene

variable {place : Text} {document : Document} {fault : SceneFault}
  {members : List (Text × Document)}

theorem IsNumber.isFinite {number : Float} (hnumber : IsNumber document number) :
    number.isFinite = true := by
  cases hnumber with
  | @whole value hrange =>
      have hround : BinaryFormat.double.round (Ratio.ofNat value.natAbs) ≠ none :=
        (round_ofNat_eq_none_iff _).not.mpr hrange.not_ge
      obtain ⟨magnitude, hmagnitude⟩ := Option.ne_none_iff_exists'.mp hround
      rw [nearestFloat, hmagnitude]
      exact (denotes_toFloat (BinaryFormat.admits_of_round BinaryFormat.double_precision_pos
        BinaryFormat.double_range hmagnitude)).isFinite
  | finite hfinite => exact hfinite

/-- A turtle that is read turns through a finite angle. -/
theorem isFinite_angle {scene : Scene} (hscene : (ofDocument document).outcome = .ok scene) :
    scene.setup.angle.isFinite = true := by
  obtain ⟨members, -, hmembers⟩ := ofDocument_eq_ok.mp hscene
  obtain ⟨turtle, -, hturtle⟩ := hmembers.setup
  obtain ⟨angle, -, hangle⟩ := hturtle.angle
  exact hangle.isFinite

end Lindenmayer.Scene
