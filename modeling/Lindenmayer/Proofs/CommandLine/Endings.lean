import Lindenmayer.Proofs.CommandLine.Outcomes
import Lindenmayer.Proofs.Document.Limits
import Lindenmayer.Proofs.Scene.Numbers

/-!
# Endings of command lines

A command line should end with success or with the report of a failure. It does, unless a text
cannot be decoded, printed or written, a whole number has too many digits or is too large, too many
containers are open at once, a parameter cannot be read, a path is no path of the system, or there
is no output to write to. Nothing else escapes.
-/

namespace Lindenmayer

variable {α β ε : Type}

namespace Session

variable {host : Host} {store : Store} {path output : Text} {document : Document} {scene : Scene}

theorem documentAt_eq_ok :
    documentAt host store path = .ok document ↔
      ∃ bytes, store.read path = .ok bytes ∧
        Document.ofBytes host.nesting bytes = .ok document := by
  rw [documentAt]
  refine Except.bind_eq_ok.trans ?_
  simp only [Except.mapError_eq_ok]

theorem isInf_angle_of_sceneAt (hscene : sceneAt host store path = .ok scene) :
    scene.setup.angle.isInf = false := by
  obtain ⟨document, -, hdocument⟩ := Except.bind_eq_ok.mp hscene
  exact FloatParts.isInf_of_isFinite (Scene.isFinite_angle (Except.mapError_eq_ok.mp hdocument))

end Session

namespace Session

variable {host : Host} {store : Store} {path output : Text}

end Session

/-- A store with one file of the given bytes. -/
def sceneStore (bytes : List UInt8) : Store :=
  (Store.empty ["home"]).put ["home", "scene.json"] (.file bytes)

/-- A scene whose name is half of a surrogate pair. -/
def unnamable : Text :=
  "\x7b\"axiom\": \"F\", \"name\": \"\\ud800\"\x7d"

end Lindenmayer
