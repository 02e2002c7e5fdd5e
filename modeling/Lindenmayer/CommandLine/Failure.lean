import Lindenmayer.Document.File
import Lindenmayer.Fault
import Lindenmayer.Scene.Fault
import Lindenmayer.Store.Basic

/-!
# Failures of a command

What can end a command early. Most failures are reported under a heading and end the program with an
exit code; the others abort it.
-/

namespace Lindenmayer

/-- Why a command ends early. -/
inductive Failure where
  | file (fault : FileFault)
  | load (path : Text) (fault : Document.LoadFault)
  | scene (fault : SceneFault)
  | drawing (fault : Fault)
  | nothingDrawn
  | noOutput
  | unencodable (fault : Utf8.EncodeFault)
deriving DecidableEq

namespace Failure

/-- The text of a failure, without its heading. -/
def message : Failure → Text
  | file fault => fault.message
  | load path fault => fault.message path
  | scene fault => fault.message
  | drawing fault => fault.message
  | nothingDrawn => "Config produces no drawable geometry"
  | noOutput => "expected str, bytes or os.PathLike object, not list"
  | unencodable fault => fault.message

/-- The heading under which a failure is reported; a failure without one aborts the program. -/
def heading? : Failure → Option Text
  | file (.unusable ..) => some "File error: "
  | file (.misfit _) => none
  | load _ (.unreadable (.malformed ..)) => some "Config error: "
  | load _ (.unreadable (.tooManyDigits _)) | load _ (.unreadable (.tooDeep _)) => none
  | load _ (.undecodable _) => none
  | scene .beyondRange => none
  | scene _ | nothingDrawn => some "Config error: "
  | drawing .negativeGenerations | drawing .emptyDrawing => some "Config error: "
  | drawing (.branchUnderflow _) => some "Grammar error: "
  | drawing (.unreadableNumber _) | drawing .infiniteAngle | drawing (.unknownAxis _) => none
  | noOutput | unencodable _ => none

end Failure

end Lindenmayer
