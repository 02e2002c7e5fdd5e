import Lindenmayer.Document.Printer
import Lindenmayer.Document.Reader
import Lindenmayer.Text.Newline
import Lindenmayer.Text.Utf8

/-!
# Documents in files

A file is read as a text with uniform line ends and then as a document. It is written piece by
piece, and a piece without an encoded form leaves the pieces before it in the file.
-/

namespace Lindenmayer.Document

/-- Why a file does not hold a document. -/
inductive LoadFault where
  | undecodable (fault : Utf8.DecodeFault)
  | unreadable (fault : ReadFault)
deriving DecidableEq

/-- The text of a fault of the file at a path. -/
def LoadFault.message (path : Text) : LoadFault → Text
  | .undecodable fault => fault.message
  | .unreadable fault@(.malformed ..) => "Invalid JSON in " ++ path ++ ": " ++ fault.message
  | .unreadable fault@(.tooManyDigits _) | .unreadable fault@(.tooDeep _) => fault.message

/-- The document in the bytes of a file, in which so many containers may be open at once. -/
def ofBytes (room : Nat) (bytes : List UInt8) : Except LoadFault Document :=
  match Utf8.decode bytes with
  | .error fault => .error (.undecodable fault)
  | .ok text => (read room text.uniformNewlines).mapError .unreadable

/-- The bytes of some pieces up to the first one without an encoded form, with its fault. -/
def encodePieces : List Text → List UInt8 × Option Utf8.EncodeFault
  | [] => ([], none)
  | piece :: rest =>
      match Utf8.encode piece with
      | .error fault => ([], some fault)
      | .ok bytes =>
          let (more, fault) := encodePieces rest
          (bytes ++ more, fault)

/-- The bytes that are written for a document, and the fault that ended the writing, if any. -/
def toBytes (document : Document) : List UInt8 × Option Utf8.EncodeFault :=
  encodePieces document.filePieces

end Lindenmayer.Document
