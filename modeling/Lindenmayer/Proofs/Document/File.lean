import Lindenmayer.Document.File
import Lindenmayer.Proofs.Document.Reading

/-!
# Documents in files and back

The bytes of a document are complete exactly if no string of it holds a surrogate, and then they are
the bytes of this document and of no other one, to a reader with room for its containers.
-/

namespace Lindenmayer

theorem Text.uniformNewlinesAfter_of_notMem {text : Text}
    (htext : CodePoint.ofChar '\r' ∉ text) : text.uniformNewlinesAfter false = text := by
  induction text with
  | nil => rfl
  | cons point text ih =>
      rw [List.mem_cons, not_or] at htext
      rw [uniformNewlinesAfter, if_neg (Ne.symm htext.1), if_neg (by simp), ih htext.2]

/-- A text without carriage returns has uniform line ends. -/
theorem Text.uniformNewlines_of_notMem {text : Text} (htext : CodePoint.ofChar '\r' ∉ text) :
    text.uniformNewlines = text :=
  uniformNewlinesAfter_of_notMem htext

namespace Document

variable {room : ℕ}

/-- The text of the file of a document. -/
def fileText (document : Document) : Text :=
  inFile 0 document ++ [CodePoint.ofChar '\n']

theorem flatten_filePieces (document : Document) :
    document.filePieces.flatten = document.fileText := by
  rw [filePieces, List.flatten_append]
  rfl

theorem encodable_fileText (document : Document) :
    document.fileText.Encodable ↔ document.Encodable := by
  rw [fileText, Text.encodable_append, encodable_inFile]
  exact and_iff_left (by decide)

/-- Pieces that all have an encoded form are written to the end. -/
theorem encodePieces_of_encodable {pieces : List Text} (hpieces : Text.Encodable pieces.flatten) :
    encodePieces pieces = (pieces.flatten.flatMap Utf8.encodePoint, none) := by
  induction pieces with
  | nil => rfl
  | cons piece pieces ih =>
      rw [List.flatten_cons, Text.encodable_append] at hpieces
      rw [encodePieces, Utf8.encode_of_encodable hpieces.1]
      dsimp only
      rw [ih hpieces.2, List.flatten_cons, List.flatMap_append]

/-- A piece without an encoded form ends the writing. -/
theorem exists_encodePieces_fault {pieces : List Text} (hpieces : ¬ Text.Encodable pieces.flatten) :
    ∃ fault, (encodePieces pieces).2 = some fault := by
  induction pieces with
  | nil => exact absurd (by decide) hpieces
  | cons piece pieces ih =>
      rw [List.flatten_cons, Text.encodable_append, not_and_or] at hpieces
      by_cases hpiece : piece.Encodable
      · obtain ⟨fault, hfault⟩ := ih (hpieces.resolve_left (not_not_intro hpiece))
        refine ⟨fault, ?_⟩
        rw [encodePieces, Utf8.encode_of_encodable hpiece]
        exact hfault
      · obtain ⟨fault, hfault⟩ := Utf8.exists_encode_error hpiece
        refine ⟨fault, ?_⟩
        rw [encodePieces, hfault]

theorem toBytes_of_encodable {document : Document} (hencodable : document.Encodable) :
    document.toBytes = (document.fileText.flatMap Utf8.encodePoint, none) := by
  rw [toBytes, ← flatten_filePieces]
  apply encodePieces_of_encodable
  rwa [flatten_filePieces, encodable_fileText]

theorem exists_toBytes_fault {document : Document} (hencodable : ¬ document.Encodable) :
    ∃ fault, document.toBytes.2 = some fault := by
  apply exists_encodePieces_fault
  rwa [flatten_filePieces, encodable_fileText]

/-- The text of a file is read as its document. -/
theorem read_fileText {document : Document} (hregular : document.Regular)
    (hencodable : document.Encodable) (hroom : document.nesting ≤ room) :
    read room document.fileText = .ok document := by
  obtain ⟨first, others, htext, hfirst⟩ := exists_head_inFile 0 document
  have hends : EndsValue [CodePoint.ofChar '\n'] := by
    rintro point ⟨⟩
    exact Or.inr rfl
  have hvalue := hregular.readsBack hencodable hroom 0
    (2 * document.fileText.length + 1) [CodePoint.ofChar '\n'] hends
    (by rw [fileText, List.length_append]; omega)
  have hmark : document.fileText.head? ≠ some (CodePoint.ofChar '\uFEFF') := by
    rw [fileText, htext]
    exact fun hhead => hfirst.2.2 (Option.some.inj hhead)
  have hspace : skipSpace document.fileText = inFile 0 document ++ [CodePoint.ofChar '\n'] :=
    skipSpace_inFile 0 document _
  have hall : readAll room document.fileText = .ok document := by
    rw [readAll, if_neg hmark, hspace, hvalue]
    rfl
  rw [read, hall]

/-- The bytes of a document are read as the document. -/
theorem ofBytes_toBytes {document : Document} (hregular : document.Regular)
    (hencodable : document.Encodable) (hroom : document.nesting ≤ room) :
    ofBytes room document.toBytes.1 = .ok document := by
  have hreturn : CodePoint.ofChar '\r' ∉ document.fileText := by
    rw [fileText, List.mem_append, not_or]
    exact ⟨return_notMem_inFile 0 document, by decide⟩
  rw [toBytes_of_encodable hencodable, ofBytes,
    Utf8.decode_flatMap ((encodable_fileText document).mpr hencodable)]
  dsimp only
  rw [Text.uniformNewlines_of_notMem hreturn, read_fileText hregular hencodable hroom]
  rfl

end Document

end Lindenmayer
