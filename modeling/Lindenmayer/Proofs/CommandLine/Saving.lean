import Lindenmayer.CommandLine.Session
import Lindenmayer.Proofs.Document.File
import Lindenmayer.Proofs.Store.Writing

/-!
# Documents saved and loaded

A document is saved at a path that can be written exactly if none of its strings holds a surrogate.
The bytes that are left there depend on the document alone, and loading them gives it back on every
host with room for its nesting. Drawings are such documents.
-/

namespace Lindenmayer

namespace Session

variable {host : Host} {session : Session} {path : Text} {document : Document} {bytes : List UInt8}

theorem bind_run {α β : Type} {after : Session} {first : Step α} {next : α → Step β} {value : α}
    (hfirst : first.run.run session = (.ok value, after)) :
    (first >>= next).run.run session = (next value).run.run after := by
  rw [ExceptT.run_bind, StateT.run_bind, hfirst]
  rfl

theorem get_run (session : Session) :
    (get : Step Session).run.run session = (.ok session, session) :=
  rfl

/-- Loading a file gives the document of its bytes and changes nothing. -/
theorem load_of_read (hread : session.store.read path = .ok bytes)
    (hbytes : Document.ofBytes host.nesting bytes = .ok document) :
    (load host path).run.run session = (.ok document, session) := by
  rw [load, bind_run (get_run session), hread]
  dsimp only
  rw [hbytes]
  rfl

/-- Saving writes what can be encoded, and the flaw of the path is reported first. -/
theorem save_run (session : Session) (path : Text) (document : Document) :
    (save path document).run.run session =
      ((match (session.store.write path document.toBytes.1).2, document.toBytes.2 with
        | some fault, _ => .error (.file fault)
        | none, some fault => .error (.unencodable fault)
        | none, none => .ok ()),
        { session with store := (session.store.write path document.toBytes.1).1 }) := by
  change ((match (session.store.write path document.toBytes.1).2, document.toBytes.2 with
    | some fault, _ => throw (.file fault)
    | none, some fault => throw (.unencodable fault)
    | none, none => return : Step Unit)).run.run
      { session with store := (session.store.write path document.toBytes.1).1 } = _
  cases (session.store.write path document.toBytes.1).2 <;> cases document.toBytes.2 <;> rfl

theorem save_of_encodable (hwritable : session.store.Writable path)
    (hencodable : document.Encodable) :
    ∃ store, (save path document).run.run session = (.ok (), { session with store }) ∧
      store.read path = .ok document.toBytes.1 := by
  obtain ⟨store, hwrite⟩ := hwritable.exists_write document.toBytes.1
  refine ⟨store, ?_, Store.read_of_write hwrite⟩
  rw [save_run, hwrite, Document.toBytes_of_encodable hencodable]

theorem save_of_not_encodable (hwritable : session.store.Writable path)
    (hencodable : ¬ document.Encodable) :
    ∃ fault store, (save path document).run.run session =
      (.error (.unencodable fault), { session with store }) := by
  obtain ⟨store, hwrite⟩ := hwritable.exists_write document.toBytes.1
  obtain ⟨fault, hfault⟩ := Document.exists_toBytes_fault hencodable
  refine ⟨fault, store, ?_⟩
  rw [save_run, hwrite, hfault]

/-- The document is saved with the given bytes at every path that can be written, and it is loaded
from every file of these bytes where there is room for its nesting. -/
structure Keeps (document : Document) (bytes : List UInt8) : Prop where
  saves : ∀ (session : Session) (path : Text), session.store.Writable path →
    ∃ store, (save path document).run.run session = (.ok (), { session with store }) ∧
      store.read path = .ok bytes
  loads : ∀ (host : Host) (session : Session) (path : Text), document.nesting ≤ host.nesting →
    session.store.read path = .ok bytes → (load host path).run.run session = (.ok document, session)
  resaves : ∀ (host : Host) (session after : Session) (path : Text) (loaded : Document),
    document.nesting ≤ host.nesting → session.store.read path = .ok bytes →
      (load host path).run.run session = (.ok loaded, after) → loaded.toBytes = (bytes, none)

/-- Saving the document is reported as a failure to encode it at every path that can be written. -/
def Refuses (document : Document) : Prop :=
  ∀ (session : Session) (path : Text), session.store.Writable path →
    ∃ fault store, (save path document).run.run session =
      (.error (.unencodable fault), { session with store })

theorem keeps_of_encodable (hregular : document.Regular) (hencodable : document.Encodable) :
    Keeps document document.toBytes.1 where
  saves _ _ hwritable := save_of_encodable hwritable hencodable
  loads _ _ _ hroom hread := load_of_read hread (Document.ofBytes_toBytes hregular hencodable hroom)
  resaves host session after path loaded hroom hread hload := by
    rw [load_of_read hread (Document.ofBytes_toBytes hregular hencodable hroom)] at hload
    obtain rfl := Except.ok.inj (Prod.mk.inj hload).1
    rw [Document.toBytes_of_encodable hencodable]

end Session

namespace Document

theorem regular_vector (vector : Vec3) : vector.toDocument.Regular := by
  refine .array fun item hitem => ?_
  simp only [List.mem_cons, List.not_mem_nil, or_false] at hitem
  rcases hitem with rfl | rfl | rfl <;> exact .number _

theorem encodable_vector (vector : Vec3) : vector.toDocument.Encodable := by
  rintro text ⟨⟩

theorem regular_segment {μ : Type} {material : μ → Document} {segment : Segment μ}
    (hmaterial : (material segment.material).Regular) : (segment.toDocument material).Regular := by
  have hnames : (["start", "end", "width", "material"] : List Text).Nodup := by decide
  refine .object hnames fun member hmember => ?_
  simp only [List.mem_cons, List.not_mem_nil, or_false] at hmember
  rcases hmember with rfl | rfl | rfl | rfl
  · exact regular_vector segment.start
  · exact regular_vector segment.finish
  · exact .number segment.width
  · exact hmaterial

theorem encodable_segment {μ : Type} {material : μ → Document} {segment : Segment μ} :
    (segment.toDocument material).Encodable ↔ (material segment.material).Encodable := by
  have hnames : ∀ name ∈ (["start", "end", "width", "material"] : List Text), name.Encodable := by
    decide
  have hnumber : (Document.number segment.width).Encodable := by
    rintro text ⟨⟩
  simp only [List.forall_mem_cons] at hnames
  simp only [Segment.toDocument, encodable_object, List.forall_mem_cons, hnames, true_and,
    encodable_vector, hnumber, List.not_mem_nil, false_imp_iff, implies_true, and_true]

theorem regular_drawing {μ : Type} {material : μ → Document} (name : Text)
    {segments : List (Segment μ)}
    (hmaterials : ∀ segment ∈ segments, (material segment.material).Regular) :
    (drawingDocument material name segments).Regular := by
  have hnames : (["name", "segments"] : List Text).Nodup := by decide
  refine .object hnames fun member hmember => ?_
  simp only [List.mem_cons, List.not_mem_nil, or_false] at hmember
  rcases hmember with rfl | rfl
  · exact .string name
  · refine .array fun item hitem => ?_
    obtain ⟨segment, hsegment, rfl⟩ := List.mem_map.mp hitem
    exact regular_segment (hmaterials segment hsegment)

/-- Every host has room for shallow documents. -/
theorem fits_of_shallow {document : Document} (hshallow : document.nesting ≤ 4) (host : Host) :
    document.nesting ≤ host.nesting :=
  (hshallow.trans (by decide)).trans host.nesting_ge

/-- A drawing is no deeper than its coordinates if no material is. -/
theorem nesting_drawing_le {μ : Type} {material : μ → Document} (name : Text)
    {segments : List (Segment μ)}
    (hmaterials : ∀ segment ∈ segments, (material segment.material).nesting ≤ 1) :
    (drawingDocument material name segments).nesting ≤ 4 := by
  have hsegment : ∀ segment ∈ segments, (segment.toDocument material).nesting ≤ 2 := by
    intro segment hsegment
    refine nesting_object_le.mpr ?_
    simp only [List.forall_mem_cons, List.not_mem_nil, false_imp_iff, implies_true, and_true]
    exact ⟨le_rfl, le_rfl, Nat.zero_le 1, hmaterials segment hsegment⟩
  refine nesting_object_le.mpr ?_
  simp only [List.forall_mem_cons, List.not_mem_nil, false_imp_iff, implies_true, and_true]
  exact ⟨Nat.zero_le 3, nesting_array_le.mpr (List.forall_mem_map.mpr hsegment)⟩

/-- The document of a segment has the coordinates of its ends, its width and its material. -/
def IsSegment {μ : Type} (material : μ → Document) (segment : Segment μ) (document : Document) :
    Prop :=
  document = .object [
    ("start", .array [.number segment.start.x, .number segment.start.y, .number segment.start.z]),
    ("end", .array [.number segment.finish.x, .number segment.finish.y,
      .number segment.finish.z]),
    ("width", .number segment.width), ("material", material segment.material)]

/-- The document of a drawing has its name and the documents of its segments in order. -/
inductive IsDrawing {μ : Type} (material : μ → Document) (name : Text)
    (segments : List (Segment μ)) : Document → Prop where
  | mk {items : List Document} (hitems : List.Forall₂ (IsSegment material) segments items) :
      IsDrawing material name segments
        (.object [("name", .string name), ("segments", .array items)])

theorem isDrawing {μ : Type} (material : μ → Document) (name : Text)
    (segments : List (Segment μ)) :
    IsDrawing material name segments (drawingDocument material name segments) :=
  .mk (List.forall₂_map_right_iff.mpr (List.forall₂_same.mpr fun _ _ => rfl))

/-- A drawing has an encoded form exactly if its name and its materials have one. -/
theorem encodable_drawing {μ : Type} {material : μ → Document} {name : Text}
    {segments : List (Segment μ)} :
    (drawingDocument material name segments).Encodable ↔
      name.Encodable ∧ ∀ segment ∈ segments, (material segment.material).Encodable := by
  have hnames : ∀ name ∈ (["name", "segments"] : List Text), name.Encodable := by decide
  simp only [List.forall_mem_cons] at hnames
  simp only [drawingDocument, encodable_object, List.forall_mem_cons, hnames, true_and,
    encodable_string, encodable_array, List.forall_mem_map, encodable_segment, List.not_mem_nil,
    false_imp_iff, implies_true, and_true]

end Document

namespace Session

/-- Files keep exactly the documents whose strings have encoded forms, and so they keep drawings
with all their segments. -/
theorem files_keep_documents :
    (∀ document : Document, document.Regular →
      (document.Encodable → ∃ bytes, Keeps document bytes) ∧
        (¬ document.Encodable → Refuses document)) ∧
    ∀ {μ : Type} (material : μ → Document) (name : Text) (segments : List (Segment μ)),
      (∀ segment ∈ segments, (material segment.material).Regular) →
        Document.IsDrawing material name segments (drawingDocument material name segments) ∧
        (name.Encodable ∧ (∀ segment ∈ segments, (material segment.material).Encodable) →
          ∃ bytes, Keeps (drawingDocument material name segments) bytes) ∧
        (¬ (name.Encodable ∧ ∀ segment ∈ segments, (material segment.material).Encodable) →
          Refuses (drawingDocument material name segments)) := by
  have hdocuments : ∀ document : Document, document.Regular →
      (document.Encodable → ∃ bytes, Keeps document bytes) ∧
        (¬ document.Encodable → Refuses document) := fun document hregular =>
    ⟨fun hencodable => ⟨_, keeps_of_encodable hregular hencodable⟩,
      fun hencodable session path hwritable => save_of_not_encodable hwritable hencodable⟩
  refine ⟨hdocuments, fun material name segments hmaterials => ?_⟩
  rw [← Document.encodable_drawing]
  exact ⟨Document.isDrawing material name segments,
    hdocuments _ (Document.regular_drawing name hmaterials)⟩

/-- A document with values of every kind, in which signs of zero, unusual numbers, escapes and the
order of names matter. -/
def variedDocument : Document :=
  .object [("\x7d,\r\n\"\\", .array [.number (-0.0), .number 5e-324, .number (0.0 / 0.0),
      .number (1.0 / 0.0), .number 1e22, .integer (-10 ^ 40), .integer 0]),
    ("", .object []), ("b", .array [.array [], .null, .bool true, .string "\u0001\u0085😀"]),
    ("a", .string "\\u0041")]

/-- A first half of a pair on its own. -/
def loneSurrogate : CodePoint := ⟨0xD83D, by decide⟩

theorem regular_variedDocument : variedDocument.Regular := by
  refine .object (by decide +kernel) ?_
  simp only [List.forall_mem_cons, List.not_mem_nil, false_imp_iff, implies_true, and_true]
  refine ⟨.array ?_, .object List.nodup_nil (by simp), .array ?_, .string _⟩
  · simp only [List.forall_mem_cons, List.not_mem_nil, false_imp_iff, implies_true, and_true]
    exact ⟨.number _, .number _, .number _, .number _, .number _, .integer (by decide +kernel),
      .integer (by decide +kernel)⟩
  · simp only [List.forall_mem_cons, List.not_mem_nil, false_imp_iff, implies_true, and_true]
    exact ⟨.array (by simp), .null, .bool true, .string _⟩

theorem files_keep_variedDocument :
    (Store.empty ["home"]).Writable "made/varied.json" ∧
      variedDocument.Encodable ∧ variedDocument.nesting = 3 ∧
      (∃ bytes, Keeps variedDocument bytes) ∧
      ¬ (Document.array [.string [loneSurrogate]]).Encodable ∧
      Refuses (.array [.string [loneSurrogate]]) ∧
      ∃ bytes, Keeps (drawingDocument materialDocument "line\n"
        [⟨⟨0, 0, 0⟩, ⟨0, -0.0, 1⟩, 0.5, some "bark"⟩,
          ⟨⟨0, 0, 1⟩, ⟨0, 0, 2⟩, 0.25, none⟩]) bytes := by
  have hsurrogate : ¬ (Document.array [.string [loneSurrogate]]).Encodable := by decide
  refine ⟨by decide +kernel, by decide +kernel, rfl, ?_, hsurrogate, ?_, ?_⟩
  · exact (files_keep_documents.1 variedDocument regular_variedDocument).1 (by decide +kernel)
  · exact (files_keep_documents.1 _ (.array (List.forall_mem_singleton.mpr (.string _)))).2
      hsurrogate
  · refine (files_keep_documents.2 materialDocument "line\n" _ ?_).2.1 (by decide +kernel)
    intro segment _
    cases segment.material with
    | none => exact .null
    | some text => exact .string text

end Session

end Lindenmayer
