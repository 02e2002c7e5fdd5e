import Lindenmayer.Document.Printer
import Lindenmayer.Proofs.Document.Strings
import Lindenmayer.Proofs.Number.Layout

/-!
# Documents as they stand in files

The pieces of a document put together, and what they consist of: beyond the basic alphabet and line
feeds, a file holds nothing but the code points of its strings. So it has an encoded form exactly if
all strings have one, and no carriage return stands in it.
-/

namespace Lindenmayer

/-- Whether a code point is neither a visible one of the basic alphabet, nor a blank, nor a line
feed. -/
def CodePoint.isForeign (point : CodePoint) : Bool :=
  !(point = '\n' || 0x20 ≤ point.value && point.value < 0x7F)

theorem CodePoint.isForeign_of_isSurrogate {point : CodePoint} (hpoint : point.isSurrogate = true) :
    point.isForeign = true := by
  simp only [isSurrogate, Bool.and_eq_true, decide_eq_true_eq] at hpoint
  have hne : point ≠ CodePoint.ofChar '\n' := by
    rintro rfl
    exact absurd hpoint.1 (by decide)
  simp only [isForeign, hne, decide_false, Bool.false_or, Bool.not_eq_true', Bool.and_eq_false_iff,
    decide_eq_false_iff_not]
  omega

theorem isForeign_digitPoint {digit : ℕ} (hdigit : digit < 10) :
    (digitPoint digit).isForeign = false := by
  have hall : ∀ digit < 10, (digitPoint digit).isForeign = false := by decide
  exact hall digit hdigit

theorem filter_digitText {digits : List ℕ} (hdigits : ∀ digit ∈ digits, digit < 10) :
    (digitText digits).filter CodePoint.isForeign = [] := by
  rw [List.filter_eq_nil_iff]
  intro point hpoint
  obtain ⟨digit, hdigit, rfl⟩ := List.mem_map.mp hpoint
  rw [isForeign_digitPoint (hdigits digit hdigit)]
  exact Bool.false_ne_true

/-- A written number stays in the basic alphabet. -/
theorem WrittenNumber.filter_text {number : WrittenNumber} (hvalid : number.Valid) :
    number.text.filter CodePoint.isForeign = [] := by
  have hsign : (Layout.sign number.negative).filter CodePoint.isForeign = [] := by
    cases number.negative <;> decide
  have hfraction : (fractionText number.fraction).filter CodePoint.isForeign = [] := by
    rw [fractionText]
    split
    next => rfl
    next =>
      rw [List.filter_cons_of_neg (by decide)]
      exact filter_digitText hvalid.fraction_lt
  have hexponent : (exponentText number.exponent).filter CodePoint.isForeign = [] := by
    cases hcase : number.exponent with
    | none => rfl
    | some exponent =>
        have hmark : ¬ (CodePoint.ofChar (if exponent.1 then '-' else '+')).isForeign = true := by
          cases exponent.1 <;> decide
        rw [exponentText, List.filter_cons_of_neg (by decide), List.filter_cons_of_neg hmark]
        exact filter_digitText (hvalid.exponent_lt exponent hcase)
  rw [text, List.filter_append, List.filter_append, List.filter_append, hsign, hfraction, hexponent,
    filter_digitText hvalid.whole_lt]
  rfl

/-- So does a double in a document. -/
theorem Layout.filter_writeShortest (float : Float) :
    (Layout.document.writeShortest float).filter CodePoint.isForeign = [] := by
  rw [Layout.writeShortest, Layout.writeFloat]
  split
  next => decide
  next negative _ => cases negative <;> decide
  next negative magnitude _ =>
    obtain ⟨number, hvalid, htext, -⟩ :=
      WrittenNumber.exists_write (Decimal.shortest negative magnitude)
    rw [htext, WrittenNumber.filter_text hvalid]

namespace Document

mutual

/-- The strings of a document and the names of its members. -/
def texts : Document → List Text
  | .string text => [text]
  | .array items => itemTexts items
  | .object members => memberTexts members
  | _ => []

/-- The strings and names in some items. -/
def itemTexts : List Document → List Text
  | [] => []
  | item :: items => item.texts ++ itemTexts items

/-- The names of some members, and the strings and names in their values. -/
def memberTexts : List (Text × Document) → List Text
  | [] => []
  | (name, value) :: members => name :: value.texts ++ memberTexts members

end

/-- A document of which every string and every name has an encoded form. -/
def Encodable (document : Document) : Prop :=
  ∀ text ∈ document.texts, text.Encodable

instance (document : Document) : Decidable document.Encodable :=
  inferInstanceAs (Decidable (∀ text ∈ document.texts, text.Encodable))

/-- A document at a depth of a file. -/
def inFile (depth : ℕ) (document : Document) : Text :=
  (document.pieces Style.file depth).flatten

/-- Items after the first one at a depth of a file. -/
def itemsInFile (depth : ℕ) (items : List Document) : Text :=
  (itemPieces Style.file depth items).flatten

/-- Members after the first one at a depth of a file. -/
def membersInFile (depth : ℕ) (members : List (Text × Document)) : Text :=
  (memberPieces Style.file depth members).flatten

theorem flatten_lead (text : Text) (value : Document) (pieces : List Text) :
    (lead text value pieces).flatten = text ++ pieces.flatten := by
  cases pieces with
  | nil => simp [lead]
  | cons first rest =>
      rw [lead]
      split <;> simp

/-- The line feed and the indentation before a line at a depth. -/
theorem newline_file (depth : ℕ) :
    Style.file.newline depth =
      CodePoint.ofChar '\n' :: List.replicate (2 * depth) (CodePoint.ofChar ' ') := rfl

variable {depth : ℕ} {name : Text} {value item : Document} {items : List Document}
  {members : List (Text × Document)}

theorem inFile_integer (value : ℤ) : inFile depth (.integer value) = Text.ofInt value :=
  List.append_nil _

theorem inFile_number (value : Float) :
    inFile depth (.number value) = Layout.document.writeShortest value :=
  List.append_nil _

theorem inFile_string (text : Text) : inFile depth (.string text) = stringText Style.file text :=
  List.append_nil _

theorem inFile_array_nil : inFile depth (.array []) = "[]" :=
  List.append_nil _

theorem inFile_array_cons :
    inFile depth (.array (item :: items)) =
      CodePoint.ofChar '[' :: (Style.file.newline (depth + 1) ++ (inFile (depth + 1) item ++
        (itemsInFile (depth + 1) items ++
          (Style.file.newline depth ++ [CodePoint.ofChar ']'])))) := by
  rw [inFile, pieces]
  simp only [List.flatten_append, flatten_lead, List.append_assoc]
  rfl

theorem itemsInFile_cons :
    itemsInFile depth (item :: items) =
      CodePoint.ofChar ',' :: (Style.file.newline depth ++ (inFile depth item ++
        itemsInFile depth items)) := by
  rw [itemsInFile, itemPieces]
  simp only [List.flatten_append, flatten_lead, List.append_assoc]
  rfl

theorem inFile_object_nil : inFile depth (.object []) = "\x7b\x7d" :=
  List.append_nil _

theorem inFile_object_cons :
    inFile depth (.object ((name, value) :: members)) =
      CodePoint.ofChar '\x7b' :: (Style.file.newline (depth + 1) ++ (stringText Style.file name ++
        (CodePoint.ofChar ':' :: CodePoint.ofChar ' ' :: (inFile (depth + 1) value ++
          (membersInFile (depth + 1) members ++
            (Style.file.newline depth ++ [CodePoint.ofChar '\x7d'])))))) := by
  rw [inFile, pieces]
  simp only [List.cons_append, List.flatten_cons, List.flatten_append, List.append_assoc]
  rfl

theorem membersInFile_cons :
    membersInFile depth ((name, value) :: members) =
      CodePoint.ofChar ',' :: (Style.file.newline depth ++ (stringText Style.file name ++
        (CodePoint.ofChar ':' :: CodePoint.ofChar ' ' :: (inFile depth value ++
          membersInFile depth members)))) := by
  rw [membersInFile, memberPieces]
  simp only [List.cons_append, List.flatten_cons, List.flatten_append, List.append_assoc]
  rfl

@[simp] theorem filter_newline (depth : ℕ) :
    (Style.file.newline depth).filter CodePoint.isForeign = [] := by
  rw [newline_file, List.filter_cons_of_neg (by decide), List.filter_replicate_of_neg (by decide)]

@[simp] theorem filter_stringText (text : Text) :
    (stringText Style.file text).filter CodePoint.isForeign =
      (text.flatMap (escape Style.file)).filter CodePoint.isForeign := by
  rw [stringText, List.filter_append, List.filter_append]
  simp only [show (Text.ofString "\"").filter CodePoint.isForeign = [] by decide, List.nil_append,
    List.append_nil]

/-- The marks between the values of a document belong to the basic alphabet. -/
theorem isForeign_marks :
    (CodePoint.ofChar ',').isForeign = false ∧ (CodePoint.ofChar ':').isForeign = false ∧
      (CodePoint.ofChar ' ').isForeign = false ∧ (CodePoint.ofChar '[').isForeign = false ∧
      (CodePoint.ofChar ']').isForeign = false ∧ (CodePoint.ofChar '\x7b').isForeign = false ∧
      (CodePoint.ofChar '\x7d').isForeign = false := by decide

mutual

/-- Beyond the basic alphabet and line feeds, a file consists of the strings of its document. -/
theorem filter_inFile (depth : ℕ) :
    ∀ document : Document, (inFile depth document).filter CodePoint.isForeign =
      (document.texts.flatMap (·.flatMap (escape Style.file))).filter CodePoint.isForeign
  | .null => by rfl
  | .bool value => by cases value <;> rfl
  | .integer value => by
      rw [inFile_integer, ← WrittenNumber.text_integer,
        WrittenNumber.filter_text (WrittenNumber.valid_integer value)]
      rfl
  | .number value => by
      rw [inFile_number, Layout.filter_writeShortest]
      rfl
  | .string text => by
      rw [inFile_string, filter_stringText, texts, List.flatMap_singleton]
  | .array [] => by rfl
  | .array (item :: items) => by
      rw [inFile_array_cons, texts, itemTexts]
      simp only [List.filter_append, List.filter_cons, List.filter_nil, isForeign_marks,
        filter_newline, filter_inFile (depth + 1) item, filter_itemsInFile (depth + 1) items,
        Bool.false_eq_true, if_false, List.flatMap_append, List.nil_append, List.append_nil]
  | .object [] => by rfl
  | .object ((name, value) :: members) => by
      rw [inFile_object_cons, texts, memberTexts]
      simp only [List.filter_append, List.filter_cons, List.filter_nil, isForeign_marks,
        filter_newline, filter_stringText, filter_inFile (depth + 1) value,
        filter_membersInFile (depth + 1) members, Bool.false_eq_true, if_false,
        List.flatMap_append, List.flatMap_cons, List.nil_append, List.append_nil,
        List.append_assoc]

theorem filter_itemsInFile (depth : ℕ) :
    ∀ items : List Document, (itemsInFile depth items).filter CodePoint.isForeign =
      ((itemTexts items).flatMap (·.flatMap (escape Style.file))).filter CodePoint.isForeign
  | [] => by rfl
  | item :: items => by
      rw [itemsInFile_cons, itemTexts]
      simp only [List.filter_append, List.filter_cons, isForeign_marks, filter_newline,
        filter_inFile depth item, filter_itemsInFile depth items, Bool.false_eq_true, if_false,
        List.flatMap_append, List.nil_append]

theorem filter_membersInFile (depth : ℕ) :
    ∀ members : List (Text × Document), (membersInFile depth members).filter CodePoint.isForeign =
      ((memberTexts members).flatMap (·.flatMap (escape Style.file))).filter CodePoint.isForeign
  | [] => by rfl
  | (name, value) :: members => by
      rw [membersInFile_cons, memberTexts]
      simp only [List.filter_append, List.filter_cons, isForeign_marks, filter_newline,
        filter_stringText, filter_inFile depth value, filter_membersInFile depth members,
        Bool.false_eq_true, if_false, List.flatMap_append, List.flatMap_cons, List.nil_append,
        List.append_assoc]

end

/-- A foreign code point stands in a file only if it stands in a string. -/
theorem mem_inFile {point : CodePoint} (hpoint : point.isForeign = true) :
    point ∈ inFile depth value ↔
      ∃ text ∈ value.texts, point ∈ text.flatMap (escape Style.file) := by
  have hiff : ∀ text : Text, point ∈ text ↔ point ∈ text.filter CodePoint.isForeign :=
    fun text => (List.mem_filter.trans (and_iff_left hpoint)).symm
  rw [hiff, filter_inFile, ← hiff, List.mem_flatMap]

/-- A code point in a string is left as it is unless its escape stays in the basic alphabet;
carriage returns are escaped and surrogates are not. -/
theorem escape_cases (point : CodePoint) :
    escape Style.file point = [point] ∧ point ≠ CodePoint.ofChar '\r' ∨
      (escape Style.file point).filter CodePoint.isForeign = [] ∧ point.isSurrogate = false := by
  -- Seven code points have an escape of one letter; the others are escaped by number or not at all.
  unfold escape
  split
  next hpoint => exact Or.inr ⟨by decide, by rw [hpoint]; decide⟩
  split
  next hpoint => exact Or.inr ⟨by decide, by rw [hpoint]; decide⟩
  split
  next hpoint => exact Or.inr ⟨by decide, by rw [hpoint]; decide⟩
  split
  next hpoint => exact Or.inr ⟨by decide, by rw [hpoint]; decide⟩
  next hreturn =>
    split
    next hpoint => exact Or.inr ⟨by decide, by rw [hpoint]; decide⟩
    split
    next hpoint => exact Or.inr ⟨by decide, by rw [hpoint]; decide⟩
    split
    next hpoint => exact Or.inr ⟨by decide, by rw [hpoint]; decide⟩
    split
    next hcontrol =>
      have hall : ∀ value < 0x20, (Text.ofString "\\u" ++ Text.ofHex 4 value).filter
          CodePoint.isForeign = [] := by decide
      refine Or.inr ⟨?_, ?_⟩
      · rw [numberEscape, if_pos (by omega)]
        exact hall _ hcontrol
      · rw [CodePoint.isSurrogate, Bool.and_eq_false_iff, decide_eq_false_iff_not]
        omega
    next => exact Or.inl ⟨if_pos (Or.inl rfl), hreturn⟩

/-- No carriage return stands in a file. -/
theorem return_notMem_inFile (depth : ℕ) (document : Document) :
    CodePoint.ofChar '\r' ∉ inFile depth document := by
  rw [mem_inFile (by decide)]
  rintro ⟨text, -, hmem⟩
  obtain ⟨point, -, hpoint⟩ := List.mem_flatMap.mp hmem
  rcases escape_cases point with ⟨hescape, hne⟩ | ⟨hplain, -⟩
  · rw [hescape, List.mem_singleton] at hpoint
    exact hne hpoint.symm
  · exact List.filter_eq_nil_iff.mp hplain _ hpoint (by decide)

/-- A document has an encoded form in a file exactly if its strings have one. -/
theorem encodable_inFile (depth : ℕ) (document : Document) :
    (inFile depth document).Encodable ↔ document.Encodable := by
  -- No escape has a surrogate, and no surrogate has an escape.
  have hescape : ∀ {point escaped : CodePoint}, point.isSurrogate = true →
      (point ∈ escape Style.file escaped ↔ point = escaped) := by
    intro point escaped hpoint
    rcases escape_cases escaped with ⟨hescape, -⟩ | ⟨hplain, hnot⟩
    · rw [hescape, List.mem_singleton]
    · refine ⟨fun hmem => ?_, fun heq => ?_⟩
      · exact absurd (CodePoint.isForeign_of_isSurrogate hpoint)
          (List.filter_eq_nil_iff.mp hplain _ hmem)
      · rw [heq, hnot] at hpoint
        exact absurd hpoint Bool.false_ne_true
  have hmem : ∀ {point : CodePoint}, point.isSurrogate = true →
      (point ∈ inFile depth document ↔ ∃ text ∈ document.texts, point ∈ text) := by
    intro point hpoint
    rw [mem_inFile (CodePoint.isForeign_of_isSurrogate hpoint)]
    simp only [List.mem_flatMap, hescape hpoint, exists_eq_right']
  simp only [Text.Encodable, Encodable]
  constructor
  · intro hfile text htext point hpoint
    apply Bool.eq_false_iff.mpr
    intro hsurrogate
    rw [hfile point ((hmem hsurrogate).mpr ⟨text, htext, hpoint⟩)] at hsurrogate
    exact Bool.false_ne_true hsurrogate
  · intro htexts point hpoint
    apply Bool.eq_false_iff.mpr
    intro hsurrogate
    obtain ⟨text, htext, hin⟩ := (hmem hsurrogate).mp hpoint
    rw [htexts text htext point hin] at hsurrogate
    exact Bool.false_ne_true hsurrogate

end Document

end Lindenmayer
