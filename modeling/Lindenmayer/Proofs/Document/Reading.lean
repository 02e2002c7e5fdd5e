import Lindenmayer.Proofs.Document.Printed
import Lindenmayer.Proofs.Outcome

/-!
# Reading printed documents

The reader gets every document back from its text in a file, whatever follows it, if whole numbers
keep the limit of digits, the members of each object have different names, and there is room for the
containers that stand inside each other. A value of a file is followed by a comma or a line feed,
which ends it, and two units of fuel a code point suffice.
-/

namespace Lindenmayer.Document

/-- Documents that a text can stand for: their whole numbers keep the limit of digits, and no object
has two members of one name. -/
inductive Regular : Document → Prop where
  | null : Regular .null
  | bool (value : Bool) : Regular (.bool value)
  | integer {value : ℤ} (hvalue : value.natAbs < 10 ^ integerDigitLimit) : Regular (.integer value)
  | number (value : Float) : Regular (.number value)
  | string (text : Text) : Regular (.string text)
  | array {items : List Document} (hitems : ∀ item ∈ items, Regular item) : Regular (.array items)
  | object {members : List (Text × Document)} (hnames : (members.map Prod.fst).Nodup)
      (hvalues : ∀ member ∈ members, Regular member.2) : Regular (.object members)

theorem Regular.small {value : ℤ} (hvalue : value.natAbs < 10 ^ 2) :
    (Document.integer value).Regular :=
  .integer (hvalue.trans_le (pow_le_pow_right₀ (by decide) (by decide)))

mutual

/-- How many arrays and objects of a document stand inside each other. -/
def nesting : Document → ℕ
  | .array items => itemNesting items + 1
  | .object members => memberNesting members + 1
  | _ => 0

/-- The greatest nesting of some items. -/
def itemNesting : List Document → ℕ
  | [] => 0
  | item :: items => max item.nesting (itemNesting items)

/-- The greatest nesting of the values of some members. -/
def memberNesting : List (Text × Document) → ℕ
  | [] => 0
  | (_, value) :: members => max value.nesting (memberNesting members)

end

theorem itemNesting_le {room : ℕ} {items : List Document} :
    itemNesting items ≤ room ↔ ∀ item ∈ items, item.nesting ≤ room := by
  induction items with
  | nil => exact iff_of_true (Nat.zero_le room) nofun
  | cons item items ih => rw [itemNesting, max_le_iff, ih, List.forall_mem_cons]

theorem memberNesting_le {room : ℕ} {members : List (Text × Document)} :
    memberNesting members ≤ room ↔ ∀ member ∈ members, member.2.nesting ≤ room := by
  induction members with
  | nil => exact iff_of_true (Nat.zero_le room) nofun
  | cons member members ih => rw [memberNesting, max_le_iff, ih, List.forall_mem_cons]

theorem nesting_array_le {room : ℕ} {items : List Document} :
    (array items).nesting ≤ room + 1 ↔ ∀ item ∈ items, item.nesting ≤ room := by
  rw [nesting, Nat.succ_le_succ_iff, itemNesting_le]

theorem nesting_object_le {room : ℕ} {members : List (Text × Document)} :
    (object members).nesting ≤ room + 1 ↔ ∀ member ∈ members, member.2.nesting ≤ room := by
  rw [nesting, Nat.succ_le_succ_iff, memberNesting_le]

/-- A text that ends the value before it: nothing, or a comma or a line feed first. -/
def EndsValue (rest : Text) : Prop :=
  ∀ point ∈ rest.head?, point = CodePoint.ofChar ',' ∨ point = CodePoint.ofChar '\n'

/-- How the text of a value may start. -/
def StartsValue (first : CodePoint) : Prop :=
  isSpace first = false ∧ first ≠ CodePoint.ofChar ']' ∧ first ≠ CodePoint.ofChar '\uFEFF'

instance (first : CodePoint) : Decidable (StartsValue first) :=
  inferInstanceAs (Decidable (_ ∧ _ ∧ _))

/-- How the text of a word or a number may start. -/
def StartsWord (first : CodePoint) : Prop :=
  StartsValue first ∧ first ≠ CodePoint.ofChar '"' ∧ first ≠ CodePoint.ofChar '[' ∧
    first ≠ CodePoint.ofChar '\x7b'

instance (first : CodePoint) : Decidable (StartsWord first) :=
  inferInstanceAs (Decidable (_ ∧ _ ∧ _ ∧ _))

variable {room depth fuel : ℕ} {rest closing : Text} {first : CodePoint}

theorem EndsValue.endsNumber (hends : EndsValue rest) : EndsNumber rest := by
  intro point hpoint
  rcases hends point hpoint with rfl | rfl <;> decide

theorem put_of_notMem {members : List (Text × Document)} {name : Text} (value : Document)
    (hname : name ∉ members.map Prod.fst) :
    put members name value = members ++ [(name, value)] := by
  induction members with
  | nil => rfl
  | cons member members ih =>
      obtain ⟨known, old⟩ := member
      rw [List.map_cons, List.mem_cons, not_or] at hname
      rw [put, if_neg (Ne.symm hname.1), ih hname.2]
      rfl

/-- Members with different names are kept as they are. -/
theorem ofMembers_of_nodup {members : List (Text × Document)}
    (hnames : (members.map Prod.fst).Nodup) : ofMembers members = .object members := by
  have hfold : ∀ known : List (Text × Document), ((known ++ members).map Prod.fst).Nodup →
      members.foldl (fun object member => put object member.1 member.2) known =
        known ++ members := by
    clear hnames
    induction members with
    | nil => exact fun known _ => (List.append_nil known).symm
    | cons member members ih =>
        intro known hnodup
        have hnotMem : member.1 ∉ known.map Prod.fst := by
          rw [List.map_append, List.map_cons] at hnodup
          exact fun hmem => (List.nodup_append.mp hnodup).2.2 _ hmem _ List.mem_cons_self rfl
        rw [List.foldl_cons, put_of_notMem member.2 hnotMem, ih, List.append_assoc]
        · rfl
        · rwa [List.append_assoc]
  rw [ofMembers, hfold [] hnames]
  rfl

theorem skipSpace_newline (depth : ℕ) (text : Text) :
    skipSpace (Style.file.newline depth ++ text) = skipSpace text := by
  rw [newline_file, List.cons_append, skipSpace, List.dropWhile_cons_of_pos (by decide)]
  generalize 2 * depth = count
  induction count with
  | zero => rfl
  | succ count ih =>
      rw [List.replicate_succ, List.cons_append, List.dropWhile_cons_of_pos (by decide), ih]

theorem skipSpace_of_startsValue (hfirst : StartsValue first) (text : Text) :
    skipSpace (first :: text) = first :: text :=
  List.dropWhile_cons_of_neg (by rw [hfirst.1]; exact Bool.false_ne_true)

/-- A written number starts as words and numbers do. -/
theorem exists_head_text {number : WrittenNumber} (hvalid : number.Valid) :
    ∃ first others, number.text = first :: others ∧ StartsWord first := by
  obtain ⟨negative, whole, fraction, exponent⟩ := number
  obtain ⟨digit, others, rfl⟩ := List.exists_cons_of_ne_nil hvalid.whole_ne_nil
  have hall : ∀ digit < 10, StartsWord (digitPoint digit) := by decide
  cases negative with
  | true => exact ⟨CodePoint.ofChar '-', _, rfl, by decide⟩
  | false =>
      exact ⟨digitPoint digit, _, rfl, hall digit (hvalid.whole_lt digit List.mem_cons_self)⟩

theorem exists_head_writeShortest (float : Float) :
    ∃ first others, Layout.document.writeShortest float = first :: others ∧ StartsWord first := by
  rw [Layout.writeShortest, Layout.writeFloat]
  split
  next => exact ⟨CodePoint.ofChar 'N', _, rfl, by decide⟩
  next negative _ =>
    cases negative with
    | true => exact ⟨CodePoint.ofChar '-', _, rfl, by decide⟩
    | false => exact ⟨CodePoint.ofChar 'I', _, rfl, by decide⟩
  next negative magnitude _ =>
    obtain ⟨number, hvalid, htext, -⟩ :=
      WrittenNumber.exists_write (Decimal.shortest negative magnitude)
    rw [htext]
    exact exists_head_text hvalid

/-- A value in a file starts with neither a blank nor the end of an array. -/
theorem exists_head_inFile (depth : ℕ) (document : Document) :
    ∃ first others, inFile depth document = first :: others ∧ StartsValue first := by
  match document with
  | .null => exact ⟨CodePoint.ofChar 'n', _, rfl, by decide⟩
  | .bool true => exact ⟨CodePoint.ofChar 't', _, rfl, by decide⟩
  | .bool false => exact ⟨CodePoint.ofChar 'f', _, rfl, by decide⟩
  | .integer value =>
      rw [inFile_integer, ← WrittenNumber.text_integer]
      obtain ⟨first, others, htext, hfirst⟩ :=
        exists_head_text (WrittenNumber.valid_integer value)
      exact ⟨first, others, htext, hfirst.1⟩
  | .number value =>
      rw [inFile_number]
      obtain ⟨first, others, htext, hfirst⟩ := exists_head_writeShortest value
      exact ⟨first, others, htext, hfirst.1⟩
  | .string text => exact ⟨CodePoint.ofChar '"', _, inFile_string text, by decide⟩
  | .array [] => exact ⟨CodePoint.ofChar '[', _, inFile_array_nil, by decide⟩
  | .array (item :: items) => exact ⟨CodePoint.ofChar '[', _, inFile_array_cons, by decide⟩
  | .object [] => exact ⟨CodePoint.ofChar '\x7b', _, inFile_object_nil, by decide⟩
  | .object ((name, value) :: members) =>
      exact ⟨CodePoint.ofChar '\x7b', _, inFile_object_cons, by decide⟩

theorem skipSpace_inFile (depth : ℕ) (document : Document) (rest : Text) :
    skipSpace (inFile depth document ++ rest) = inFile depth document ++ rest := by
  obtain ⟨first, others, htext, hfirst⟩ := exists_head_inFile depth document
  rw [htext, List.cons_append, skipSpace_of_startsValue hfirst]

theorem skipSpace_stringText (text rest : Text) :
    skipSpace (stringText Style.file text ++ rest) = stringText Style.file text ++ rest := by
  rw [stringText_append]
  exact skipSpace_of_startsValue (by decide) _

theorem readValue_word (hfirst : StartsWord first) (text : Text) :
    readValue room (fuel + 1) (first :: text) = readWord words (first :: text) := by
  obtain ⟨-, hquote, harray, hobject⟩ := hfirst
  rw [readValue, if_neg hquote, if_neg harray, if_neg hobject]

theorem readValue_string {text : Text} (htext : text.Encodable) (rest : Text) :
    readValue room (fuel + 1) (stringText Style.file text ++ rest) = .ok (.string text, rest) := by
  rw [stringText_append, readValue, if_pos rfl, readString_flatMap htext]
  rfl

/-- A document is read back from its text at every depth of a file, with room for so many open
containers. -/
def ReadsBack (room : ℕ) (document : Document) : Prop :=
  ∀ depth fuel rest, EndsValue rest → 2 * (inFile depth document).length ≤ fuel →
    readValue room fuel (inFile depth document ++ rest) = .ok (document, rest)

theorem endsValue_newline (depth : ℕ) (rest : Text) :
    EndsValue (Style.file.newline depth ++ rest) := by
  rintro point ⟨⟩
  exact Or.inr rfl

theorem endsValue_itemsInFile (depth : ℕ) (items : List Document) (hclosing : EndsValue closing) :
    EndsValue (itemsInFile depth items ++ closing) := by
  cases items with
  | nil => exact hclosing
  | cons item items =>
      rw [itemsInFile_cons]
      rintro point ⟨⟩
      exact Or.inl rfl

theorem endsValue_membersInFile (depth : ℕ) (members : List (Text × Document))
    (hclosing : EndsValue closing) : EndsValue (membersInFile depth members ++ closing) := by
  cases members with
  | nil => exact hclosing
  | cons member members =>
      rw [membersInFile_cons]
      rintro point ⟨⟩
      exact Or.inl rfl

section Steps

variable {text after more : Text} {item value : Document} {items : List Document}
  {members : List (Text × Document)} {name inside afterName afterColon : Text}

theorem readItems_last (hitem : readValue room fuel text = .ok (item, after))
    (hend : skipSpace after = CodePoint.ofChar ']' :: rest) :
    readItems room (fuel + 1) text = .ok ([item], rest) := by
  rw [readItems, hitem, Except.ok_bind]
  dsimp only
  rw [hend]
  rfl

theorem readItems_next (hitem : readValue room fuel text = .ok (item, after))
    (hcomma : skipSpace after = CodePoint.ofChar ',' :: more)
    (hitems : readItems room fuel (skipSpace more) = .ok (items, rest)) :
    readItems room (fuel + 1) text = .ok (item :: items, rest) := by
  rw [readItems, hitem, Except.ok_bind]
  dsimp only
  rw [hcomma]
  dsimp only
  rw [if_neg (by decide), if_pos rfl, hitems]
  rfl

theorem readMembers_last
    (hname : readString (CodePoint.ofChar '"' :: inside) inside = .ok (name, afterName))
    (hcolon : skipSpace afterName = CodePoint.ofChar ':' :: afterColon)
    (hvalue : readValue room fuel (skipSpace afterColon) = .ok (value, after))
    (hend : skipSpace after = CodePoint.ofChar '\x7d' :: rest) :
    readMembers room (fuel + 1) (CodePoint.ofChar '"' :: inside) = .ok ([(name, value)], rest) := by
  rw [readMembers, if_neg (by simp), hname, Except.ok_bind]
  dsimp only
  rw [hcolon]
  dsimp only
  rw [if_neg (by simp), hvalue, Except.ok_bind]
  dsimp only
  rw [hend]
  rfl

theorem readMembers_next
    (hname : readString (CodePoint.ofChar '"' :: inside) inside = .ok (name, afterName))
    (hcolon : skipSpace afterName = CodePoint.ofChar ':' :: afterColon)
    (hvalue : readValue room fuel (skipSpace afterColon) = .ok (value, after))
    (hcomma : skipSpace after = CodePoint.ofChar ',' :: more)
    (hmembers : readMembers room fuel (skipSpace more) = .ok (members, rest)) :
    readMembers room (fuel + 1) (CodePoint.ofChar '"' :: inside) =
      .ok ((name, value) :: members, rest) := by
  rw [readMembers, if_neg (by simp), hname, Except.ok_bind]
  dsimp only
  rw [hcolon]
  dsimp only
  rw [if_neg (by simp), hvalue, Except.ok_bind]
  dsimp only
  rw [hcomma]
  dsimp only
  rw [if_neg (by decide), if_pos rfl, hmembers]
  rfl

theorem readValue_array {others : Text} (hskip : skipSpace text = first :: others)
    (hfirst : first ≠ CodePoint.ofChar ']')
    (hitems : readItems room fuel (first :: others) = .ok (items, rest)) :
    readValue (room + 1) (fuel + 1) (CodePoint.ofChar '[' :: text) = .ok (.array items, rest) := by
  rw [readValue, if_neg (by decide), if_pos rfl, enter, hskip]
  dsimp only
  rw [if_neg hfirst, hitems]
  rfl

theorem readValue_object {others : Text} (hskip : skipSpace text = first :: others)
    (hfirst : first ≠ CodePoint.ofChar '\x7d')
    (hmembers : readMembers room fuel (first :: others) = .ok (members, rest)) :
    readValue (room + 1) (fuel + 1) (CodePoint.ofChar '\x7b' :: text) =
      .ok (ofMembers members, rest) := by
  rw [readValue, if_neg (by decide), if_neg (by decide), if_pos rfl, enter, hskip]
  dsimp only
  rw [if_neg hfirst, hmembers]
  rfl

end Steps

theorem readItems_inFile {item : Document} {items : List Document}
    (hitems : ∀ document ∈ item :: items, ReadsBack room document) (hclosing : EndsValue closing)
    (hend : skipSpace closing = CodePoint.ofChar ']' :: rest)
    (hfuel : 2 * ((inFile depth item).length + (itemsInFile depth items).length) < fuel) :
    readItems room fuel (inFile depth item ++ (itemsInFile depth items ++ closing)) =
      .ok (item :: items, rest) := by
  induction items generalizing item fuel with
  | nil =>
      obtain ⟨fuel, rfl⟩ := Nat.exists_eq_succ_of_ne_zero (Nat.ne_zero_of_lt hfuel)
      exact readItems_last (hitems item List.mem_cons_self depth fuel closing hclosing (by omega))
        hend
  | cons next items ih =>
      obtain ⟨fuel, rfl⟩ := Nat.exists_eq_succ_of_ne_zero (Nat.ne_zero_of_lt hfuel)
      have hitem := hitems item List.mem_cons_self depth fuel _
        (endsValue_itemsInFile depth (next :: items) hclosing) (by omega)
      -- The text of the item pays for the fuel that it takes to go on after the comma.
      rw [itemsInFile_cons, List.length_cons, List.length_append, List.length_append] at hfuel
      simp only [itemsInFile_cons, List.cons_append, List.append_assoc] at hitem ⊢
      apply readItems_next hitem rfl
      rw [skipSpace_newline, skipSpace_inFile]
      exact ih (fun document hmem => hitems document (List.mem_cons_of_mem _ hmem)) (by omega)

/-- The members of an object are read up to its end, if each value is read back. -/
theorem readMembers_inFile {name : Text} {value : Document} {members : List (Text × Document)}
    (hnames : ∀ member ∈ (name, value) :: members, member.1.Encodable)
    (hvalues : ∀ member ∈ (name, value) :: members, ReadsBack room member.2)
    (hclosing : EndsValue closing) (hend : skipSpace closing = CodePoint.ofChar '\x7d' :: rest)
    (hfuel : 2 * ((inFile depth value).length + (membersInFile depth members).length) < fuel) :
    readMembers room fuel (stringText Style.file name ++
      (CodePoint.ofChar ':' :: CodePoint.ofChar ' ' ::
        (inFile depth value ++ (membersInFile depth members ++ closing)))) =
      .ok ((name, value) :: members, rest) := by
  have hspace : ∀ (value : Document) (text : Text),
      skipSpace (CodePoint.ofChar ' ' :: (inFile depth value ++ text)) =
        inFile depth value ++ text := by
    intro value text
    rw [skipSpace, List.dropWhile_cons_of_pos (by decide)]
    exact skipSpace_inFile depth value text
  induction members generalizing name value fuel with
  | nil =>
      obtain ⟨fuel, rfl⟩ := Nat.exists_eq_succ_of_ne_zero (Nat.ne_zero_of_lt hfuel)
      have hvalue : ReadsBack room value := hvalues _ List.mem_cons_self
      rw [stringText_append]
      refine readMembers_last (readString_flatMap (hnames _ List.mem_cons_self) _ _) rfl ?_ hend
      rw [hspace]
      exact hvalue depth fuel closing hclosing (by omega)
  | cons next members ih =>
      obtain ⟨nextName, nextValue⟩ := next
      obtain ⟨fuel, rfl⟩ := Nat.exists_eq_succ_of_ne_zero (Nat.ne_zero_of_lt hfuel)
      have hvalue : ReadsBack room value := hvalues _ List.mem_cons_self
      have hread := hvalue depth fuel _
        (endsValue_membersInFile depth ((nextName, nextValue) :: members) hclosing) (by omega)
      rw [membersInFile_cons] at hfuel
      simp only [List.length_cons, List.length_append] at hfuel
      simp only [membersInFile_cons, List.cons_append, List.append_assoc] at hread ⊢
      rw [stringText_append]
      refine readMembers_next (readString_flatMap (hnames _ List.mem_cons_self) _ _) rfl
        (by rw [hspace]; exact hread) rfl ?_
      rw [skipSpace_newline, skipSpace_stringText]
      exact ih (fun member hmem => hnames member (List.mem_cons_of_mem _ hmem))
        (fun member hmem => hvalues member (List.mem_cons_of_mem _ hmem)) (by omega)

theorem encodable_string {text : Text} : (Document.string text).Encodable ↔ text.Encodable := by
  rw [Encodable, texts, List.forall_mem_singleton]

theorem encodable_array {items : List Document} :
    (Document.array items).Encodable ↔ ∀ item ∈ items, item.Encodable := by
  rw [Encodable, texts]
  induction items with
  | nil => simp [itemTexts]
  | cons item items ih =>
      rw [itemTexts, List.forall_mem_append, ih, List.forall_mem_cons, Encodable]

theorem encodable_object {members : List (Text × Document)} :
    (Document.object members).Encodable ↔
      ∀ member ∈ members, member.1.Encodable ∧ member.2.Encodable := by
  rw [Encodable, texts]
  induction members with
  | nil => simp [memberTexts]
  | cons member members ih =>
      obtain ⟨name, value⟩ := member
      rw [memberTexts, List.cons_append, List.forall_mem_cons, List.forall_mem_append, ih,
        List.forall_mem_cons, Encodable, and_assoc]

/-- A value takes some fuel, since its text is not empty. -/
theorem ReadsBack.of_succ {document : Document}
    (hsucc : ∀ depth fuel rest, EndsValue rest → 2 * (inFile depth document).length ≤ fuel + 1 →
      readValue room (fuel + 1) (inFile depth document ++ rest) = .ok (document, rest)) :
    document.ReadsBack room := by
  intro depth fuel rest hends hfuel
  obtain ⟨first, others, htext, -⟩ := exists_head_inFile depth document
  have hlength : (inFile depth document).length = others.length + 1 := by
    rw [htext, List.length_cons]
  obtain ⟨count, rfl⟩ := Nat.exists_eq_succ_of_ne_zero (show fuel ≠ 0 by omega)
  exact hsucc depth count rest hends hfuel

theorem readsBack_word {document : Document} {text : Text}
    (htext : ∀ depth, inFile depth document = text)
    (hhead : ∃ first others, text = first :: others ∧ StartsWord first)
    (hword : ∀ rest, EndsNumber rest → readWord words (text ++ rest) = .ok (document, rest)) :
    document.ReadsBack room := by
  refine .of_succ fun depth fuel rest hends _ => ?_
  obtain ⟨first, others, rfl, hfirst⟩ := hhead
  rw [htext, List.cons_append, readValue_word hfirst]
  exact hword rest hends.endsNumber

theorem readsBack_array {items : List Document} (hitems : ∀ item ∈ items, item.ReadsBack room) :
    (Document.array items).ReadsBack (room + 1) := by
  refine .of_succ fun depth fuel rest _ hfuel => ?_
  cases items with
  | nil => rfl
  | cons item items =>
      -- The first code point of the item tells that the array is not empty.
      obtain ⟨first, others, htext, hfirst⟩ := exists_head_inFile (depth + 1) item
      rw [inFile_array_cons] at hfuel ⊢
      simp only [List.length_cons, List.length_append] at hfuel
      simp only [List.cons_append, List.append_assoc]
      have hread := @readItems_inFile room (depth + 1) fuel rest
        (Style.file.newline depth ++ CodePoint.ofChar ']' :: rest) item items hitems
        (endsValue_newline _ _) (skipSpace_newline _ _) (by omega)
      have hskip := skipSpace_inFile (depth + 1) item (itemsInFile (depth + 1) items ++
        (Style.file.newline depth ++ CodePoint.ofChar ']' :: rest))
      rw [← skipSpace_newline (depth + 1)] at hskip
      rw [htext, List.cons_append] at hread hskip
      rw [htext, List.cons_append]
      exact readValue_array hskip hfirst.2.1 hread

theorem readsBack_object {members : List (Text × Document)}
    (hnodup : (members.map Prod.fst).Nodup) (hnames : ∀ member ∈ members, member.1.Encodable)
    (hvalues : ∀ member ∈ members, member.2.ReadsBack room) :
    (Document.object members).ReadsBack (room + 1) := by
  refine .of_succ fun depth fuel rest _ hfuel => ?_
  cases members with
  | nil => rfl
  | cons member members =>
      obtain ⟨name, value⟩ := member
      rw [inFile_object_cons] at hfuel ⊢
      simp only [List.length_cons, List.length_append] at hfuel
      simp only [List.cons_append, List.append_assoc]
      have hread := @readMembers_inFile room (depth + 1) fuel rest
        (Style.file.newline depth ++ CodePoint.ofChar '\x7d' :: rest) name value members hnames
        hvalues (endsValue_newline _ _) (skipSpace_newline _ _) (by omega)
      rw [← ofMembers_of_nodup hnodup]
      rw [stringText_append] at hread ⊢
      refine readValue_object ?_ (by decide) hread
      exact (skipSpace_newline _ _).trans (skipSpace_of_startsValue (by decide) _)

/-- Every document that a text can stand for is read back where there is room for it. -/
theorem Regular.readsBack {document : Document} (hregular : document.Regular)
    (hencodable : document.Encodable) (hroom : document.nesting ≤ room) :
    document.ReadsBack room := by
  induction hregular generalizing room with
  | null => exact .of_succ fun _ _ _ _ _ => rfl
  | bool value => exact .of_succ fun _ _ _ _ _ => by cases value <;> rfl
  | integer hvalue =>
      refine readsBack_word (fun _ => inFile_integer _) ?_ fun rest => readWord_ofInt hvalue
      rw [← WrittenNumber.text_integer]
      exact exists_head_text (WrittenNumber.valid_integer _)
  | number value =>
      exact readsBack_word (fun _ => inFile_number value) (exists_head_writeShortest value)
        fun rest => readWord_writeShortest value
  | string text =>
      refine .of_succ fun depth fuel rest _ _ => ?_
      rw [inFile_string]
      exact readValue_string (hencodable text List.mem_cons_self) rest
  | array hitems ih =>
      -- The array takes some of the room, and each item has the rest of it.
      rw [nesting] at hroom
      obtain ⟨room, rfl⟩ := Nat.exists_eq_succ_of_ne_zero (show room ≠ 0 by omega)
      refine readsBack_array fun item hmem => ?_
      exact ih item hmem (encodable_array.mp hencodable item hmem)
        (nesting_array_le.mp hroom item hmem)
  | object hnames hvalues ih =>
      rw [nesting] at hroom
      obtain ⟨room, rfl⟩ := Nat.exists_eq_succ_of_ne_zero (show room ≠ 0 by omega)
      rw [encodable_object] at hencodable
      refine readsBack_object hnames (fun member hmem => (hencodable member hmem).1)
        fun member hmem => ?_
      exact ih member hmem (hencodable member hmem).2
        (nesting_object_le.mp hroom member hmem)

end Lindenmayer.Document
