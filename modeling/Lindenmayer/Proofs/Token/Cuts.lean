import Lindenmayer.Proofs.Token.Beginnings

/-!
# Words cut in two

A cut through a word is safe if it goes through no group: every parenthesis before it is closed
before it, and it does not part a symbol from an opening parenthesis. Both parts of a word that is
cut safely are read as if they stood alone, and the first part is read first.
-/

namespace Lindenmayer

variable {word first second : Text} {parts others : List Piece}

/-- Every opening parenthesis has a closing one after it. -/
def Text.ClosesGroups (word : Text) : Prop :=
  ∀ before after, word = before ++ CodePoint.ofChar '(' :: after → CodePoint.ofChar ')' ∈ after

theorem closesGroup_iff {after : Text} :
    ClosesGroup (fun _ => False) after ↔ CodePoint.ofChar ')' ∈ after := by
  constructor
  · rintro ⟨content, rest, rfl, -⟩
    exact List.mem_append_right _ List.mem_cons_self
  · intro hclosing
    obtain ⟨content, rest, rfl, hfree⟩ := List.eq_append_cons_of_mem hclosing
    exact ⟨content, rest, rfl, hfree, fun _ _ => id⟩

namespace Text

theorem closesGroups_iff : word.ClosesGroups ↔ ShieldsGroups (fun _ => False) word :=
  forall₃_congr fun _ _ _ => closesGroup_iff.symm

theorem closesGroups_nil : ClosesGroups [] :=
  closesGroups_iff.mpr (shieldsGroups_of_notMem List.not_mem_nil)

theorem closesGroups_cons {point : CodePoint} {rest : Text} :
    ClosesGroups (point :: rest) ↔
      (point = CodePoint.ofChar '(' → CodePoint.ofChar ')' ∈ rest) ∧ ClosesGroups rest := by
  rw [closesGroups_iff, shieldsGroups_cons, closesGroup_iff, closesGroups_iff]

instance : ∀ word : Text, Decidable word.ClosesGroups
  | [] => isTrue closesGroups_nil
  | _ :: rest =>
      have := instDecidableClosesGroups rest
      decidable_of_iff _ closesGroups_cons.symm

end Text

/-- The second part starts with no parenthesis, or the first one ends with no symbol. -/
def PartsNoGroup (first second : Text) : Prop :=
  second.head? ≠ some (CodePoint.ofChar '(') ∨
    ∀ symbol, first.getLast? = some symbol → symbol.isSymbol = false

theorem PartsNoGroup.of_append {before : Text} (hcut : PartsNoGroup (before ++ first) second) :
    PartsNoGroup first second := by
  refine hcut.imp_right fun hlast symbol hsymbol => hlast symbol ?_
  rw [List.getLast?_append, hsymbol]
  rfl

theorem PartsNoGroup.of_cons {point : CodePoint} (hcut : PartsNoGroup (point :: first) second) :
    PartsNoGroup first second :=
  @of_append first second [point] hcut

/-- Pieces on both sides of a safe cut are pieces of the whole word. -/
theorem Splits.append (hfirst : Splits first parts) (hclosed : first.ClosesGroups)
    (hcut : PartsNoGroup first second) (hsecond : Splits second others) :
    Splits (first ++ second) (parts ++ others) := by
  induction hfirst with
  | nil => exact hsecond
  | skipped hpoint _ ih =>
      exact .skipped hpoint (ih (Text.closesGroups_cons.mp hclosed).2 hcut.of_cons)
  | @bare symbol rest parts hsymbol halone hrest ih =>
      have hlater := (Text.closesGroups_cons.mp hclosed).2
      refine .bare hsymbol ?_ (ih hlater hcut.of_cons)
      rcases halone.append second with hsame | rfl | ⟨after, rfl, hopen⟩
      · exact hsame
      · -- The symbol stands right before the cut.
        refine hcut.elim .inl fun hlast => ?_
        rw [hlast symbol rfl] at hsymbol
        exact nomatch hsymbol
      · exact absurd ((Text.closesGroups_cons.mp hlater).1 rfl) hopen
  | @group symbol content rest parts hsymbol hne hfree _ ih =>
      have hgroup := (Text.closesGroups_cons.mp hclosed).2
      rw [Text.closesGroups_iff] at hgroup
      have hafter := @ShieldsGroups.of_append _ (CodePoint.ofChar '(' :: content) _ hgroup
      have hlater := Text.closesGroups_iff.mpr (shieldsGroups_cons.mp hafter).2
      have hgroupCut := @PartsNoGroup.of_append (CodePoint.ofChar ')' :: rest) second
        (symbol :: CodePoint.ofChar '(' :: content) (by simpa using hcut)
      simp only [List.cons_append, List.append_assoc]
      exact .group hsymbol hne hfree (ih hlater hgroupCut.of_cons)

theorem pieces_append (hclosed : first.ClosesGroups) (hcut : PartsNoGroup first second) :
    pieces (first ++ second) = pieces first ++ pieces second :=
  ((splits_pieces first).append hclosed hcut (splits_pieces second)).eq_pieces.symm

/-- Pieces are read one after the other. -/
theorem ofPieces_append (parts others : List Piece) :
    Token.ofPieces (parts ++ others) =
      (Token.ofPieces parts).bind fun before => (Token.ofPieces others).map (before ++ ·) := by
  induction parts with
  | nil =>
      change Token.ofPieces others = (Token.ofPieces others).map fun after => [] ++ after
      cases Token.ofPieces others <;> rfl
  | cons piece parts ih =>
      cases piece with
      | skipped point => exact ih
      | bare symbol =>
          rw [List.cons_append, Token.ofPieces, Token.ofPieces, ih]
          cases Token.ofPieces parts with
          | error fault => rfl
          | ok before => cases Token.ofPieces others <;> rfl
      | group symbol content =>
          rw [List.cons_append, Token.ofPieces, Token.ofPieces, ih]
          cases readParameter content with
          | error fault => rfl
          | ok parameter =>
              cases Token.ofPieces parts with
              | error fault => rfl
              | ok before => cases Token.ofPieces others <;> rfl

theorem tokenize_append (hclosed : first.ClosesGroups) (hcut : PartsNoGroup first second) :
    tokenize (first ++ second) = do
      let before ← tokenize first
      let after ← tokenize second
      return before ++ after := by
  rw [tokenize, pieces_append hclosed hcut, ofPieces_append]
  change (tokenize first).bind (fun before => (tokenize second).map (before ++ ·)) = _
  cases tokenize first with
  | error fault => rfl
  | ok before => cases tokenize second <;> rfl

/-- What it means that two parts of a word are read apart from each other. -/
structure ReadApart (first second : Text) : Prop where
  /-- The tokens of the word are those of its parts. -/
  tokens : tokenize (first ++ second) = do
    let before ← tokenize first
    let after ← tokenize second
    return before ++ after
  /-- The word cannot be read exactly if one of its parts cannot. -/
  unreadable : (∃ fault, tokenize (first ++ second) = .error fault) ↔
    (∃ fault, tokenize first = .error fault) ∨ ∃ fault, tokenize second = .error fault
  /-- What cannot be read of the first part is reported first. -/
  fault : ∀ fault, tokenize (first ++ second) = .error fault ↔
    tokenize first = .error fault ∨
      ∃ before, tokenize first = .ok before ∧ tokenize second = .error fault
  /-- The first tokens of the word are those of its first part. -/
  beginning : ∀ tokens, tokenize (first ++ second) = .ok tokens →
    ∃ before, tokenize first = .ok before ∧ before <+: tokens

/-- The parts of a word that is cut safely are read apart from each other. -/
theorem safe_cut_read_apart
    (hclosed : ∀ before after, first = before ++ CodePoint.ofChar '(' :: after →
      CodePoint.ofChar ')' ∈ after)
    (hcut : second.head? ≠ some (CodePoint.ofChar '(') ∨
      ∀ symbol, first.getLast? = some symbol → symbol.isSymbol = false) :
    ReadApart first second := by
  have htokens := tokenize_append hclosed hcut
  have hfault : ∀ fault, tokenize (first ++ second) = .error fault ↔
      tokenize first = .error fault ∨
        ∃ before, tokenize first = .ok before ∧ tokenize second = .error fault := by
    intro fault
    rw [htokens]
    simp only [Except.bind_eq_error, Except.pure_ne_error, and_false, exists_false, or_false]
  refine ⟨htokens, ?_, hfault, fun tokens hok => ?_⟩
  · simp only [hfault]
    cases tokenize first <;> simp
  · rw [htokens] at hok
    obtain ⟨before, hbefore, hrest⟩ := Except.bind_eq_ok.mp hok
    obtain ⟨after, -, htogether⟩ := Except.bind_eq_ok.mp hrest
    rw [Except.pure_eq_ok] at htogether
    exact ⟨before, hbefore, after, htogether⟩

/-- A group, an empty and an unreadable one in front of a parenthesis that belongs to no symbol. -/
theorem groups_read_apart : ReadApart "A(1)B()F(x)" "(2)C" :=
  safe_cut_read_apart (by decide : Text.ClosesGroups _) (.inr (by decide))

end Lindenmayer
