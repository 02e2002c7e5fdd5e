import Lindenmayer.Proofs.Outcome
import Lindenmayer.Proofs.Token.Splitting
import Lindenmayer.Token.Basic
import Mathlib.Data.List.Forall2

/-!
# Tokens of a word

The tokens of a word come one for one from its pieces that are not skipped. A word cannot be read
exactly if the parameter of one of its groups cannot, and the first such group says why.
-/

namespace Lindenmayer

/-- Whether a piece gives no token. -/
def Piece.isSkipped : Piece → Bool
  | .skipped _ => true
  | .bare _ | .group _ _ => false

/-- The token that a piece gives. -/
inductive Piece.Gives : Piece → Token → Prop where
  | bare (symbol : CodePoint) : Gives (.bare symbol) ⟨[symbol], none⟩
  | group (symbol : CodePoint) {content : Text} {parameter : Option Float}
      (hcontent : readParameter content = .ok parameter) :
      Gives (.group symbol content) ⟨[symbol], parameter⟩

/-- Whether a piece is a group whose parameter cannot be read, and why. -/
def Piece.Fails (piece : Piece) (fault : Fault) : Prop :=
  ∃ symbol content, piece = .group symbol content ∧ readParameter content = .error fault

theorem Piece.bare_gives_iff {symbol : CodePoint} {token : Token} :
    (Piece.bare symbol).Gives token ↔ token = ⟨[symbol], none⟩ := by
  constructor
  · rintro ⟨⟩
    rfl
  · rintro rfl
    exact .bare symbol

theorem Piece.group_gives_iff {symbol : CodePoint} {content : Text} {token : Token} :
    (Piece.group symbol content).Gives token ↔
      ∃ parameter, readParameter content = .ok parameter ∧ token = ⟨[symbol], parameter⟩ := by
  constructor
  · rintro ⟨⟩
    next parameter hcontent => exact ⟨parameter, hcontent, rfl⟩
  · rintro ⟨parameter, hcontent, rfl⟩
    exact .group symbol hcontent

theorem ofPieces_eq_ok {parts : List Piece} {tokens : List Token} :
    Token.ofPieces parts = .ok tokens ↔
      List.Forall₂ Piece.Gives (parts.filter fun piece => !piece.isSkipped) tokens := by
  induction parts generalizing tokens with
  | nil => simp [Token.ofPieces, eq_comm]
  | cons piece parts ih =>
      cases piece with
      | skipped point => exact ih
      | bare symbol =>
          rw [Token.ofPieces, Except.map_eq_ok]
          simp only [Piece.isSkipped, List.filter_cons, Bool.not_false, if_true,
            List.forall₂_cons_left_iff, Piece.bare_gives_iff, ih]
          constructor
          · rintro ⟨rest, hrest, rfl⟩
            exact ⟨_, rest, rfl, hrest, rfl⟩
          · rintro ⟨_, rest, rfl, hrest, rfl⟩
            exact ⟨rest, hrest, rfl⟩
      | group symbol content =>
          simp only [Piece.isSkipped, List.filter_cons, Bool.not_false, if_true,
            List.forall₂_cons_left_iff, Piece.group_gives_iff]
          rw [Token.ofPieces]
          cases hcontent : readParameter content with
          | error fault => simp
          | ok parameter =>
              simp only [Except.map_eq_ok, ih]
              constructor
              · rintro ⟨rest, hrest, rfl⟩
                exact ⟨_, rest, ⟨_, rfl, rfl⟩, hrest, rfl⟩
              · rintro ⟨_, rest, ⟨_, ⟨⟩, rfl⟩, hrest, rfl⟩
                exact ⟨rest, hrest, rfl⟩

theorem Piece.Fails.unique {piece : Piece} {fault other : Fault} (hfault : piece.Fails fault)
    (hother : piece.Fails other) : fault = other := by
  obtain ⟨symbol, content, rfl, hcontent⟩ := hfault
  obtain ⟨_, _, ⟨⟩, hread⟩ := hother
  exact Except.error.inj (hcontent.symm.trans hread)

/-- Whether a fault is that of the first piece whose parameter cannot be read. -/
def FirstFails (parts : List Piece) (fault : Fault) : Prop :=
  ∃ before piece after, parts = before ++ piece :: after ∧ piece.Fails fault ∧
    ∀ earlier ∈ before, ∀ other, ¬ earlier.Fails other

theorem firstFails_cons_of_fails {piece : Piece} {fault : Fault} (hpiece : piece.Fails fault)
    {parts : List Piece} {other : Fault} : FirstFails (piece :: parts) other ↔ fault = other := by
  constructor
  · rintro ⟨_ | ⟨first, before⟩, next, after, hparts, hnext, hbefore⟩
    · obtain ⟨rfl, -⟩ := List.cons.inj hparts
      exact hpiece.unique hnext
    · obtain ⟨rfl, -⟩ := List.cons.inj hparts
      exact absurd hpiece (hbefore piece List.mem_cons_self fault)
  · rintro rfl
    exact ⟨[], piece, parts, rfl, hpiece, nofun⟩

theorem firstFails_cons_of_reads {piece : Piece} (hpiece : ∀ fault, ¬ piece.Fails fault)
    {parts : List Piece} {fault : Fault} :
    FirstFails (piece :: parts) fault ↔ FirstFails parts fault := by
  constructor
  · rintro ⟨_ | ⟨first, before⟩, next, after, hparts, hnext, hbefore⟩
    · obtain ⟨rfl, -⟩ := List.cons.inj hparts
      exact absurd hnext (hpiece fault)
    · obtain ⟨-, rfl⟩ := List.cons.inj hparts
      exact ⟨before, next, after, rfl, hnext, (List.forall_mem_cons.mp hbefore).2⟩
  · rintro ⟨before, next, after, rfl, hnext, hbefore⟩
    exact ⟨piece :: before, next, after, rfl, hnext, List.forall_mem_cons.mpr ⟨hpiece, hbefore⟩⟩

/-- Pieces cannot be read exactly if the parameter of one of them cannot, and the fault is that of
the first such piece. -/
theorem ofPieces_eq_error {parts : List Piece} {fault : Fault} :
    Token.ofPieces parts = .error fault ↔ FirstFails parts fault := by
  induction parts with
  | nil => simp [Token.ofPieces, FirstFails]
  | cons piece parts ih =>
      cases piece with
      | skipped point =>
          exact ih.trans (firstFails_cons_of_reads fun _ ⟨_, _, heq, _⟩ => nomatch heq).symm
      | bare symbol =>
          rw [Token.ofPieces, Except.map_eq_error, ih]
          exact (firstFails_cons_of_reads fun _ ⟨_, _, heq, _⟩ => nomatch heq).symm
      | group symbol content =>
          rw [Token.ofPieces]
          cases hcontent : readParameter content with
          | error first =>
              rw [firstFails_cons_of_fails ⟨symbol, content, rfl, hcontent⟩, Except.error.injEq]
          | ok parameter =>
              simp only [Except.map_eq_error]
              rw [ih, firstFails_cons_of_reads]
              rintro other ⟨_, _, ⟨⟩, hother⟩
              exact nomatch hcontent.symm.trans hother

theorem exists_firstFails_iff {parts : List Piece} :
    (∃ fault, FirstFails parts fault) ↔ ∃ piece ∈ parts, ∃ fault, piece.Fails fault := by
  constructor
  · rintro ⟨fault, before, piece, after, rfl, hpiece, -⟩
    exact ⟨piece, List.mem_append_right _ List.mem_cons_self, fault, hpiece⟩
  · rintro ⟨failing, hfailing, fault, hfault⟩
    induction parts with
    | nil => exact absurd hfailing List.not_mem_nil
    | cons piece parts ih =>
        by_cases hpiece : ∃ first, piece.Fails first
        · obtain ⟨first, hfirst⟩ := hpiece
          exact ⟨first, (firstFails_cons_of_fails hfirst).mpr rfl⟩
        · rw [not_exists] at hpiece
          have hlater : failing ∈ parts :=
            (List.mem_cons.mp hfailing).resolve_left fun heq => hpiece fault (heq ▸ hfault)
          simpa only [firstFails_cons_of_reads hpiece] using ih hlater

/-- Where a piece starts in the word that it comes from. -/
def Piece.StandsAt (parts : List Piece) (piece : Piece) (start : Nat) : Prop :=
  ∃ before after, parts = before ++ piece :: after ∧ (before.flatMap Piece.text).length = start

theorem Piece.length_text_group (symbol : CodePoint) (content : Text) :
    (Piece.group symbol content).text.length = content.length + 3 := by
  simp [Piece.text, Text.ofString]

/-- The symbol of a token is the code point at which its piece starts. -/
theorem Piece.Gives.getElem?_start {parts : List Piece} {piece : Piece} {token : Token}
    (hgives : piece.Gives token) {start : Nat} (hstart : piece.StandsAt parts start) :
    ∃ symbol, token.symbol = [symbol] ∧ (parts.flatMap Piece.text)[start]? = some symbol := by
  obtain ⟨before, after, rfl, rfl⟩ := hstart
  rw [List.flatMap_append, List.flatMap_cons, List.getElem?_append_right (Nat.le_refl _),
    Nat.sub_self]
  cases hgives with
  | bare symbol => exact ⟨symbol, rfl, rfl⟩
  | group symbol hcontent => exact ⟨symbol, rfl, rfl⟩

/-- No piece starts inside a group. -/
theorem Piece.StandsAt.not_inside {parts : List Piece} {piece : Piece} {symbol : CodePoint}
    {content : Text} {start other : Nat} (hpiece : piece.StandsAt parts start)
    (hgroup : (Piece.group symbol content).StandsAt parts other) :
    start ≤ other ∨ other + (content.length + 3) ≤ start := by
  obtain ⟨before, after, rfl, rfl⟩ := hpiece
  obtain ⟨first, last, hparts, rfl⟩ := hgroup
  obtain ⟨middle, rfl, -⟩ | ⟨middle, rfl, hmiddle⟩ := List.append_eq_append_iff.mp hparts
  · left
    rw [List.flatMap_append, List.length_append]
    omega
  · cases middle with
    | nil =>
        rw [List.append_nil]
        exact .inl (Nat.le_refl _)
    | cons next middle =>
        right
        obtain ⟨rfl, -⟩ := List.cons.inj hmiddle
        rw [List.flatMap_append, List.length_append, List.flatMap_cons, List.length_append,
          Piece.length_text_group]
        omega

/-- What the pieces of a word say about its tokens. -/
structure ReadsPieces (word : Text) (parts : List Piece) : Prop where
  /-- No code point is lost or read twice. -/
  whole : parts.flatMap Piece.text = word
  /-- The symbol of a token stands where its piece starts. -/
  symbols : ∀ (piece : Piece) (token : Token) (start : Nat), piece.StandsAt parts start →
    piece.Gives token → ∃ symbol, token.symbol = [symbol] ∧ word[start]? = some symbol
  /-- No piece starts inside a group. -/
  apart : ∀ (piece : Piece) (start : Nat) (symbol : CodePoint) (content : Text) (other : Nat),
    piece.StandsAt parts start → (Piece.group symbol content).StandsAt parts other →
      start ≤ other ∨ other + (content.length + 3) ≤ start
  /-- The tokens are one for each piece that is not skipped, in order. -/
  tokens : ∀ tokens, tokenize word = .ok tokens ↔
    List.Forall₂ Piece.Gives (parts.filter fun piece => !piece.isSkipped) tokens
  /-- A word cannot be read exactly if the parameter of one of its groups cannot. -/
  unreadable : (∃ fault, tokenize word = .error fault) ↔
    ∃ piece ∈ parts, ∃ fault, piece.Fails fault
  /-- The fault is that of the first such group. -/
  fault : ∀ fault, tokenize word = .error fault ↔ FirstFails parts fault

/-- Each word splits in exactly one way, and its tokens are read off the pieces. -/
theorem tokenize_reads_splitting (word : Text) :
    ∃ parts, (∀ others, Splits word others ↔ others = parts) ∧ ReadsPieces word parts := by
  refine ⟨pieces word, fun others => ⟨Splits.eq_pieces, ?_⟩, ?_⟩
  · rintro rfl
    exact splits_pieces word
  · exact {
      whole := flatMap_text_pieces word
      symbols := fun piece token start hstart hgives => by
        simpa only [flatMap_text_pieces] using hgives.getElem?_start hstart
      apart := fun piece start symbol content other hpiece hgroup => hpiece.not_inside hgroup
      tokens := fun tokens => ofPieces_eq_ok
      unreadable := by
        simp only [← exists_firstFails_iff, ← ofPieces_eq_error]
        rfl
      fault := fun fault => ofPieces_eq_error }

example :
    pieces "A(1) B(C-(x" =
      [.group 'A' "1", .skipped ' ', .bare 'B', .skipped '(', .bare 'C', .bare '-', .skipped '(',
        .bare 'x'] := by
  decide

/-- A parameter cannot be read exactly if it has the form of a number with a unit separator. -/
theorem readParameter_eq_error {content : Text} {fault : Fault} :
    readParameter content = .error fault ↔
      fault = .unreadableNumber content ∧ (Numeral.ofParameter? content).isSome ∧
        ∃ point ∈ content, point.isUnitSeparator := by
  rw [readParameter, ← List.any_eq_true]
  cases hform : Numeral.ofParameter? content with
  | none => exact ⟨nofun, fun hnumber => nomatch hnumber.2.1⟩
  | some numeral =>
      by_cases hseparator : content.any CodePoint.isUnitSeparator
      · simp only [hseparator, if_true, Except.error.injEq, Option.isSome_some, and_true]
        exact eq_comm
      · simp only [hseparator, and_false, Bool.false_eq_true, if_false, reduceCtorEq]

/-- Whether a word has a group of the form of a number with a unit separator. -/
def UnreadableWord (word : Text) : Prop :=
  ∃ symbol content, Piece.group symbol content ∈ pieces word ∧
    (Numeral.ofParameter? content).isSome ∧ ∃ point ∈ content, point.isUnitSeparator

theorem exists_tokenize_error_iff {word : Text} :
    (∃ fault, tokenize word = .error fault) ↔ UnreadableWord word := by
  simp only [tokenize, ofPieces_eq_error, exists_firstFails_iff, Piece.Fails,
    readParameter_eq_error]
  constructor
  · rintro ⟨_, hpiece, _, symbol, content, rfl, -, hnumber⟩
    exact ⟨symbol, content, hpiece, hnumber⟩
  · rintro ⟨symbol, content, hpiece, hnumber⟩
    exact ⟨_, hpiece, _, symbol, content, rfl, rfl, hnumber⟩

/-- What cannot be read of a word is a number. -/
theorem tokenize_eq_error {word : Text} {fault : Fault} (hfault : tokenize word = .error fault) :
    ∃ content, fault = .unreadableNumber content := by
  obtain ⟨_, _, _, _, ⟨_, content, _, hcontent⟩, _⟩ := ofPieces_eq_error.mp hfault
  exact ⟨content, (readParameter_eq_error.mp hcontent).1⟩

theorem noGroup_of_notMem {rest : Text} (hrest : CodePoint.ofChar '(' ∉ rest) : NoGroup rest := by
  cases rest with
  | nil => exact .inl nofun
  | cons point rest =>
      rw [List.mem_cons, not_or] at hrest
      exact .inl fun hhead => hrest.1 (Option.some.inj hhead).symm

/-- Without parentheses the tokens of a word are its symbols. -/
theorem tokenize_of_notMem {word : Text} (hword : CodePoint.ofChar '(' ∉ word) :
    tokenize word = .ok ((word.filter CodePoint.isSymbol).map fun symbol => ⟨[symbol], none⟩) := by
  induction word with
  | nil => rfl
  | cons point rest ih =>
      have hrest := fun hmem => hword (List.mem_cons_of_mem point hmem)
      have htokens := ih hrest
      rw [tokenize] at htokens ⊢
      by_cases hsymbol : point.isSymbol
      · rw [pieces_cons_bare hsymbol (noGroup_of_notMem hrest), Token.ofPieces, htokens,
          List.filter_cons_of_pos hsymbol]
        rfl
      · rw [pieces_cons_skipped (Bool.eq_false_iff.mpr hsymbol), Token.ofPieces, htokens,
          List.filter_cons_of_neg hsymbol]

end Lindenmayer
