import Lindenmayer.Proofs.Token.Brackets

/-!
# Beginnings of words

A cut through a word can only touch its last piece. Every group in front of the cut is a group of
the whole word, so the beginning can be read if the word can. If the cut leaves no group open, the
symbols in front of it are the first symbols of the word.
-/

namespace Lindenmayer

variable {first second word : Text} {symbol : CodePoint} {content : Text} {parts : List Piece}

/-- The symbol of a piece that is not skipped. -/
def Piece.symbol? : Piece → Option CodePoint
  | .skipped _ => none
  | .bare symbol | .group symbol _ => some symbol

/-- The symbols that are read from a word. -/
def Text.symbols (word : Text) : Text :=
  (pieces word).filterMap Piece.symbol?

theorem Piece.Gives.command {piece : Piece} {token : Token} (hgives : piece.Gives token) :
    ∃ symbol, piece.symbol? = some symbol ∧ token.command = symbol.command := by
  cases hgives with
  | bare symbol | group symbol _ => exact ⟨symbol, rfl, rfl⟩

theorem commands_of_gives {tokens : List Token} (hgives : List.Forall₂ Piece.Gives parts tokens) :
    tokens.map Token.command = (parts.filterMap Piece.symbol?).map CodePoint.command := by
  induction hgives with
  | nil => rfl
  | cons hfirst _ ih =>
      obtain ⟨symbol, hsymbol, hcommand⟩ := hfirst.command
      rw [List.map_cons, List.filterMap_cons, hsymbol, ih, hcommand]
      rfl

/-- The commands of tokens are those of the symbols that were read. -/
theorem commands_tokenize {tokens : List Token} (htokens : tokenize word = .ok tokens) :
    tokens.map Token.command = Text.commands word.symbols := by
  have hskipped : word.symbols =
      ((pieces word).filter fun piece => !piece.isSkipped).filterMap Piece.symbol? := by
    rw [Text.symbols, List.filterMap_filter]
    refine List.filterMap_congr fun piece _ => ?_
    cases piece <;> rfl
  rw [hskipped]
  exact commands_of_gives (ofPieces_eq_ok.mp htokens)

/-- A symbol is read where it stands first. -/
theorem Text.exists_symbols_cons (hsymbol : symbol.isSymbol = true) (rest : Text) :
    ∃ later, Text.symbols (symbol :: rest) = symbol :: later := by
  rw [symbols, pieces, piecesAfter, if_pos hsymbol]
  split <;> exact ⟨_, rfl⟩

/-- Where a symbol of a beginning has no group, it has none in the word, unless the cut is right
behind it or in its group. -/
theorem NoGroup.append (halone : NoGroup first) (second : Text) :
    NoGroup (first ++ second) ∨ first = [] ∨
      ∃ after, first = CodePoint.ofChar '(' :: after ∧ CodePoint.ofChar ')' ∉ after := by
  rcases halone with hhead | hopen | ⟨after, rfl⟩
  · cases first with
    | nil => exact .inr (.inl rfl)
    | cons point first => exact .inl (.inl hhead)
  · exact .inr (.inr hopen)
  · exact .inl (.inr (.inr ⟨after ++ second, rfl⟩))

theorem closing_mem_of_group (hgroup : Piece.group symbol content ∈ pieces word) :
    CodePoint.ofChar ')' ∈ word := by
  rw [← flatMap_text_pieces word, List.mem_flatMap]
  exact ⟨_, hgroup, List.mem_append_right _ List.mem_cons_self⟩

/-- The groups of a beginning are groups of the word. -/
theorem Splits.group_mem_append (hsplits : Splits first parts) (second : Text)
    (hgroup : Piece.group symbol content ∈ parts) :
    Piece.group symbol content ∈ pieces (first ++ second) := by
  induction hsplits with
  | nil => exact absurd hgroup List.not_mem_nil
  | skipped hpoint _ ih =>
      rw [List.cons_append, pieces_cons_skipped (hpoint.elim CodePoint.isSymbol_of_isBlank id)]
      exact .tail _ (ih ((List.mem_cons.mp hgroup).resolve_left nofun))
  | @bare symbol rest parts hsymbol halone hrest ih =>
      have hlater := (List.mem_cons.mp hgroup).resolve_left nofun
      rcases halone.append second with hsame | rfl | ⟨after, rfl, hopen⟩
      · rw [List.cons_append, pieces_cons_bare hsymbol hsame]
        exact .tail _ (ih hlater)
      · rw [hrest.eq_pieces] at hlater
        exact absurd hlater List.not_mem_nil
      -- The rest has no closing parenthesis, so it has no groups.
      · rw [hrest.eq_pieces] at hlater
        have hclosing := closing_mem_of_group hlater
        exact absurd ((List.mem_cons.mp hclosing).resolve_left (by decide)) hopen
  | group hsymbol hne hfree _ ih =>
      simp only [List.cons_append, List.append_assoc]
      rw [pieces_cons_group hsymbol hne hfree]
      rcases List.mem_cons.mp hgroup with hhere | hlater
      · rw [hhere]
        exact List.mem_cons_self
      · exact .tail _ (ih hlater)

/-- The beginning of a word that can be read can be read. -/
theorem UnreadableWord.append (hfirst : UnreadableWord first) (second : Text) :
    UnreadableWord (first ++ second) := by
  obtain ⟨symbol, content, hgroup, hnumber⟩ := hfirst
  exact ⟨symbol, content, (splits_pieces first).group_mem_append second hgroup, hnumber⟩

theorem Splits.symbols_beginning {excluded : CodePoint → Prop} (hsplits : Splits first parts)
    (hclosed : ShieldsGroups excluded first) (second : Text) :
    parts.filterMap Piece.symbol? <+: (first ++ second).symbols := by
  induction hsplits with
  | nil => exact List.nil_prefix
  | skipped hpoint _ ih =>
      rw [List.cons_append, Text.symbols,
        pieces_cons_skipped (hpoint.elim CodePoint.isSymbol_of_isBlank id)]
      exact ih (shieldsGroups_cons.mp hclosed).2
  | @bare symbol rest parts hsymbol halone hrest ih =>
      have hlater := (shieldsGroups_cons.mp hclosed).2
      rcases halone.append second with hsame | rfl | ⟨after, rfl, hopen⟩
      · rw [List.cons_append, Text.symbols, pieces_cons_bare hsymbol hsame]
        exact (List.cons_prefix_cons ..).mpr ⟨rfl, ih hlater⟩
      · obtain ⟨later, hsymbols⟩ := Text.exists_symbols_cons hsymbol ([] ++ second)
        rw [hrest.eq_pieces, List.cons_append, hsymbols]
        exact List.prefix_append [symbol] later
      · obtain ⟨content, rest, rfl, -⟩ := (shieldsGroups_cons.mp hlater).1 rfl
        exact absurd (List.mem_append_right _ List.mem_cons_self) hopen
  | @group symbol content rest parts hsymbol hne hfree _ ih =>
      have hgroup := (shieldsGroups_cons.mp hclosed).2
      have hafter := @ShieldsGroups.of_append _ (CodePoint.ofChar '(' :: content) _ hgroup
      simp only [List.cons_append, List.append_assoc]
      rw [Text.symbols, pieces_cons_group hsymbol hne hfree]
      exact (List.cons_prefix_cons ..).mpr ⟨rfl, ih (shieldsGroups_cons.mp hafter).2⟩

/-- If a beginning leaves no group open, its symbols are the first ones of the word. -/
theorem ShieldsGroups.symbols_beginning {excluded : CodePoint → Prop}
    (hclosed : ShieldsGroups excluded first) (second : Text) :
    first.symbols <+: (first ++ second).symbols :=
  (splits_pieces first).symbols_beginning hclosed second

/-- The beginning of a word that can be read can be read, and it is nested with the word unless the
cut leaves a group open. -/
theorem exists_tokenize_take {tokens : List Token} (htokens : tokenize word = .ok tokens)
    (count : Nat) : ∃ first, tokenize (word.take count) = .ok first ∧
      (ShieldsGroups (fun _ => False) (word.take count) →
        Command.Nested (tokens.map Token.command) → Command.Nested (first.map Token.command)) := by
  cases hfirst : tokenize (word.take count) with
  | error fault =>
      have hword := (exists_tokenize_error_iff.mp ⟨fault, hfirst⟩).append (word.drop count)
      rw [List.take_append_drop] at hword
      obtain ⟨other, hother⟩ := exists_tokenize_error_iff.mpr hword
      exact nomatch htokens.symm.trans hother
  | ok first =>
      refine ⟨first, rfl, fun hclosed hnested => ?_⟩
      rw [commands_tokenize htokens] at hnested
      rw [commands_tokenize hfirst]
      have hbefore := hclosed.symbols_beginning (word.drop count)
      rw [List.take_append_drop] at hbefore
      exact hnested.beginning (hbefore.map CodePoint.command)

end Lindenmayer
