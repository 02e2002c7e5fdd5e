import Lindenmayer.Proofs.Number.Layout
import Lindenmayer.Proofs.Token.Parameters

/-!
# Tokens written out

A token is written as its symbol, with its parameter between parentheses in the shortest form of the
number. What is written for some tokens is read as these tokens exactly if each of them can be read
at all: one symbol, and a finite number of 32 bits if there is a parameter.
-/

namespace Lindenmayer

open BinaryFormat

variable {number : Float} {token : Token} {tokens : List Token} {word rest : Text}

/-- A finite number of 32 bits. -/
def IsSingle (number : Float) : Prop :=
  ∃ negative magnitude, single.Admits magnitude ∧ Denotes number negative magnitude.value

namespace Token

/-- A token as it stands in a word, with its parameter between parentheses. -/
def text (token : Token) : Text :=
  token.symbol ++
    match token.parameter with
    | none => []
    | some number => "(" ++ Layout.plain.writeShortest number ++ ")"

/-- What the tokens of a word are like. -/
structure IsReadable (token : Token) : Prop where
  symbol : ∃ symbol : CodePoint, symbol.isSymbol = true ∧ token.symbol = [symbol]
  parameter : ∀ number ∈ token.parameter, IsSingle number

end Token

namespace WrittenNumber

variable {written : WrittenNumber} {point : CodePoint}

/-- A written number has the form of a parameter. -/
theorem isParameter_text (hvalid : written.Valid) : IsParameter written.text written.toNumeral := by
  obtain ⟨negative, whole, fraction, exponent⟩ := written
  obtain ⟨hwhole, hfraction, hexponent, hne, -, hexponentNe⟩ := hvalid
  dsimp only at hwhole hfraction hexponent hne hexponentNe
  have hsign : IsSign (Layout.sign negative) negative := by
    cases negative with
    | true => exact .minus
    | false => exact .missing
  have hfixed : IsFixed (digitText whole ++ fractionText fraction) whole fraction := by
    have hrun := isRun_digitText @digit?_digitPoint hwhole
    rw [fractionText]
    split
    next hnil =>
      rw [hnil, List.append_nil]
      exact .whole hrun hne
    next => exact .pointed hrun hne (isRun_digitText @digit?_digitPoint hfraction)
  have hscale : IsScale (exponentText exponent) ((exponent.map exponentValue).getD 0) := by
    cases exponent with
    | none => exact .missing
    | some exponent =>
        obtain ⟨negative, digits⟩ := exponent
        have hrun := isRun_digitText @digit?_digitPoint (hexponent _ rfl)
        cases negative with
        | true => exact .marked (.inl rfl) .minus hrun (hexponentNe _ rfl)
        | false => exact .marked (.inl rfl) .plus hrun (hexponentNe _ rfl)
  have hform := @IsParameter.between [] _ _ _ [] _ _ _ _ (List.forall_mem_nil _)
    hsign hfixed hscale (List.forall_mem_nil _)
  rw [List.nil_append, List.append_nil, ← List.append_assoc, ← List.append_assoc] at hform
  exact hform

/-- A written number is made of digits, signs, a point and the mark of an exponent. -/
theorem mem_text (hvalid : written.Valid) (hpoint : point ∈ written.text) :
    point ∈ Text.ofString "0123456789+-.e" := by
  have hdigits : ∀ digits : List ℕ, (∀ digit ∈ digits, digit < 10) → point ∈ digitText digits →
      point ∈ Text.ofString "0123456789+-.e" := by
    intro digits hlt hmem
    obtain ⟨digit, hdigit, rfl⟩ := List.mem_map.mp hmem
    have hall : ∀ digit < 10, digitPoint digit ∈ Text.ofString "0123456789+-.e" := by decide
    exact hall digit (hlt digit hdigit)
  obtain ⟨negative, whole, fraction, exponent⟩ := written
  rw [text, List.mem_append, List.mem_append, List.mem_append] at hpoint
  rcases hpoint with ((hsign | hwhole) | hfraction) | hexponent
  · cases negative with
    | true =>
        rw [List.mem_singleton.mp hsign]
        decide
    | false => exact absurd hsign List.not_mem_nil
  · exact hdigits whole hvalid.whole_lt hwhole
  · dsimp only [fractionText] at hfraction
    split at hfraction
    next => exact absurd hfraction List.not_mem_nil
    next =>
      rcases List.mem_cons.mp hfraction with rfl | hdigit
      · decide
      · exact hdigits fraction hvalid.fraction_lt hdigit
  · cases exponent with
    | none => exact absurd hexponent List.not_mem_nil
    | some exponent =>
        rcases List.mem_cons.mp hexponent with rfl | hexponent
        · decide
        · rcases List.mem_cons.mp hexponent with rfl | hdigit
          · cases exponent.1 <;> decide
          · exact hdigits exponent.2 (hvalid.exponent_lt exponent rfl) hdigit

end WrittenNumber

/-- A finite double is written as a number that is read as it. -/
theorem exists_writeShortest (hfinite : number.isFinite = true) :
    ∃ written : WrittenNumber, written.Valid ∧ Layout.plain.writeShortest number = written.text ∧
      written.toNumeral.toDecimal.toFloat = number := by
  obtain ⟨negative, magnitude, hparts⟩ := FloatParts.isFinite_iff.mp hfinite
  obtain ⟨written, hvalid, htext, -, hnegative, hvalue⟩ :=
    WrittenNumber.exists_write (Decimal.shortest negative magnitude)
  refine ⟨written, hvalid, ?_, ?_⟩
  · rw [Layout.writeShortest, Layout.writeFloat, hparts]
    exact htext
  · exact (Decimal.toFloat_congr hnegative.symm hvalue.symm).symm.trans
      (Decimal.toFloat_shortest hparts)

/-- A number of 32 bits is rounded to itself. -/
theorem nearestSingle_of_isSingle (hsingle : IsSingle number) : nearestSingle number = number := by
  obtain ⟨negative, magnitude, hadmits, wide, hparts, hvalue⟩ := hsingle
  have hsame : wide.ratio.value = magnitude.ratio.value := by
    rw [Magnitude.value_ratio, Magnitude.value_ratio]
    exact hvalue
  have hnarrow : single.round wide.ratio = some magnitude :=
    round_of_admits hadmits (hsame.trans magnitude.value_ratio)
  have hwide : double.round magnitude.ratio = some wide :=
    round_of_admits (FloatParts.admits_of_ofFloat hparts) (hsame.symm.trans wide.value_ratio)
  rw [nearestSingle, hparts]
  dsimp only
  rw [hnarrow]
  exact nearestFloat_of_round hparts hwide

theorem IsSingle.kept (hsingle : IsSingle number) : singlePrecision? number = some number := by
  have hrounded := nearestSingle_of_isSingle hsingle
  obtain ⟨negative, magnitude, hadmits, hnumber⟩ := hsingle
  exact singlePrecision?_eq_some_iff.mpr
    ⟨negative, magnitude.value, hnumber, hadmits.value_le_largest, hrounded⟩

/-- A number of 32 bits is written as something that can stand between parentheses, and it is read
as this number. -/
theorem IsSingle.written (hsingle : IsSingle number) :
    Layout.plain.writeShortest number ≠ [] ∧
      CodePoint.ofChar ')' ∉ Layout.plain.writeShortest number ∧
        readParameter (Layout.plain.writeShortest number) = .ok (some number) := by
  obtain ⟨negative, magnitude, -, hnumber⟩ := id hsingle
  obtain ⟨written, hvalid, htext, hfloat⟩ := exists_writeShortest hnumber.isFinite
  have hform := WrittenNumber.isParameter_text hvalid
  have hplain : ∀ point ∈ Text.ofString "0123456789+-.e",
      point ≠ CodePoint.ofChar ')' ∧ point.isUnitSeparator = false := by decide
  have hpoints := fun point hpoint => hplain point (@WrittenNumber.mem_text _ point hvalid hpoint)
  rw [htext]
  refine ⟨fun hnil => ?_, fun hclosing => (hpoints _ hclosing).1 rfl, ?_⟩
  · rw [hnil, ← Numeral.ofParameter?_eq_some_iff] at hform
    exact nomatch hform
  · rw [readParameter_of_isParameter hform fun point hpoint => (hpoints point hpoint).2, hfloat,
      hsingle.kept]

theorem isSingle_of_readParameter {content : Text}
    (hread : readParameter content = .ok (some number)) : IsSingle number := by
  cases hnumeral : Numeral.ofParameter? content with
  | none =>
      rw [readParameter, hnumeral] at hread
      cases hread
  | some numeral =>
      obtain ⟨size, -, hle, hrounds⟩ :=
        rounds_of_readParameter (Numeral.ofParameter?_eq_some_iff.mp hnumeral) hread
      obtain ⟨magnitude, hnearest, hnumber⟩ := hrounds.exists_roundsTo (not_overflows hle)
      exact ⟨_, magnitude, hnearest.nearest.admits, hnumber⟩

namespace Token

theorem IsReadable.head?_ne (htoken : token.IsReadable) :
    (token.text ++ rest).head? ≠ some (CodePoint.ofChar '(') := by
  obtain ⟨symbol, hsymbol, heq⟩ := htoken.symbol
  rw [text, heq]
  intro hhead
  obtain rfl := Option.some.inj hhead
  exact absurd hsymbol (by decide)

/-- A token in front of a word that does not go on with a group is read first. -/
theorem IsReadable.tokenize_append (htoken : token.IsReadable)
    (hrest : rest.head? ≠ some (CodePoint.ofChar '(')) :
    tokenize (token.text ++ rest) = (tokenize rest).map (token :: ·) := by
  obtain ⟨⟨symbol, hsymbol, heq⟩, hparameter⟩ := htoken
  obtain ⟨_, parameter⟩ := token
  obtain rfl : _ = [symbol] := heq
  cases parameter with
  | none =>
      have htext : text ⟨[symbol], none⟩ ++ rest = symbol :: rest := rfl
      rw [htext, tokenize, pieces_cons_bare hsymbol (.inl hrest), ofPieces]
      rfl
  | some number =>
      obtain ⟨hne, hfree, hread⟩ := (hparameter number rfl).written
      have htext : text ⟨[symbol], some number⟩ ++ rest = symbol :: CodePoint.ofChar '(' ::
          (Layout.plain.writeShortest number ++ CodePoint.ofChar ')' :: rest) := by
        simp [text, Text.ofString]
      rw [htext, tokenize, pieces_cons_group hsymbol hne hfree, ofPieces, hread]
      rfl

theorem tokenize_texts (htokens : ∀ token ∈ tokens, token.IsReadable) :
    tokenize (tokens.flatMap text) = .ok tokens := by
  induction tokens with
  | nil => rfl
  | cons token tokens ih =>
      obtain ⟨htoken, hlater⟩ := List.forall_mem_cons.mp htokens
      have hrest : (tokens.flatMap text).head? ≠ some (CodePoint.ofChar '(') := by
        cases tokens with
        | nil => exact nofun
        | cons next tokens => exact (List.forall_mem_cons.mp hlater).1.head?_ne
      rw [List.flatMap_cons, htoken.tokenize_append hrest, ih hlater]
      rfl

end Token

theorem Splits.isReadable {parts : List Piece} (hsplits : Splits word parts)
    (htokens : Token.ofPieces parts = .ok tokens) : ∀ token ∈ tokens, token.IsReadable := by
  induction hsplits generalizing tokens with
  | nil =>
      obtain rfl := Except.ok.inj htokens
      exact nofun
  | skipped _ _ ih => exact ih htokens
  | bare hsymbol _ _ ih =>
      obtain ⟨later, hlater, rfl⟩ := Except.map_eq_ok.mp htokens
      exact List.forall_mem_cons.mpr ⟨⟨⟨_, hsymbol, rfl⟩, nofun⟩, ih hlater⟩
  | @group symbol content rest parts hsymbol _ _ _ ih =>
      rw [Token.ofPieces] at htokens
      cases hread : readParameter content with
      | error fault =>
          rw [hread] at htokens
          cases htokens
      | ok parameter =>
          rw [hread] at htokens
          obtain ⟨later, hlater, rfl⟩ := Except.map_eq_ok.mp htokens
          refine List.forall_mem_cons.mpr ⟨⟨⟨_, hsymbol, rfl⟩, ?_⟩, ih hlater⟩
          rintro number ⟨⟩
          exact isSingle_of_readParameter hread

/-- What is written for some tokens is read as these tokens exactly if each of them is one symbol,
alone or with a finite number of 32 bits. -/
theorem written_tokens_read_back (tokens : List Token) :
    tokenize (tokens.flatMap Token.text) = .ok tokens ↔ ∀ token ∈ tokens, token.IsReadable :=
  ⟨(splits_pieces _).isReadable, Token.tokenize_texts⟩

/-- A negative zero, the least number of 32 bits, and the largest one. -/
example :
    Token.text ⟨"F", some (-0.0)⟩ ++ Token.text ⟨"M", some (nearestSingle 1e-45)⟩ ++
      Token.text ⟨"]", none⟩ ++ Token.text ⟨"+", some largestSingle⟩ =
        Text.ofString "F(-0.0)M(1.401298464324817e-45)]+(3.4028234663852886e+38)" := by
  decide

end Lindenmayer
