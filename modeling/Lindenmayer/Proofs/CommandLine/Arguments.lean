import Lindenmayer.CommandLine.Invocation
import Lindenmayer.Proofs.Number.Layout
import Lindenmayer.Proofs.Outcome
import Mathlib

/-!
# Plain arguments

An argument that does not start with a hyphen stands for itself, and a written seed is read as the
number that it was written for. So the plain command lines ask for what they say.
-/

namespace Lindenmayer

theorem digitPoint_ne {digit : ℕ} {point : CodePoint} (hdigit : digit < 10)
    (hpoint : point.digit? = none) : digitPoint digit ≠ point := by
  rintro rfl
  simp [digit?_digitPoint hdigit] at hpoint

theorem isPadding_digitPoint {digit : ℕ} (hdigit : digit < 10) :
    isPadding (digitPoint digit) = false := by
  have hall : ∀ digit < 10, isPadding (digitPoint digit) = false := by decide
  exact hall digit hdigit

theorem groupedDigits?_digitText {digits : List ℕ} (hne : digits ≠ [])
    (hdigits : ∀ digit ∈ digits, digit < 10) : groupedDigits? (digitText digits) = some digits := by
  induction digits with
  | nil => exact absurd rfl hne
  | cons digit digits ih =>
      rw [List.forall_mem_cons] at hdigits
      have hdigit := digit?_digitPoint hdigits.1
      cases digits with
      | nil => simp [groupedDigits?, hdigit]
      | cons next rest =>
          have hnext : digitPoint next ≠ CodePoint.ofChar '_' :=
            digitPoint_ne (hdigits.2 next List.mem_cons_self) (by decide)
          have hrest := ih (List.cons_ne_nil _ _) hdigits.2
          rw [digitText_cons] at hrest
          simp [groupedDigits?, hdigit, hnext, hrest]

theorem dropWhile_isPadding {text : Text} (htext : ∀ point ∈ text, isPadding point = false) :
    ((text.dropWhile isPadding).reverse.dropWhile isPadding).reverse = text := by
  have hfirst : ∀ points : Text, (∀ point ∈ points, isPadding point = false) →
      points.dropWhile isPadding = points := by
    intro points hpoints
    apply List.dropWhile_eq_self_iff.mpr
    intro hlength
    rw [hpoints _ (List.getElem_mem hlength)]
    decide
  rw [hfirst text htext, hfirst _ fun point hpoint => htext point (List.mem_reverse.mp hpoint),
    List.reverse_reverse]

theorem takeSign_sign {digits : List ℕ} (negative : Bool) (hne : digits ≠ [])
    (hdigits : ∀ digit ∈ digits, digit < 10) :
    takeSign (Layout.sign negative ++ digitText digits) = (negative, digitText digits) := by
  cases negative with
  | true => rfl
  | false =>
      obtain ⟨digit, digits, rfl⟩ := List.exists_cons_of_ne_nil hne
      have hdigit : digit < 10 := hdigits digit List.mem_cons_self
      change takeSign (digitPoint digit :: digitText digits) = _
      rw [takeSign, if_neg (digitPoint_ne hdigit (by decide)),
        if_neg (digitPoint_ne hdigit (by decide)), digitText_cons]

/-- An integer is read as itself, if it has no more digits than the limit. -/
theorem readInteger?_ofInt {value : ℤ} (hvalue : value.natAbs < 10 ^ integerDigitLimit) :
    readInteger? (Text.ofInt value) = some value := by
  have hlt := decimalDigits.lt_ten value.natAbs
  have hne := decimalDigits.ne_nil value.natAbs
  have hlength : ¬ integerDigitLimit < (decimalDigits value.natAbs).length := by
    rw [decimalDigits.length_eq, not_lt]
    exact (Nat.length_toDigits_le_iff (by decide) (by decide)).mpr hvalue
  have hpadding : ∀ point ∈ Text.ofInt value, isPadding point = false := by
    intro point hpoint
    rw [WrittenNumber.ofInt_eq, List.mem_append] at hpoint
    rcases hpoint with hsign | hdigits
    · have hsigns : ∀ negative, ∀ point ∈ Layout.sign negative, isPadding point = false := by
        decide
      exact hsigns _ point hsign
    · obtain ⟨digit, hdigit, rfl⟩ := List.mem_map.mp hdigits
      exact isPadding_digitPoint (hlt digit hdigit)
  rw [readInteger?, dropWhile_isPadding hpadding, WrittenNumber.ofInt_eq]
  dsimp only
  rw [takeSign_sign _ hne hlt, groupedDigits?_digitText hne hlt]
  dsimp only
  rw [if_neg hlength, digitsValue_decimalDigits, Option.some.injEq]
  split
  next hnegative =>
    rw [decide_eq_true_eq] at hnegative
    omega
  next hnegative =>
    rw [decide_eq_true_eq] at hnegative
    omega

namespace Mark

variable {flags : Flags} {text : Text}

theorem ofText_plain (flags : Flags) (htext : text.head? ≠ some (CodePoint.ofChar '-')) :
    ofText flags text = some (.operand text) :=
  if_pos (Or.inr htext)

theorem ne_separatorText (htext : text.head? ≠ some (CodePoint.ofChar '-')) :
    text ≠ separatorText := by
  rintro rfl
  exact htext rfl

/-- Arguments without hyphens are operands. -/
theorem ofTexts_plain (flags : Flags) {texts : List Text}
    (htexts : ∀ text ∈ texts, text.head? ≠ some (CodePoint.ofChar '-')) :
    ofTexts flags texts = .ok (texts.map fun text => (.operand text, text)) := by
  induction texts with
  | nil => rfl
  | cons text texts ih =>
      rw [List.forall_mem_cons] at htexts
      rw [ofTexts, if_neg (ne_separatorText htexts.1), ofText_plain flags htexts.1, ih htexts.2]
      rfl

/-- Every mark keeps the text of its argument. -/
theorem map_snd_ofTexts {texts : List Text} {marks : List (Mark × Text)}
    (hmarks : ofTexts flags texts = .ok marks) : marks.map Prod.snd = texts := by
  induction texts generalizing marks with
  | nil =>
      cases hmarks
      rfl
  | cons text texts ih =>
      rw [ofTexts] at hmarks
      split at hmarks
      next =>
        cases hmarks
        rw [List.map_cons, List.map_map]
        exact congrArg (text :: ·) (List.map_id texts)
      next =>
        split at hmarks
        next => cases hmarks
        next =>
          obtain ⟨rest, hrest, rfl⟩ := Except.map_eq_ok.mp hmarks
          rw [List.map_cons, ih hrest]

theorem splitEquals_of_notMem (htext : CodePoint.ofChar '=' ∉ text) :
    splitEquals text = (text, none) := by
  rw [splitEquals, List.dropWhile_eq_nil_iff.mpr]
  intro point hpoint
  rw [decide_eq_true_eq]
  rintro rfl
  exact htext hpoint

/-- A hyphen before digits makes a negative number. -/
theorem isNegativeNumber_digits {digits : List ℕ} (hne : digits ≠ [])
    (hdigits : ∀ digit ∈ digits, digit < 10) :
    isNegativeNumber (CodePoint.ofChar '-' :: digitText digits) = true := by
  have hlast : (digitText digits).getLast? ≠ some (CodePoint.ofChar '\n') := by
    intro hlast
    obtain ⟨digit, hdigit, heq⟩ := List.mem_map.mp (List.mem_of_getLast? hlast)
    exact digitPoint_ne (hdigits digit hdigit) (by decide) heq
  have hall : takeDigits CodePoint.digit? (digitText digits) = (digits, []) := by
    have hnothing : ∀ point ∈ ([] : Text).head?, point.digit? = none := by
      rintro point ⟨⟩
    have htake := takeDigits_digitText @digit?_digitPoint hdigits hnothing
    rwa [List.append_nil] at htake
  rw [isNegativeNumber, List.drop_one, List.tail_cons]
  dsimp only
  rw [if_neg hlast, hall]
  simpa using hne

/-- Where no flag looks like a number, a negative number is an operand. -/
theorem ofHyphened_digits {digits : List ℕ}
    (hflags : ∀ known ∈ flags, ∀ point ∈ known.1[1]?, point.digit? = none) (hne : digits ≠ [])
    (hdigits : ∀ digit ∈ digits, digit < 10) :
    ofHyphened flags (CodePoint.ofChar '-' :: digitText digits) =
      some (.operand (CodePoint.ofChar '-' :: digitText digits)) := by
  have hnegative := isNegativeNumber_digits hne hdigits
  have hequals : CodePoint.ofChar '=' ∉ CodePoint.ofChar '-' :: digitText digits := by
    rw [List.mem_cons, not_or]
    refine ⟨by decide, fun hequals => ?_⟩
    obtain ⟨digit, hdigit, heq⟩ := List.mem_map.mp hequals
    exact digitPoint_ne (hdigits digit hdigit) (by decide) heq
  rw [ofHyphened, splitEquals_of_notMem hequals]
  obtain ⟨digit, digits, rfl⟩ := List.exists_cons_of_ne_nil hne
  have hdigit := digit?_digitPoint (hdigits digit List.mem_cons_self)
  -- The second code point tells the number from every flag.
  have hsecond : ∀ known ∈ flags, known.1[1]? ≠ some (digitPoint digit) := by
    intro known hknown heq
    simp [hflags known hknown _ heq] at hdigit
  have hlookup : flags.lookup (CodePoint.ofChar '-' :: digitText (digit :: digits)) = none := by
    apply List.lookup_eq_none_iff.mpr
    intro known hknown
    rw [bne_iff_ne]
    intro heq
    exact hsecond known hknown (by rw [← heq]; rfl)
  have hcandidates :
      candidates flags (CodePoint.ofChar '-' :: digitText (digit :: digits)) = [] := by
    have hlong : ¬ isLong (CodePoint.ofChar '-' :: digitText (digit :: digits)) := by
      simpa [isLong] using digitPoint_ne (hdigits digit List.mem_cons_self) (by decide)
    rw [candidates, if_neg hlong, List.map_eq_nil_iff, List.filter_eq_nil_iff]
    intro known hknown
    rw [decide_eq_true_eq]
    intro heq
    exact hsecond known hknown (by rw [heq]; rfl)
  dsimp only
  rw [hlookup, hcandidates, if_pos (Or.inl hnegative)]
  rfl

/-- Where no flag looks like a number, an integer is an operand. -/
theorem ofText_ofInt (hflags : ∀ known ∈ flags, ∀ point ∈ known.1[1]?, point.digit? = none)
    (value : ℤ) : ofText flags (Text.ofInt value) = some (.operand (Text.ofInt value)) := by
  have hdigits := decimalDigits.lt_ten value.natAbs
  obtain ⟨digit, digits, heq⟩ := List.exists_cons_of_ne_nil (decimalDigits.ne_nil value.natAbs)
  rw [heq] at hdigits
  rw [WrittenNumber.ofInt_eq, heq]
  by_cases hvalue : value < 0
  · rw [decide_eq_true hvalue]
    refine (if_neg ?_).trans (ofHyphened_digits hflags (List.cons_ne_nil _ _) hdigits)
    rintro (hhyphen | hhead)
    · cases hhyphen
    · exact hhead rfl
  · rw [decide_eq_false hvalue]
    apply ofText_plain flags
    change some (digitPoint digit) ≠ _
    rw [ne_eq, Option.some.injEq]
    exact digitPoint_ne (hdigits digit List.mem_cons_self) (by decide)

theorem ofInt_ne_separatorText (value : ℤ) : Text.ofInt value ≠ separatorText := by
  intro heq
  obtain ⟨digit, digits, hdigits⟩ :=
    List.exists_cons_of_ne_nil (decimalDigits.ne_nil value.natAbs)
  have hmem : digitPoint digit ∈ separatorText := by
    rw [← heq, WrittenNumber.ofInt_eq, hdigits]
    exact List.mem_append_right _ List.mem_cons_self
  have hnone : ∀ point ∈ separatorText, point.digit? = none := by decide
  have hdigit : digit < 10 :=
    decimalDigits.lt_ten value.natAbs digit (hdigits ▸ List.mem_cons_self)
  exact digitPoint_ne hdigit (hnone _ hmem) rfl

end Mark

theorem Collected.collect_plain (flags : Flags) (wanted : ℕ) {texts : List Text}
    (htexts : ∀ text ∈ texts, text.head? ≠ some (CodePoint.ofChar '-')) (collected : Collected) :
    collect flags wanted collected (texts.map .operand) =
      .ok (texts.foldl (fun collected text => collected.withOperand wanted (some text))
        collected) := by
  induction texts generalizing collected with
  | nil => rfl
  | cons text texts ih =>
      rw [List.forall_mem_cons] at htexts
      have hstep : collect flags wanted collected ((text :: texts).map .operand) =
          collect flags wanted (collected.withOperand wanted (some text))
            (texts.map .operand) := by
        rw [List.map_cons, collect]
        · rw [if_neg (Mark.ne_separatorText htexts.1)]
        · cases texts <;> simp
      rw [hstep, ih htexts.2, List.foldl_cons]

namespace Invocation

variable {path output : Text}

theorem collected_plain (flags : Flags) (wanted : ℕ) {texts : List Text}
    (htexts : ∀ text ∈ texts, text.head? ≠ some (CodePoint.ofChar '-')) :
    collected flags wanted texts =
      .ok (texts.foldl (fun collected text => collected.withOperand wanted (some text))
        .start) := by
  rw [collected, Mark.ofTexts_plain flags htexts]
  change Collected.collect flags wanted .start ((texts.map _).map Prod.fst) = _
  rw [List.map_map]
  exact Collected.collect_plain flags wanted htexts .start

/-- A command line without general flags asks for the job of its command. -/
theorem ofTexts_of_jobOf {name : Text} {texts : List Text} {marks : List (Mark × Text)} {job : Job}
    (hname : name.head? ≠ some (CodePoint.ofChar '-'))
    (hmarks : Mark.ofTexts generalFlags texts = .ok marks) (hjob : jobOf name texts = .ok job) :
    ofTexts (name :: texts) = .ok ⟨job, false⟩ := by
  rw [ofTexts, Mark.ofTexts, if_neg (Mark.ne_separatorText hname),
    Mark.ofText_plain generalFlags hname, hmarks]
  change ofMarks .start ((.operand name, name) :: marks) = _
  rw [ofMarks, Mark.map_snd_ofTexts hmarks, hjob]
  rfl

theorem ofTexts_generate (hpath : path.head? ≠ some (CodePoint.ofChar '-'))
    (houtput : output.head? ≠ some (CodePoint.ofChar '-')) :
    ofTexts ["generate", path, output] = .ok ⟨.generate path (some output), false⟩ := by
  have hplain : ∀ text ∈ [path, output], text.head? ≠ some (CodePoint.ofChar '-') := by
    simp [hpath, houtput]
  apply ofTexts_of_jobOf (by decide) (Mark.ofTexts_plain generalFlags hplain)
  rw [jobOf, if_pos rfl, collected_plain plainFlags 2 hplain]
  rfl

theorem ofTexts_validate (hpath : path.head? ≠ some (CodePoint.ofChar '-')) :
    ofTexts ["validate", path] = .ok ⟨.validate path, false⟩ := by
  have hplain : ∀ text ∈ [path], text.head? ≠ some (CodePoint.ofChar '-') := by
    simp [hpath]
  apply ofTexts_of_jobOf (by decide) (Mark.ofTexts_plain generalFlags hplain)
  rw [jobOf, if_neg (by decide), if_pos rfl, collected_plain plainFlags 1 hplain]
  rfl

/-- The flag for the seed is unknown in front of the command, and known behind it. -/
theorem ofTexts_random {seed : ℤ} (houtput : output.head? ≠ some (CodePoint.ofChar '-'))
    (hseed : seed.natAbs < 10 ^ integerDigitLimit) :
    ofTexts ["random", output, "--seed", Text.ofInt seed] =
      .ok ⟨.random output (some seed), false⟩ := by
  -- All arguments are marked twice, with the general flags and with those of the command.
  have hmarks : ∀ flags : Flags, (∀ known ∈ flags, ∀ point ∈ known.1[1]?, point.digit? = none) →
      ∀ mark, Mark.ofText flags "--seed" = some mark →
        Mark.ofTexts flags [output, "--seed", Text.ofInt seed] =
          .ok [(.operand output, output), (mark, "--seed"),
            (.operand (Text.ofInt seed), Text.ofInt seed)] := by
    intro flags hflags mark hmark
    rw [Mark.ofTexts, if_neg (Mark.ne_separatorText houtput), Mark.ofText_plain flags houtput,
      Mark.ofTexts, if_neg (by decide), hmark, Mark.ofTexts,
      if_neg (Mark.ofInt_ne_separatorText seed), Mark.ofText_ofInt hflags]
    rfl
  refine ofTexts_of_jobOf (by decide)
    (hmarks generalFlags (by decide) .unknown (by decide)) ?_
  rw [jobOf, if_neg (by decide), if_neg (by decide), if_pos rfl, collected,
    hmarks randomFlags (by decide) (.option .seed .none) (by decide)]
  have hcollect : Collected.collect randomFlags 1 .start
      [.operand output, .option .seed .none, .operand (Text.ofInt seed)] =
        .ok ⟨false, some seed, [some output], false⟩ := by
    rw [Collected.collect, if_neg (Mark.ne_separatorText houtput), Collected.collect,
      Collected.withSeed, readInteger?_ofInt hseed]
    · rfl
    · simp
  change (Collected.collect randomFlags 1 .start
    [.operand output, .option .seed .none, .operand (Text.ofInt seed)]).bind _ = _
  rw [hcollect]
  rfl

end Invocation

end Lindenmayer
