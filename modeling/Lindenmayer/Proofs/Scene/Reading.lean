import Lindenmayer.Proofs.Number.Decimal
import Lindenmayer.Proofs.Outcome
import Lindenmayer.Proofs.Scene.Description
import Lindenmayer.Scene.Reader

/-!
# Scenes read from documents

The reader of scenes gives a scene exactly if the document describes it. Every check of the reader
corresponds to one condition of the description, so the order of checks decides only which fault is
reported.
-/

namespace Lindenmayer

/-- Whole numbers are beyond the range exactly from `floatRange` on. -/
theorem round_ofNat_eq_none_iff (number : ℕ) :
    BinaryFormat.double.round (Ratio.ofNat number) = none ↔ floatRange ≤ number := by
  rw [BinaryFormat.round_eq_none_iff BinaryFormat.double_precision_pos BinaryFormat.double_range,
    Ratio.value_ofNat]
  have hrange : (2 * (BinaryFormat.double.limit : ℚ) - 1) * 2 ^ BinaryFormat.double.maxExponent =
      2 * (floatRange : ℕ) := by
    have hcast : ((floatRange : ℕ) : ℚ) = (2 ^ 54 - 1) * 2 ^ 970 := by
      rw [floatRange]
      -- the power is too large to be computed
      generalize 970 = exponent
      push_cast
      norm_num
    have hmax : (2 : ℚ) ^ BinaryFormat.double.maxExponent = 2 * 2 ^ 970 := by
      rw [← pow_succ', ← zpow_natCast]
      rfl
    rw [hcast, hmax, BinaryFormat.limit_cast]
    change (2 * 2 ^ 53 - 1) * (2 * (2 : ℚ) ^ 970) = 2 * ((2 ^ 54 - 1) * 2 ^ 970)
    generalize (2 : ℚ) ^ 970 = small
    ring
  rw [hrange, mul_le_mul_iff_right₀ two_pos, Nat.cast_le]

namespace Scene

variable {place name : Text} {document default value : Document} {number : Float}
  {members : List (Text × Document)}

theorem given_iff : Given members name default value ↔ member members name default = value := by
  rw [Given, member]
  cases members.lookup name with
  | none => simp [eq_comm]
  | some found => simp

theorem asString_eq_ok {text : Text} :
    asString place document = .ok text ↔ document = .string text := by
  cases document <;> simp [asString]

theorem asInteger_eq_ok {value : ℤ} :
    asInteger place document = .ok value ↔ document = .integer value := by
  cases document <;> simp [asInteger]

theorem asArray_eq_ok {items : List Document} :
    asArray place document = .ok items ↔ document = .array items := by
  cases document <;> simp [asArray]

theorem asObject_eq_ok : asObject place document = .ok members ↔ document = .object members := by
  cases document <;> simp [asObject]

/-- Numbers are read as the doubles that they denote. -/
theorem asNumber_eq_ok : asNumber place document = .ok number ↔ IsNumber document number := by
  cases document with
  | integer value =>
      have hnearest : IsNumber (.integer value) number ↔
          value.natAbs < floatRange ∧
            nearestFloat (value < 0) (Ratio.ofNat value.natAbs) = number := by
        refine ⟨?_, ?_⟩
        · rintro ⟨hrange⟩
          exact ⟨hrange, rfl⟩
        · rintro ⟨hrange, rfl⟩
          exact .whole hrange
      rw [hnearest, ← not_le, ← round_ofNat_eq_none_iff, asNumber, floatOfInt?, nearestFloat]
      cases BinaryFormat.double.round (Ratio.ofNat value.natAbs) <;> simp
  | number value =>
      have hfinite : IsNumber (.number value) number ↔ value.isFinite = true ∧ value = number := by
        refine ⟨?_, ?_⟩
        · rintro ⟨⟩
          next hfinite => exact ⟨hfinite, rfl⟩
        · rintro ⟨hfinite, rfl⟩
          exact .finite hfinite
      rw [hfinite, asNumber]
      split <;> simp_all
  | _ =>
      apply iff_of_false (by simp [asNumber])
      rintro ⟨⟩

theorem require_eq_ok {condition : Prop} [Decidable condition] {fault : SceneFault}
    {result : Unit} : require condition fault = .ok result ↔ condition := by
  rw [require]
  split <;> simp_all

theorem readItems_eq_ok {α : Type} {read : Text → Document → Except SceneFault α}
    {reads : Document → α → Prop}
    (hread : ∀ place document value, read place document = .ok value ↔ reads document value)
    {index : ℕ} {items : List Document} {values : List α} :
    readItems read place index items = .ok values ↔ List.Forall₂ reads items values := by
  induction items generalizing index values with
  | nil =>
      rw [readItems, Except.ok.injEq, List.forall₂_nil_left_iff]
      exact eq_comm
  | cons item items ih =>
      simp only [readItems, Except.bind_eq_ok, hread, ih, List.forall₂_cons_left_iff]
      constructor
      · rintro ⟨first, hfirst, rest, hrest, heq⟩
        exact ⟨first, rest, hfirst, hrest, (Except.ok.inj heq).symm⟩
      · rintro ⟨first, rest, hfirst, hrest, rfl⟩
        exact ⟨first, hfirst, rest, hrest, rfl⟩

theorem readRule_object {rule : Rule} :
    readRule place (.object members) = .ok rule ↔
      member members "key" .null = .string rule.key ∧
        member members "replacement" (.string []) = .string rule.replacement ∧ rule.key ≠ [] := by
  simp only [readRule, Except.bind_eq_ok, asString_eq_ok, require_eq_ok, Except.pure_eq_ok]
  constructor
  · rintro ⟨key, hmember, replacement, hreplacement, _, rfl, _, hkey, rfl⟩
    exact ⟨hmember, hreplacement, hkey⟩
  · rintro ⟨hmember, hreplacement, hkey⟩
    exact ⟨rule.key, hmember, rule.replacement, hreplacement, rule, rfl, (), hkey, rfl⟩

theorem readRule_pair {first second : Document} {rule : Rule} :
    readRule place (.array [first, second]) = .ok rule ↔
      first = .string rule.key ∧ second = .string rule.replacement ∧ rule.key ≠ [] := by
  simp only [readRule, asArray, Except.bind_eq_ok, Except.ok.injEq, exists_eq_left', asString_eq_ok,
    require_eq_ok, Except.pure_eq_ok]
  constructor
  · rintro ⟨key, hfirst, replacement, hsecond, _, hkey, rfl⟩
    exact ⟨hfirst, hsecond, hkey⟩
  · rintro ⟨hfirst, hsecond, hkey⟩
    exact ⟨rule.key, hfirst, rule.replacement, hsecond, (), hkey, rfl⟩

/-- Rules are read in either spelling. -/
theorem readRule_eq_ok {item : Document} {rule : Rule} :
    readRule place item = .ok rule ↔ IsRule item rule := by
  constructor
  · intro hread
    match item with
    | .object members =>
        obtain ⟨hmember, hreplacement, hkey⟩ := readRule_object.mp hread
        -- a key that is missing would be read as null, which is no string
        have hgiven := (given_iff.mpr hmember).resolve_right fun hmissing => nomatch hmissing.2
        exact .object hkey hgiven (given_iff.mpr hreplacement)
    | .array [first, second] =>
        obtain ⟨rfl, rfl, hkey⟩ := readRule_pair.mp hread
        exact .pair hkey
    | .array [] | .array [_] | .array (_ :: _ :: _ :: _) => exact nomatch hread
    | .null | .bool _ | .integer _ | .number _ | .string _ => exact nomatch hread
  · intro hrule
    cases hrule with
    | pair hkey => exact readRule_pair.mpr ⟨rfl, rfl, hkey⟩
    | object hkey hmember hreplacement =>
        exact readRule_object.mpr ⟨given_iff.mp (.inl hmember), given_iff.mp hreplacement, hkey⟩

/-- Rules are read one by one, and their keys are cut. -/
theorem readRules_eq_ok {index : ℕ} {items : List Document} {rules : List Rule} :
    (readRules place index items).outcome = .ok rules ↔
      ∃ given, List.Forall₂ IsRule items given ∧ rules = given.map Rule.cut := by
  induction items generalizing index rules with
  | nil =>
      constructor
      · rintro ⟨⟩
        exact ⟨[], .nil, rfl⟩
      · rintro ⟨_, ⟨⟩, rfl⟩
        rfl
  | cons item items ih =>
      simp only [readRules, Report.bind_outcome_eq_ok, Report.ofExcept, Report.tell, readRule_eq_ok,
        ih, Report.pure_eq, Except.ok.injEq]
      constructor
      · rintro ⟨rule, hrule, _, -, _, ⟨given, hgiven, rfl⟩, rfl⟩
        exact ⟨rule :: given, .cons hrule hgiven, rfl⟩
      · rintro ⟨_, hforall, rfl⟩
        cases hforall with
        | cons hrule hgiven => exact ⟨_, hrule, (), trivial, _, ⟨_, hgiven, rfl⟩, rfl⟩

/-- Each rule is told about on its own. -/
theorem readRules_eq {index : ℕ} {items : List Document} {given : List Rule}
    (hgiven : List.Forall₂ IsRule items given) :
    readRules place index items = ⟨given.flatMap Rule.notices, .ok (given.map Rule.cut)⟩ := by
  induction hgiven generalizing index with
  | nil => rfl
  | cons hrule _ ih =>
      rw [readRules, readRule_eq_ok.mpr hrule, ih]
      simp [Report.ofExcept, Report.tell]

theorem readHeading_eq_ok {heading : Vec3} :
    readHeading place document = .ok heading ↔ IsVector document heading := by
  rw [IsVector]
  constructor
  · intro hread
    obtain ⟨items, hitems, hread⟩ := Except.bind_eq_ok.mp hread
    rw [asArray_eq_ok] at hitems
    split at hread
    next first second third =>
      simp only [Except.bind_eq_ok, asNumber_eq_ok, Except.pure_eq_ok] at hread
      obtain ⟨x, hx, y, hy, z, hz, rfl⟩ := hread
      exact ⟨first, second, third, hitems, hx, hy, hz⟩
    next => exact nomatch hread
  · rintro ⟨first, second, third, rfl, hx, hy, hz⟩
    simp only [readHeading, asArray, Except.bind_eq_ok, Except.ok.injEq, exists_eq_left',
      asNumber_eq_ok, Except.pure_eq_ok]
    exact ⟨_, hx, _, hy, _, hz, rfl⟩

theorem readItems_asString {index : ℕ} {items : List Document} {texts : List Text} :
    readItems asString place index items = .ok texts ↔ items = texts.map .string := by
  have hread := @asString_eq_ok
  rw [readItems_eq_ok fun place document value => @hread place document value,
    ← List.forall₂_map_right_iff, List.forall₂_eq_eq_eq]

theorem readIterations_eq_ok {iterations : ℕ} :
    readIterations document = .ok iterations ↔
      document = .integer iterations ∧ iterations ≤ maxIterations := by
  simp only [readIterations, Except.bind_eq_ok, asInteger_eq_ok, require_eq_ok, Except.pure_eq_ok]
  constructor
  · rintro ⟨value, rfl, -, ⟨hnonneg, hle⟩, rfl⟩
    rw [Int.toNat_of_nonneg hnonneg]
    exact ⟨rfl, Int.toNat_le.mpr hle⟩
  · rintro ⟨rfl, hle⟩
    exact ⟨iterations, rfl, (), ⟨Int.natCast_nonneg iterations, Int.ofNat_le.mpr hle⟩, rfl⟩

theorem readStart_eq_ok {start : Text} :
    readStart document = .ok start ↔ document = .string start ∧ start ≠ [] := by
  simp only [readStart, Except.bind_eq_ok, asString_eq_ok, require_eq_ok, Except.pure_eq_ok]
  constructor
  · rintro ⟨_, rfl, -, hne, rfl⟩
    exact ⟨rfl, hne⟩
  · rintro ⟨rfl, hne⟩
    exact ⟨start, rfl, (), hne, rfl⟩

theorem givesNumber_iff {default : Float} :
    GivesNumber members name default number ↔
      IsNumber (member members name (.number default)) number := by
  simp only [GivesNumber, given_iff, exists_eq_left']

/-- The setup of a turtle is read member by member. -/
theorem readSetup_eq_ok {setup : Setup (Option Text)} :
    readSetup document = .ok setup ↔
      ∃ members, document = .object members ∧ DescribesSetup members setup := by
  constructor
  · intro hread
    simp only [readSetup, Except.bind_eq_ok, asObject_eq_ok, asNumber_eq_ok, require_eq_ok,
      readHeading_eq_ok, readItems_asString, asArray_eq_ok] at hread
    obtain ⟨members, rfl, angle, hangle, length, hlength, width, hwidth, -, hlengthPos, -,
      hwidthPos, widthScale, hwidthScale, lengthScale, hlengthScale, -, hwidthScalePos, -,
      hlengthScalePos, heading, hheading, -, hne, _, hmaterials, names, rfl, hlast⟩ := hread
    -- A missing material counts as null, and a given one has to be a text.
    have hdefault : Given members "default_material" .null
        (materialDocument setup.defaultMaterial) ∧
          setup = ⟨angle, widthScale, lengthScale, names.map some, setup.defaultMaterial, heading,
            length, width⟩ := by
      rw [given_iff]
      split at hlast
      next hnull =>
        cases hlast
        exact ⟨hnull, rfl⟩
      next =>
        simp only [Except.bind_eq_ok, Except.map_eq_ok, asString_eq_ok, Except.pure_eq_ok] at hlast
        obtain ⟨_, ⟨text, htext, rfl⟩, rfl⟩ := hlast
        exact ⟨htext, rfl⟩
    obtain ⟨hdefaultMaterial, hsetup⟩ := hdefault
    rw [hsetup]
    exact ⟨members, rfl,
      { angle := givesNumber_iff.mpr hangle
        length := givesNumber_iff.mpr hlength
        width := givesNumber_iff.mpr hwidth
        widthScale := givesNumber_iff.mpr hwidthScale
        lengthScale := givesNumber_iff.mpr hlengthScale
        length_pos := hlengthPos
        width_pos := hwidthPos
        widthScale_pos := hwidthScalePos
        lengthScale_pos := hlengthScalePos
        heading := ⟨_, given_iff.mpr rfl, hheading⟩
        heading_ne_zero := Bool.eq_false_iff.mpr hne
        materials := ⟨names, given_iff.mpr hmaterials, rfl⟩
        defaultMaterial := hdefaultMaterial }⟩
  · rintro ⟨members, rfl, hsetup⟩
    obtain ⟨angle, widthScale, lengthScale, materials, defaultMaterial, heading, length, width⟩ :=
      setup
    obtain ⟨headingDocument, hgiven, hheading⟩ := hsetup.heading
    obtain ⟨names, hmaterials, rfl⟩ := hsetup.materials
    have hlast := given_iff.mp hsetup.defaultMaterial
    rw [given_iff] at hgiven hmaterials
    simp only [readSetup, Except.bind_eq_ok, asObject_eq_ok, asNumber_eq_ok, require_eq_ok,
      readHeading_eq_ok, readItems_asString, asArray_eq_ok]
    refine ⟨members, rfl, angle, givesNumber_iff.mp hsetup.angle, length,
      givesNumber_iff.mp hsetup.length, width, givesNumber_iff.mp hsetup.width, (),
      hsetup.length_pos, (), hsetup.width_pos, widthScale, givesNumber_iff.mp hsetup.widthScale,
      lengthScale, givesNumber_iff.mp hsetup.lengthScale, (), hsetup.widthScale_pos, (),
      hsetup.lengthScale_pos, heading, hgiven ▸ hheading, (),
      Bool.eq_false_iff.mp hsetup.heading_ne_zero, _, hmaterials, names, rfl, ?_⟩
    rw [hlast]
    cases defaultMaterial <;> rfl

theorem ofDocument_eq_ok {scene : Scene} :
    (ofDocument document).outcome = .ok scene ↔ Describes document scene := by
  simp only [ofDocument, Report.bind_outcome_eq_ok, Report.ofExcept, asObject_eq_ok, asString_eq_ok,
    asArray_eq_ok, readStart_eq_ok, readIterations_eq_ok, readRules_eq_ok, readSetup_eq_ok,
    Report.pure_eq, Except.ok.injEq]
  constructor
  · rintro ⟨members, rfl, name, hname, start, ⟨hstart, hne⟩, iterations, ⟨hiterations, hle⟩, items,
      hitems, _, ⟨given, hgiven, rfl⟩, setup, ⟨turtle, hturtle, hsetup⟩, rfl⟩
    exact ⟨members, rfl,
      { name := given_iff.mpr hname
        start := given_iff.mpr hstart
        start_ne_nil := hne
        iterations := given_iff.mpr hiterations
        iterations_le := hle
        rules := ⟨items, given, given_iff.mpr hitems, hgiven, rfl⟩
        setup := ⟨turtle, given_iff.mpr hturtle, hsetup⟩ }⟩
  · rintro ⟨members, rfl, hscene⟩
    obtain ⟨items, given, hitems, hgiven, hrules⟩ := hscene.rules
    obtain ⟨turtle, hturtle, hsetup⟩ := hscene.setup
    exact ⟨members, rfl, scene.name, given_iff.mp hscene.name, scene.start,
      ⟨given_iff.mp hscene.start, hscene.start_ne_nil⟩, scene.iterations,
      ⟨given_iff.mp hscene.iterations, hscene.iterations_le⟩, items, given_iff.mp hitems,
      scene.rules, ⟨given, hgiven, hrules⟩, scene.setup, ⟨turtle, given_iff.mp hturtle, hsetup⟩,
      rfl⟩

/-- A scene is read with the notices about its rules and no others. -/
theorem notices_ofDocument {scene : Scene} {items : List Document} {given : List Rule}
    (hscene : DescribesScene members scene)
    (hitems : Given members "rules" (.array []) (.array items))
    (hgiven : List.Forall₂ IsRule items given) :
    (ofDocument (.object members)).notices = given.flatMap Rule.notices := by
  obtain ⟨turtle, hturtle, hsetup⟩ := hscene.setup
  have hname := (@asString_eq_ok "name" _ _).mpr (given_iff.mp hscene.name)
  have hstart := readStart_eq_ok.mpr ⟨given_iff.mp hscene.start, hscene.start_ne_nil⟩
  have hiterations := readIterations_eq_ok.mpr
    ⟨given_iff.mp hscene.iterations, hscene.iterations_le⟩
  have harray := (@asArray_eq_ok "rules" _ _).mpr (given_iff.mp hitems)
  have hturtle := readSetup_eq_ok.mpr ⟨turtle, given_iff.mp hturtle, hsetup⟩
  simp only [ofDocument, asObject, Report.ofExcept, Report.ok_bind, hname, hstart, hiterations,
    harray, readRules_eq hgiven, hturtle, Report.pure_eq, List.nil_append, List.append_nil]

/-- Exactly the documents that describe a scene are read, each as the scene that it describes and
with the notices about the rules that it gives; every other document is refused. -/
theorem reads_described_scenes (document : Document) :
    (∀ scene, (ofDocument document).outcome = .ok scene ↔ Describes document scene) ∧
      ((∃ fault, (ofDocument document).outcome = .error fault) ↔
        ¬ ∃ scene, Describes document scene) ∧
      ∀ members scene items given, document = .object members → DescribesScene members scene →
        Given members "rules" (.array []) (.array items) → List.Forall₂ IsRule items given →
        (ofDocument document).notices = given.flatMap Rule.notices := by
  refine ⟨fun scene => ofDocument_eq_ok, ?_, ?_⟩
  · simp only [← ofDocument_eq_ok]
    cases (ofDocument document).outcome <;> simp
  · rintro members scene items given rfl hscene hitems hgiven
    exact notices_ofDocument hscene hitems hgiven

/-- Rules in both spellings, the first with a long key, and a member without a meaning. -/
def twoSpellings : List (Text × Document) :=
  [("axiom", .string "FX"), ("comment", .null), ("turtle", .object [("angle", .integer 30)]),
    ("rules", .array [.array [.string "FF", .string "F+F"], .object [("key", .string "X")]])]

theorem twoSpellings_described :
    (∃ scene, Describes (.object twoSpellings) scene ∧
      scene.rules = [⟨"F", "F+F"⟩, ⟨"X", ""⟩] ∧ scene.setup.angle = 30) ∧
      (ofDocument (.object twoSpellings)).notices = [.keyCut "FF"] ∧
      ¬ ∃ scene,
        Describes (.object [("axiom", .string "F"), ("iterations", .bool true)]) scene := by
  have hscene : (ofDocument (.object twoSpellings)).outcome =
      .ok ⟨"L-System", "FX", 0, [⟨"F", "F+F"⟩, ⟨"X", ""⟩], { defaultSetup with angle := 30 }⟩ := by
    decide +kernel
  have hrefused :
      (ofDocument (.object [("axiom", .string "F"), ("iterations", .bool true)])).outcome =
        .error (.wrongKind "iterations" .integer) := by
    decide +kernel
  have hdescribes := ((reads_described_scenes (.object twoSpellings)).1 _).mp hscene
  refine ⟨⟨_, hdescribes, rfl, rfl⟩, ?_, (reads_described_scenes _).2.1.mp ⟨_, hrefused⟩⟩
  obtain ⟨_, hobject, hmembers⟩ := hdescribes
  obtain rfl := Document.object.inj hobject
  have hgiven : List.Forall₂ IsRule
      [.array [.string "FF", .string "F+F"], .object [("key", .string "X")]]
      [⟨"FF", "F+F"⟩, ⟨"X", ""⟩] :=
    .cons (@IsRule.pair ⟨"FF", "F+F"⟩ (by decide))
      (.cons (@IsRule.object _ ⟨"X", ""⟩ (by decide) rfl (Or.inr ⟨rfl, rfl⟩)) .nil)
  exact (reads_described_scenes _).2.2 _ _ _ _ rfl hmembers (Or.inl rfl) hgiven

end Scene

end Lindenmayer
