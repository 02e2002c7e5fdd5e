import Lindenmayer.Proofs.Scene.Numbers
import Lindenmayer.Proofs.Space.Norm
import Lindenmayer.Turtle.State

/-!
# Headings of scenes

A heading is refused as zero if it has no direction, and this is found out through its norm. So a
large heading whose norm leaves the range of doubles is refused as zero. A heading with a coordinate
of one or more is accepted exactly if its norm is finite.
-/

namespace Lindenmayer.Scene

section Members

variable {members turtle : List (Text × Document)} {name other : Text}
  {default value document : Document}

/-- A member that is put in front hides others of its name only. -/
theorem given_cons (hname : (name == other) = false) :
    Given ((other, value) :: members) name default document ↔
      Given members name default document := by
  rw [Given, Given, List.lookup_cons, hname]

theorem givesNumber_cons {default number : Float} (hname : (name == other) = false) :
    GivesNumber ((other, value) :: members) name default number ↔
      GivesNumber members name default number := by
  simp only [GivesNumber, given_cons hname]

/-- The document of a scene with another heading, the one straight up. -/
def uprightDocument (members turtle : List (Text × Document)) : Document :=
  .object (("turtle", .object (("heading", Vec3.up.toDocument) :: turtle)) :: members)

/-- A scene with another heading. -/
def withHeading (scene : Scene) (heading : Vec3) : Scene :=
  { scene with setup := { scene.setup with heading := heading } }

variable {scene : Scene} {setup : Setup (Option Text)} {heading : Vec3}

/-- What a setup says of another heading is only that this has a direction. -/
theorem DescribesSetup.withHeading
    (hsetup : DescribesSetup (("heading", Vec3.up.toDocument) :: turtle) setup)
    (hgiven : Given turtle "heading" Vec3.up.toDocument document)
    (hheading : IsVector document heading)
    (hnonzero : (heading.normalize == Vec3.origin) = false) :
    DescribesSetup turtle { setup with heading := heading } := by
  have hnumber : ∀ {name : Text} {default number : Float}, (name == "heading") = false →
      GivesNumber (("heading", Vec3.up.toDocument) :: turtle) name default number →
        GivesNumber turtle name default number :=
    fun hname => (givesNumber_cons hname).mp
  obtain ⟨names, hmaterials, hnames⟩ := hsetup.materials
  exact
    { angle := hnumber (by decide) hsetup.angle
      length := hnumber (by decide) hsetup.length
      width := hnumber (by decide) hsetup.width
      widthScale := hnumber (by decide) hsetup.widthScale
      lengthScale := hnumber (by decide) hsetup.lengthScale
      length_pos := hsetup.length_pos
      width_pos := hsetup.width_pos
      widthScale_pos := hsetup.widthScale_pos
      lengthScale_pos := hsetup.lengthScale_pos
      heading := ⟨document, hgiven, hheading⟩
      heading_ne_zero := hnonzero
      materials := ⟨names, (given_cons (by decide)).mp hmaterials, hnames⟩
      defaultMaterial := (given_cons (by decide)).mp hsetup.defaultMaterial }

/-- A heading without a direction is found out after the numbers of the turtle. -/
theorem readSetup_zeroHeading
    (hsetup : DescribesSetup (("heading", Vec3.up.toDocument) :: turtle) setup)
    (hgiven : Given turtle "heading" Vec3.up.toDocument document)
    (hheading : IsVector document heading)
    (hzero : (heading.normalize == Vec3.origin) = true) :
    readSetup (.object turtle) = .error .zeroHeading := by
  have hnumber : ∀ {place name : Text} {default number : Float}, (name == "heading") = false →
      GivesNumber (("heading", Vec3.up.toDocument) :: turtle) name default number →
        asNumber place (member turtle name (.number default)) = .ok number :=
    fun hname hgives =>
      asNumber_eq_ok.mpr (givesNumber_iff.mp ((givesNumber_cons hname).mp hgives))
  have hskip : ∀ {α β : Type} {first : Except SceneFault α} {next : α → Except SceneFault β}
      {middle : α}, first = .ok middle → next middle = .error .zeroHeading →
        first >>= next = .error .zeroHeading :=
    fun hfirst hnext => Except.bind_eq_error.mpr (.inr ⟨_, hfirst, hnext⟩)
  have hrequire : ∀ {condition : Prop} [Decidable condition] {fault : SceneFault}, condition →
      require condition fault = .ok () :=
    fun hcondition => require_eq_ok.mpr hcondition
  have hvector := (@readHeading_eq_ok "turtle.heading" _ _).mpr hheading
  rw [← given_iff.mp hgiven] at hvector
  -- Every check before the one of the heading succeeds.
  refine hskip rfl ?_
  refine hskip (hnumber (by decide) hsetup.angle) ?_
  refine hskip (hnumber (by decide) hsetup.length) ?_
  refine hskip (hnumber (by decide) hsetup.width) ?_
  refine hskip (hrequire hsetup.length_pos) ?_
  refine hskip (hrequire hsetup.width_pos) ?_
  refine hskip (hnumber (by decide) hsetup.widthScale) ?_
  refine hskip (hnumber (by decide) hsetup.lengthScale) ?_
  refine hskip (hrequire hsetup.widthScale_pos) ?_
  refine hskip (hrequire hsetup.lengthScale_pos) ?_
  refine hskip hvector ?_
  exact Except.bind_eq_error.mpr (.inl (if_neg (not_not_intro hzero)))

/-- With everything but the turtle in order, a scene is read as its turtle is. -/
theorem outcome_ofDocument (hscene : DescribesScene (("turtle", value) :: members) scene) :
    (ofDocument (.object members)).outcome =
      (readSetup (member members "turtle" (.object []))).map fun setup =>
        { scene with setup := setup } := by
  have hgiven : ∀ {name : Text} {default document : Document}, (name == "turtle") = false →
      Given (("turtle", value) :: members) name default document →
        member members name default = document :=
    fun hname hgiven => given_iff.mp ((given_cons hname).mp hgiven)
  obtain ⟨items, given, hitems, hrules, hcut⟩ := hscene.rules
  have hname := (@asString_eq_ok "name" _ _).mpr (hgiven (by decide) hscene.name)
  have hstart := readStart_eq_ok.mpr ⟨hgiven (by decide) hscene.start, hscene.start_ne_nil⟩
  have hiterations := readIterations_eq_ok.mpr
    ⟨hgiven (by decide) hscene.iterations, hscene.iterations_le⟩
  have harray := (@asArray_eq_ok "rules" _ _).mpr (hgiven (by decide) hitems)
  simp only [ofDocument, asObject, Report.ofExcept, Report.ok_bind, hname, hstart, hiterations,
    harray, readRules_eq hrules, ← hcut]
  cases readSetup (member members "turtle" (.object [])) <;> rfl

/-- A scene is judged by the direction of its heading, if nothing else is wrong with it. -/
theorem ofDocument_heading
    (hturtle : members.lookup (Text.ofString "turtle") = some (.object turtle))
    (hgiven : turtle.lookup (Text.ofString "heading") = some document)
    (hheading : IsVector document heading)
    (hvalid : Describes (uprightDocument members turtle) scene) :
    (ofDocument (.object members)).outcome =
      if heading.normalize == Vec3.origin then .error .zeroHeading
      else .ok (withHeading scene heading) := by
  obtain ⟨_, hobject, hscene⟩ := hvalid
  obtain rfl := Document.object.inj hobject
  obtain ⟨_, hinner, hsetup⟩ := hscene.setup
  rw [given_iff, member, List.lookup_cons_self] at hinner
  obtain rfl := Document.object.inj hinner
  rw [outcome_ofDocument hscene, given_iff.mp (.inl hturtle)]
  split
  next hzero => rw [readSetup_zeroHeading hsetup (.inl hgiven) hheading hzero]; rfl
  next hnonzero =>
    have hdescribes := hsetup.withHeading (.inl hgiven) hheading (Bool.eq_false_iff.mpr hnonzero)
    rw [readSetup_eq_ok.mpr ⟨turtle, rfl, hdescribes⟩]
    rfl

theorem IsVector.isFinite (hheading : IsVector document heading) : heading.IsFinite := by
  obtain ⟨_, _, _, -, hx, hy, hz⟩ := hheading
  intro axis
  cases axis with
  | x => exact hx.isFinite
  | y => exact hy.isFinite
  | z => exact hz.isFinite

/-- Of a scene in order with a heading that has a coordinate of one or more, the heading decides: it
is taken, and the turtle starts with a direction, if its norm is finite, and it is refused as zero
otherwise. The norm is finite if all coordinates are up to `2 ^ 511`, and it is not if one of them
is from `2 ^ 512` on. -/
theorem large_headings_judged
    (hturtle : members.lookup (Text.ofString "turtle") = some (.object turtle))
    (hgiven : turtle.lookup (Text.ofString "heading") = some document)
    (hheading : IsVector document heading)
    (hvalid : Describes (uprightDocument members turtle) scene)
    (hlarge : ∃ axis negative size, Denotes (heading.coordinate axis) negative size ∧ 1 ≤ size) :
    (heading.norm.isFinite = true →
      (ofDocument (.object members)).outcome = .ok (withHeading scene heading) ∧
        ((State.initial (withHeading scene heading).setup).heading == Vec3.origin) = false) ∧
    (heading.norm.isFinite = false →
      (ofDocument (.object members)).outcome = .error .zeroHeading) ∧
    ((∀ axis, ∃ negative size,
        Denotes (heading.coordinate axis) negative size ∧ size ≤ 2 ^ (511 : ℤ)) →
      heading.norm.isFinite = true) ∧
    ((∃ axis negative size,
        Denotes (heading.coordinate axis) negative size ∧ 2 ^ (512 : ℤ) ≤ size) →
      heading.norm.isFinite = false) := by
  have hfinite := hheading.isFinite
  have houtcome := ofDocument_heading hturtle hgiven hheading hvalid
  obtain ⟨axis, negative, size, hsize, hle⟩ := hlarge
  have hzero := hfinite.normalize_beq_origin hsize hle
  refine ⟨fun hnorm => ?_, fun hnorm => ?_, fun hsmall => ?_, ?_⟩
  · have hnonzero : (heading.normalize == Vec3.origin) = false := by
      rw [← Bool.not_eq_true, hzero, hnorm]
      decide
    rw [hnonzero] at houtcome
    exact ⟨houtcome, hnonzero⟩
  · rwa [hzero.mpr hnorm] at houtcome
  · obtain ⟨norm, hdenotes, -⟩ := Vec3.atMost_norm hsmall
    exact hdenotes.isFinite
  · rintro ⟨_, _, _, hhuge, hrange⟩
    exact isFinite_of_infinite (hfinite.norm_infinite hhuge hrange)

end Members

section Step

/-- The members of a scene of one step in a direction. -/
def stepMembers (heading : Vec3) : List (Text × Document) :=
  [("axiom", .string "F"), ("turtle", .object [("heading", heading.toDocument)])]

/-- A scene of one step up. -/
def upwardStep : Scene := ⟨"L-System", "F", 0, [], defaultSetup⟩

theorem isVector_toDocument {heading : Vec3} (hfinite : heading.IsFinite) :
    IsVector heading.toDocument heading :=
  ⟨_, _, _, rfl, .finite (hfinite .x), .finite (hfinite .y), .finite (hfinite .z)⟩

theorem slantedStep_judged :
    (ofDocument (.object (stepMembers ⟨3, 0, -4⟩))).outcome =
      .ok (withHeading upwardStep ⟨3, 0, -4⟩) := by
  have hvalid : (ofDocument (uprightDocument (stepMembers ⟨3, 0, -4⟩)
      [("heading", (⟨3, 0, -4⟩ : Vec3).toDocument)])).outcome = .ok upwardStep := by
    decide +kernel
  have hthree : Denotes 3 false (6755399441055744 * 2 ^ (-51 : ℤ)) :=
    ⟨⟨6755399441055744, -51⟩, by decide +kernel, by norm_num [Magnitude.value]⟩
  have hfinite : (⟨3, 0, -4⟩ : Vec3).IsFinite := by
    intro axis
    cases axis <;> decide +kernel
  exact ((large_headings_judged rfl rfl (isVector_toDocument hfinite) (ofDocument_eq_ok.mp hvalid)
    ⟨.x, false, _, hthree, by norm_num⟩).1 (by decide +kernel)).1

/-- A heading of the size `1e200` is not zero, but it is refused as zero. -/
theorem hugeStep_refused :
    IsVector (⟨1e200, 0, 0⟩ : Vec3).toDocument ⟨1e200, 0, 0⟩ ∧
      Describes (uprightDocument (stepMembers ⟨1e200, 0, 0⟩)
        [("heading", (⟨1e200, 0, 0⟩ : Vec3).toDocument)]) upwardStep ∧
      (∃ size, Denotes 1e200 false size ∧ 1 ≤ size) ∧
      (ofDocument (.object (stepMembers ⟨1e200, 0, 0⟩))).outcome = .error .zeroHeading := by
  have hfinite : (⟨1e200, 0, 0⟩ : Vec3).IsFinite := by
    intro axis
    cases axis <;> decide +kernel
  have hsize : Denotes 1e200 false (5883593420661338 * 2 ^ (612 : ℤ)) :=
    ⟨⟨5883593420661338, 612⟩, by decide +kernel, by norm_num [Magnitude.value]⟩
  have hone : (1 : ℚ) ≤ 5883593420661338 * 2 ^ (612 : ℤ) :=
    one_le_mul_of_one_le_of_one_le (by norm_num) (one_le_zpow₀ one_le_two (by decide))
  exact ⟨isVector_toDocument hfinite, ofDocument_eq_ok.mp (by decide +kernel),
    ⟨_, hsize, hone⟩, by decide +kernel⟩

end Step

end Lindenmayer.Scene
