import Lindenmayer.Proofs.Drawing
import Lindenmayer.Proofs.Scene.Numbers

/-!
# Drawings of scenes

A scene that was read is drawn, or its last generation has a parameter that cannot be read or closes
a branch that is not open. Its angle and all parameters are finite, so no turn and no choice of a
material fails.
-/

namespace Lindenmayer

variable {μ : Type} {setup : Setup μ} {word : Text} {tokens : List Token}

theorem isSome_floorFloat? {number : Float} (hfinite : number.isFinite = true) :
    (floorFloat? number).isSome := by
  obtain ⟨negative, magnitude, hparts⟩ := FloatParts.isFinite_iff.mp hfinite
  rw [floorFloat?, hparts]
  cases negative <;> rfl

/-- The number of a chosen material is one of those of the setup. -/
theorem State.exists_slot_of_chosen? {parameter : Option Float} {material : μ}
    (hchosen : chosen? setup parameter = some material) :
    ∃ number, ∃ slot : Nat, parameter = some number ∧ floorFloat? number = some (slot : Int) ∧
      slot < setup.materials.length ∧ setup.materials[slot]? = some material := by
  simp only [chosen?, Option.bind_eq_bind, Option.bind_eq_some_iff] at hchosen
  obtain ⟨number, hnumber, slot, hfloor, hslot⟩ := hchosen
  rw [Option.ite_none_left_eq_some, not_lt] at hslot
  obtain ⟨hnonneg, hmaterial⟩ := hslot
  refine ⟨number, slot.toNat, hnumber, ?_, (List.getElem?_eq_some_iff.mp hmaterial).1, hmaterial⟩
  rw [hfloor, Int.toNat_of_nonneg hnonneg]

/-- What a token asks for can be done, whatever has become of the turtle. -/
structure Setup.Permits (setup : Setup μ) (token : Token) : Prop where
  finite : ∀ parameter, token.parameter = some parameter →
    parameter.isFinite = true ∧ (floorFloat? parameter).isSome
  degrees : (token.parameter.getD setup.angle).isFinite = true
  turns : ∀ axis backward, token.command = .turn axis backward → ∀ heading : Vec3,
    ∃ turned, heading.rotate axis (if backward then -(token.parameter.getD setup.angle)
      else token.parameter.getD setup.angle) = .ok turned
  chooses : ∀ material, State.chosen? setup token.parameter = some material →
    ∃ number, ∃ slot : Nat, token.parameter = some number ∧
      floorFloat? number = some (slot : Int) ∧ slot < setup.materials.length ∧
      setup.materials[slot]? = some material

/-- Tokens that were read are permitted by a setup with a finite angle. -/
theorem permits_of_tokenize (hangle : setup.angle.isFinite = true)
    (htokens : tokenize word = .ok tokens) : ∀ token ∈ tokens, setup.Permits token := by
  intro token htoken
  have hobey := canObey_of_tokenize (FloatParts.isInf_of_isFinite hangle) htokens token htoken
  exact {
    finite := fun parameter hparameter => by
      have hfinite := isFinite_parameter htokens htoken hparameter
      exact ⟨hfinite, isSome_floorFloat? hfinite⟩
    degrees := by
      cases hparameter : token.parameter with
      | none => exact hangle
      | some degrees => exact isFinite_parameter htokens htoken hparameter
    turns := fun axis backward hturn heading =>
      State.rotate_eq_ok axis (hobey axis backward hturn)
    chooses := fun material hchosen => State.exists_slot_of_chosen? hchosen }

/-- A scene that was read has a last generation that cannot be read exactly if one of its groups has
the form of a number with a unit separator. Otherwise it is drawn, or it closes a branch that is not
open; nothing else can go wrong. -/
theorem draw_of_ofDocument {document : Document} {scene : Scene}
    (hscene : (Scene.ofDocument document).outcome = .ok scene) :
    let word := (RuleTable.ofRules scene.rules).1.generation scene.iterations scene.start
    let outcome := (draw scene.setup scene.rules scene.start scene.iterations).outcome
    ((∃ content, outcome = .error (.unreadableNumber content)) ↔ UnreadableWord word) ∧
    (¬ UnreadableWord word → (∃ segments, outcome = .ok segments) ∨
      ∃ index, outcome = .error (.branchUnderflow index)) ∧
    ∀ tokens, tokenize word = .ok tokens → ∀ token ∈ tokens, scene.setup.Permits token := by
  intro word outcome
  have hangle := Scene.isFinite_angle hscene
  rcases draw_cases (FloatParts.isInf_of_isFinite hangle) scene.rules scene.start
    scene.iterations with ⟨hword, hfault⟩ | ⟨hword, hdraws⟩
  · exact ⟨iff_of_true hfault hword, fun hreadable => absurd hword hreadable,
      fun _ htokens => permits_of_tokenize hangle htokens⟩
  · refine ⟨iff_of_false ?_ hword, fun _ => hdraws,
      fun _ htokens => permits_of_tokenize hangle htokens⟩
    rintro ⟨content, hcontent⟩
    rcases hdraws with ⟨segments, hsegments⟩ | ⟨index, hindex⟩
    · exact nomatch hcontent.symm.trans hsegments
    · exact nomatch hcontent.symm.trans hindex

/-- A scene of which nothing but the grammar is given. -/
def plainScene (start : Text) (iterations : Nat) (rules : List Rule) : Scene :=
  ⟨"L-System", start, iterations, rules, Scene.defaultSetup⟩

theorem draw_of_ofDocument_plainScene :
    (∀ start ∈ (["F(\u001c1)", "F(1)]"] : List Text),
      (Scene.ofDocument (.object [("axiom", .string start)])).outcome =
        .ok (plainScene start 0 [])) ∧
      UnreadableWord "F(\u001c1)" ∧
      (∃ content, (draw Scene.defaultSetup [] "F(\u001c1)" 0).outcome =
        .error (.unreadableNumber content)) ∧
      ¬ UnreadableWord "F(1)]" ∧
      ((∃ segments, (draw Scene.defaultSetup [] "F(1)]" 0).outcome = .ok segments) ∨
        ∃ index, (draw Scene.defaultSetup [] "F(1)]" 0).outcome =
          .error (.branchUnderflow index)) := by
  have hscenes : ∀ start ∈ (["F(\u001c1)", "F(1)]"] : List Text),
      (Scene.ofDocument (.object [("axiom", .string start)])).outcome =
        .ok (plainScene start 0 []) := by
    decide +kernel
  have hunreadable : UnreadableWord "F(\u001c1)" :=
    ⟨'F', "\u001c1", by decide +kernel, by decide +kernel, '\u001c', by decide +kernel, by decide⟩
  have hreadable : ¬ UnreadableWord "F(1)]" := by
    have htokens : tokenize "F(1)]" = .ok [⟨"F", some 1⟩, ⟨"]", none⟩] := by decide +kernel
    rw [← exists_tokenize_error_iff, htokens]
    exact fun ⟨_, hfault⟩ => nomatch hfault
  exact ⟨hscenes, hunreadable,
    (draw_of_ofDocument (hscenes _ (.head _))).1.mpr hunreadable, hreadable,
    (draw_of_ofDocument (hscenes _ (.tail _ (.head _)))).2.1 hreadable⟩

end Lindenmayer
