import Lindenmayer.Drawing
import Lindenmayer.Proofs.Number.Conversion
import Lindenmayer.Proofs.Token.Reading
import Lindenmayer.Proofs.Turtle.Stopped

/-!
# Drawings in three stages

A drawing grows a word, reads the tokens of its last generation and drives the turtle over them. The
parameters of tokens that were read are never infinite, so a turtle with another angle obeys all of
them, and only a parameter that cannot be read or a missing branch stops the drawing.
-/

namespace Lindenmayer

variable {μ : Type}

theorem outcome_drawWord (setup : Setup μ) (start : Text) (count : Int) (word : Text) :
    (drawWord setup start count word).outcome =
      (tokenize word).bind fun tokens => (interpret setup tokens).outcome := by
  rw [drawWord, Report.outcome_bind]
  congr 1
  funext tokens
  rw [Report.outcome_bind]
  cases (interpret setup tokens).outcome <;> rfl

theorem outcome_grow (rules : List Rule) (start : Text) (count : Nat) :
    (grow rules start count).outcome = .ok ((RuleTable.ofRules rules).1.generation count start) :=
  rfl

/-- A drawing is that of the tokens of the last generation. -/
theorem outcome_draw (setup : Setup μ) (rules : List Rule) (start : Text) (count : Nat) :
    (draw setup rules start count).outcome =
      (tokenize ((RuleTable.ofRules rules).1.generation count start)).bind fun tokens =>
        (interpret setup tokens).outcome :=
  outcome_drawWord setup start count _

theorem draw_eq_ok {setup : Setup μ} {rules : List Rule} {start : Text} {count : Nat}
    {segments : List (Segment μ)} :
    (draw setup rules start count).outcome = .ok segments ↔
      ∃ tokens, tokenize ((RuleTable.ofRules rules).1.generation count start) = .ok tokens ∧
        (interpret setup tokens).outcome = .ok segments := by
  rw [outcome_draw]
  exact Except.bind_eq_ok

theorem exists_piece_of_mem {parts : List Piece} {tokens : List Token}
    (hgives : List.Forall₂ Piece.Gives parts tokens) {token : Token} (htoken : token ∈ tokens) :
    ∃ piece : Piece, piece.Gives token := by
  induction hgives with
  | nil => exact absurd htoken List.not_mem_nil
  | cons hfirst _ ih =>
      rcases List.mem_cons.mp htoken with rfl | hlater
      · exact ⟨_, hfirst⟩
      · exact ih hlater

theorem isFinite_of_readParameter {content : Text} {parameter : Float}
    (hcontent : readParameter content = .ok (some parameter)) : parameter.isFinite = true := by
  rw [readParameter] at hcontent
  split at hcontent
  next => cases hcontent
  next numeral _ =>
    split at hcontent
    next => cases hcontent
    next => exact isFinite_of_singlePrecision? (Except.ok.inj hcontent)

/-- The parameters of tokens that were read are finite. -/
theorem isFinite_parameter {word : Text} {tokens : List Token}
    (htokens : tokenize word = .ok tokens) {token : Token} (htoken : token ∈ tokens)
    {parameter : Float} (hparameter : token.parameter = some parameter) :
    parameter.isFinite = true := by
  obtain ⟨piece, hgives⟩ := exists_piece_of_mem (ofPieces_eq_ok.mp htokens) htoken
  cases hgives with
  | bare symbol => exact nomatch hparameter
  | group symbol hcontent =>
      obtain rfl : _ = some parameter := hparameter
      exact isFinite_of_readParameter hcontent

/-- Tokens that were read can be obeyed unless the angle of the setup is infinite. -/
theorem canObey_of_tokenize {setup : Setup μ} (hangle : setup.angle.isInf = false) {word : Text}
    {tokens : List Token} (htokens : tokenize word = .ok tokens) :
    ∀ token ∈ tokens, setup.CanObey token := by
  intro token htoken
  refine Setup.canObey_of_finite hangle fun _ _ _ degrees hdegrees => ?_
  exact FloatParts.isInf_of_isFinite (isFinite_parameter htokens htoken hdegrees)

/-- Tokens that were read are drawn, or they close a branch that is not open. -/
theorem interpret_of_tokenize {setup : Setup μ} (hangle : setup.angle.isInf = false) {word : Text}
    {tokens : List Token} (htokens : tokenize word = .ok tokens) :
    (∃ segments, (interpret setup tokens).outcome = .ok segments) ∨
      ∃ index, (interpret setup tokens).outcome = .error (.branchUnderflow index) := by
  cases houtcome : (interpret setup tokens).outcome with
  | ok segments => exact .inl ⟨segments, rfl⟩
  | error fault =>
      rw [outcome_interpret, Except.map_eq_error] at houtcome
      obtain ⟨index, rfl⟩ :=
        Machine.exists_underflow_of_canObey (canObey_of_tokenize hangle htokens) houtcome
      exact .inr ⟨index, rfl⟩

/-- A grown word cannot be read, or it is drawn, or it closes a branch that is not open. -/
theorem draw_cases {setup : Setup μ} (hangle : setup.angle.isInf = false) (rules : List Rule)
    (start : Text) (count : Nat) :
    let word := (RuleTable.ofRules rules).1.generation count start
    let outcome := (draw setup rules start count).outcome
    (UnreadableWord word ∧ ∃ content, outcome = .error (.unreadableNumber content)) ∨
      ¬ UnreadableWord word ∧ ((∃ segments, outcome = .ok segments) ∨
        ∃ index, outcome = .error (.branchUnderflow index)) := by
  intro word outcome
  have houtcome : outcome = _ := outcome_draw setup rules start count
  rw [houtcome, ← exists_tokenize_error_iff]
  cases htokens : tokenize word with
  | error fault =>
      obtain ⟨content, rfl⟩ := tokenize_eq_error htokens
      exact .inl ⟨⟨_, rfl⟩, content, rfl⟩
  | ok tokens => exact .inr ⟨nofun, interpret_of_tokenize hangle htokens⟩

end Lindenmayer
