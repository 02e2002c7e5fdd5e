import Lindenmayer.Drawing
import Lindenmayer.Proofs.Grammar.Accounting
import Lindenmayer.Proofs.Scene.Reading

/-!
# Warnings about long keys

The reader of scenes cuts the keys of rules to one symbol and warns about each key that it cuts.
What is made of the rules later finds nothing more to warn about, and the rules with their cut keys
grow the same words as the rules as they were written.
-/

namespace Lindenmayer

/-- The notices that are worth a warning. -/
def Notice.warnings (notices : List Notice) : List Notice :=
  notices.filter fun notice => notice.level = .warning

/-- What is told about rules whose keys are too long, in the order of the rules. -/
def Rule.cutNotices (rules : List Rule) : List Notice :=
  (rules.filter fun rule => 1 < rule.key.length).map fun rule => .keyCut rule.key

namespace Report

variable {ε α β : Type}

/-- A report that gives no warnings. -/
def Quiet (report : Report ε α) : Prop :=
  ∀ notice ∈ report.notices, notice.level ≠ .warning

theorem Quiet.warnings_eq_nil {report : Report ε α} (hquiet : report.Quiet) :
    Notice.warnings report.notices = [] := by
  rw [Notice.warnings, List.filter_eq_nil_iff]
  intro notice hnotice
  rw [decide_eq_true_eq]
  exact hquiet notice hnotice

theorem quiet_ofExcept (outcome : Except ε α) : (ofExcept outcome).Quiet :=
  fun _ hnotice => absurd hnotice List.not_mem_nil

/-- A report in two steps is quiet if both steps are. -/
theorem Quiet.bind {first : Report ε α} {next : α → Report ε β} (hfirst : first.Quiet)
    (hnext : ∀ value, (next value).Quiet) : (first >>= next).Quiet := by
  obtain ⟨notices, outcome⟩ := first
  cases outcome with
  | error fault => exact hfirst
  | ok value =>
      intro notice hnotice
      rcases List.mem_append.mp hnotice with hearly | hlate
      · exact hfirst notice hearly
      · exact hnext value notice hlate

end Report

namespace RuleTable

variable {rules : List Rule}

/-- Only the first symbol of a key matters to a table. -/
theorem add_cut (table : RuleTable) (rule : Rule) :
    (table.add rule.cut).1 = (table.add rule).1 := by
  obtain ⟨key, replacement⟩ := rule
  cases key with
  | nil => rfl
  | cons symbol rest =>
      simp only [add, Rule.cut, List.take_succ_cons, List.take_zero]
      split <;> rfl

theorem ofRules_cut (rules : List Rule) : (ofRules (rules.map Rule.cut)).1 = (ofRules rules).1 := by
  induction rules using List.reverseRecOn with
  | nil => rfl
  | append_singleton rules rule ih =>
      rw [List.map_append, List.map_singleton, ofRules_concat, ofRules_concat, ih]
      exact add_cut _ rule

/-- A table of rules with keys of one symbol is made without a warning. -/
theorem quiet_tableOf (hsingle : ∀ rule ∈ rules, rule.key.length = 1) :
    (tableOf rules).Quiet := by
  intro notice hnotice hlevel
  change notice ∈ (ofRules rules).2 at hnotice
  rcases kind_of_mem_ofRules hnotice with
    ⟨-, ⟨key, rfl⟩ | ⟨replacement, rfl⟩⟩ | ⟨-, symbol, rfl⟩
  · -- The key would be one of the rules' keys, and a long one.
    have hcut : key ∈ (ofRules rules).2.filterMap Notice.cutKey? :=
      List.mem_filterMap.mpr ⟨_, hnotice, rfl⟩
    rw [cutKeys_ofRules, List.mem_filter, List.mem_map, decide_eq_true_eq] at hcut
    obtain ⟨⟨rule, hrule, rfl⟩, hlong⟩ := hcut
    exact absurd hlong (hsingle rule hrule).not_gt
  · have hignored : replacement ∈ (ofRules rules).2.filterMap Notice.ignoredReplacement? :=
      List.mem_filterMap.mpr ⟨_, hnotice, rfl⟩
    rw [ignoredReplacements_ofRules, List.mem_map] at hignored
    obtain ⟨rule, hempty, -⟩ := hignored
    rw [List.mem_filter, decide_eq_true_eq] at hempty
    have hlength := hsingle rule hempty.1
    rw [hempty.2] at hlength
    exact nomatch hlength
  · cases hlevel

end RuleTable

section Drawing

variable {μ : Type} {rules : List Rule}

theorem quiet_interpret (setup : Setup μ) (tokens : List Token) :
    (interpret setup tokens).Quiet := by
  unfold interpret
  split
  next => exact fun _ hnotice => absurd hnotice List.not_mem_nil
  next machine _ =>
    intro notice hnotice
    change notice ∈ machine.notices at hnotice
    rw [Machine.notices, List.mem_ite_nil_left, List.mem_singleton] at hnotice
    rw [hnotice.2]
    exact nofun

theorem quiet_grow (hsingle : ∀ rule ∈ rules, rule.key.length = 1) (start : Text) (count : Int) :
    (grow rules start count).Quiet :=
  (Report.quiet_ofExcept _).bind fun _ =>
    (RuleTable.quiet_tableOf hsingle).bind fun _ => Report.quiet_ofExcept (.ok _)

/-- A drawing with keys of one symbol is made without a warning. -/
theorem quiet_draw (hsingle : ∀ rule ∈ rules, rule.key.length = 1) (setup : Setup μ)
    (start : Text) (count : Int) : (draw setup rules start count).Quiet := by
  refine (quiet_grow hsingle start count).bind fun word => ?_
  refine (Report.quiet_ofExcept _).bind fun tokens => ?_
  refine (quiet_interpret setup tokens).bind fun segments => ?_
  intro notice hnotice
  rw [List.mem_singleton.mp hnotice]
  exact nofun

/-- The rules grow the same words before and after their keys are cut. -/
theorem outcome_grow_cut (rules : List Rule) (start : Text) (count : Int) :
    (grow (rules.map Rule.cut) start count).outcome = (grow rules start count).outcome := by
  cases count with
  | negSucc count => rfl
  | ofNat count =>
      change Except.ok ((RuleTable.ofRules (rules.map Rule.cut)).1.generation count start) = _
      rw [RuleTable.ofRules_cut]
      rfl

theorem outcome_unfold_cut (rules : List Rule) (start : Text) (count : Int) :
    (unfold (rules.map Rule.cut) start count).outcome = (unfold rules start count).outcome := by
  cases count with
  | negSucc count => rfl
  | ofNat count =>
      change Except.ok ((RuleTable.ofRules (rules.map Rule.cut)).1.generations count start) = _
      rw [RuleTable.ofRules_cut]
      rfl

end Drawing

namespace Rule

/-- What is told about rules one by one are warnings about long keys. -/
theorem warnings_notices (rules : List Rule) :
    Notice.warnings (rules.flatMap notices) = cutNotices rules := by
  induction rules with
  | nil => rfl
  | cons rule rules ih =>
      rw [Notice.warnings] at ih
      rw [Notice.warnings, List.flatMap_cons, List.filter_append, ih, cutNotices, cutNotices,
        List.filter_cons, notices]
      by_cases hlong : 1 < rule.key.length
      · simp [hlong, Notice.level]
      · simp [hlong]

end Rule

namespace Scene

theorem IsRule.length_cut {item : Document} {rule : Rule} (hrule : IsRule item rule) :
    rule.cut.key.length = 1 := by
  have hkey : rule.key ≠ [] := by
    cases hrule with
    | pair hkey => exact hkey
    | object hkey => exact hkey
  rw [Rule.cut, List.length_take]
  have hlength := List.length_pos_iff.mpr hkey
  omega

/-- What it means that long keys are warned about where a scene is read and nowhere else. The given
rules are those of the document as they are written. -/
structure WarnsOnce (document : Document) (scene : Scene) (given : List Rule) : Prop where
  /-- Reading a scene gives one warning for each long key, in the order of the rules. -/
  reading : Notice.warnings (ofDocument document).notices = Rule.cutNotices given
  /-- Drawing the scene after that adds no warning. -/
  drawing : Notice.warnings ((ofDocument document).notices ++
      (draw scene.setup scene.rules scene.start scene.iterations).notices) =
    Rule.cutNotices given
  /-- A table of the rules of the scene adds no warning either. -/
  table : Notice.warnings ((ofDocument document).notices ++ (tableOf scene.rules).notices) =
    Rule.cutNotices given
  /-- There is nothing to warn about in what comes after the reading. -/
  later : (draw scene.setup scene.rules scene.start scene.iterations).Quiet ∧
    (tableOf scene.rules).Quiet
  /-- The rules of the scene grow all words as the rules as written do. -/
  grown : ∀ (start : Text) (count : Int),
    (grow scene.rules start count).outcome = (grow given start count).outcome ∧
      (unfold scene.rules start count).outcome = (unfold given start count).outcome

/-- Every long key of a scene that is read is warned about once. -/
theorem long_keys_warned_once {document : Document} {scene : Scene}
    (hscene : (ofDocument document).outcome = .ok scene) :
    ∃ members items given, document = .object members ∧
      Given members "rules" (.array []) (.array items) ∧ List.Forall₂ IsRule items given ∧
        WarnsOnce document scene given := by
  obtain ⟨members, rfl, hmembers⟩ := ofDocument_eq_ok.mp hscene
  obtain ⟨items, given, hitems, hgiven, hrules⟩ := hmembers.rules
  have hsingle : ∀ rule ∈ scene.rules, rule.key.length = 1 := by
    rw [hrules, List.forall_mem_map]
    intro rule hrule
    obtain ⟨index, hindex, rfl⟩ := List.mem_iff_getElem.mp hrule
    have hitem : index < items.length := hgiven.length_eq.symm ▸ hindex
    exact (hgiven.get hitem hindex).length_cut
  have hdraw := quiet_draw hsingle scene.setup scene.start scene.iterations
  have htable := RuleTable.quiet_tableOf hsingle
  have hreading : Notice.warnings (ofDocument (.object members)).notices =
      Rule.cutNotices given := by
    rw [notices_ofDocument hmembers hitems hgiven, Rule.warnings_notices]
  have hadds : ∀ {ε α : Type} {report : Report ε α}, report.Quiet →
      Notice.warnings ((ofDocument (.object members)).notices ++ report.notices) =
        Rule.cutNotices given := by
    intro ε α report hquiet
    have hnone := hquiet.warnings_eq_nil
    rw [Notice.warnings] at hreading hnone ⊢
    rw [List.filter_append, hreading, hnone, List.append_nil]
  exact ⟨members, items, given, rfl, hitems, hgiven,
    { reading := hreading
      drawing := hadds hdraw
      table := hadds htable
      later := ⟨hdraw, htable⟩
      grown := fun start count => by
        rw [hrules]
        exact ⟨outcome_grow_cut given start count, outcome_unfold_cut given start count⟩ }⟩

/-- Long keys before and after a short one for the same symbol, one of them twice. -/
def longKeys : Document :=
  .object [("axiom", .string "FX"), ("iterations", .integer 2),
    ("rules", .array [.array [.string "FX", .string "F+F"],
      .object [("key", .string "F"), ("replacement", .string "X")],
      .object [("key", .string "XY")], .array [.string "FX", .string ""]])]

theorem longKeys_warned_once :
    (ofDocument longKeys).outcome = .ok ⟨"L-System", "FX", 2,
        [⟨"F", "F+F"⟩, ⟨"F", "X"⟩, ⟨"X", ""⟩, ⟨"F", ""⟩], defaultSetup⟩ ∧
      ∃ members items given, longKeys = .object members ∧
        Given members "rules" (.array []) (.array items) ∧ List.Forall₂ IsRule items given ∧
          WarnsOnce longKeys ⟨"L-System", "FX", 2,
            [⟨"F", "F+F"⟩, ⟨"F", "X"⟩, ⟨"X", ""⟩, ⟨"F", ""⟩], defaultSetup⟩ given := by
  have hscene : (ofDocument longKeys).outcome = .ok ⟨"L-System", "FX", 2,
      [⟨"F", "F+F"⟩, ⟨"F", "X"⟩, ⟨"X", ""⟩, ⟨"F", ""⟩], defaultSetup⟩ := by
    decide +kernel
  exact ⟨hscene, long_keys_warned_once hscene⟩

end Scene

end Lindenmayer
