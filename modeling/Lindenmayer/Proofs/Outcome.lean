import Lindenmayer.Report

/-!
# Outcomes of computations in steps

A computation in steps gives a value exactly if each step gives one, and a report in steps gives the
notices of its steps in their order.
-/

namespace Lindenmayer

variable {ε α β : Type}

theorem Except.pure_eq_ok {value result : α} :
    (pure value : Except ε α) = .ok result ↔ value = result :=
  Iff.of_eq (Except.ok.injEq ..)

theorem Except.pure_ne_error {value : α} {fault : ε} :
    (pure value : Except ε α) ≠ .error fault :=
  nofun

theorem Except.ok_bind (value : α) (next : α → Except ε β) :
    (Except.ok value >>= next) = next value :=
  rfl

theorem Except.bind_eq_ok {first : Except ε α} {next : α → Except ε β} {value : β} :
    first >>= next = .ok value ↔ ∃ middle, first = .ok middle ∧ next middle = .ok value := by
  cases first with
  | error fault => exact ⟨nofun, fun ⟨_, hfirst, _⟩ => nomatch hfirst⟩
  | ok middle =>
      exact ⟨fun hnext => ⟨middle, rfl, hnext⟩, fun ⟨_, hfirst, hnext⟩ => by
        rwa [← Except.ok.inj hfirst] at hnext⟩

theorem Except.map_eq_ok {outcome : Except ε α} {change : α → β} {value : β} :
    outcome.map change = .ok value ↔ ∃ before, outcome = .ok before ∧ change before = value := by
  cases outcome <;> simp [Except.map]

theorem Except.map_eq_error {outcome : Except ε α} {change : α → β} {fault : ε} :
    outcome.map change = .error fault ↔ outcome = .error fault := by
  cases outcome <;> simp [Except.map]

theorem Except.bind_eq_error {first : Except ε α} {next : α → Except ε β} {fault : ε} :
    first >>= next = .error fault ↔
      first = .error fault ∨ ∃ middle, first = .ok middle ∧ next middle = .error fault := by
  cases first with
  | error other =>
      refine ⟨fun hfault => .inl (congrArg _ (Except.error.inj hfault)), ?_⟩
      rintro (hfault | ⟨_, hfirst, -⟩)
      · exact congrArg _ (Except.error.inj hfault)
      · exact nomatch hfirst
  | ok middle =>
      refine ⟨fun hnext => .inr ⟨middle, rfl, hnext⟩, ?_⟩
      rintro (hfirst | ⟨_, ⟨⟩, hnext⟩)
      · exact nomatch hfirst
      · exact hnext

section MapError

variable {ε' : Type} {rename : ε → ε'}

@[simp] theorem Except.mapError_error (fault : ε) :
    (Except.error fault : Except ε α).mapError rename = .error (rename fault) :=
  rfl

@[simp] theorem Except.mapError_ok (value : α) :
    (Except.ok value : Except ε α).mapError rename = .ok value :=
  rfl

theorem Except.mapError_eq_ok {outcome : Except ε α} {value : α} :
    outcome.mapError rename = .ok value ↔ outcome = .ok value := by
  cases outcome <;> simp

end MapError

namespace Report

/-- The outcome of a report in two steps does not depend on the notices. -/
theorem outcome_bind (first : Report ε α) (next : α → Report ε β) :
    (first >>= next).outcome = first.outcome.bind fun value => (next value).outcome := by
  obtain ⟨notices, outcome⟩ := first
  cases outcome <;> rfl

/-- A report in two steps gives a value exactly if both steps give one. -/
theorem bind_outcome_eq_ok {first : Report ε α} {next : α → Report ε β} {value : β} :
    (first >>= next).outcome = .ok value ↔
      ∃ middle, first.outcome = .ok middle ∧ (next middle).outcome = .ok value := by
  obtain ⟨notices, outcome⟩ := first
  cases outcome with
  | error fault => simp
  | ok middle => simp

end Report

end Lindenmayer
