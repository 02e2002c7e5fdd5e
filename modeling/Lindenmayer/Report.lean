import Lindenmayer.Text.Quoted

/-!
# Notices and reports

A notice is something worth telling that stops nothing: a warning about a rule, or a record of what
was done. A report is the outcome of a computation, a value or a fault, with the notices that were
given on the way, in their order. A fault does not take back the notices before it.
-/

namespace Lindenmayer

/-- Something worth telling. -/
inductive Notice where
  | keyCut (key : Text)
  | emptyKey (replacement : Text)
  /-- A rule came after another one for the same symbol and was skipped. -/
  | duplicateRule (symbol : CodePoint)
  | unclosedBranches (count : Nat)
  | drawn (start : Text) (generations : Int) (symbols tokens segments : Nat)
  | written (segments : Nat) (path : Text)
deriving DecidableEq

/-- How much attention a notice asks for. -/
inductive Level where
  | debug
  | info
  | warning
deriving DecidableEq

namespace Notice

/-- Rules that are not taken as given are worth a warning. -/
def level : Notice → Level
  | keyCut _ | emptyKey _ => .warning
  | duplicateRule _ | unclosedBranches _ | drawn .. => .debug
  | written .. => .info

/-- What a notice says. -/
def text : Notice → Text
  | keyCut key =>
      "rule key " ++ key.quoted ++ " reset to a single character: " ++ Text.quoted (key.take 1)
  | emptyKey replacement =>
      "rule with empty key ignored (replacement " ++ replacement.quoted ++ ")"
  | duplicateRule symbol => "duplicate rule for " ++ Text.quoted [symbol] ++ " ignored"
  | unclosedBranches count => Text.ofNat count ++ " unclosed branch(es) discarded"
  | drawn start generations symbols tokens segments =>
      "expanded " ++ start.quoted ++ " over " ++ Text.ofInt generations ++ " generation(s): " ++
        Text.ofNat symbols ++ " symbols, " ++ Text.ofNat tokens ++ " tokens, " ++
        Text.ofNat segments ++ " segments"
  | written segments path => "wrote " ++ Text.ofNat segments ++ " segments to " ++ path

end Notice

/-- The name of a level at the start of a line. -/
def Level.name : Level → Text
  | .debug => "DEBUG"
  | .info => "INFO"
  | .warning => "WARNING"

/-- An outcome with the notices given on the way. -/
structure Report (ε α : Type) where
  notices : List Notice
  outcome : Except ε α

namespace Report

variable {ε α β : Type}

/-- A value without notices. -/
protected def pure (value : α) : Report ε α :=
  ⟨[], .ok value⟩

/-- Go on with the value of a report; a fault ends it. -/
protected def bind (report : Report ε α) (next : α → Report ε β) : Report ε β :=
  match report.outcome with
  | .error fault => ⟨report.notices, .error fault⟩
  | .ok value => ⟨report.notices ++ (next value).notices, (next value).outcome⟩

instance : Monad (Report ε) where
  pure := Report.pure
  bind := Report.bind

@[simp] theorem pure_eq (value : α) : (pure value : Report ε α) = ⟨[], .ok value⟩ :=
  rfl

@[simp] theorem ok_bind (notices : List Notice) (value : α) (next : α → Report ε β) :
    (⟨notices, .ok value⟩ : Report ε α) >>= next =
      ⟨notices ++ (next value).notices, (next value).outcome⟩ :=
  rfl

@[simp] theorem error_bind (notices : List Notice) (fault : ε) (next : α → Report ε β) :
    (⟨notices, .error fault⟩ : Report ε α) >>= next = ⟨notices, .error fault⟩ :=
  rfl

instance : LawfulMonad (Report ε) :=
  LawfulMonad.mk' _
    (by
      intro α report
      obtain ⟨notices, outcome⟩ := report
      cases outcome with
      | error fault => rfl
      | ok value =>
          show (⟨notices ++ [], .ok value⟩ : Report ε α) = _
          rw [List.append_nil])
    (fun _ _ => rfl)
    (by
      intro α β γ report next last
      obtain ⟨notices, outcome⟩ := report
      cases outcome with
      | error fault => rfl
      | ok value =>
          rw [ok_bind, ok_bind]
          obtain ⟨later, result⟩ := next value
          cases result with
          | error fault => rfl
          | ok middle => rw [ok_bind, ok_bind, List.append_assoc])

/-- Give notices and go on. -/
def tell (notices : List Notice) : Report ε Unit :=
  ⟨notices, .ok ()⟩

/-- An outcome without notices. -/
def ofExcept (outcome : Except ε α) : Report ε α :=
  ⟨[], outcome⟩

end Report

end Lindenmayer
