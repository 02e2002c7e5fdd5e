import Lindenmayer.Proofs.Outcome
import Lindenmayer.Proofs.Store.Paths
import Lindenmayer.Store.Basic

/-!
# Files that were written

Whether a file can be written does not depend on its bytes, and what was written is read.
-/

namespace Lindenmayer.Store

variable {store made after : Store} {path : Text} {bytes : List UInt8}
  {reached names : List Text}

/-- A path at which a file can be written, an empty one to begin with. -/
def Writable (store : Store) (path : Text) : Prop :=
  (store.write path []).2 = none

instance (store : Store) (path : Text) : Decidable (store.Writable path) :=
  inferInstanceAs (Decidable ((store.write path []).2 = none))

/-- What is no directory lies away from the way home. -/
theorem isPrefixOf_home_of_ne_directory (hentry : store.find? names ≠ some .directory) :
    names.isPrefixOf store.home = false := by
  rw [find?] at hentry
  split at hentry
  next => exact absurd rfl hentry
  next haway => exact Bool.eq_false_iff.mpr haway

/-- Writing succeeds where the directories above the path can be made and the path leads to no
directory. -/
theorem write_eq_ok :
    store.write path bytes = (after, none) ↔
      ∃ made names, store.makeParents path = (made, none) ∧ path.IsPath ∧
        made.target path = .ok names ∧ after = made.put names (.file bytes) := by
  rw [write]
  split
  next made fault hmade =>
    rw [hmade]
    refine ⟨fun heq => ?_, ?_⟩
    · exact absurd (Prod.mk.inj heq).2 (Option.some_ne_none fault)
    · rintro ⟨other, names, hother, -⟩
      exact absurd (Prod.mk.inj hother).2 (Option.some_ne_none fault)
  next made hmade =>
    rw [hmade, ← @Path.misfit?_eq_none 0 path]
    split
    next reason hmisfit =>
      refine ⟨fun heq => ?_, ?_⟩
      · exact absurd (Prod.mk.inj heq).2 (Option.some_ne_none _)
      · rintro ⟨other, names, -, hpath, -⟩
        exact absurd (hmisfit.symm.trans hpath) (Option.some_ne_none reason)
    next hpath =>
      split
      next flaw htarget =>
        refine ⟨fun heq => ?_, ?_⟩
        · exact absurd (Prod.mk.inj heq).2 (Option.some_ne_none _)
        · rintro ⟨other, names, ⟨⟩, -, hother, -⟩
          rw [htarget] at hother
          exact nomatch hother
      next names htarget =>
        refine ⟨fun heq => ⟨made, names, rfl, hpath, htarget, (Prod.mk.inj heq).1.symm⟩, ?_⟩
        rintro ⟨other, others, ⟨⟩, -, hother, rfl⟩
        rw [htarget] at hother
        rw [Except.ok.inj hother]

/-- What stops the writing of a file is the same for all bytes. -/
theorem snd_write (store : Store) (path : Text) (bytes : List UInt8) :
    (store.write path bytes).2 = (store.write path []).2 := by
  rw [write, write]
  split
  next => rfl
  next =>
    split
    next => rfl
    next => split <;> rfl

/-- A file can be written with some bytes exactly if it can be with none. -/
theorem write_eq_none_iff : (store.write path bytes).2 = none ↔ store.Writable path := by
  rw [snd_write, Writable]

theorem Writable.exists_write (hwritable : store.Writable path) (bytes : List UInt8) :
    ∃ after, store.write path bytes = (after, none) :=
  ⟨(store.write path bytes).1, Prod.ext rfl (write_eq_none_iff.mpr hwritable)⟩

/-- A file is no directory on the way along a path, so storing it there changes no way. -/
theorem follow_put (haway : store.find? names ≠ some .directory) {target : List Text}
    (path : List Text) (hfollow : store.follow reached path = .ok target) (bytes : List UInt8) :
    (store.put names (.file bytes)).follow reached path = .ok target := by
  induction path generalizing reached with
  | nil => exact hfollow
  | cons name path ih =>
      rw [follow] at hfollow ⊢
      cases hreached : store.find? reached with
      | none => simp [hreached] at hfollow
      | some entry =>
          cases entry with
          | file => simp [hreached] at hfollow
          | directory =>
              -- The way has come to a directory, and the file is stored elsewhere.
              have hne : reached ≠ names := by
                rintro rfl
                exact haway hreached
              rw [find?_put_of_ne _ _ _ _ hne]
              simp only [hreached] at hfollow ⊢
              split
              next hlong => simp [hlong] at hfollow
              next hshort =>
                rw [if_neg hshort] at hfollow
                exact ih hfollow

theorem target_eq_ok (htarget : store.target path = .ok names) :
    store.resolve path = .ok names ∧ store.find? names ≠ some .directory := by
  rw [target] at htarget
  split at htarget
  next =>
    obtain ⟨_, -, hstopped⟩ := Except.bind_eq_ok.mp htarget
    obtain ⟨_, herror, -⟩ := Except.bind_eq_ok.mp hstopped
    exact nomatch herror
  next =>
    obtain ⟨found, hresolve, hfound⟩ := Except.bind_eq_ok.mp htarget
    split at hfound
    next => exact nomatch hfound
    next hentry =>
      obtain rfl := Except.ok.inj hfound
      exact ⟨hresolve, hentry⟩

theorem resolve_put (haway : store.find? names ≠ some .directory) {target : List Text}
    (hresolve : store.resolve path = .ok target) (bytes : List UInt8) :
    (store.put names (.file bytes)).resolve path = .ok target := by
  rw [resolve] at hresolve ⊢
  split at hresolve
  next => exact nomatch hresolve
  next hempty =>
    split at hresolve
    next => exact nomatch hresolve
    next hshort =>
      rw [if_neg hempty, if_neg hshort]
      exact follow_put haway _ hresolve bytes

/-- What was written at a path is read there. -/
theorem read_of_write (hwrite : store.write path bytes = (after, none)) :
    after.read path = .ok bytes := by
  obtain ⟨made, names, -, hpath, htarget, rfl⟩ := write_eq_ok.mp hwrite
  obtain ⟨hresolve, hentry⟩ := target_eq_ok htarget
  rw [read, Path.misfit?_eq_none.mpr hpath]
  dsimp only
  rw [bytesAt, resolve_put hentry hresolve, Except.ok_bind,
    find?_put_self _ _ _ (isPrefixOf_home_of_ne_directory hentry)]
  rfl

end Lindenmayer.Store
