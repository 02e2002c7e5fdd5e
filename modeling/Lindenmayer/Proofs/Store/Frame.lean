import Lindenmayer.Proofs.Store.Writing

/-!
# Files that stay

Writing a file makes directories on the way, but it touches no file except the one at the place that
its path leads to, and none at all if it fails.
-/

namespace Lindenmayer.Store

variable {store made after : Store} {path : Text} {bytes : List UInt8} {fault : FileFault}
  {reached names place : List Text}

/-- The bytes of the file at some names. -/
def fileAt? (store : Store) (names : List Text) : Option (List UInt8) :=
  match store.find? names with
  | some (.file bytes) => some bytes
  | some .directory | none => none

/-- Two stores have the same files, perhaps among other directories. -/
def SameFiles (store after : Store) : Prop :=
  ∀ names, after.fileAt? names = store.fileAt? names

/-- Two stores have the same files away from a place. -/
def SameFilesBut (place : List Text) (store after : Store) : Prop :=
  ∀ names, names ≠ place → after.fileAt? names = store.fileAt? names

theorem SameFiles.refl (store : Store) : SameFiles store store :=
  fun _ => rfl

theorem SameFiles.trans (hfirst : SameFiles store made) (hsecond : SameFiles made after) :
    SameFiles store after :=
  fun names => (hsecond names).trans (hfirst names)

theorem SameFiles.but (hsame : SameFiles store after) (place : List Text) :
    SameFilesBut place store after :=
  fun names _ => hsame names

/-- A directory that is made where nothing was is no file. -/
theorem sameFiles_put_directory (hfree : store.find? names = none) :
    SameFiles store (store.put names .directory) := by
  have haway : names.isPrefixOf store.home = false :=
    isPrefixOf_home_of_ne_directory (by rw [hfree]; exact nofun)
  intro others
  rw [fileAt?, fileAt?]
  by_cases hplace : others = names
  · rw [hplace, find?_put_self _ _ _ haway, hfree]
  · rw [find?_put_of_ne _ _ _ _ hplace]

theorem sameFilesBut_put_file (names : List Text) (bytes : List UInt8) :
    SameFilesBut names store (store.put names (.file bytes)) := by
  intro others hother
  rw [fileAt?, fileAt?, find?_put_of_ne _ _ _ _ hother]

/-- Directories are made around the files, whether all of them can be made or not. -/
theorem makeDirectories_sameFiles (store : Store) (reached names : List Text) :
    SameFiles store (store.makeDirectories reached names).1 ∧
      (store.makeDirectories reached names).1.home = store.home := by
  induction names generalizing store reached with
  | nil => exact ⟨.refl store, rfl⟩
  | cons name names ih =>
      simp only [makeDirectories]
      split
      next => exact ih store _
      next => split <;> exact ⟨.refl store, rfl⟩
      next hfree =>
        split
        next => exact ⟨.refl store, rfl⟩
        next =>
          obtain ⟨hsame, hhome⟩ := ih (store.put (reached ++ [name]) .directory) _
          exact ⟨(sameFiles_put_directory hfree).trans hsame, hhome⟩

theorem makeParents_sameFiles (store : Store) (path : Text) :
    SameFiles store (store.makeParents path).1 ∧ (store.makeParents path).1.home = store.home :=
  makeDirectories_sameFiles store [] _

/-- Names that can be followed lead where they would lead if all of them were directories. -/
theorem follow_eq_ok {target : List Text} (hfollow : store.follow reached names = .ok target) :
    target = names.foldl Path.next reached := by
  induction names generalizing reached with
  | nil => exact (Except.ok.inj hfollow).symm
  | cons name names ih =>
      rw [follow] at hfollow
      split at hfollow
      next => cases hfollow
      next => cases hfollow
      next =>
        split at hfollow
        next => cases hfollow
        next => exact ih hfollow

theorem resolve_eq_ok (hresolve : store.resolve path = .ok names) :
    names = Path.normal store.home path := by
  rw [resolve] at hresolve
  split at hresolve
  next => cases hresolve
  next =>
    split at hresolve
    next => cases hresolve
    next => exact follow_eq_ok hresolve

/-- A file that cannot be written leaves all files as they are. -/
theorem sameFiles_of_write (hfault : (store.write path bytes).2 = some fault) :
    SameFiles store (store.write path bytes).1 := by
  have hmade := (makeParents_sameFiles store path).1
  rw [write] at hfault ⊢
  split at hfault
  next made _ hparents =>
    rw [hparents] at hmade
    exact hmade
  next made hparents =>
    rw [hparents] at hmade
    split at hfault
    next => exact hmade
    next =>
      split at hfault
      next => exact hmade
      next => cases hfault

/-- A file that is written is the one at the place of its path, and no other file changes. -/
theorem sameFilesBut_write (store : Store) (path : Text) (bytes : List UInt8) :
    SameFilesBut (Path.normal store.home path) store (store.write path bytes).1 := by
  cases hwrite : (store.write path bytes).2 with
  | some fault => exact (sameFiles_of_write hwrite).but _
  | none =>
      have hok : store.write path bytes = ((store.write path bytes).1, none) := Prod.ext rfl hwrite
      obtain ⟨made, names, hparents, -, htarget, hafter⟩ := write_eq_ok.mp hok
      obtain ⟨hmade, hhome⟩ := makeParents_sameFiles store path
      rw [hparents] at hmade hhome
      rw [hafter, ← hhome, ← resolve_eq_ok (target_eq_ok htarget).1]
      intro others hother
      exact (sameFilesBut_put_file names bytes others hother).trans (hmade others)

end Lindenmayer.Store
