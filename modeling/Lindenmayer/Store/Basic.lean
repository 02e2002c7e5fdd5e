import Lindenmayer.Store.Path
import Lindenmayer.Text.Quoted

/-!
# Stores

A store holds files and directories by their paths. Reading looks for a file; writing first makes
the directories above it. Both can fail, and a failed writing may still have made directories.
-/

namespace Lindenmayer

/-- What is stored at a path. -/
inductive Entry where
  | file (bytes : List UInt8)
  | directory
deriving DecidableEq

/-- Why the system refuses a path. -/
inductive PathFlaw where
  | missing
  | exists
  | notDirectory
  | isDirectory
  | nameTooLong
deriving DecidableEq

/-- The number of a flaw in messages of the system. -/
def PathFlaw.number : PathFlaw → Nat
  | .missing => 2
  | .exists => 17
  | .notDirectory => 20
  | .isDirectory => 21
  | .nameTooLong => 36

/-- The text of a flaw in messages of the system. -/
def PathFlaw.text : PathFlaw → Text
  | .missing => "No such file or directory"
  | .exists => "File exists"
  | .notDirectory => "Not a directory"
  | .isDirectory => "Is a directory"
  | .nameTooLong => "File name too long"

/-- Why a file cannot be read or written. -/
inductive FileFault where
  | unusable (flaw : PathFlaw) (path : Text)
  /-- The system does not take the text for a path. -/
  | misfit (reason : PathMisfit)
deriving DecidableEq

/-- What is told about a fault. -/
def FileFault.message : FileFault → Text
  | .unusable flaw path =>
      "[Errno " ++ Text.ofNat flaw.number ++ "] " ++ flaw.text ++ ": " ++ path.quoted
  | .misfit reason => reason.message

/-- Files and directories by the names on the way from the root. The root and the home directory
are directories. -/
structure Store where
  home : List Text
  entries : List (List Text × Entry)
deriving DecidableEq

namespace Store

/-- The store with nothing in it but the way to a home directory. -/
def empty (home : List Text) : Store :=
  ⟨home, []⟩

/-- What is stored at some names. The way home exists. -/
def find? (store : Store) (names : List Text) : Option Entry :=
  if names.isPrefixOf store.home then some .directory else store.entries.lookup names

/-- Store an entry, in place of what was stored there. -/
def put (store : Store) (names : List Text) (entry : Entry) : Store :=
  ⟨store.home, (names, entry) :: store.entries.filter fun stored => stored.1 ≠ names⟩

@[simp] theorem home_put (store : Store) (names : List Text) (entry : Entry) :
    (store.put names entry).home = store.home :=
  rfl

/-- What was stored away from the way home is found again. -/
theorem find?_put_self (store : Store) (names : List Text) (entry : Entry)
    (haway : names.isPrefixOf store.home = false) :
    (store.put names entry).find? names = some entry := by
  simp [find?, put, haway]

/-- Storing an entry changes no other one. -/
theorem find?_put_of_ne (store : Store) (names others : List Text) (entry : Entry)
    (hne : others ≠ names) : (store.put names entry).find? others = store.find? others := by
  have hlookup : ∀ entries : List (List Text × Entry),
      (entries.filter fun stored => stored.1 ≠ names).lookup others = entries.lookup others := by
    intro entries
    induction entries with
    | nil => rfl
    | cons stored entries ih =>
        obtain ⟨known, value⟩ := stored
        by_cases hknown : known = names
        · rw [List.filter_cons_of_neg (by simp [hknown]), ih, List.lookup_cons]
          have hother : (others == known) = false := by simp [hknown, hne]
          rw [hother]
        · rw [List.filter_cons_of_pos (by simp [hknown]), List.lookup_cons, List.lookup_cons, ih]
  unfold find? put
  rw [List.lookup_cons, hlookup]
  have hother : (others == names) = false := by simp [hne]
  rw [hother]

/-- The entries of a store that an earlier one lacks, the oldest first. -/
def changesSince (store earlier : Store) : List (List Text × Entry) :=
  store.entries.reverse.filter fun stored => !earlier.entries.contains stored

/-- Follow names from a directory on. The last one may be missing, all others are directories. -/
def follow (store : Store) (reached : List Text) : List Text → Except PathFlaw (List Text)
  | [] => .ok reached
  | name :: names =>
      match store.find? reached with
      | none => .error .missing
      | some (.file _) => .error .notDirectory
      | some .directory =>
          if Path.isTooLong name then .error .nameTooLong
          else follow store (Path.next reached name) names

/-- Where a path leads to. The empty path leads nowhere. -/
def resolve (store : Store) (path : Text) : Except PathFlaw (List Text) :=
  if path.isEmpty then .error .missing
  else if Path.isUnfollowable path then .error .nameTooLong
  else store.follow (Path.origin store.home path) (Path.names path)

/-- The bytes of the file that a path leads to. -/
def bytesAt (store : Store) (path : Text) : Except PathFlaw (List UInt8) := do
  match store.find? (← store.resolve path) with
  | none => .error .missing
  | some .directory => .error .isDirectory
  | some (.file bytes) => .ok bytes

/-- The bytes of a file. -/
def read (store : Store) (path : Text) : Except FileFault (List UInt8) :=
  match Path.misfit? 0 path with
  | some reason => .error (.misfit reason)
  | none => (store.bytesAt path).mapError (.unusable · path)

/-- The names of a file that may be written. A path that ends in a slash is one of a directory,
which need not be there. -/
def target (store : Store) (path : Text) : Except PathFlaw (List Text) := do
  if path.getLast? = some (CodePoint.ofChar '/') then
    let _ ← store.follow (Path.origin store.home path) (Path.namesAbove path ++ [Text.ofString "."])
    .error .isDirectory
  let names ← store.resolve path
  match store.find? names with
  | some .directory => .error .isDirectory
  | _ => .ok names

/-- The fault of a place that a directory was to be made at. A flaw comes up only at a place whose
name can be a part of a path. -/
def faultAt (flaw : PathFlaw) (reached : List Text) (name : Text) : FileFault :=
  let place := Path.absolute (reached ++ [name])
  match Path.misfit? (place.length - name.length) name with
  | some reason => .misfit reason
  | none => .unusable flaw place

/-- Make the directories with the given names below one that exists, with what stopped it. -/
def makeDirectories (store : Store) (reached : List Text) : List Text → Store × Option FileFault
  | [] => (store, none)
  | name :: names =>
      let next := reached ++ [name]
      match store.find? next with
      | some .directory => makeDirectories store next names
      | some (.file _) =>
          -- A file in the way is told by its own place, or by the place below it.
          match names with
          | [] => (store, some (.unusable .exists (Path.absolute next)))
          | below :: _ => (store, some (faultAt .notDirectory next below))
      | none =>
          if (Path.misfit? 0 name).isSome ∨ Path.isTooLong name then
            (store, some (faultAt .nameTooLong reached name))
          else makeDirectories (store.put next .directory) next names

/-- Make the directories above a path. -/
def makeParents (store : Store) (path : Text) : Store × Option FileFault :=
  store.makeDirectories [] (Path.normal store.home path).dropLast

/-- Write a file at a path, with what stopped it. -/
def write (store : Store) (path : Text) (bytes : List UInt8) : Store × Option FileFault :=
  match store.makeParents path with
  | (store, some fault) => (store, some fault)
  | (store, none) =>
      match Path.misfit? 0 path with
      | some reason => (store, some (.misfit reason))
      | none =>
          match store.target path with
          | .error flaw => (store, some (.unusable flaw path))
          | .ok names => (store.put names (.file bytes), none)

end Store

end Lindenmayer
