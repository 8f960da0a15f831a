/-
Module: ConfTree.Proofs.Command.Files
Purpose: What a write does to the files of a file system.
Main exports:
  FileView, FileView.Lawful, FileTree.contentAt?_put_self, FileTree.contentAt?_put_other,
  Volume.view_lawful
-/
import ConfTree.Command.Volume
import ConfTree.Proofs.Success

namespace ConfTree

/-!
The state of a file system is looked at through its files: which there are, with what content, and
which one a path leads to.  A write is taken to happen completely or to fail without effect.  That
is all that is asked of a file system here; how it finds the file for a path, and when it refuses
to read or to write, is its own affair.

A volume is such a file system.  Its files are told by their locations, and a write puts a file
where the path leads to: in the place of a file, or of nothing, in a directory that is there.
-/

/-- The files of a file system: their contents, and the file to which a path leads, whether it is
there or could be made. -/
structure FileView (σ φ : Type) where
  content? (state : σ) (file : φ) : Option ByteArray
  file? (state : σ) (path : String) : Option φ

/-- A write happens completely or fails without effect. -/
structure FileView.Lawful {σ φ : Type} [FileSystem σ] (view : FileView σ φ) : Prop where
  /-- A write that fails changes no file. -/
  write_fails : ∀ {state : σ} {path : String} {content : ByteArray} {fault : FileFault},
    (FileSystem.write state path content).1 = .error fault →
      ∀ file, view.content? (FileSystem.write state path content).2 file = view.content? state file
  /-- A write that succeeds gives the file to which the path leads its content, and changes no
  other file. -/
  write_succeeds : ∀ {state : σ} {path : String} {content : ByteArray},
    (FileSystem.write state path content).1 = .ok () →
      ∃ file, view.file? state path = some file ∧
        view.content? (FileSystem.write state path content).2 file = some content ∧
        ∀ other, other ≠ file → view.content? (FileSystem.write state path content).2 other =
          view.content? state other

namespace FileTree

variable {tree : FileTree} {name other : String}

/-! ### Children -/

/-- A directory holds what is put into it, and everything else that it held before. -/
theorem child?_setChild (rights : Rights) (entries : List (String × FileTree))
    (name other : String) (new : FileTree) :
    ((directory rights entries).setChild name new).child? other =
      if other = name then some new else (directory rights entries).child? other := by
  have sameName : ((fun entry : String × FileTree => entry.1 == other) ∘ fun entry =>
      if entry.1 == name then (name, new) else entry) = fun entry => entry.1 == other := by
    funext entry
    by_cases here : entry.1 = name <;> simp [here]
  rw [setChild]
  cases present : ((directory rights entries).child? name) with
  | some old =>
      rw [Option.isSome_some, if_pos rfl, child?, List.find?_map, sameName]
      rw [child?, Option.map_eq_some_iff] at present
      obtain ⟨entry, found, -⟩ := present
      by_cases same : other = name
      · subst same
        have here : entry.1 = other := by simpa using List.find?_some found
        simp [found, here]
      · rw [if_neg same, child?]
        cases there : entries.find? fun entry => entry.1 == other with
        | none => rfl
        | some entry =>
            have here : entry.1 = other := by simpa using List.find?_some there
            simp [here, same]
  | none =>
      rw [Option.isSome_none, if_neg Bool.false_ne_true, child?, List.find?_append]
      by_cases same : other = name
      · subst same
        rw [child?, Option.map_eq_none_iff] at present
        simp [present]
      · simp [child?, same, Ne.symm same]

/-- A tree that holds something under a name is a directory. -/
theorem exists_of_child? {below : FileTree} (holds : tree.child? name = some below) :
    ∃ rights entries, tree = directory rights entries := by
  cases tree with
  | file rights content => cases holds
  | directory rights entries => exact ⟨rights, entries, rfl⟩

/-! ### Contents -/

/-- The content of the file at a location. -/
def contentAt? (tree : FileTree) (location : Location) : Option ByteArray :=
  match tree.at? location with
  | some (file _ content) => some content
  | _ => none

theorem contentAt?_cons (tree : FileTree) (name : String) (rest : Location) :
    tree.contentAt? (name :: rest) = (tree.child? name).bind fun below => below.contentAt? rest := by
  rw [contentAt?, at?]
  cases tree.child? name <;> rfl

/-- There is a directory at the location. -/
def IsDirectoryAt (tree : FileTree) (location : Location) : Prop :=
  ∃ rights entries, tree.at? location = some (directory rights entries)

theorem isDirectoryAt_cons {below : FileTree} {rest : Location}
    (holds : tree.child? name = some below) :
    tree.IsDirectoryAt (name :: rest) ↔ below.IsDirectoryAt rest := by
  rw [IsDirectoryAt, at?, holds]
  rfl

/-- What is found at a location is in a directory, unless it is the whole tree. -/
theorem isDirectoryAt_dropLast {found : FileTree} {location : Location}
    (finds : tree.at? location = some found) (inside : location ≠ []) :
    tree.IsDirectoryAt location.dropLast := by
  induction location generalizing tree with
  | nil => exact absurd rfl inside
  | cons name rest ih =>
      rw [at?] at finds
      cases holds : tree.child? name with
      | none => simp [holds] at finds
      | some below =>
          rw [holds] at finds
          cases rest with
          | nil =>
              obtain ⟨rights, entries, rfl⟩ := exists_of_child? holds
              exact ⟨rights, entries, rfl⟩
          | cons next behind =>
              rw [List.dropLast_cons_cons, isDirectoryAt_cons holds]
              exact ih finds (List.cons_ne_nil next behind)

/-- A file that is put into a directory is there afterwards. -/
theorem contentAt?_put_self (rights : Rights) (content : ByteArray) {location : Location}
    (inDirectory : location ≠ [] → tree.IsDirectoryAt location.dropLast) :
    (put (file rights content) tree location).contentAt? location = some content := by
  induction location generalizing tree with
  | nil => rfl
  | cons name rest ih =>
      have parent := inDirectory (List.cons_ne_nil name rest)
      cases rest with
      | nil =>
          obtain ⟨rights, entries, ⟨⟩⟩ := parent
          rw [put, contentAt?_cons, child?_setChild, if_pos rfl]
          rfl
      | cons next behind =>
          rw [List.dropLast_cons_cons] at parent
          cases holds : tree.child? name with
          | none =>
              obtain ⟨rights, entries, finds⟩ := parent
              simp [at?, holds] at finds
          | some below =>
              have further := (isDirectoryAt_cons holds).mp parent
              obtain ⟨rights, entries, rfl⟩ := exists_of_child? holds
              simp only [put, holds]
              rw [contentAt?_cons, child?_setChild, if_pos rfl]
              exact ih fun _ => further

/-- Nothing lies behind a file. -/
theorem contentAt?_file (rights : Rights) (content : ByteArray) {location : Location}
    (behind : location ≠ []) : (file rights content).contentAt? location = none := by
  cases location with
  | nil => exact absurd rfl behind
  | cons name rest => rfl

/-- Nothing lies behind a tree that is no directory. -/
theorem contentAt?_of_notDirectory (notDirectory : ¬ tree.IsDirectoryAt []) {location : Location}
    (behind : location ≠ []) : tree.contentAt? location = none := by
  cases tree with
  | file rights content => exact contentAt?_file rights content behind
  | directory rights entries => exact absurd ⟨rights, entries, rfl⟩ notDirectory

/-- What is put into a directory changes nothing elsewhere, if it differs at one location at most
from what was there before. -/
theorem contentAt?_setChild_other {rights : Rights} {entries : List (String × FileTree)}
    {new : FileTree} {location other : Location}
    (keeps : ∀ rest, name :: rest ≠ location →
      new.contentAt? rest = (directory rights entries).contentAt? (name :: rest))
    (isOther : other ≠ location) :
    ((directory rights entries).setChild name new).contentAt? other =
      (directory rights entries).contentAt? other := by
  cases other with
  | nil =>
      rw [setChild]
      split <;> rfl
  | cons otherName rest =>
      rw [contentAt?_cons, child?_setChild]
      by_cases same : otherName = name
      · subst same
        rw [if_pos rfl]
        exact keeps rest isOther
      · rw [if_neg same, contentAt?_cons]

/-- A file that is put somewhere changes no other file, if it does not take the place of a
directory. -/
theorem contentAt?_put_other (rights : Rights) (content : ByteArray) {location other : Location}
    (notDirectory : ¬ tree.IsDirectoryAt location) (isOther : other ≠ location) :
    (put (file rights content) tree location).contentAt? other = tree.contentAt? other := by
  induction location generalizing tree other with
  | nil => rw [put, contentAt?_file _ _ isOther, contentAt?_of_notDirectory notDirectory isOther]
  | cons name rest ih =>
      cases tree with
      | file oldRights old => cases rest <;> rfl
      | directory treeRights entries =>
          cases rest with
          | nil =>
              refine contentAt?_setChild_other (fun behind isBehind => ?_) isOther
              have behind : behind ≠ [] := fun isNil => isBehind (isNil ▸ rfl)
              rw [contentAt?_file _ _ behind, contentAt?_cons]
              cases holds : (directory treeRights entries).child? name with
              | none => rfl
              | some below =>
                  rw [isDirectoryAt_cons holds] at notDirectory
                  exact (contentAt?_of_notDirectory notDirectory behind).symm
          | cons next further =>
              cases holds : (directory treeRights entries).child? name with
              | none => simp only [put, holds]
              | some below =>
                  rw [isDirectoryAt_cons holds] at notDirectory
                  simp only [put, holds]
                  refine contentAt?_setChild_other (fun behind isBehind => ?_) isOther
                  have elsewhere : behind ≠ next :: further := fun same => isBehind (same ▸ rfl)
                  rw [contentAt?_cons, holds]
                  exact ih notDirectory elsewhere

end FileTree

namespace Volume

/-! ### Volumes -/

/-- The files of a volume by their locations. -/
def view : FileView Volume Location where
  content? volume location := volume.root.contentAt? location
  file? volume path := (volume.locate path).toOption

/-- A file is made in a directory only. -/
theorem isDirectoryAt_of_mayCreate {volume : Volume} {location : Location}
    (allowed : volume.mayCreate location = .ok ()) :
    volume.root.IsDirectoryAt location.dropLast := by
  rw [mayCreate] at allowed
  split at allowed
  · cases allowed
  · cases parent : volume.root.at? location.dropLast with
    | none => simp [parent] at allowed
    | some found =>
        cases found with
        | file rights content => simp [parent] at allowed
        | directory rights entries => exact ⟨rights, entries, parent⟩

/-- Bytes are written in a directory only, and not in the place of another one. -/
theorem room_of_mayWrite {volume : Volume} {location : Location} {asDirectory : Bool}
    {rights : Rights} (allowed : volume.mayWrite location asDirectory = .ok rights) :
    ¬ volume.root.IsDirectoryAt location ∧
      (location ≠ [] → volume.root.IsDirectoryAt location.dropLast) := by
  rw [mayWrite] at allowed
  split at allowed
  · cases allowed
  · cases finds : volume.root.at? location with
    | none =>
        rw [finds] at allowed
        obtain ⟨_, creates, -⟩ := map_eq_ok_iff.mp allowed
        refine ⟨?_, fun _ => isDirectoryAt_of_mayCreate creates⟩
        rintro ⟨rights, entries, isDirectory⟩
        rw [finds] at isDirectory
        cases isDirectory
    | some found =>
        refine ⟨?_, FileTree.isDirectoryAt_dropLast finds⟩
        rintro ⟨rights, entries, isDirectory⟩
        rw [finds] at isDirectory
        cases isDirectory
        simp [finds] at allowed

/-- A write that succeeds puts a file with the content where the path leads to, in a directory and
not in the place of one. -/
theorem exists_of_write {volume after : Volume} {path : String} {content : ByteArray}
    (writes : volume.write path content = .ok after) :
    ∃ location rights, volume.locate path = .ok location ∧
      ¬ volume.root.IsDirectoryAt location ∧
      (location ≠ [] → volume.root.IsDirectoryAt location.dropLast) ∧
      after.root = .put (.file rights content) volume.root location := by
  obtain ⟨location, leads, further⟩ := bind_eq_ok_iff.mp writes
  obtain ⟨rights, allowed, ⟨⟩⟩ := bind_eq_ok_iff.mp further
  obtain ⟨notDirectory, inDirectory⟩ := room_of_mayWrite allowed
  exact ⟨location, rights, leads, notDirectory, inDirectory, rfl⟩

/-- On volumes, a write happens completely or fails without effect. -/
theorem view_lawful : view.Lawful where
  write_fails := by
    intro volume path content fault fails file
    simp only [FileSystem.write] at fails ⊢
    cases writes : volume.write path content with
    | error cause => rfl
    | ok after => simp [writes] at fails
  write_succeeds := by
    intro volume path content succeeds
    simp only [FileSystem.write] at succeeds ⊢
    cases writes : volume.write path content with
    | error cause => simp [writes] at succeeds
    | ok after =>
        obtain ⟨location, rights, leads, notDirectory, inDirectory, written⟩ :=
          exists_of_write writes
        simp only [view, leads, written]
        refine ⟨location, rfl, FileTree.contentAt?_put_self rights content inDirectory, ?_⟩
        intro other isOther
        exact FileTree.contentAt?_put_other rights content notDirectory isOther

end Volume

end ConfTree
