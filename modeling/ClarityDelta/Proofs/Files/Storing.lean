import ClarityDelta.Proofs.Files.Zone

/-!
# Writing a file into a directory that is made for it

A path that leads to a file that was just written leads to it afterwards as well: on the way there are
only directories, which writing does not touch. An error of such work names the path, and it is one of the
file system when the path has no NUL character.
-/

namespace ClarityDelta.Files

namespace FileTree

variable {tree after : FileTree} {location : Location} {path : String} {content : ByteArray}

/-! ## Ways through directories -/

/-- A way through directories is open as long as the directories are there. -/
theorem walk_of_directories (h : ∀ l, tree.look l = some none → after.look l = some none)
    {start : Location} {parts : List String} (hwalk : tree.walk start parts = .ok location) :
    after.walk start parts = .ok location := by
  induction parts generalizing start with
  | nil => exact hwalk
  | cons part parts ih =>
    rw [walk] at hwalk
    rcases hfound : tree.find? start with _ | (modified | file)
    · rw [hfound] at hwalk
      cases hwalk
    · obtain ⟨modified', hfound'⟩ :=
        look_eq_directory_iff.mp (h start (look_eq_directory_iff.mpr ⟨modified, hfound⟩))
      rw [hfound] at hwalk
      rw [walk, hfound']
      dsimp only at hwalk ⊢
      split at hwalk
      · cases hwalk
      · next hshort =>
        rw [if_neg hshort]
        exact ih hwalk
    · rw [hfound] at hwalk
      cases hwalk

/-- A path leads to the same location as long as the directories are there. -/
theorem reach_of_directories (h : ∀ l, tree.look l = some none → after.look l = some none)
    (hcurrent : after.current = tree.current) (hreach : tree.reach path = .ok location) :
    after.reach path = .ok location := by
  obtain ⟨hcheck, hwalk⟩ := reach_eq_ok_iff.mp hreach
  refine reach_eq_ok_iff.mpr ⟨hcheck, ?_⟩
  rw [origin, hcurrent, ← origin]
  exact walk_of_directories h hwalk

/-- Where a file is written no directory stood. -/
theorem Wrote.look_ne (h : Wrote location content tree after) :
    tree.look location ≠ some none := by
  obtain ⟨-, -, -, ⟨old, hold, -⟩ | ⟨hnone, -⟩⟩ := h.look_eq
  · rw [hold]
    simp
  · rw [hnone]
    simp

/-- The path that a file was written at leads to it. -/
theorem Wrote.reach (h : Wrote location content tree after)
    (hreach : tree.reach path = .ok location) : after.reach path = .ok location := by
  -- no directory on the way is the place of the file
  refine reach_of_directories (fun l hl => ?_) h.current_eq hreach
  have hne : l ≠ location := fun heq => h.look_ne (heq ▸ hl)
  rw [h.look_of_ne l hne, hl]

/-- A regular file has its own time of modification. -/
theorem modified?_of_fileAt? {file : RegularFile} (h : tree.fileAt? path = some file) :
    tree.modified? path = some file.modified := by
  rw [fileAt?] at h
  rw [modified?]
  rcases hat : tree.at? path with _ | (modified | found)
  · rw [hat] at h
    cases h
  · rw [hat] at h
    cases h
  · rw [hat] at h
    obtain rfl := Option.some.inj h
    rfl

/-- Adding directories to a tree changes no regular file. -/
theorem Grew.file?_eq (h : tree.Grew after) (location : Location) :
    after.file? location = tree.file? location :=
  Option.ext fun file => by rw [file?_eq_some_iff, file?_eq_some_iff, h.look_file]

/-- Writing a file to a tree changes no other regular file. -/
theorem Wrote.file?_eq (h : Wrote location content tree after) {other : Location}
    (hne : other ≠ location) : after.file? other = tree.file? other :=
  Option.ext fun file => by rw [file?_eq_some_iff, file?_eq_some_iff, h.look_of_ne other hne]

end FileTree

namespace FileWork

open FileTree

variable {path : String} {α : Type}

/-! ## Errors -/

/-- Work on files that fails with errors on one path only. The file system reports them, unless no path
of it could have such a text. -/
def FailsAt (path : String) (work : FileWork α) : Prop :=
  Upholds (fun _ => True)
    (fun error => error.path = path ∧ ('\x00' ∉ path.toList → error.isSystem = true)) work

/-- Failing on a path for another reason than a NUL character is a failure at that path. -/
theorem failsAt_throw {kind : FileErrorKind} (hkind : kind ≠ .embeddedNul) (path : String) :
    FailsAt path (throw ⟨kind, path⟩ : FileWork α) :=
  Upholds.throw ⟨rfl, fun _ => decide_eq_true hkind⟩

/-- A path that cannot be looked up is what the failure is about. -/
theorem failsAt_of_checkPath {error : FileError} (h : checkPath path = .error error) :
    FailsAt path (throw error : FileWork α) := by
  rw [checkPath] at h
  split at h
  · next hnul =>
    obtain rfl := Except.error.inj h
    exact Upholds.throw ⟨rfl, fun hfree => absurd (by simpa using hnul) hfree⟩
  · split at h
    · obtain rfl := Except.error.inj h
      exact failsAt_throw (by decide) path
    · split at h
      · obtain rfl := Except.error.inj h
        exact failsAt_throw (by decide) path
      · cases h

/-- Making directories step by step fails on the path that is to be made. -/
theorem makeSteps_failsAt (path : String) (location : Location) (steps : List String) :
    FailsAt path (makeSteps path location steps) := by
  induction steps generalizing location with
  | nil =>
    refine Upholds.bind Upholds.get fun tree => ?_
    split
    · exact Upholds.pure ()
    · exact failsAt_throw (by decide) path
  | cons part rest ih =>
    refine Upholds.bind Upholds.get fun tree => ?_
    split
    · exact failsAt_throw (by decide) path
    · exact failsAt_throw (by decide) path
    · split
      · exact failsAt_throw (by decide) path
      · refine Upholds.bind Upholds.get fun tree => ?_
        dsimp only
        split
        · exact Upholds.bind (Upholds.modify fun _ _ => trivial) fun _ => ih _
        · exact ih _

/-- Making directories fails on the path that is to be made. -/
theorem makeDirectories_failsAt (path : String) : FailsAt path (makeDirectories path) := by
  rw [makeDirectories]
  cases hcheck : checkPath path with
  | error error => exact failsAt_of_checkPath hcheck
  | ok => exact Upholds.bind Upholds.get fun tree => makeSteps_failsAt path _ _

/-- A walk does not fail for a NUL character, nor for something that is there. -/
theorem kind_of_walk {tree : FileTree} {start : Location} {parts : List String}
    {kind : FileErrorKind} (h : tree.walk start parts = .error kind) :
    kind ≠ .embeddedNul ∧ kind ≠ .fileExists := by
  induction parts generalizing start with
  | nil => cases h
  | cons part parts ih =>
    rw [walk] at h
    split at h
    · rw [← Except.error.inj h]
      decide
    · rw [← Except.error.inj h]
      decide
    · split at h
      · rw [← Except.error.inj h]
        decide
      · exact ih h

/-- Looking up a path fails on that path. -/
theorem reach_failsAt (path : String) : FailsAt path (FileWork.reach path) := by
  refine Upholds.bind Upholds.get fun tree => ?_
  cases hreach : tree.reach path with
  | ok location => exact Upholds.pure location
  | error error =>
    rw [FileTree.reach] at hreach
    cases hcheck : checkPath path with
    | error cause =>
      rw [hcheck] at hreach
      obtain rfl : cause = error := Except.error.inj hreach
      exact failsAt_of_checkPath hcheck
    | ok =>
      rw [hcheck] at hreach
      simp only [bind, Except.bind] at hreach
      split at hreach
      · cases hreach
      · next kind hwalk =>
        obtain rfl := Except.error.inj hreach
        exact failsAt_throw (kind_of_walk hwalk).1 path

/-- Writing a file fails on its path. -/
theorem write_failsAt (path : String) (content : ByteArray) : FailsAt path (write path content) := by
  refine Upholds.bind (reach_failsAt path) fun location => ?_
  refine Upholds.bind Upholds.get fun tree => ?_
  dsimp only
  split
  · exact failsAt_throw (by decide) path
  · exact Upholds.modify fun _ _ => trivial
  · split
    · exact Upholds.modify fun _ _ => trivial
    · exact failsAt_throw (by decide) path
    · exact failsAt_throw (by decide) path

/-- Opening a file fails on its path. -/
theorem openEnd_failsAt (path : String) : FailsAt path (openEnd path) := by
  refine Upholds.bind (reach_failsAt path) fun location => ?_
  refine Upholds.bind Upholds.get fun tree => ?_
  split
  · exact failsAt_throw (by decide) path
  · exact Upholds.pure _
  · refine Upholds.bind (write_failsAt path ByteArray.empty) fun _ => ?_
    refine Upholds.bind Upholds.get fun tree => ?_
    split
    · exact Upholds.pure _
    · exact failsAt_throw (by decide) path

/-- Writing a file into a directory that is made for it fails in the file system only, when no path has a
NUL character. -/
theorem makeDirectories_write_isSystem {directory : String}
    (hdirectory : '\x00' ∉ directory.toList) (hpath : '\x00' ∉ path.toList) (content : ByteArray) :
    Upholds (fun _ => True) (fun error : FileError => error.isSystem = true)
      (do makeDirectories directory; write path content) := by
  refine Upholds.bind ((makeDirectories_failsAt directory).weaken fun _ h => h.2 hdirectory) fun _ => ?_
  exact (write_failsAt path content).weaken fun _ h => h.2 hpath

end FileWork

end ClarityDelta.Files
