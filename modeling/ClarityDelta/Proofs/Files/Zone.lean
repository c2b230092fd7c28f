import ClarityDelta.Proofs.Files.Work

/-!
# What is left alone

Two things are said of a tree after some work. Either all files that were there stay in their places, as
when something is written: `Stays`. Or everything outside a zone of locations is as it was, as when log
files are renamed among each other: `SameOutside`. A file that is known by its identity and stands in a
zone stays in it both ways: `Confines`.
-/

namespace ClarityDelta.Files

namespace FileTree

variable {tree after last : FileTree} {zone : Location → Prop} {id : Nat} {location : Location}
  {content : ByteArray}

/-! ## Files that stay -/

/-- The files of a tree stay in their places: a file that is known afterwards by an identity given away
before is where it was. -/
structure Stays (tree after : FileTree) : Prop where
  current_eq : after.current = tree.current
  nextId_le : tree.nextId ≤ after.nextId
  sound : tree.Sound → after.Sound
  id_stays : ∀ location file, after.look location = some (some file) → file.id < tree.nextId →
    ∃ old, tree.look location = some (some old) ∧ old.id = file.id

namespace Stays

/-- What stays twice stays. -/
theorem trans (h : tree.Stays after) (hlast : after.Stays last) : tree.Stays last where
  current_eq := hlast.current_eq.trans h.current_eq
  nextId_le := Nat.le_trans h.nextId_le hlast.nextId_le
  sound := fun hsound => hlast.sound (h.sound hsound)
  id_stays l file hfile hlt := by
    obtain ⟨middle, hmiddle, hid⟩ := hlast.id_stays l file hfile (by have := h.nextId_le; omega)
    obtain ⟨old, hold, hid'⟩ := h.id_stays l middle hmiddle (by omega)
    exact ⟨old, hold, hid'.trans hid⟩

end Stays

/-- When directories are made, all files stay in their places. -/
theorem Grew.stays (h : tree.Grew after) : tree.Stays after where
  current_eq := h.current_eq
  nextId_le := Nat.le_of_eq h.nextId_eq.symm
  sound := h.sound
  id_stays _ file hfile _ := ⟨file, h.look_file.mp hfile, rfl⟩

/-- When a file is written, all files stay in their places. -/
theorem Wrote.stays (h : Wrote location content tree after) : tree.Stays after where
  current_eq := h.current_eq
  nextId_le := h.nextId_le
  sound := h.sound
  id_stays l file hfile hlt := by
    by_cases hl : l = location
    · obtain ⟨written, hwritten, -, ⟨old, hold, hid⟩ | ⟨-, hnew, -⟩⟩ := h.look_eq
      · obtain rfl : written = file := by simpa [← hl, hfile, eq_comm] using hwritten
        exact ⟨old, hl ▸ hold, hid⟩
      · obtain rfl : written = file := by simpa [← hl, hfile, eq_comm] using hwritten
        omega
    · exact ⟨file, h.look_of_ne l hl ▸ hfile, rfl⟩

/-- What stands everywhere is as it was. -/
theorem stays_of_look_eq (hlook : ∀ l, after.look l = tree.look l)
    (hcurrent : after.current = tree.current) (hnext : after.nextId = tree.nextId) : tree.Stays after where
  current_eq := hcurrent
  nextId_le := Nat.le_of_eq hnext.symm
  sound h := h.congr hlook (Nat.le_of_eq hnext.symm) hcurrent
  id_stays l file hfile _ := ⟨file, hlook l ▸ hfile, rfl⟩

/-- A directory that gets another time of modification is the same directory. -/
theorem look_put_directory (h : tree.look location = some none) (modified : Int) (other : Location) :
    (tree.put location (.directory modified)).look other = tree.look other := by
  by_cases hlocation : location = []
  · by_cases hother : other = []
    · rw [hother, look_nil, look_nil]
    · rw [look_of_ne_nil hother, look_of_ne_nil hother, put, lookup_replace, if_neg (hlocation ▸ hother)]
  · rw [look_put hlocation]
    split
    · next heq => rw [heq, h]; rfl
    · rfl

/-- Where everything at or below a location is gone, the rest stays. -/
theorem clear_stays (location : Location) (tree : FileTree) : tree.Stays (tree.clear location) where
  current_eq := rfl
  nextId_le := Nat.le_refl _
  id_stays l file hfile _ := by
    rw [look_clear] at hfile
    split at hfile
    · cases hfile
    · exact ⟨file, hfile, rfl⟩
  sound h := by
    have hold : ∀ l kind, (tree.clear location).look l = some kind → tree.look l = some kind := by
      intro l kind hkind
      rw [look_clear] at hkind
      split at hkind
      · cases hkind
      · exact hkind
    refine ⟨fun l hl hsome => ?_, fun l file hfile => h.id_lt l file (hold l _ hfile),
      fun l l' file file' hfile hfile' =>
        h.id_inj l l' file file' (hold l _ hfile) (hold l' _ hfile'), h.isName⟩
    rw [look_clear] at hsome ⊢
    split at hsome
    · exact absurd rfl hsome
    · next hapart =>
      rw [if_neg fun hunder => hapart ⟨hl, hunder.2.trans (List.dropLast_prefix l)⟩]
      exact h.above l hl hsome

/-! ## Zones -/

/-- A tree is as it was outside a zone. -/
structure SameOutside (zone : Location → Prop) (tree after : FileTree) : Prop where
  current_eq : after.current = tree.current
  nextId_le : tree.nextId ≤ after.nextId
  sound : tree.Sound → after.Sound
  look_eq : ∀ location, ¬ zone location → after.look location = tree.look location

namespace SameOutside

/-- Every tree is the same as itself outside any zone. -/
theorem refl (zone : Location → Prop) (tree : FileTree) : SameOutside zone tree tree :=
  ⟨rfl, Nat.le_refl _, fun h => h, fun _ _ => rfl⟩

/-- Trees that are the same outside a zone as a third one are the same there. -/
theorem trans (h : SameOutside zone tree after) (hlast : SameOutside zone after last) :
    SameOutside zone tree last where
  current_eq := hlast.current_eq.trans h.current_eq
  nextId_le := Nat.le_trans h.nextId_le hlast.nextId_le
  sound := fun hsound => hlast.sound (h.sound hsound)
  look_eq l hl := (hlast.look_eq l hl).trans (h.look_eq l hl)

/-- Trees that are the same outside a zone are so outside a wider one. -/
theorem mono {wider : Location → Prop} (h : SameOutside zone tree after)
    (hwider : ∀ l, zone l → wider l) : SameOutside wider tree after where
  current_eq := h.current_eq
  nextId_le := h.nextId_le
  sound := h.sound
  look_eq l hl := h.look_eq l fun hzone => hl (hwider l hzone)

end SameOutside

/-- The regular files outside the zone are the same. -/
theorem SameOutside.file?_eq (h : SameOutside zone tree after) (hlocation : ¬ zone location) :
    after.file? location = tree.file? location :=
  Option.ext fun file => by rw [file?_eq_some_iff, file?_eq_some_iff, h.look_eq location hlocation]

/-- A file that is written in the zone changes nothing outside it. -/
theorem Wrote.sameOutside (h : Wrote location content tree after) (hzone : zone location) :
    SameOutside zone tree after where
  current_eq := h.current_eq
  nextId_le := h.nextId_le
  sound := h.sound
  look_eq l hl := h.look_of_ne l fun heq => hl (heq ▸ hzone)

/-- The file with the given identity stands in the zone, if anywhere. -/
def Confines (zone : Location → Prop) (id : Nat) (tree : FileTree) : Prop :=
  id < tree.nextId ∧
    ∀ location file, tree.look location = some (some file) → file.id = id → zone location

/-- An identity that is confined to a zone is confined to a wider one. -/
theorem Confines.mono {wider : Location → Prop} (h : tree.Confines zone id)
    (hwider : ∀ l, zone l → wider l) : tree.Confines wider id :=
  ⟨h.1, fun l file hfile hid => hwider l (h.2 l file hfile hid)⟩

/-- An identity stays confined when all files stay in their places. -/
theorem Confines.of_stays (h : tree.Confines zone id) (hstays : tree.Stays after) :
    after.Confines zone id := by
  refine ⟨Nat.lt_of_lt_of_le h.1 hstays.nextId_le, fun l file hfile hid => ?_⟩
  obtain ⟨old, hold, heq⟩ := hstays.id_stays l file hfile (hid ▸ h.1)
  exact h.2 l old hold (heq.trans hid)

/-- An identity stays confined when nothing outside the zone changes. -/
theorem Confines.of_sameOutside (h : tree.Confines zone id) (hsame : SameOutside zone tree after) :
    after.Confines zone id := by
  refine ⟨Nat.lt_of_lt_of_le h.1 hsame.nextId_le, fun l file hfile hid => ?_⟩
  by_contra hl
  exact hl (h.2 l file (hsame.look_eq l hl ▸ hfile) hid)

/-! ## Ways outside a zone -/

/-- The locations that components lead through, the last one among them. -/
def trail : Location → List String → List Location
  | location, [] => [location]
  | location, part :: rest => location :: trail (enter location part) rest

/-- No location on the way of a path is in a zone. -/
def Avoids (zone : Location → Prop) (current : Location) (path : String) : Prop :=
  ∀ location ∈ trail ((FileTree.empty current).origin path) (steps path), ¬ zone location

/-- What a walk leads to is on its trail. -/
theorem mem_trail_of_walk {start : Location} {parts : List String}
    (h : tree.walk start parts = .ok location) : location ∈ trail start parts := by
  induction parts generalizing start with
  | nil => exact List.mem_singleton.mpr (Except.ok.inj h).symm
  | cons part parts ih =>
    rw [walk] at h
    split at h
    · cases h
    · cases h
    · split at h
      · cases h
      · exact List.mem_cons_of_mem _ (ih h)

/-- A way leads to the same place, or fails in the same way, where all that is on it is as it was. -/
theorem walk_eq_of_look_eq {start : Location} {parts : List String}
    (h : ∀ l ∈ trail start parts, after.look l = tree.look l) :
    after.walk start parts = tree.walk start parts := by
  induction parts generalizing start with
  | nil => rfl
  | cons part parts ih =>
    have hrest := ih fun l hl => h l (List.mem_cons_of_mem _ hl)
    have hstart := h start List.mem_cons_self
    rw [walk, walk, hrest]
    rcases hfound : tree.find? start with _ | (modified | file)
    · rw [look_eq_none_iff.mp (hstart.trans (look_eq_none_iff.mpr hfound))]
    · obtain ⟨modified', hfound'⟩ := look_eq_directory_iff.mp
        (hstart.trans (look_eq_directory_iff.mpr ⟨modified, hfound⟩))
      rw [hfound']
    · rw [look_eq_file_iff.mp (hstart.trans (look_eq_file_iff.mpr hfound))]

namespace SameOutside

variable {path : String}

/-- A path that avoids the zone leads where it led. -/
theorem reach_eq (h : SameOutside zone tree after) (hpath : Avoids zone tree.current path) :
    after.reach path = tree.reach path := by
  have horigin : after.origin path = tree.origin path := by rw [origin, origin, h.current_eq]
  have hwalk : after.walk (tree.origin path) (steps path) = tree.walk (tree.origin path) (steps path) :=
    walk_eq_of_look_eq fun l hl => h.look_eq l (hpath l hl)
  rw [FileTree.reach, FileTree.reach, horigin, hwalk]

/-- The file that such a path leads to is the same. -/
theorem fileAt?_eq (h : SameOutside zone tree after) (hpath : Avoids zone tree.current path) :
    after.fileAt? path = tree.fileAt? path := by
  rw [fileAt?, fileAt?, at?, at?, h.reach_eq hpath]
  cases hreach : tree.reach path with
  | error error => rfl
  | ok location =>
    have hlocation := mem_trail_of_walk (reach_eq_ok_iff.mp hreach).2
    exact h.file?_eq (hpath location hlocation)

end SameOutside

/-- In a sound tree a file stands in a zone when one of its places does. -/
theorem Sound.confines (h : tree.Sound) {file : RegularFile}
    (hfile : tree.look location = some (some file)) (hzone : zone location) :
    tree.Confines zone file.id :=
  ⟨h.id_lt location file hfile, fun l other hother hid =>
    h.id_inj location l file other hfile hother hid.symm ▸ hzone⟩

end FileTree

namespace FileWork

open FileTree

variable {zone : Location → Prop} {tree : FileTree}

/-- Adding to an open file that is confined to a zone changes nothing outside it. -/
theorem append_sameOutside {id : Nat} (h : tree.Confines zone id) (content : ByteArray) :
    ∃ after, append id content tree = (.ok (), after) ∧ SameOutside zone tree after := by
  obtain ⟨after, happend, hlook, hcurrent, hnext⟩ := append_apply id content tree
  refine ⟨after, happend, hcurrent, Nat.le_of_eq hnext.symm, fun hsound => ?_, fun l hl => ?_⟩
  · have hfile : ∀ l file, after.look l = some (some file) →
        ∃ old, tree.look l = some (some old) ∧ old.id = file.id := by
      intro l file hfile
      rw [hlook] at hfile
      rcases hold : tree.look l with _ | _ | old
      · simp [hold] at hfile
      · simp [hold] at hfile
      · rw [hold] at hfile
        obtain rfl : extended id content tree.clock old = file := by simpa using hfile
        exact ⟨old, rfl, (extended_id id content tree.clock old).symm⟩
    refine ⟨fun l hl hsome => ?_, fun l file hf => ?_, fun l l' file file' hf hf' heq => ?_, ?_⟩
    · rw [hlook] at hsome ⊢
      have hold : tree.look l ≠ none := fun hnone => hsome (by rw [hnone]; rfl)
      rw [hsound.above l hl hold]
      rfl
    · obtain ⟨old, hold, hid⟩ := hfile l file hf
      rw [hnext, ← hid]
      exact hsound.id_lt l old hold
    · obtain ⟨old, hold, hid⟩ := hfile l file hf
      obtain ⟨old', hold', hid'⟩ := hfile l' file' hf'
      exact hsound.id_inj l l' old old' hold hold' (by rw [hid, hid', heq])
    · rw [hcurrent]
      exact hsound.isName
  · rw [hlook]
    rcases hold : tree.look l with _ | _ | old
    · rfl
    · rfl
    · have hne : old.id ≠ id := fun hid => hl (h.2 l old hold hid)
      simp [extended, hne]

/-- Directories are made and then a file is written where the path leads to; if that fails, directories
have been made at most. -/
theorem makeDirectories_write_cases (directory path : String) (content : ByteArray) (tree : FileTree) :
    let work : FileWork Unit := do
      makeDirectories directory
      write path content
    (∃ error after, work tree = (.error error, after) ∧ tree.Grew after) ∨
      ∃ middle location after, tree.Grew middle ∧ middle.reach path = .ok location ∧
        work tree = (.ok (), after) ∧ Wrote location content middle after := by
  intro work
  have hgrew := makeDirectories_grew directory tree
  have hwork : work tree = _ :=
    Action.bind_apply (makeDirectories directory) (fun _ => write path content) tree
  rcases hmade : makeDirectories directory tree with ⟨error | _, middle⟩
  · rw [hmade] at hwork hgrew
    exact Or.inl ⟨error, middle, hwork, hgrew⟩
  · rw [hmade] at hwork hgrew
    obtain ⟨error, hwrite⟩ | ⟨location, after, hreach, hwrite, hwrote⟩ := write_cases path content middle
    · exact Or.inl ⟨error, middle, hwork.trans hwrite, hgrew⟩
    · exact Or.inr ⟨middle, location, after, hgrew, hreach, hwork.trans hwrite, hwrote⟩

/-! ## Work that leaves files in their places -/

/-- When a file is written into directories that are made for it, all files stay in their places. -/
theorem makeDirectories_write_stays (directory path : String) (content : ByteArray) (tree : FileTree) :
    tree.Stays ((do makeDirectories directory; write path content : FileWork Unit) tree).2 := by
  obtain ⟨error, after, hrun, hgrew⟩ | ⟨middle, location, after, hgrew, -, hrun, hwrote⟩ :=
    makeDirectories_write_cases directory path content tree
  · rw [hrun]
    exact hgrew.stays
  · rw [hrun]
    exact hgrew.stays.trans hwrote.stays

/-- Writing a file, or failing to, moves no file to another place. -/
theorem write_stays (path : String) (content : ByteArray) (tree : FileTree) :
    tree.Stays (write path content tree).2 := by
  obtain ⟨error, hrun⟩ | ⟨location, after, -, hrun, hwrote⟩ := write_cases path content tree
  · rw [hrun]
    exact stays_of_look_eq (fun _ => rfl) rfl rfl
  · rw [hrun]
    exact hwrote.stays

/-- Setting a time moves no file to another place. -/
theorem setModified_stays (path : String) (time : Int) (tree : FileTree) :
    tree.Stays (setModified path time tree).2 := by
  have hsame : tree.Stays tree := stays_of_look_eq (fun _ => rfl) rfl rfl
  rw [setModified, Action.bind_apply, reach_apply]
  rcases tree.reach path with error | location
  · exact hsame
  · dsimp only
    rw [Action.get_bind_apply]
    rcases hfound : tree.find? location with _ | (modified | file)
    · exact hsame
    · exact stays_of_look_eq (look_put_directory (look_eq_directory_iff.mpr ⟨modified, hfound⟩) time)
        rfl rfl
    · -- the file keeps its content and its identity
      have hwrote : Wrote location file.content tree
          (tree.put location (.file { file with modified := time })) :=
        wrote_put (look_eq_file_iff.mpr hfound) time
      exact hwrote.stays

/-- Removing files moves no other file to another place. -/
theorem removeAll_stays (path : String) (tree : FileTree) : tree.Stays (removeAll path tree).2 := by
  rw [removeAll, Action.bind_apply, reach_apply]
  rcases tree.reach path with error | location
  · exact stays_of_look_eq (fun _ => rfl) rfl rfl
  · exact (clear_stays location tree).trans
      (stays_of_look_eq (fun _ => look_touch) touch_current touch_nextId)

end FileWork

end ClarityDelta.Files
