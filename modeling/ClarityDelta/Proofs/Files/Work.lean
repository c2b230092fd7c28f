import ClarityDelta.Files.Work
import ClarityDelta.Proofs.Action
import ClarityDelta.Proofs.Files.Tree

/-!
# What file operations do

Every operation on a file tree is told by what it does to the view of the tree. Directories are only
added; a written file keeps its identity or gets a new one; removing and renaming touch nothing but what
stands at the places named or below them. All of them keep a sound tree sound.
-/

namespace ClarityDelta.Files

namespace FileTree

variable {tree after last : FileTree} {location : Location}

/-! ## One place changed -/

/-- A sound tree stays sound when one place in a directory gets a directory, or a file with the identity
of the file that stood there or with a new one. -/
theorem Sound.update (h : tree.Sound) {kind : Option RegularFile}
    (hparent : tree.look location.dropLast = some none)
    (hlook : ∀ other, after.look other =
      if other = location then some kind else tree.look other)
    (hkept : tree.look location = some none → kind = none)
    (hid : ∀ file ∈ kind, file.id < after.nextId ∧
      ((∃ old, tree.look location = some (some old) ∧ old.id = file.id) ∨ tree.nextId ≤ file.id))
    (hnext : tree.nextId ≤ after.nextId) (hcurrent : after.current = tree.current) :
    after.Sound where
  above l hl hsome := by
    rw [hlook] at hsome
    have hup : tree.look l.dropLast = some none := by
      by_cases heq : l = location
      · exact heq ▸ hparent
      · rw [if_neg heq] at hsome
        exact h.above l hl hsome
    rw [hlook]
    split
    · next heq => rw [hkept (heq ▸ hup)]
    · exact hup
  id_lt l f hf := by
    rw [hlook] at hf
    split at hf
    · exact (hid f (Option.some.inj hf)).1
    · exact Nat.lt_of_lt_of_le (h.id_lt l f hf) hnext
  id_inj l l' f f' hf hf' heq := by
    -- the file at the place has an identity that no other place has
    have hnew : ∀ l f file, l ≠ location → tree.look l = some (some f) → file ∈ kind →
        f.id ≠ file.id := by
      intro l f file hl hf hfile hsame
      rcases (hid file hfile).2 with ⟨old, hold, holdid⟩ | hfresh
      · exact hl (h.id_inj l location f old hf hold (hsame.trans holdid.symm))
      · exact absurd (h.id_lt l f hf) (by omega)
    rw [hlook] at hf hf'
    by_cases hl : l = location
    · by_cases hl' : l' = location
      · rw [hl, hl']
      · rw [if_pos hl] at hf
        rw [if_neg hl'] at hf'
        exact absurd heq.symm (hnew l' f' f hl' hf' (Option.some.inj hf))
    · rw [if_neg hl] at hf
      by_cases hl' : l' = location
      · rw [if_pos hl'] at hf'
        exact absurd heq (hnew l f f' hl hf (Option.some.inj hf'))
      · rw [if_neg hl'] at hf'
        exact h.id_inj l l' f f' hf hf' heq
  isName := hcurrent ▸ h.isName

/-! ## Directories added -/

/-- The tree after directories were made where nothing stood. -/
structure Grew (tree after : FileTree) : Prop where
  look_cases : ∀ location, after.look location = tree.look location ∨
    tree.look location = none ∧ after.look location = some none
  current_eq : after.current = tree.current
  nextId_eq : after.nextId = tree.nextId
  sound : tree.Sound → after.Sound

/-- A tree has grown from itself. -/
theorem Grew.refl (tree : FileTree) : tree.Grew tree :=
  ⟨fun _ => Or.inl rfl, rfl, rfl, id⟩

/-- A tree that has grown twice has grown. -/
theorem Grew.trans (h : tree.Grew after) (hlast : after.Grew last) : tree.Grew last where
  look_cases l := by
    rcases hlast.look_cases l with heq | ⟨hnone, hdir⟩
    · rw [heq]
      exact h.look_cases l
    · rcases h.look_cases l with heq | ⟨-, hdir'⟩
      · exact Or.inr ⟨heq ▸ hnone, hdir⟩
      · rw [hdir'] at hnone
        cases hnone
  current_eq := hlast.current_eq.trans h.current_eq
  nextId_eq := hlast.nextId_eq.trans h.nextId_eq
  sound := hlast.sound ∘ h.sound

/-- The regular files of a tree that has grown are those from before. -/
theorem Grew.look_file (h : tree.Grew after) {file : RegularFile} :
    after.look location = some (some file) ↔ tree.look location = some (some file) := by
  rcases h.look_cases location with heq | ⟨hnone, hdir⟩
  · rw [heq]
  · rw [hnone, hdir]
    simp

/-- A directory is made below an existing one. -/
theorem grew_make {part : String} (hlocation : tree.look location = some none)
    (hnone : tree.look (enter location part) = none) (modified : Int) :
    tree.Grew (tree.make (enter location part) (.directory modified)) := by
  have hne : enter location part ≠ [] := by
    intro hnil
    rw [hnil, look_nil] at hnone
    cases hnone
  have hlook : ∀ other, (tree.make (enter location part) (.directory modified)).look other =
      if other = enter location part then some none else tree.look other := fun other =>
    look_make hne
  refine ⟨fun l => ?_, make_current, make_nextId, fun h => ?_⟩
  · rw [hlook]
    split
    · next heq => exact Or.inr ⟨heq ▸ hnone, rfl⟩
    · exact Or.inl rfl
  · have hparent : tree.look (enter location part).dropLast = some none := by
      by_cases hpoint : part = "."
      · rw [enter, if_pos hpoint] at hnone
        rw [hnone] at hlocation
        cases hlocation
      · by_cases hup : part = ".."
        · -- the directory above an existing one is there already
          rw [enter, if_neg hpoint, hup] at hnone hne
          have habove := h.above location (fun hnil => hne (by rw [hnil]; rfl))
            (by rw [hlocation]; simp)
          exact absurd (habove.symm.trans hnone) (by simp)
        · have hnext : enter location part = location ++ [part] := by
            rw [enter, if_neg hpoint, follow, List.foldl_cons, if_neg hup]
            rfl
          rw [hnext, List.dropLast_concat]
          exact hlocation
    exact h.update hparent hlook (fun _ => rfl) (fun file hfile => by cases hfile)
      (Nat.le_of_eq make_nextId.symm) make_current

/-! ## One file written -/

/-- The tree after a regular file was written at a location. -/
structure Wrote (location : Location) (content : ByteArray) (tree after : FileTree) : Prop where
  look_of_ne : ∀ other, other ≠ location → after.look other = tree.look other
  look_eq : ∃ file, after.look location = some (some file) ∧ file.content = content ∧
    ((∃ old, tree.look location = some (some old) ∧ old.id = file.id) ∨
      tree.look location = none ∧ file.id = tree.nextId ∧ file.id < after.nextId)
  parent : tree.look location = none → tree.look location.dropLast = some none
  current_eq : after.current = tree.current
  nextId_le : tree.nextId ≤ after.nextId

/-- Where nothing stands is not the root. -/
theorem ne_nil_of_look_eq_none (h : tree.look location = none) : location ≠ [] := by
  rintro rfl
  cases h

/-- Where a regular file stands is not the root. -/
theorem ne_nil_of_look_eq_file {file : RegularFile} (h : tree.look location = some (some file)) :
    location ≠ [] := by
  rintro rfl
  cases h

variable {content : ByteArray}

/-- Writing a file leaves a sound tree sound. -/
theorem Wrote.sound (h : Wrote location content tree after) (hsound : tree.Sound) :
    after.Sound := by
  obtain ⟨file, hfile, -, hid⟩ := h.look_eq
  have hlook : ∀ other, after.look other =
      if other = location then some (some file) else tree.look other := by
    intro other
    split
    · next heq => rw [heq, hfile]
    · next hne => exact h.look_of_ne other hne
  refine hsound.update ?_ hlook ?_ ?_ h.nextId_le h.current_eq
  · rcases hid with ⟨old, hold, -⟩ | ⟨hnone, -⟩
    · exact hsound.above location (ne_nil_of_look_eq_file hold) (by rw [hold]; simp)
    · exact h.parent hnone
  · intro hdir
    rcases hid with ⟨old, hold, -⟩ | ⟨hnone, -⟩
    · rw [hold] at hdir
      cases hdir
    · rw [hnone] at hdir
      cases hdir
  · intro f hf
    obtain rfl := Option.some.inj hf
    rcases hid with ⟨old, hold, heq⟩ | ⟨-, heq, hlt⟩
    · refine ⟨?_, Or.inl ⟨old, hold, heq⟩⟩
      rw [← heq]
      exact Nat.lt_of_lt_of_le (hsound.id_lt location old hold) h.nextId_le
    · exact ⟨hlt, Or.inr (Nat.le_of_eq heq.symm)⟩

/-- A file put where one stood keeps its identity. -/
theorem wrote_put {old : RegularFile} (hold : tree.look location = some (some old))
    (modified : Int) :
    Wrote location content tree
      (tree.put location (.file { old with content := content, modified := modified })) where
  look_of_ne other hother := by
    rw [look_put (ne_nil_of_look_eq_file hold), if_neg hother]
  look_eq := by
    refine ⟨{ old with content := content, modified := modified }, ?_, rfl,
      Or.inl ⟨old, hold, rfl⟩⟩
    rw [look_put (ne_nil_of_look_eq_file hold), if_pos rfl]
    rfl
  parent hnone := by
    rw [hold] at hnone
    cases hnone
  current_eq := rfl
  nextId_le := Nat.le_refl _

/-- A file made where nothing stood gets a new identity. -/
theorem wrote_make (hnone : tree.look location = none)
    (hparent : tree.look location.dropLast = some none) (modified : Int) :
    Wrote location content tree
      { tree.make location (.file ⟨tree.nextId, content, modified⟩) with
        nextId := tree.nextId + 1 } where
  look_of_ne other hother := by
    refine (look_make (ne_nil_of_look_eq_none hnone)).trans ?_
    rw [if_neg hother]
  look_eq := by
    refine ⟨⟨tree.nextId, content, modified⟩, ?_, rfl,
      Or.inr ⟨hnone, rfl, Nat.lt_succ_self tree.nextId⟩⟩
    refine (look_make (ne_nil_of_look_eq_none hnone)).trans ?_
    rw [if_pos rfl]
    rfl
  parent _ := hparent
  current_eq := make_current
  nextId_le := Nat.le_succ _

end FileTree

namespace FileWork

open FileTree

variable {tree : FileTree}

/-! ## Operations -/

/-- Looking up a path changes nothing. -/
theorem reach_apply (path : String) (tree : FileTree) :
    FileWork.reach path tree = (tree.reach path, tree) := by
  rw [FileWork.reach, Action.get_bind_apply]
  cases tree.reach path <;> rfl

/-- Making directories only adds directories. -/
theorem makeSteps_grew (path : String) (location : Location) (steps : List String)
    (tree : FileTree) : tree.Grew (makeSteps path location steps tree).2 := by
  induction steps generalizing location tree with
  | nil =>
    rw [makeSteps, Action.get_bind_apply]
    rcases tree.find? location with _ | (modified | file) <;> exact Grew.refl tree
  | cons part rest ih =>
    rw [makeSteps, Action.get_bind_apply]
    rcases hfound : tree.find? location with _ | (modified | file)
    · exact Grew.refl tree
    · have hlocation := look_eq_directory_iff.mpr ⟨modified, hfound⟩
      dsimp only
      by_cases hlong : maxComponentBytes < part.utf8ByteSize
      · rw [if_pos hlong]
        exact Grew.refl tree
      · rw [if_neg hlong, Action.get_bind_apply]
        by_cases hnone : (tree.find? (enter location part)).isNone = true
        · have hnext : tree.look (enter location part) = none :=
            look_eq_none_iff.mpr (Option.isNone_iff_eq_none.mp hnone)
          rw [if_pos hnone]
          exact (grew_make hlocation hnext tree.clock).trans (ih _ _)
        · rw [if_neg hnone]
          exact ih _ tree
    · exact Grew.refl tree

/-- Making directories only adds directories. -/
theorem makeDirectories_grew (path : String) (tree : FileTree) :
    tree.Grew (makeDirectories path tree).2 := by
  rw [makeDirectories]
  cases checkPath path with
  | error error => exact Grew.refl tree
  | ok => exact makeSteps_grew path _ _ tree

/-- A file is written where the path leads to, or nothing happens. -/
theorem write_cases (path : String) (content : ByteArray) (tree : FileTree) :
    (∃ error, write path content tree = (.error error, tree)) ∨
      ∃ location after, tree.reach path = .ok location ∧
        write path content tree = (.ok (), after) ∧ Wrote location content tree after := by
  rw [write, Action.bind_apply, reach_apply]
  rcases hreach : tree.reach path with error | location
  · exact Or.inl ⟨error, rfl⟩
  · dsimp only
    rw [Action.get_bind_apply]
    rcases hfound : tree.find? location with _ | (modified | file)
    · have hnone := look_eq_none_iff.mpr hfound
      dsimp only
      rcases hparent : tree.find? location.dropLast with _ | (modified | file)
      · exact Or.inl ⟨_, rfl⟩
      · exact Or.inr ⟨location, _, rfl, rfl,
          wrote_make hnone (look_eq_directory_iff.mpr ⟨modified, hparent⟩) tree.clock⟩
      · exact Or.inl ⟨_, rfl⟩
    · exact Or.inl ⟨_, rfl⟩
    · exact Or.inr ⟨location, _, rfl, rfl,
        wrote_put (look_eq_file_iff.mpr hfound) tree.clock⟩

/-- Writing leaves a sound tree sound, also when it fails. -/
theorem write_sound (path : String) (content : ByteArray) (h : tree.Sound) :
    (write path content tree).2.Sound := by
  obtain ⟨error, hwrite⟩ | ⟨location, after, -, hwrite, hwrote⟩ := write_cases path content tree
  · rw [hwrite]
    exact h
  · rw [hwrite]
    exact hwrote.sound h

/-- A file is opened where the path leads to, an empty one being made when there is none. -/
theorem openEnd_cases (path : String) (tree : FileTree) :
    (∃ error, openEnd path tree = (.error error, tree)) ∨
      ∃ location after file, tree.reach path = .ok location ∧
        openEnd path tree = (.ok file.id, after) ∧ after.look location = some (some file) ∧
          (after = tree ∨ Wrote location ByteArray.empty tree after) := by
  rw [openEnd, Action.bind_apply, reach_apply]
  rcases hreach : tree.reach path with error | location
  · exact Or.inl ⟨error, rfl⟩
  · dsimp only
    rw [Action.get_bind_apply]
    rcases hfound : tree.find? location with _ | (modified | file)
    · dsimp only
      rw [Action.bind_apply]
      obtain ⟨error, hwrite⟩ | ⟨other, after, hother, hwrite, hwrote⟩ :=
        write_cases path ByteArray.empty tree
      · rw [hwrite]
        exact Or.inl ⟨error, rfl⟩
      · obtain rfl : location = other := Except.ok.inj (hreach.symm.trans hother)
        obtain ⟨file, hfile, -⟩ := hwrote.look_eq
        refine Or.inr ⟨location, after, file, rfl, ?_, hfile, Or.inr hwrote⟩
        rw [hwrite]
        dsimp only
        rw [Action.get_bind_apply, file?_eq_some_iff.mpr hfile]
        rfl
    · exact Or.inl ⟨_, rfl⟩
    · exact Or.inr ⟨location, tree, file, rfl, rfl, look_eq_file_iff.mpr hfound, Or.inl rfl⟩

/-- The file with the given identity, with something added to its end. -/
def extended (id : Nat) (content : ByteArray) (clock : Int) (file : RegularFile) : RegularFile :=
  if file.id = id then { file with content := file.content ++ content, modified := clock } else file

/-- A file that is added to keeps its identity. -/
theorem extended_id (id : Nat) (content : ByteArray) (clock : Int) (file : RegularFile) :
    (extended id content clock file).id = file.id := by
  rw [extended]
  split <;> rfl

/-- An entry whose file is changed. -/
def onFile (change : RegularFile → RegularFile) : Entry → Entry
  | .directory modified => .directory modified
  | .file f => .file (change f)

/-- Changing the files changes what regular files are seen. -/
theorem regular?_onFile (change : RegularFile → RegularFile) (entry : Entry) :
    (onFile change entry).regular? = entry.regular?.map change := by
  cases entry <;> rfl

/-- Adding to an open file changes the file with its identity, wherever that stands. -/
theorem append_apply (id : Nat) (content : ByteArray) (tree : FileTree) :
    ∃ after, append id content tree = (.ok (), after) ∧
      (∀ l, after.look l = (tree.look l).map (Option.map (extended id content tree.clock))) ∧
        after.current = tree.current ∧ after.nextId = tree.nextId := by
  refine ⟨_, rfl, fun l => ?_, rfl, rfl⟩
  by_cases hl : l = []
  · rw [hl]
    rfl
  · rw [look_of_ne_nil hl, look_of_ne_nil hl]
    refine (congrArg (fun entries => (List.lookup l entries).map Entry.regular?)
      (List.map_congr_left
        (g := fun entry => (entry.1, onFile (extended id content tree.clock) entry.2))
        fun entry _ => ?_)).trans ?_
    · obtain ⟨place, modified | file⟩ := entry <;> rfl
    rw [lookup_map_snd, Option.map_map, Option.map_map]
    exact congrArg (Option.map · _) (funext fun entry => regular?_onFile _ entry)

/-- A regular file is removed where the path leads to, or nothing happens. -/
theorem remove_cases (path : String) (tree : FileTree) :
    (∃ error, remove path tree = (.error error, tree)) ∨
      ∃ location file after, tree.reach path = .ok location ∧
        tree.look location = some (some file) ∧ remove path tree = (.ok (), after) ∧
          (∀ l, after.look l = if location <+: l then none else tree.look l) ∧
            after.current = tree.current ∧ after.nextId = tree.nextId := by
  rw [remove, Action.bind_apply, reach_apply]
  rcases hreach : tree.reach path with error | location
  · exact Or.inl ⟨error, rfl⟩
  · dsimp only
    rw [Action.get_bind_apply]
    rcases hfound : tree.find? location with _ | (modified | file)
    · exact Or.inl ⟨_, rfl⟩
    · exact Or.inl ⟨_, rfl⟩
    · have hfile := look_eq_file_iff.mpr hfound
      refine Or.inr ⟨location, file, _, rfl, hfile, rfl, fun l => ?_, ?_, ?_⟩
      · refine look_touch.trans (look_clear.trans ?_)
        have hne : location <+: l → l ≠ [] := by
          rintro hunder rfl
          exact ne_nil_of_look_eq_file hfile (List.prefix_nil.mp hunder)
        by_cases hunder : location <+: l
        · rw [if_pos hunder, if_pos ⟨hne hunder, hunder⟩]
        · rw [if_neg hunder, if_neg fun hand => hunder hand.2]
      · exact touch_current
      · exact touch_nextId

/-- Something is given another place, or nothing happens. -/
theorem move_cases (source target : String) (tree : FileTree) :
    (∃ error, move source target tree = (.error error, tree)) ∨
      ∃ start destination after, tree.reach source = .ok start ∧
        tree.reach target = .ok destination ∧ tree.look start ≠ none ∧
          move source target tree = (.ok (), after) ∧
            (∀ l, after.look l = (tree.renamed start destination).look l) ∧
              after.current = tree.current ∧ after.nextId = tree.nextId := by
  rw [move, Action.bind_apply, reach_apply]
  rcases hsource : tree.reach source with error | start
  · exact Or.inl ⟨error, rfl⟩
  · dsimp only
    rw [Action.bind_apply, reach_apply]
    rcases htarget : tree.reach target with error | destination
    · exact Or.inl ⟨error, rfl⟩
    · dsimp only
      rw [Action.get_bind_apply]
      by_cases hnone : (tree.find? start).isNone = true
      · rw [if_pos hnone]
        exact Or.inl ⟨_, rfl⟩
      · rw [if_neg hnone]
        refine Or.inr ⟨start, destination, _, rfl, rfl, ?_, rfl, fun l => ?_, ?_, ?_⟩
        · rw [Ne, look_eq_none_iff, ← Option.isNone_iff_eq_none]
          exact hnone
        · exact look_touch.trans look_touch
        · exact touch_current.trans touch_current
        · exact touch_nextId.trans touch_nextId

end FileWork

end ClarityDelta.Files
