import ClarityDelta.Logging.Write
import ClarityDelta.Proofs.Files.Zone
import ClarityDelta.Proofs.Text.Numeral

/-!
# Log files and the files set aside

A log file that gets too large is given a numbered name, and those that have one the next number. All of
them stand in one directory under names that begin alike. Adding a line touches nothing but these: what
stands elsewhere is as it was, `FileSink.Logs.add`. A directory under one of the numbered names is set
aside as files are, with everything below it, so these places belong to the zone of the log as well.
-/

namespace ClarityDelta.Logging

open Files FileTree FileWork Text

/-! ## Places -/

/-- Where the file stands that was set aside under a number. -/
def backupPlace (current : Location) (path : String) (n : Nat) : Location :=
  locate current (absoluteText current path ++ "." ++ String.ofList (decimal n))

/-- The places that a log touches: its file, and all that stands at or below the numbered names. -/
def LogZone (current : Location) (path : String) (count : Int) (location : Location) : Prop :=
  location = locate current path ∨
    ∃ n : Nat, 1 ≤ n ∧ (n : Int) ≤ count ∧ backupPlace current path n <+: location

/-- Two places in one directory. -/
def Siblings (location other : Location) : Prop :=
  ∃ directory name name', location = directory ++ [name] ∧ other = directory ++ [name'] ∧ name ≠ name'

namespace Siblings

variable {location other : Location}

/-- Siblings are siblings of each other. -/
theorem symm (h : Siblings location other) : Siblings other location := by
  obtain ⟨directory, name, name', hl, ho, hne⟩ := h
  exact ⟨directory, name', name, ho, hl, hne.symm⟩

/-- A sibling is not the root. -/
theorem ne_nil (h : Siblings location other) : location ≠ [] := by
  obtain ⟨directory, name, name', rfl, -⟩ := h
  simp

/-- A sibling is not above the other one. -/
theorem apart (h : Siblings location other) : ¬ location <+: other := by
  obtain ⟨directory, name, name', rfl, rfl, hne⟩ := h
  intro hunder
  have heq := hunder.eq_of_length (by simp)
  exact hne (List.singleton_inj.mp (List.append_cancel_left heq))

/-- Siblings are in one directory. -/
theorem dropLast_eq (h : Siblings location other) : other.dropLast = location.dropLast := by
  obtain ⟨directory, name, name', rfl, rfl, -⟩ := h
  rw [List.dropLast_concat, List.dropLast_concat]

end Siblings

/-- What is put behind a path is put behind its last part. -/
theorem intercalate_concat_append (directory : List String) (name suffix : String) :
    "/".intercalate (directory ++ [name]) ++ suffix =
      "/".intercalate (directory ++ [name ++ suffix]) := by
  induction directory with
  | nil => rw [List.nil_append, List.nil_append, String.intercalate_singleton,
      String.intercalate_singleton]
  | cons first directory ih =>
    rw [List.cons_append, List.cons_append, String.intercalate_cons_of_ne_nil (by simp),
      String.intercalate_cons_of_ne_nil (by simp), String.append_assoc, ih]

/-- A name with a number behind it is one that something in a directory can have. -/
theorem isName_numbered {name : String} (h : IsName name) (n : Nat) :
    IsName (name ++ "." ++ String.ofList (decimal n)) := by
  obtain ⟨⟨hempty, -, hslash⟩, -⟩ := h
  have hlist : (name ++ "." ++ String.ofList (decimal n)).toList = name.toList ++ '.' :: decimal n := by
    simp
  have hlength : 3 ≤ (name ++ "." ++ String.ofList (decimal n)).toList.length := by
    have hname : 0 < name.toList.length := List.length_pos_iff.mpr (by simpa using hempty)
    have hdigits : 0 < (decimal n).length := List.length_pos_iff.mpr (decimal_ne_nil n)
    rw [hlist, List.length_append, List.length_cons]
    omega
  refine ⟨⟨?_, ?_, ?_⟩, ?_⟩
  · intro heq
    rw [heq] at hlength
    exact absurd hlength (by decide)
  · intro heq
    rw [heq] at hlength
    exact absurd hlength (by decide)
  · rw [hlist, List.mem_append, List.mem_cons]
    rintro (hmem | hmem | hmem)
    · exact hslash hmem
    · cases hmem
    · obtain ⟨digit, hlt, heq⟩ := exists_hexChar_of_mem_decimal hmem
      revert digit
      decide
  · intro heq
    rw [heq] at hlength
    exact absurd hlength (by decide)

section

variable {current : Location} {path : String} {count : Int}

/-- A log is set aside in its directory, with a number behind its name. -/
theorem backupPlace_eq (hcurrent : ∀ part ∈ current, IsName part) {directory : List String}
    {name : String} (h : locate current path = directory ++ [name]) (n : Nat) :
    backupPlace current path n = directory ++ [name ++ "." ++ String.ofList (decimal n)] := by
  obtain ⟨root, hroot, heq⟩ := exists_absoluteText_eq current path
  have hnames : ∀ part ∈ directory ++ [name], IsName part := fun part hpart =>
    isName_of_mem_locate hcurrent (h ▸ hpart)
  have hnumbered : ∀ part ∈ directory ++ [name ++ "." ++ String.ofList (decimal n)], IsName part := by
    intro part hpart
    rcases List.mem_append.mp hpart with hpart | hpart
    · exact hnames part (List.mem_append_left _ hpart)
    · rw [List.mem_singleton.mp hpart]
      exact isName_numbered (hnames name (by simp)) n
  have htext : absoluteText current path ++ "." ++ String.ofList (decimal n) =
      root ++ "/".intercalate (directory ++ [name ++ "." ++ String.ofList (decimal n)]) := by
    rw [heq, h, String.append_assoc, String.append_assoc, intercalate_concat_append,
      String.append_assoc]
  rw [backupPlace, htext, locate_rooted hroot hnumbered]

/-- A log and what is set aside of it are siblings. -/
theorem siblings_backup (hcurrent : ∀ part ∈ current, IsName part) (hne : locate current path ≠ [])
    (n : Nat) : Siblings (locate current path) (backupPlace current path n) := by
  obtain ⟨directory, name, h⟩ := List.eq_nil_or_concat _ |>.resolve_left hne
  rw [List.concat_eq_append] at h
  refine ⟨directory, name, _, h, backupPlace_eq hcurrent h n, fun heq => ?_⟩
  have hlength := congrArg (fun s => s.toList.length) heq
  simp at hlength

/-- Logs set aside under different numbers are siblings. -/
theorem siblings_backups (hcurrent : ∀ part ∈ current, IsName part) (hne : locate current path ≠ [])
    {m n : Nat} (hmn : m ≠ n) :
    Siblings (backupPlace current path m) (backupPlace current path n) := by
  obtain ⟨directory, name, h⟩ := List.eq_nil_or_concat _ |>.resolve_left hne
  rw [List.concat_eq_append] at h
  refine ⟨directory, _, _, backupPlace_eq hcurrent h m, backupPlace_eq hcurrent h n, fun heq => ?_⟩
  have hlist := congrArg String.toList heq
  simp only [String.toList_append, String.toList_ofList, List.append_cancel_left_eq] at hlist
  exact hmn (decimal_inj hlist)

/-! ## Setting files aside -/

/-- Nothing stands where a path leads to. -/
def Free (path : String) (tree : FileTree) : Prop :=
  ∀ location, tree.reach path = .ok location → tree.look location = none

/-- What a tree does not hold is free. -/
theorem free_of_not_holds {text : String} {tree : FileTree} (h : ¬ tree.holds text = true) :
    Free text tree := by
  intro location hreach
  rw [holds, at?, hreach, Option.not_isSome_iff_eq_none] at h
  exact look_eq_none_iff.mpr h

/-- What holds of a tree while files are set aside: it differs from the tree before in the zone of the
log only, and no directory has taken the place of the log file. -/
structure SettingAside (current : Location) (path : String) (count : Int) (before tree : FileTree) :
    Prop where
  same : SameOutside (LogZone current path count) before tree
  sound : tree.Sound
  current_eq : tree.current = current
  ne_nil : locate current path ≠ []
  no_directory : Fits (absoluteText current path) → tree.look (locate current path) ≠ some none

namespace SettingAside

variable {before tree after : FileTree} {text text' : String} {n : Nat} {start destination : Location}

/-- The working directory is made of names. -/
theorem isName (h : SettingAside current path count before tree) : ∀ part ∈ current, IsName part :=
  h.current_eq ▸ h.sound.isName

/-- What is below a place for logs set aside is among the places of the log. -/
theorem logZone_append (hn : 1 ≤ n) (hcount : (n : Int) ≤ count) (rest : Location) :
    LogZone current path count (backupPlace current path n ++ rest) :=
  Or.inr ⟨n, hn, hcount, List.prefix_append _ rest⟩

/-- Removing what was set aside makes room for the next. -/
theorem remove (hn : 1 ≤ n) (hcount : (n : Int) ≤ count)
    (htext : locate current text = backupPlace current path n) :
    Ensures (SettingAside current path count before) (FileWork.remove text)
      (fun _ tree => SettingAside current path count before tree ∧ Free text tree)
      fun _ => SettingAside current path count before := by
  refine ⟨fun tree h => ?_⟩
  obtain ⟨error, hrun⟩ | ⟨location, file, after, hreach, hfile, hrun, hlook, hcurrent, hnext⟩ :=
    remove_cases text tree
  · rw [hrun]
    exact h
  · rw [hrun]
    have hlocation : location = backupPlace current path n := by
      rw [reach_eq hreach, h.current_eq, htext]
    have hapart := (siblings_backup h.isName h.ne_nil n).symm.apart
    rw [hlocation] at hlook hfile
    have hsame : SameOutside (LogZone current path count) tree after := by
      refine ⟨hcurrent, Nat.le_of_eq hnext.symm, fun hsound => ?_, fun l hl => ?_⟩
      · exact hsound.removed hlook hcurrent (Nat.le_of_eq hnext.symm)
      · rw [hlook, if_neg fun hunder => hl (Or.inr ⟨n, hn, hcount, hunder⟩)]
    refine ⟨⟨h.same.trans hsame, hsame.sound h.sound, hcurrent.trans h.current_eq, h.ne_nil, ?_⟩, ?_⟩
    · intro hfits
      rw [hlook, if_neg hapart]
      exact h.no_directory hfits
    · intro l hl
      rw [reach_eq hl, hcurrent, h.current_eq, htext, hlook, if_pos (List.prefix_refl _)]

/-- Giving a file of the log the next name keeps what setting the log aside keeps, if what stands at or
below its old place is in the zone of the log. -/
theorem move (hsiblings : Siblings start destination) (htext : locate current text = start)
    (htext' : locate current text' = destination)
    (hdestination : ∀ rest, LogZone current path count (destination ++ rest))
    (hlog : ¬ destination <+: locate current path)
    (hlog' : start = locate current path ∨ ¬ start <+: locate current path)
    (hstart : ∀ tree, SettingAside current path count before tree → Fits text →
      ∀ rest, LogZone current path count (start ++ rest) ∨ tree.look (start ++ rest) = none) :
    Ensures
      (fun tree => SettingAside current path count before tree ∧ Free text' tree)
      (FileWork.move text text') (fun _ => SettingAside current path count before)
      fun _ => SettingAside current path count before := by
  refine ⟨fun tree ⟨h, hfree⟩ => ?_⟩
  obtain ⟨error, hrun⟩ | ⟨found, found', after, hreach, hreach', -, hrun, hlook, hcurrent, hnext⟩ :=
    move_cases text text' tree
  · rw [hrun]
    exact h
  · rw [hrun]
    have hnone := hfree found' hreach'
    obtain rfl : found = start := by rw [reach_eq hreach, h.current_eq, htext]
    obtain rfl : found' = destination := by rw [reach_eq hreach', h.current_eq, htext']
    have hbefore := hstart tree h (fits_of_reach hreach)
    have hgone : ∀ rest, (tree.renamed found found').look (found ++ rest) = none :=
      look_renamed_start hsiblings.ne_nil hsiblings.apart hsiblings.symm.apart
    -- the new place is in the zone, the old one as well or nothing stood there, and nothing else moves
    have hsame : SameOutside (LogZone current path count) tree after := by
      refine ⟨hcurrent, Nat.le_of_eq hnext.symm, fun hsound => ?_, fun l hl => ?_⟩
      · exact (hsound.renamed hsiblings.ne_nil hnone hsiblings.apart
          hsiblings.symm.apart hsiblings.dropLast_eq).congr hlook (Nat.le_of_eq hnext.symm)
          hcurrent
      · rw [hlook]
        by_cases hnew : found' <+: l
        · obtain ⟨rest, rfl⟩ := hnew
          exact absurd (hdestination rest) hl
        · by_cases hold : found <+: l
          · obtain ⟨rest, rfl⟩ := hold
            rw [hgone, (hbefore rest).resolve_left hl]
          · exact look_renamed_of_apart hold hnew
    refine ⟨h.same.trans hsame, hsame.sound h.sound, hcurrent.trans h.current_eq, h.ne_nil, ?_⟩
    intro hfits
    rw [hlook]
    rcases hlog' with heq | hold
    · have hroot := hgone []
      rw [List.append_nil] at hroot
      rw [← heq, hroot]
      simp
    · rw [look_renamed_of_apart hold hlog]
      exact h.no_directory hfits

/-- What was set aside under a number gives way to what comes next. -/
theorem clear (hn : 1 ≤ n) (hcount : (n : Int) ≤ count)
    (htext : locate current text = backupPlace current path n) {next : Unit → FileWork Unit}
    (hnext : Ensures (fun tree => SettingAside current path count before tree ∧ Free text tree)
      (next ()) (fun _ => SettingAside current path count before)
      fun _ => SettingAside current path count before) :
    Ensures (SettingAside current path count before)
      (get >>= fun tree => if tree.holds text then FileWork.remove text >>= next else next ())
      (fun _ => SettingAside current path count before)
      fun _ => SettingAside current path count before := by
  refine Ensures.get_bind fun tree h => ?_
  split
  · exact Ensures.bind ((remove hn hcount htext).narrow fun _ heq => heq ▸ h) fun _ => hnext
  · next hholds =>
    exact hnext.narrow fun _ heq => heq ▸ ⟨h, free_of_not_holds hholds⟩

/-- Giving a file that was set aside the next number keeps what setting the log aside keeps. -/
theorem replaceFile (hn : 1 ≤ n) (hcount : ((n + 1 : Nat) : Int) ≤ count)
    (htext : locate current text = backupPlace current path n)
    (htext' : locate current text' = backupPlace current path (n + 1)) :
    Ensures (SettingAside current path count before) (replaceFile text text')
      (fun _ => SettingAside current path count before)
      fun _ => SettingAside current path count before := by
  refine Ensures.get_bind fun tree h => ?_
  split
  · refine Ensures.narrow (clear (n := n + 1) (by omega) hcount htext' ?_) fun _ heq => heq ▸ h
    exact move (siblings_backups h.isName h.ne_nil (Nat.ne_of_lt n.lt_succ_self)) htext htext'
      (logZone_append (by omega) hcount) (siblings_backup h.isName h.ne_nil (n + 1)).symm.apart
      (Or.inr (siblings_backup h.isName h.ne_nil n).symm.apart)
      fun _ _ _ rest => Or.inl (logZone_append hn (by omega) rest)
  · exact Ensures.pure fun _ heq => heq ▸ h

/-- Giving all files that were set aside before the given one the next number each keeps what setting
the log aside keeps. -/
theorem shiftBackups {sink : FileSink} (hpath : sink.path = absoluteText current path)
    (hcount : ((n + 1 : Nat) : Int) ≤ count) :
    Ensures (SettingAside current path count before) (shiftBackups sink n)
      (fun _ => SettingAside current path count before)
      fun _ => SettingAside current path count before := by
  have hbackup : ∀ m, locate current (sink.backup m) = backupPlace current path m := by
    intro m
    rw [FileSink.backup, hpath, backupPlace]
  induction n with
  | zero => exact Ensures.pure fun _ h => h
  | succ n ih =>
    refine Ensures.bind (replaceFile (by omega) hcount (hbackup (n + 1)) (hbackup (n + 2)))
      fun _ => ih (by omega)

/-- Setting the log file aside changes nothing outside the zone of the log. -/
theorem setAside (before : FileTree) {sink : FileSink} (hpath : sink.path = absoluteText current path)
    (hcount : sink.backupCount = count) :
    Ensures (SettingAside current path count before) sink.setAside
      (fun _ => SettingAside current path count before)
      fun _ => SettingAside current path count before := by
  have hbackup : locate current (sink.backup 1) = backupPlace current path 1 := by
    rw [FileSink.backup, hpath, backupPlace]
  rw [FileSink.setAside]
  split
  · next hpos =>
    refine Ensures.bind (shiftBackups hpath (by omega)) fun _ => ?_
    refine clear (n := 1) (Nat.le_refl 1) (by omega) hbackup ?_
    refine Ensures.get_bind fun tree h => ?_
    have hlog : locate current sink.path = locate current path := by
      rw [hpath, locate_absoluteText h.1.isName]
    have hsiblings := siblings_backup h.1.isName h.1.ne_nil 1
    split
    · refine (move hsiblings hlog hbackup (logZone_append (Nat.le_refl 1) (by omega))
        hsiblings.symm.apart (Or.inl rfl) fun tree h hfits rest => ?_).narrow fun _ heq => heq ▸ h
      -- the zone has the place of the log itself only, but nothing stands below what is no directory
      rcases eq_or_ne rest [] with rfl | hrest
      · exact Or.inl (Or.inl (List.append_nil _))
      · exact Or.inr (h.sound.look_append (h.no_directory (hpath ▸ hfits)) hrest)
    · exact Ensures.pure fun _ heq => heq ▸ h.1
  · exact Ensures.pure fun _ h => h

end SettingAside

/-! ## Opening the log file -/

variable {tree after : FileTree}

/-- Opening the log file changes nothing outside the zone of the log. -/
theorem openEnd_log (path : String) (count : Int) (hsound : tree.Sound)
    (hcurrent : tree.current = current) :
    (∃ error, openEnd (absoluteText current path) tree = (.error error, tree)) ∨
      ∃ id after, openEnd (absoluteText current path) tree = (.ok id, after) ∧
        SameOutside (LogZone current path count) tree after ∧
          after.Confines (LogZone current path count) id ∧
            after.look (locate current path) ≠ some none := by
  obtain ⟨error, hopen⟩ | ⟨location, after, file, hreach, hopen, hfile, hafter⟩ :=
    openEnd_cases (absoluteText current path) tree
  · exact Or.inl ⟨error, hopen⟩
  · obtain rfl : location = locate current path := by
      rw [reach_eq hreach, hcurrent, locate_absoluteText (hcurrent ▸ hsound.isName)]
    have hsame : SameOutside (LogZone current path count) tree after := by
      rcases hafter with rfl | hwrote
      · exact SameOutside.refl _ _
      · exact hwrote.sameOutside (Or.inl rfl)
    refine Or.inr ⟨file.id, after, hopen, hsame, ?_, by rw [hfile]; simp⟩
    exact (hsame.sound hsound).confines hfile (Or.inl rfl)

/-- A directory in place of the log file is seen to be one. -/
theorem holds_of_directory (hsound : tree.Sound) (hcurrent : tree.current = current)
    (hfits : Fits (absoluteText current path))
    (hdirectory : tree.look (locate current path) = some none) :
    tree.holds (absoluteText current path) = true ∧
      tree.isFile (absoluteText current path) = false := by
  have hnames : ∀ part ∈ locate current path, IsName part := fun part hpart =>
    isName_of_mem_locate (hcurrent ▸ hsound.isName) hpart
  obtain ⟨root, hroot, heq⟩ := exists_absoluteText_eq current path
  have hparts : ∀ part ∈ locate current path, IsPart part := fun part hpart => (hnames part hpart).1
  have hup : ".." ∉ components (absoluteText current path) := by
    rw [heq, components_root_append (Or.inr hroot) hparts]
    exact fun hmem => (hnames ".." hmem).2 rfl
  have hlocate : locate tree.current (absoluteText current path) = locate current path :=
    locate_absoluteText (hcurrent ▸ hsound.isName) path tree.current
  rw [← hlocate] at hdirectory
  exact holds_of_reach_directory (hsound.reach_of_directory hfits hup hdirectory) hdirectory

/-- The path of a log file that is the root can be given to file operations. -/
theorem fits_of_locate_eq_nil (h : locate current path = []) : Fits (absoluteText current path) := by
  obtain ⟨root, hroot, heq⟩ := exists_absoluteText_eq current path
  rw [heq, h, Fits, checkPath]
  rcases hroot with rfl | rfl <;> decide

/-- A log file that may be set aside is no directory. -/
theorem no_directory_of_mayTurn (hsound : tree.Sound) (hcurrent : tree.current = current)
    (hmay : (!(tree.holds (absoluteText current path) &&
      !tree.isFile (absoluteText current path))) = true) :
    locate current path ≠ [] ∧
      (Fits (absoluteText current path) → tree.look (locate current path) ≠ some none) := by
  have hfree : Fits (absoluteText current path) → tree.look (locate current path) ≠ some none := by
    intro hfits hdirectory
    obtain ⟨hholds, hfile⟩ := holds_of_directory hsound hcurrent hfits hdirectory
    rw [hholds, hfile] at hmay
    cases hmay
  refine ⟨fun hnil => ?_, hfree⟩
  exact hfree (fits_of_locate_eq_nil hnil) (hnil ▸ look_nil tree)

end

/-! ## Adding lines -/

section

variable {current : Location} {zone : Location → Prop} {tree after : FileTree} {sink : FileSink}

/-- The sink writes to a log in a zone, and the file that it has open, if any, stands there. -/
structure FileSink.Logs (current : Location) (zone : Location → Prop) (tree : FileTree)
    (sink : FileSink) : Prop where
  within : ∃ path, sink.path = absoluteText current path ∧
    ∀ location, LogZone current path sink.backupCount location → zone location
  confined : ∀ id, sink.opened = some id → tree.Confines zone id

/-- What a line that was added leads to: the log as it should be, and nothing touched elsewhere. -/
def Added (current : Location) (zone : Location → Prop) (tree : FileTree)
    (done : FileSink × FileTree) : Prop :=
  SameOutside zone tree done.2 ∧ done.1.Logs current zone done.2

/-- What is done after a file operation ends as it does for the outcome of that operation. -/
theorem Added.of_run {α : Type} {work : FileWork α}
    {next : Except FileError α → StateM FileTree FileSink} {outcome : Except FileError α}
    {middle : FileTree} (hrun : work middle = (outcome, after))
    (hnext : Added current zone tree (next outcome after)) :
    Added current zone tree ((work.run >>= next) middle) := by
  have heq : (work.run >>= next) middle = next (work middle).1 (work middle).2 := rfl
  rwa [heq, hrun]

/-- Work that begins by looking at the tree. -/
theorem get_bind_apply {β : Type} (next : FileTree → StateM FileTree β) (tree : FileTree) :
    (get >>= next) tree = next tree tree := rfl

namespace FileSink.Logs

/-- A log stays in its zone when nothing outside the zone changes. -/
theorem of_sameOutside (h : sink.Logs current zone tree) (hsame : SameOutside zone tree after) :
    sink.Logs current zone after :=
  ⟨h.within, fun id hid => (h.confined id hid).of_sameOutside hsame⟩

/-- A log stays in its zone when all files stay in their places. -/
theorem of_stays (h : sink.Logs current zone tree) (hstays : tree.Stays after) :
    sink.Logs current zone after :=
  ⟨h.within, fun id hid => (h.confined id hid).of_stays hstays⟩

/-- A line is added, and the log is closed then. -/
theorem added_closed (h : sink.Logs current zone tree) (hsame : SameOutside zone tree after) :
    Added current zone tree ({ sink with opened := none }, after) :=
  ⟨hsame, h.within, fun _ hid => by cases hid⟩

/-- A line is added to the log that is open. -/
theorem added_append (h : sink.Logs current zone tree) (hsame : SameOutside zone tree after)
    {id : Nat} (hconfined : after.Confines zone id) (line : String) :
    Added current zone tree ({ sink with opened := some id }, (append id line.toUTF8 after).2) := by
  obtain ⟨last, happend, hlast⟩ := append_sameOutside hconfined line.toUTF8
  rw [happend]
  refine ⟨hsame.trans hlast, h.within, fun other hother => ?_⟩
  obtain rfl := Option.some.inj hother
  exact hconfined.of_sameOutside hlast

/-- Opens the log file, if it is not open yet. -/
def opening (sink : FileSink) : FileWork Nat :=
  match sink.opened with
  | some id => pure id
  | none => openEnd sink.path

/-- The log file is opened, or nothing happens. -/
theorem open_cases (hsound : tree.Sound) (hcurrent : tree.current = current)
    (h : sink.Logs current zone tree) {path : String}
    (hpath : sink.path = absoluteText current path)
    (hzone : ∀ location, LogZone current path sink.backupCount location → zone location) :
    (∃ error, opening sink tree = (.error error, tree)) ∨
      ∃ id after, opening sink tree = (.ok id, after) ∧ after.Confines zone id ∧
        SameOutside (LogZone current path sink.backupCount) tree after ∧
          (after = tree ∨ after.look (locate current path) ≠ some none) := by
  rw [opening]
  rcases hopened : sink.opened with _ | id
  · dsimp only
    rw [hpath]
    obtain herror | ⟨id, after, hopen, hsame, hconfined, hafter⟩ :=
      openEnd_log path sink.backupCount hsound hcurrent
    · exact Or.inl herror
    · exact Or.inr ⟨id, after, hopen, hconfined.mono hzone, hsame, Or.inr hafter⟩
  · exact Or.inr ⟨id, tree, rfl, h.confined id hopened, SameOutside.refl _ _, Or.inl rfl⟩

/-- Adding a line touches nothing outside the zone. -/
theorem add (hsound : tree.Sound) (hcurrent : tree.current = current)
    (h : sink.Logs current zone tree) (line : String) :
    Added current zone tree (sink.add line tree) := by
  obtain ⟨path, hpath, hzone⟩ := h.within
  rw [FileSink.add, get_bind_apply]
  dsimp only
  obtain ⟨error, hopen⟩ | ⟨id, middle, hopen, hconfined, hsame, hmiddle⟩ :=
    open_cases hsound hcurrent h hpath hzone
  · exact Added.of_run hopen (h.added_closed (SameOutside.refl _ _))
  · refine Added.of_run hopen ?_
    dsimp only
    rw [get_bind_apply]
    split
    · next hturn =>
      have hmay := (Bool.and_eq_true_iff.mp (Bool.and_eq_true_iff.mp hturn).1).2
      rw [hpath] at hmay
      -- the test was made before the file was opened, and opening has made a file at most
      obtain ⟨hne, hfree⟩ := no_directory_of_mayTurn hsound hcurrent hmay
      have hbefore : SettingAside current path sink.backupCount tree middle := by
        refine ⟨hsame, hsame.sound hsound, hsame.current_eq.trans hcurrent, hne, ?_⟩
        rcases hmiddle with rfl | hfile
        · exact hfree
        · exact fun _ => hfile
      have haside := SettingAside.setAside tree hpath rfl
      rcases hrun : sink.setAside middle with ⟨error | ⟨⟩, turned⟩
      · have hturned := haside.of_error hbefore hrun
        exact Added.of_run hrun (h.added_closed (hturned.same.mono hzone))
      · have hturned := haside.of_ok hbefore hrun
        refine Added.of_run hrun ?_
        dsimp only
        have hagain := openEnd_log path sink.backupCount hturned.sound hturned.current_eq
        rw [← hpath] at hagain
        obtain ⟨error, hopen⟩ | ⟨id, last, hopen, hlast, hconfined, -⟩ := hagain
        · exact Added.of_run hopen (h.added_closed (hturned.same.mono hzone))
        · exact Added.of_run hopen
            (h.added_append ((hturned.same.trans hlast).mono hzone) (hconfined.mono hzone) line)
    · exact h.added_append (hsame.mono hzone) hconfined line

end FileSink.Logs

end

end ClarityDelta.Logging
