import ClarityDelta.Proofs.Files.InTurn

/-!
# Opening a file by its absolute path

An absolute path has no `.` and no `..`, so that what it leads to is its location. Its file is opened
exactly when what is above that location is a directory and it is none itself
(`openEnd_absoluteText`).
-/

namespace ClarityDelta.Files

open FileTree FileWork Text

/-! ## Absolute paths -/

/-- The text of an absolute path is cut into nothing, once or twice, and the names of its location. -/
theorem splitAt_absolute {root : String} (hroot : root = "/" ∨ root = "//") {place : Location}
    (hne : place ≠ []) (hnames : ∀ part ∈ place, IsName part) :
    ∃ slashes : List String, (∀ part ∈ slashes, part = "") ∧
      (splitAt '/' (root ++ "/".intercalate place).toList).map String.ofList = slashes ++ place := by
  have hslash : ∀ piece ∈ place.map String.toList, '/' ∉ piece :=
    List.forall_mem_map.2 fun part hpart => (hnames part hpart).1.2.2
  have hcut : splitAt '/' ("/".intercalate place).toList = place.map String.toList := by
    rw [toList_intercalate_slash, splitAt_joinWith (by simpa using hne) hslash]
  have hback : (place.map String.toList).map String.ofList = place := by
    rw [List.map_map]
    exact (List.map_congr_left fun part _ => String.ofList_toList).trans (List.map_id place)
  rcases hroot with rfl | rfl
  · refine ⟨[""], by simp, ?_⟩
    rw [String.toList_append, show "/".toList = ['/'] from rfl, List.singleton_append,
      splitAt_separator, hcut, List.map_cons, hback]
    rfl
  · refine ⟨["", ""], by simp, ?_⟩
    rw [String.toList_append, show "//".toList = ['/', '/'] from rfl, List.cons_append,
      List.singleton_append, splitAt_separator, splitAt_separator, hcut, List.map_cons,
      List.map_cons, hback]
    rfl

/-- The components to follow for an absolute path's text are those of its location. -/
theorem steps_absoluteText {current : Location} (hcurrent : ∀ part ∈ current, IsName part)
    (s : String) : steps (absoluteText current s) =
      if locate current s = [] then ["."] else locate current s := by
  obtain ⟨root, hroot, heq⟩ := exists_absoluteText_eq current s
  have hnames : ∀ part ∈ locate current s, IsName part := fun part hpart =>
    isName_of_mem_locate hcurrent hpart
  rw [heq]
  generalize locate current s = place at hnames
  split
  · next hnil =>
    rw [hnil]
    rcases hroot with rfl | rfl <;> decide
  · next hne =>
    have hkept : place.filter (· ≠ "") = place :=
      List.filter_eq_self.2 fun part hpart => by simpa using (hnames part hpart).1.1
    have hlast : place.getLast? ≠ some "" := fun hlast =>
      (hnames "" (List.mem_of_getLast? hlast)).1.1 rfl
    obtain ⟨slashes, hslashes, hparts⟩ := splitAt_absolute hroot hne hnames
    rw [steps, hparts, List.getLast?_append_of_ne_nil _ hne, if_neg hlast, List.filter_append, hkept,
      List.filter_eq_nil_iff.2 (by simpa using hslashes), List.nil_append]

/-- An absolute path has no NUL character when neither the current directory nor the path has one. -/
theorem nulFree_absoluteText {current : Location} {path : String}
    (hcurrent : ∀ part ∈ current, '\x00' ∉ part.toList)
    (hpath : '\x00' ∉ path.toList) : '\x00' ∉ (absoluteText current path).toList := by
  have hparts : ∀ part ∈ locate current path, '\x00' ∉ part.toList := by
    intro part hpart
    rw [locate] at hpart
    rcases mem_follow hpart with hstart | ⟨hpart, -⟩
    · split at hstart
      · exact hcurrent part hstart
      · cases hstart
    · exact (Path.nulFree_ofText hpath).2 part hpart
  obtain ⟨root, hroot, heq⟩ := exists_absoluteText_eq current path
  have hfree : Path.NulFree ⟨root, locate current path⟩ := by
    have hslashes : '\x00' ∉ root.toList := by rcases hroot with rfl | rfl <;> decide
    exact ⟨hslashes, hparts⟩
  have htext : absoluteText current path = Path.text ⟨root, locate current path⟩ := by
    have hrooted : root.isEmpty = false := by rcases hroot with rfl | rfl <;> rfl
    rw [heq, Path.text, hrooted, Bool.false_and]
    rfl
  exact htext ▸ hfree.text

/-- An absolute path leads to its location when what is above that is a directory. -/
theorem FileTree.Sound.reach_absoluteText_iff {tree : FileTree} (h : tree.Sound) {s : String}
    {location : Location} :
    tree.reach (absoluteText tree.current s) = .ok location ↔
      Fits (absoluteText tree.current s) ∧
        tree.look (locate tree.current s).dropLast = some none ∧ location = locate tree.current s := by
  have hsteps := steps_absoluteText h.isName s
  have hnames : ∀ part ∈ locate tree.current s, IsName part := fun part hpart =>
    isName_of_mem_locate h.isName hpart
  have horigin : tree.origin (absoluteText tree.current s) = [] := by
    obtain ⟨root, hroot, heq⟩ := exists_absoluteText_eq tree.current s
    rw [origin, heq, String.toList_append]
    rcases hroot with rfl | rfl <;> rfl
  rcases List.eq_nil_or_concat' (locate tree.current s) with hnil | ⟨front, name, hplace⟩
  · rw [reach_eq_ok_iff, Fits, hsteps, horigin, hnil, if_pos rfl, walk_cons_eq_ok_iff]
    constructor
    · rintro ⟨hcheck, -, hshort, hwalk⟩
      exact ⟨⟨hcheck, List.forall_mem_singleton.2 hshort⟩, look_nil tree, (Except.ok.inj hwalk).symm⟩
    · rintro ⟨⟨hcheck, hshort⟩, hlook, rfl⟩
      exact ⟨hcheck, hlook, hshort "." List.mem_cons_self, rfl⟩
  · rw [hplace] at hnames
    have hfront : front.filter (· ≠ ".") = front := List.filter_eq_self.2 fun part hpart => by
      simpa using (hnames part (List.mem_append_left _ hpart)).1.2.1
    have hup : ".." ∉ front := fun hmem => (hnames ".." (List.mem_append_left _ hmem)).2 rfl
    have henter : enter front name = front ++ [name] := by
      have hname := hnames name (List.mem_append_right _ (List.mem_singleton_self name))
      rw [enter, if_neg hname.1.2.1, follow_of_notMem (by simpa using hname.2.symm)]
    rw [reach_eq_ok_iff, Fits, hsteps, horigin, hplace, if_neg (by simp), List.dropLast_concat]
    constructor
    · rintro ⟨hcheck, hwalk⟩
      refine ⟨⟨hcheck, size_le_of_walk hwalk⟩, ?_⟩
      obtain ⟨middle, hmiddle, hlook, -, rfl⟩ := walk_concat_eq_ok_iff.1 hwalk
      obtain rfl : middle = front := by
        rw [walk_eq hmiddle, hfront, follow_of_notMem hup, List.nil_append]
      exact ⟨hlook, henter⟩
    · rintro ⟨⟨hcheck, hshort⟩, hlook, rfl⟩
      obtain ⟨hfronts, hname⟩ := List.forall_mem_append.1 hshort
      have hwalk : tree.walk [] front = .ok ([] ++ front.filter (· ≠ ".")) :=
        h.walk_of_directory hfronts hup (by rwa [hfront, List.nil_append])
      rw [hfront, List.nil_append] at hwalk
      exact ⟨hcheck, walk_concat_eq_ok_iff.2
        ⟨front, hwalk, hlook, hname name List.mem_cons_self, henter.symm⟩⟩

/-! ## Opening -/

/-- A file is opened where the path leads to, unless a directory stands there. -/
theorem openEnd_of_reach {tree : FileTree} {path : String} {location : Location}
    (hreach : tree.reach path = .ok location)
    (hparent : tree.look location.dropLast = some none) (hfree : tree.look location ≠ some none) :
    ∃ id after, openEnd path tree = (.ok id, after) := by
  rw [openEnd, Action.bind_apply, reach_apply, hreach]
  dsimp only
  rw [Action.get_bind_apply]
  rcases hfound : tree.find? location with _ | (modified | file)
  · obtain ⟨modified, hfound'⟩ := look_eq_directory_iff.1 hparent
    have hwrote : Wrote location ByteArray.empty tree _ :=
      wrote_make (look_eq_none_iff.2 hfound) hparent tree.clock
    obtain ⟨file, hfile, -⟩ := hwrote.look_eq
    have hwrite : write path ByteArray.empty tree =
        (.ok (), { tree.make location (.file ⟨tree.nextId, ByteArray.empty, tree.clock⟩) with
          nextId := tree.nextId + 1 }) := by
      rw [write, Action.bind_apply, reach_apply, hreach]
      dsimp only
      rw [Action.get_bind_apply, hfound]
      dsimp only
      rw [hfound']
      rfl
    dsimp only
    rw [Action.bind_apply, hwrite]
    dsimp only
    rw [Action.get_bind_apply, file?_eq_some_iff.2 hfile]
    exact ⟨file.id, _, rfl⟩
  · exact absurd (look_eq_directory_iff.2 ⟨modified, hfound⟩) hfree
  · exact ⟨file.id, tree, rfl⟩

/-- A directory cannot be opened as a file. -/
theorem openEnd_of_directory {tree : FileTree} {path : String} {location : Location}
    (hreach : tree.reach path = .ok location) (hlook : tree.look location = some none) :
    openEnd path tree = (.error ⟨.isADirectory, path⟩, tree) := by
  obtain ⟨modified, hfound⟩ := look_eq_directory_iff.1 hlook
  rw [openEnd, Action.bind_apply, reach_apply, hreach]
  dsimp only
  rw [Action.get_bind_apply, hfound]
  rfl

/-- An absolute path's file is opened exactly when what is above it is a directory and it is none. -/
theorem openEnd_absoluteText {tree : FileTree} (h : tree.Sound) (s : String) :
    (∃ id after, openEnd (absoluteText tree.current s) tree = (.ok id, after)) ∧
        Fits (absoluteText tree.current s) ∧
          tree.look (locate tree.current s).dropLast = some none ∧
            tree.look (locate tree.current s) ≠ some none ∨
      (∃ error, openEnd (absoluteText tree.current s) tree = (.error error, tree)) ∧
        ¬ (Fits (absoluteText tree.current s) ∧
          tree.look (locate tree.current s).dropLast = some none ∧
            tree.look (locate tree.current s) ≠ some none) := by
  cases hreach : tree.reach (absoluteText tree.current s) with
  | error error =>
    refine Or.inr ⟨⟨error, ?_⟩, fun ⟨hfits, hparent, _⟩ => ?_⟩
    · rw [openEnd, Action.bind_apply, reach_apply, hreach]
    · rw [h.reach_absoluteText_iff.2 ⟨hfits, hparent, rfl⟩] at hreach
      cases hreach
  | ok location =>
    obtain ⟨hfits, hparent, rfl⟩ := h.reach_absoluteText_iff.1 hreach
    by_cases hfree : tree.look (locate tree.current s) = some none
    · exact Or.inr ⟨⟨_, openEnd_of_directory hreach hfree⟩, fun hopens => hopens.2.2 hfree⟩
    · exact Or.inl ⟨openEnd_of_reach hreach hparent hfree, hfits, hparent, hfree⟩

end ClarityDelta.Files
