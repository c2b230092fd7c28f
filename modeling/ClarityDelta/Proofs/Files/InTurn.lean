import ClarityDelta.Proofs.Files.Storing

/-!
# Directories made in turn

The directories that a path leads through are made one after another, each stage of the path being tried
when those before it were. `CanMake` says in terms of the tree before when all of it is done: no stage
that is tried is too long or is looked for in a regular file, and none stands at the end. A `.` behind
something that was missing is not tried. `makeInTurn_cases` says what comes of it either way, and what
the tree is afterwards. An error is one with a beginning of the path.
-/

namespace ClarityDelta.Files

open Text

/-! ## Stages of a path -/

/-- The last stage of a path is its last piece that is not empty, with the text up to there. -/
theorem stagesOf_eq_cons {pieces : List (List Char)} {part text : String}
    {above : List (String × String)} (h : stagesOf pieces = (part, text) :: above) :
    ∃ piece rest, piece :: rest <:+ pieces ∧ piece ≠ [] ∧ part = String.ofList piece ∧
      text = String.ofList (joinWith '/' (piece :: rest).reverse) ∧ above = stagesOf rest := by
  induction pieces with
  | nil => cases h
  | cons piece rest ih =>
    rw [stagesOf] at h
    split at h
    · obtain ⟨piece', rest', hsuffix, hkept⟩ := ih h
      exact ⟨piece', rest', hsuffix.trans (List.suffix_cons piece rest), hkept⟩
    · next hne =>
      obtain ⟨hstage, rfl⟩ := List.cons.inj h
      obtain ⟨rfl, rfl⟩ := Prod.mk.inj hstage
      exact ⟨piece, rest, List.suffix_refl _, by simpa using hne, rfl, rfl, rfl⟩

/-- The first stages of a path are those of its first pieces. -/
theorem exists_of_suffix_stagesOf {pieces : List (List Char)} {behind : List (String × String)}
    (h : behind <:+ stagesOf pieces) : ∃ rest, rest <:+ pieces ∧ behind = stagesOf rest := by
  induction pieces with
  | nil => exact ⟨[], List.suffix_refl _, List.suffix_nil.mp h⟩
  | cons piece rest ih =>
    rw [stagesOf] at h
    split at h
    · obtain ⟨rest', hsuffix, heq⟩ := ih h
      exact ⟨rest', hsuffix.trans (List.suffix_cons piece rest), heq⟩
    · next hne =>
      rcases List.suffix_cons_iff.mp h with heq | hsuffix
      · refine ⟨piece :: rest, List.suffix_refl _, ?_⟩
        rw [stagesOf, if_neg hne]
        exact heq
      · obtain ⟨rest', hsuffix', heq⟩ := ih hsuffix
        exact ⟨rest', hsuffix'.trans (List.suffix_cons piece rest), heq⟩

/-- The parts of the stages are the pieces that are not empty. -/
theorem map_fst_stagesOf (pieces : List (List Char)) :
    (stagesOf pieces).map Prod.fst = (pieces.map String.ofList).filter (· ≠ "") := by
  induction pieces with
  | nil => rfl
  | cons piece rest ih =>
    rw [stagesOf]
    split
    · next hempty =>
      obtain rfl := List.isEmpty_iff.mp hempty
      rw [ih]
      rfl
    · next hne =>
      have hkept : String.ofList piece ≠ "" := by simpa using hne
      rw [List.map_cons, List.map_cons, List.filter_cons_of_pos (by simpa using hkept), ih]

/-- A component of a path, with the text up to its end and what comes before it. -/
structure IsStage (path part text : String) (above : List (String × String)) : Prop where
  ne_empty : text ≠ ""
  beginning : text.toList <+: path.toList
  stages_eq : stages text = (part, text) :: above
  steps_eq : FileTree.steps text = (((part, text) :: above).map Prod.fst).reverse

/-- What is listed among the stages of a path is a stage of it. -/
theorem isStage_of_suffix {path part text : String} {above : List (String × String)}
    (h : (part, text) :: above <:+ stages path) : IsStage path part text above := by
  obtain ⟨pieces, hpieces, hstages⟩ := exists_of_suffix_stagesOf h
  obtain ⟨piece, rest, hsuffix, hne, rfl, rfl, rfl⟩ := stagesOf_eq_cons hstages.symm
  have hsuffix := hsuffix.trans hpieces
  have hslash : ∀ p ∈ (piece :: rest).reverse, '/' ∉ p := fun p hp =>
    not_mem_of_mem_splitAt (List.mem_reverse.1 (hsuffix.subset (List.mem_reverse.1 hp)))
  have hcons : (piece :: rest).reverse ≠ [] := by simp
  have hcut := splitAt_joinWith hcons hslash
  refine ⟨fun hempty => ?_, ?_, ?_, ?_⟩
  · rw [String.ofList_eq_empty_iff.1 hempty] at hcut
    have hmem : piece ∈ splitAt '/' [] := hcut ▸ List.mem_reverse.2 List.mem_cons_self
    exact hne (List.mem_singleton.1 hmem)
  · rw [String.toList_ofList]
    obtain ⟨behind, hbehind⟩ := List.reverse_prefix.2 hsuffix
    rw [List.reverse_reverse] at hbehind
    rw [← joinWith_splitAt '/' path.toList, ← hbehind]
    exact joinWith_prefix '/' _ behind
  · rw [stages, String.toList_ofList, hcut, List.reverse_reverse, stagesOf, if_neg (by simpa using hne)]
  · have hkept : String.ofList piece ≠ "" := by simpa using hne
    have hparts : ((String.ofList piece, String.ofList (joinWith '/' (piece :: rest).reverse)) ::
        stagesOf rest).map Prod.fst = ((piece :: rest).map String.ofList).filter (· ≠ "") := by
      rw [List.map_cons, map_fst_stagesOf, List.map_cons,
        List.filter_cons_of_pos (by simpa using hkept)]
    have hlast : ((piece :: rest).reverse.map String.ofList).getLast? ≠ some "" := by
      simpa using hkept
    rw [FileTree.steps, String.toList_ofList, hcut, if_neg hlast, hparts, List.map_reverse,
      List.filter_reverse]

namespace FileTree

variable {tree after : FileTree} {start location : Location} {path part text : String}
  {above : List (String × String)}

/-! ## Ways -/

/-- A beginning of a path starts where the path does. -/
theorem origin_eq_of_beginning (hne : text ≠ "") (h : text.toList <+: path.toList) :
    tree.origin text = tree.origin path := by
  have hslash : startsWith ['/'] text.toList = startsWith ['/'] path.toList := by
    obtain ⟨c, cs, hcs⟩ := List.exists_cons_of_ne_nil (l := text.toList) (by simpa using hne)
    obtain ⟨behind, hbehind⟩ := h
    rw [← hbehind, hcs, List.cons_append, Bool.eq_iff_iff, startsWith_iff, startsWith_iff,
      List.singleton_prefix_cons_iff, List.singleton_prefix_cons_iff]
  rw [origin, origin, hslash]

/-- Where components lead from a location, the last one given first, each with something. -/
def place (start : Location) : List (String × String) → Location
  | [] => start
  | (part, _) :: above => enter (place start above) part

/-- The components of a way can be followed through directories. -/
def Leads (tree : FileTree) (start : Location) (stages : List (String × String)) : Prop :=
  tree.walk start (stages.map Prod.fst).reverse = .ok (place start stages)

/-- No stages lead to where they start. -/
theorem leads_nil (tree : FileTree) (start : Location) : tree.Leads start [] := rfl

/-- The first component of a way is followed where there is a directory. -/
theorem walk_cons_eq_ok_iff {parts : List String} :
    tree.walk start (part :: parts) = .ok location ↔
      tree.look start = some none ∧ part.utf8ByteSize ≤ maxComponentBytes ∧
        tree.walk (enter start part) parts = .ok location := by
  rw [walk, look, ← Nat.not_lt]
  rcases tree.find? start with _ | (modified | file)
  · simp
  · by_cases hlong : maxComponentBytes < part.utf8ByteSize
    · simp [hlong]
    · simp [hlong, Entry.regular?]
  · simp [Entry.regular?]

/-- A last step can be taken from a directory, if its name is not too long. -/
theorem walk_concat_eq_ok_iff {parts : List String} :
    tree.walk start (parts ++ [part]) = .ok location ↔
      ∃ middle, tree.walk start parts = .ok middle ∧ tree.look middle = some none ∧
        part.utf8ByteSize ≤ maxComponentBytes ∧ location = enter middle part := by
  induction parts generalizing start with
  | nil =>
    rw [List.nil_append, walk_cons_eq_ok_iff]
    constructor
    · rintro ⟨hlook, hshort, hwalk⟩
      exact ⟨start, rfl, hlook, hshort, (Except.ok.inj hwalk).symm⟩
    · rintro ⟨_, hwalk, hlook, hshort, rfl⟩
      obtain rfl := Except.ok.inj hwalk
      exact ⟨hlook, hshort, rfl⟩
  | cons first parts ih =>
    rw [List.cons_append, walk_cons_eq_ok_iff, ih]
    constructor
    · rintro ⟨hlook, hshort, middle, hwalk, hmiddle⟩
      exact ⟨middle, walk_cons_eq_ok_iff.2 ⟨hlook, hshort, hwalk⟩, hmiddle⟩
    · rintro ⟨middle, hwalk, hmiddle⟩
      obtain ⟨hlook, hshort, hwalk⟩ := walk_cons_eq_ok_iff.1 hwalk
      exact ⟨hlook, hshort, middle, hwalk, hmiddle⟩

/-- Walking along the stages leads to their place. -/
theorem walk_stages_eq (stages : List (String × String))
    (h : tree.walk start (stages.map Prod.fst).reverse = .ok location) :
    location = place start stages := by
  induction stages generalizing location with
  | nil => exact (Except.ok.inj h).symm
  | cons stage above ih =>
    rw [List.map_cons, List.reverse_cons, walk_concat_eq_ok_iff] at h
    obtain ⟨middle, hmiddle, -, -, rfl⟩ := h
    rw [ih hmiddle]
    rfl

/-- A stage more can be gone when those above lead to a directory and its name is not too long. -/
theorem leads_cons_iff :
    tree.Leads start ((part, text) :: above) ↔ tree.Leads start above ∧
      tree.look (place start above) = some none ∧ part.utf8ByteSize ≤ maxComponentBytes := by
  rw [Leads, List.map_cons, List.reverse_cons, walk_concat_eq_ok_iff]
  constructor
  · rintro ⟨middle, hmiddle, hlook, hshort, -⟩
    obtain rfl := walk_stages_eq above hmiddle
    exact ⟨hmiddle, hlook, hshort⟩
  · rintro ⟨habove, hlook, hshort⟩
    exact ⟨_, habove, hlook, hshort, rfl⟩

/-- A stage of a path leads to its place, when it can be followed. -/
theorem reach_stage_iff (h : IsStage path part text above) :
    tree.reach text = .ok location ↔ checkPath text = .ok () ∧
      tree.Leads (tree.origin path) ((part, text) :: above) ∧
        location = place (tree.origin path) ((part, text) :: above) := by
  rw [reach_eq_ok_iff, origin_eq_of_beginning h.ne_empty h.beginning, h.steps_eq]
  constructor
  · rintro ⟨hcheck, hwalk⟩
    have hplace := walk_stages_eq _ hwalk
    rw [hplace] at hwalk
    exact ⟨hcheck, hwalk, hplace⟩
  · rintro ⟨hcheck, hleads, rfl⟩
    exact ⟨hcheck, hleads⟩

/-- A path can be looked up when it has no NUL character, is not empty and not too long. -/
theorem checkPath_eq_ok_iff : checkPath path = .ok () ↔
    '\x00' ∉ path.toList ∧ path ≠ "" ∧ path.utf8ByteSize ≤ maxPathBytes := by
  rw [checkPath]
  split
  · next hnul =>
    have hmem : '\x00' ∈ path.toList := by simpa using hnul
    simp [hmem]
  · next hnul =>
    split
    · next hempty => simp_all
    · next hne =>
      split
      · next hlong => simp [Nat.not_le.2 hlong]
      · next hshort => simp_all

/-- With a path its beginnings can be given to file operations. -/
theorem checkPath_of_beginning (h : checkPath path = .ok ()) (hne : text ≠ "")
    (hbeginning : text.toList <+: path.toList) : checkPath text = .ok () := by
  obtain ⟨hnul, -, hshort⟩ := checkPath_eq_ok_iff.1 h
  obtain ⟨behind, hbehind⟩ := hbeginning
  have hpath : path = text ++ String.ofList behind := by
    rw [← String.toList_inj, String.toList_append, String.toList_ofList, hbehind]
  refine checkPath_eq_ok_iff.2 ⟨fun hmem => hnul ?_, hne, ?_⟩
  · rw [← hbehind]
    exact List.mem_append_left _ hmem
  · rw [hpath, String.utf8ByteSize_append] at hshort
    omega

/-! ## Ways that directories are made along -/

/-- Something is missing on a way. -/
def Missing (tree : FileTree) (start : Location) (stages : List (String × String)) : Prop :=
  ∃ way, way <:+ stages ∧ tree.look (place start way) = none

/-- A `.` behind something missing. -/
def Skipped (tree : FileTree) (start : Location) (part : String) (above : List (String × String)) :
    Prop :=
  part = "." ∧ tree.Missing start above

/-- Each stage of a way can be tried, unless it is skipped: its text is no longer than it may be, and
no regular file stands in the place of the directory that it is looked for in. -/
def Passable (tree : FileTree) (start : Location) : List (String × String) → Prop
  | [] => True
  | (part, text) :: above => tree.Passable start above ∧ (tree.Skipped start part above ∨
      Fits text ∧ ∀ file, tree.look (place start above) ≠ some (some file))

/-- A regular file stands where the last stage of a way leads to, and that stage is tried. -/
def Stuck (tree : FileTree) (start : Location) : List (String × String) → Prop
  | [] => False
  | (part, text) :: above => ¬ tree.Skipped start part above ∧
      ∃ file, tree.look (place start ((part, text) :: above)) = some (some file)

/-- The tree after what was missing on a way was made. -/
structure Paved (tree : FileTree) (start : Location) (stages : List (String × String))
    (after : FileTree) : Prop where
  grew : tree.Grew after
  look_of_missing : ∀ way, way <:+ stages → tree.look (place start way) = none →
    after.look (place start way) = some none
  look_of_apart : ∀ l, (∀ way, way <:+ stages → place start way ≠ l) → after.look l = tree.look l

variable {stages : List (String × String)}

/-- What is missing along the way is missing along a longer one. -/
theorem Missing.mono (h : tree.Missing start above) (hsuffix : above <:+ stages) :
    tree.Missing start stages := by
  obtain ⟨way, hway, hnone⟩ := h
  exact ⟨way, hway.trans hsuffix, hnone⟩

/-- Before the end of a way that can be followed there are directories. -/
theorem Leads.look_place (h : tree.Leads start stages) {way : List (String × String)}
    (hway : way <:+ stages) (hne : way ≠ stages) : tree.look (place start way) = some none := by
  induction stages with
  | nil => exact absurd (List.suffix_nil.1 hway) hne
  | cons stage above ih =>
    obtain ⟨habove, hlook, -⟩ := leads_cons_iff.1 h
    have hsuffix := (List.suffix_cons_iff.1 hway).resolve_left hne
    rcases eq_or_ne way above with rfl | hother
    · exact hlook
    · exact ih habove hsuffix hother

/-- A stage that is led to fits, if its text can be looked up. -/
theorem Leads.fits (h : tree.Leads (tree.origin path) ((part, text) :: above))
    (hstage : IsStage path part text above) (hcheck : checkPath text = .ok ()) : Fits text :=
  fits_of_reach ((reach_stage_iff hstage).2 ⟨hcheck, h, rfl⟩)

/-- A way that can be followed can be passed. -/
theorem Leads.passable (hstages : (part, text) :: above <:+ Files.stages path)
    (hcheck : checkPath text = .ok ())
    (h : tree.Leads (tree.origin path) ((part, text) :: above)) :
    tree.Passable (tree.origin path) ((part, text) :: above) := by
  induction above generalizing part text with
  | nil =>
    have hstage := isStage_of_suffix hstages
    obtain ⟨-, hlook, -⟩ := leads_cons_iff.1 h
    exact ⟨trivial, Or.inr ⟨h.fits hstage hcheck, by rw [hlook]; simp⟩⟩
  | cons next above ih =>
    have hstage := isStage_of_suffix hstages
    obtain ⟨habove, hlook, -⟩ := leads_cons_iff.1 h
    have hnext := (List.suffix_cons (part, text) (next :: above)).trans hstages
    -- the text of the stage before is the beginning of this one
    have hbefore : IsStage text next.1 next.2 above :=
      isStage_of_suffix (hstage.stages_eq ▸ List.suffix_cons (part, text) (next :: above))
    refine ⟨ih hnext (checkPath_of_beginning hcheck hbefore.ne_empty hbefore.beginning) habove, ?_⟩
    exact Or.inr ⟨h.fits hstage hcheck, by rw [hlook]; simp⟩

/-- The name of a stage that fits is not too long. -/
theorem Fits.short (h : Fits text) (hstage : IsStage path part text above) :
    part.utf8ByteSize ≤ maxComponentBytes :=
  h.2 part (by rw [hstage.steps_eq]; simp)

/-- A way that can be passed and on which nothing is missing can be followed. -/
theorem Passable.leads (hstages : stages <:+ Files.stages path)
    (h : tree.Passable (tree.origin path) stages)
    (hnone : ¬ tree.Missing (tree.origin path) stages) : tree.Leads (tree.origin path) stages := by
  induction stages with
  | nil => exact leads_nil tree _
  | cons stage above ih =>
    obtain ⟨part, text⟩ := stage
    have habove := List.suffix_cons (part, text) above
    have hfull : ¬ tree.Missing (tree.origin path) above := fun hmissing =>
      hnone (hmissing.mono habove)
    obtain ⟨hpass, ⟨-, hmissing⟩ | ⟨hfits, hfile⟩⟩ := h
    · exact absurd hmissing hfull
    · refine leads_cons_iff.2 ⟨ih (habove.trans hstages) hpass hfull, ?_,
        hfits.short (isStage_of_suffix hstages)⟩
      rcases hlook : tree.look (place (tree.origin path) above) with _ | _ | file
      · exact absurd ⟨above, List.suffix_refl _, hlook⟩ hfull
      · rfl
      · exact absurd hlook (hfile file)

/-- Along a paved way stands a directory where no regular file stands. -/
theorem Paved.look_place (h : tree.Paved start stages after) {way : List (String × String)}
    (hway : way <:+ stages) (hfile : ∀ file, tree.look (place start way) ≠ some (some file)) :
    after.look (place start way) = some none := by
  rcases hlook : tree.look (place start way) with _ | _ | file
  · exact h.look_of_missing way hway hlook
  · rcases h.grew.look_cases (place start way) with heq | ⟨-, heq⟩
    · rw [heq, hlook]
    · exact heq
  · exact absurd hlook (hfile file)

/-- A way that can be passed can be followed once what was missing was made, unless it ends at a regular
file. -/
theorem Passable.leads_paved (hstages : stages <:+ Files.stages path)
    (hpaved : tree.Paved start above after) (hsuffix : stages <:+ above)
    (h : tree.Passable start stages)
    (hfile : ∀ file, tree.look (place start stages) ≠ some (some file)) :
    after.Leads start stages := by
  induction stages with
  | nil => exact leads_nil after start
  | cons stage rest ih =>
    obtain ⟨part, text⟩ := stage
    have hrest := List.suffix_cons (part, text) rest
    have hopen : ∀ file, tree.look (place start rest) ≠ some (some file) := by
      rcases h.2 with ⟨rfl, -⟩ | ⟨-, hrest⟩
      · exact hfile
      · exact hrest
    have hshort : part.utf8ByteSize ≤ maxComponentBytes := by
      rcases h.2 with ⟨rfl, -⟩ | ⟨hfits, -⟩
      · decide
      · exact hfits.short (isStage_of_suffix hstages)
    exact leads_cons_iff.2 ⟨ih (hrest.trans hstages) (hrest.trans hsuffix) h.1 hopen,
      hpaved.look_place (hrest.trans hsuffix) hopen, hshort⟩

/-- A way along which nothing is missing is paved already. -/
theorem Paved.refl (h : ¬ tree.Missing start stages) : tree.Paved start stages tree :=
  ⟨Grew.refl tree, fun way hway hnone => absurd ⟨way, hway, hnone⟩ h, fun _ _ => rfl⟩

/-- A `.` adds no place to a way. -/
theorem Paved.skip (h : tree.Paved start above after) :
    tree.Paved start ((".", text) :: above) after := by
  refine ⟨h.grew, fun way hway hnone => ?_, fun l hl => ?_⟩
  · rcases List.suffix_cons_iff.1 hway with rfl | hsuffix
    · exact h.look_of_missing above (List.suffix_refl _) hnone
    · exact h.look_of_missing way hsuffix hnone
  · exact h.look_of_apart l fun way hway => hl way (hway.trans (List.suffix_cons _ above))

/-- The last stage of a way adds no place where something stands. -/
theorem Paved.cons (h : tree.Paved start above after)
    (hthere : after.look (place start ((part, text) :: above)) ≠ none) :
    tree.Paved start ((part, text) :: above) after := by
  refine ⟨h.grew, fun way hway hnone => ?_, fun l hl => ?_⟩
  · rcases List.suffix_cons_iff.1 hway with rfl | hsuffix
    · rcases h.grew.look_cases (place start ((part, text) :: above)) with heq | ⟨-, heq⟩
      · exact absurd (heq.trans hnone) hthere
      · exact heq
    · exact h.look_of_missing way hsuffix hnone
  · exact h.look_of_apart l fun way hway => hl way (hway.trans (List.suffix_cons _ above))

/-- The last stage of a way adds its place where nothing stands. -/
theorem Paved.make (h : tree.Paved start above after)
    (hparent : after.look (place start above) = some none)
    (hnone : after.look (place start ((part, text) :: above)) = none) (modified : Int) :
    tree.Paved start ((part, text) :: above)
      (after.make (place start ((part, text) :: above)) (.directory modified)) := by
  have hmade : after.Grew
      (after.make (place start ((part, text) :: above)) (.directory modified)) :=
    grew_make hparent hnone modified
  have hlook : ∀ l, (after.make (place start ((part, text) :: above)) (.directory modified)).look l =
      if l = place start ((part, text) :: above) then some none else after.look l := fun l =>
    look_make (ne_nil_of_look_eq_none hnone)
  refine ⟨h.grew.trans hmade, fun way hway hmissing => ?_, fun l hl => ?_⟩
  · rw [hlook]
    split
    · rfl
    · next hne =>
      have hsuffix := (List.suffix_cons_iff.1 hway).resolve_left fun heq => hne (heq ▸ rfl)
      exact h.look_of_missing way hsuffix hmissing
  · rw [hlook, if_neg (hl _ (List.suffix_refl _)).symm]
    exact h.look_of_apart l fun way hway => hl way (hway.trans (List.suffix_cons _ above))

/-- A directory stands at a location once those that a path leads through are made. -/
def PavedAt (tree : FileTree) (path : String) (location : Location) : Prop :=
  tree.look location = some none ∨ tree.look location = none ∧
    ∃ way, way <:+ Files.stages path ∧ place (tree.origin path) way = location

/-- On a paved way, just the locations that belong to it or were directories before are directories. -/
theorem Paved.look_eq_directory_iff
    (h : tree.Paved (tree.origin path) (Files.stages path) after) (location : Location) :
    after.look location = some none ↔ tree.PavedAt path location := by
  by_cases hway : ∃ way, way <:+ Files.stages path ∧ place (tree.origin path) way = location
  · obtain ⟨way, hsuffix, rfl⟩ := hway
    constructor
    · intro hlook
      rcases h.grew.look_cases (place (tree.origin path) way) with heq | ⟨hnone, -⟩
      · exact Or.inl (heq ▸ hlook)
      · exact Or.inr ⟨hnone, way, hsuffix, rfl⟩
    · rintro (hlook | ⟨hnone, -⟩)
      · exact h.look_place hsuffix (by rw [hlook]; simp)
      · exact h.look_of_missing way hsuffix hnone
  · rw [h.look_of_apart location fun way hsuffix heq => hway ⟨way, hsuffix, heq⟩]
    constructor
    · exact Or.inl
    · rintro (hlook | ⟨-, hmade⟩)
      · exact hlook
      · exact absurd hmade hway

/-- A regular file stays where it is while directories are made. -/
theorem Stuck.look_of_grew (h : tree.Stuck start stages) (hgrew : tree.Grew after) :
    ∃ file, after.look (place start stages) = some (some file) := by
  cases stages with
  | nil => cases h
  | cons stage above =>
    obtain ⟨-, file, hlook⟩ := h
    exact ⟨file, hgrew.look_file.2 hlook⟩

/-- What comes of making the directories along a way. -/
inductive Makes (tree : FileTree) (start : Location) (stages : List (String × String)) :
    Except FileError Unit × FileTree → Prop
  /-- A stage could not be tried, or could not be made. -/
  | blocked {error : FileError} {after : FileTree} (hblocked : ¬ tree.Passable start stages)
      (hgrew : tree.Grew after) (hkind : error.kind ≠ .fileExists) :
      Makes tree start stages (.error error, after)
  /-- At the end of the way stands a regular file. -/
  | stuck {error : FileError} {after : FileTree} (hpassable : tree.Passable start stages)
      (hpaved : tree.Paved start stages after) (hstuck : tree.Stuck start stages)
      (hkind : error.kind = .fileExists) : Makes tree start stages (.error error, after)
  /-- All that was missing was made. -/
  | made {after : FileTree} (hpassable : tree.Passable start stages)
      (hpaved : tree.Paved start stages after) (hfree : ¬ tree.Stuck start stages) :
      Makes tree start stages (.ok (), after)

/-- No way that cannot be followed is blamed for being there. -/
theorem kind_of_reach {error : FileError} (h : tree.reach path = .error error) :
    error.kind ≠ .fileExists := by
  rw [reach, checkPath] at h
  split at h
  · obtain rfl := Except.error.inj h
    exact FileErrorKind.noConfusion
  · split at h
    · obtain rfl := Except.error.inj h
      exact FileErrorKind.noConfusion
    · split at h
      · obtain rfl := Except.error.inj h
        exact FileErrorKind.noConfusion
      · simp only [bind, Except.bind] at h
        split at h
        · cases h
        · next kind hwalk =>
          obtain rfl := Except.error.inj h
          exact (FileWork.kind_of_walk hwalk).2

end FileTree

namespace FileWork

open FileTree

variable {tree after : FileTree} {start location : Location} {path part text : String}
  {above : List (String × String)} {error : FileError}

/-! ## One directory -/

/-- A path that leads nowhere cannot be made a directory. -/
theorem makeDirectory_of_error (h : tree.reach text = .error error) :
    makeDirectory text tree = (.error error, tree) := by
  rw [makeDirectory, Action.bind_apply, reach_apply, h]

/-- A directory is made where nothing stands. -/
theorem makeDirectory_of_ok (h : tree.reach text = .ok location) :
    makeDirectory text tree = if (tree.find? location).isSome then (.error ⟨.fileExists, text⟩, tree)
      else (.ok (), tree.make location (.directory tree.clock)) := by
  rw [makeDirectory, Action.bind_apply, reach_apply, h]
  dsimp only
  rw [Action.get_bind_apply]
  split <;> rfl

/-- No directory is seen at the end of a way that cannot be followed. -/
theorem ensureDirectory_of_error (h : tree.reach text = .error error) :
    ensureDirectory text tree = (.error error, tree) := by
  have hno : tree.isDirectory text = false := by rw [isDirectory, at?, h]
  rw [ensureDirectory, Action.tryCatch_apply, makeDirectory_of_error h]
  dsimp only
  rw [Action.get_bind_apply, hno]
  rfl

/-- What stands where a path leads to tells what comes of making a directory there. -/
theorem ensureDirectory_of_ok (h : tree.reach text = .ok location) :
    tree.look location = none ∧
        ensureDirectory text tree = (.ok (), tree.make location (.directory tree.clock)) ∨
      tree.look location = some none ∧ ensureDirectory text tree = (.ok (), tree) ∨
      (∃ file, tree.look location = some (some file)) ∧
        ensureDirectory text tree = (.error ⟨.fileExists, text⟩, tree) := by
  have hat : tree.at? text = tree.find? location := by rw [at?, h]
  rw [ensureDirectory, Action.tryCatch_apply, makeDirectory_of_ok h]
  rcases hfound : tree.find? location with _ | (modified | file)
  · exact Or.inl ⟨look_eq_none_iff.2 hfound, rfl⟩
  · refine Or.inr (Or.inl ⟨look_eq_directory_iff.2 ⟨modified, hfound⟩, ?_⟩)
    rw [if_pos (by rfl)]
    dsimp only
    rw [Action.get_bind_apply, isDirectory, hat, hfound]
    rfl
  · refine Or.inr (Or.inr ⟨⟨file, look_eq_file_iff.2 hfound⟩, ?_⟩)
    rw [if_pos (by rfl)]
    dsimp only
    rw [Action.get_bind_apply, isDirectory, hat, hfound]
    rfl

/-! ## All directories -/

/-- The last stage of a way is tried when what was missing before it was made. -/
theorem ensureDirectory_makes (hstages : (part, text) :: above <:+ stages path)
    (hpassable : tree.Passable (tree.origin path) above)
    (hpaved : tree.Paved (tree.origin path) above after)
    (htried : ¬ tree.Skipped (tree.origin path) part above) :
    tree.Makes (tree.origin path) ((part, text) :: above) (ensureDirectory text after) := by
  have hstage := isStage_of_suffix hstages
  have horigin : after.origin path = tree.origin path := by
    rw [origin, origin, hpaved.grew.current_eq]
  cases hreach : after.reach text with
  | error error =>
    rw [ensureDirectory_of_error hreach]
    refine .blocked (fun hpass => ?_) hpaved.grew (kind_of_reach hreach)
    -- what can be passed could be followed by now
    obtain ⟨hfits, hfile⟩ := hpass.2.resolve_left htried
    have hleads := hpassable.leads_paved ((List.suffix_cons _ above).trans hstages) hpaved
      (List.suffix_refl above) hfile
    have hlook := hpaved.look_place (List.suffix_refl above) hfile
    rw [← horigin] at hleads hlook
    have hok := (reach_stage_iff hstage).2
      ⟨hfits.1, leads_cons_iff.2 ⟨hleads, hlook, hfits.short hstage⟩, rfl⟩
    rw [hreach] at hok
    cases hok
  | ok location =>
    obtain ⟨hcheck, hleads, hplace⟩ := (reach_stage_iff hstage).1 hreach
    have hfits : Fits text := hleads.fits hstage hcheck
    rw [horigin] at hleads hplace
    obtain ⟨-, hparent, -⟩ := leads_cons_iff.1 hleads
    have hfile : ∀ file, tree.look (place (tree.origin path) above) ≠ some (some file) := by
      intro file hfile
      rw [hpaved.grew.look_file.2 hfile] at hparent
      cases hparent
    have hpass : tree.Passable (tree.origin path) ((part, text) :: above) :=
      ⟨hpassable, Or.inr ⟨hfits, hfile⟩⟩
    subst hplace
    obtain ⟨hnone, hrun⟩ | ⟨hdirectory, hrun⟩ | ⟨⟨file, hlook⟩, hrun⟩ := ensureDirectory_of_ok hreach
    · rw [hrun]
      refine .made hpass (hpaved.make hparent hnone _) fun hstuck => ?_
      obtain ⟨file, hlook⟩ := hstuck.look_of_grew hpaved.grew
      rw [hnone] at hlook
      cases hlook
    · rw [hrun]
      refine .made hpass (hpaved.cons (by rw [hdirectory]; simp)) fun hstuck => ?_
      obtain ⟨file, hlook⟩ := hstuck.look_of_grew hpaved.grew
      rw [hdirectory] at hlook
      cases hlook
    · rw [hrun]
      exact .stuck hpass (hpaved.cons (by rw [hlook]; simp))
        ⟨htried, file, hpaved.grew.look_file.1 hlook⟩ rfl

/-- A way at whose end something stands can be passed, and nothing is missing on it. -/
theorem passable_of_holds {name head : String} (hstages : (name, head) :: above <:+ stages path)
    (h : tree.holds head = true) :
    tree.Passable (tree.origin path) ((name, head) :: above) ∧
      ¬ tree.Missing (tree.origin path) ((name, head) :: above) := by
  have hstage := isStage_of_suffix hstages
  rw [holds, at?] at h
  cases hreach : tree.reach head with
  | error error =>
    rw [hreach] at h
    cases h
  | ok location =>
    obtain ⟨hcheck, hleads, rfl⟩ := (reach_stage_iff hstage).1 hreach
    rw [hreach] at h
    refine ⟨hleads.passable hstages hcheck, ?_⟩
    rintro ⟨way, hway, hnone⟩
    rcases eq_or_ne way ((name, head) :: above) with rfl | hne
    · rw [look_eq_none_iff] at hnone
      dsimp only at h
      rw [hnone] at h
      cases h
    · rw [hleads.look_place hway hne] at hnone
      cases hnone

/-- Where the way to a stage can be passed and nothing stands at its end, something is missing on it. -/
theorem missing_of_not_holds {name head : String} (hstages : (name, head) :: above <:+ stages path)
    (hpassable : tree.Passable (tree.origin path) ((name, head) :: above))
    (h : ¬ tree.holds head = true) : tree.Missing (tree.origin path) ((name, head) :: above) := by
  by_contra hfull
  have hleads := hpassable.leads hstages hfull
  have hfits : Fits head := by
    obtain ⟨-, hmissing⟩ | ⟨hfits, -⟩ := hpassable.2
    · exact absurd (hmissing.mono (List.suffix_cons _ above)) hfull
    · exact hfits
  have hreach := (reach_stage_iff (isStage_of_suffix hstages)).2 ⟨hfits.1, hleads, rfl⟩
  rw [holds, at?, hreach, Option.not_isSome_iff_eq_none] at h
  exact hfull ⟨_, List.suffix_refl _, look_eq_none_iff.2 h⟩

/-- Making all directories on a way comes to what the tree before tells of the way. -/
theorem makeStages_makes {way : List (String × String)}
    (hstart : tree.look (tree.origin path) = some none) (hway : way <:+ stages path) :
    tree.Makes (tree.origin path) way (makeStages way tree) := by
  have hhere : ¬ tree.Missing (tree.origin path) [] := by
    rintro ⟨way, hway, hnone⟩
    rw [List.suffix_nil.1 hway, place, hstart] at hnone
    cases hnone
  induction way with
  | nil => exact .made trivial (Paved.refl hhere) id
  | cons stage above ih =>
    obtain ⟨part, text⟩ := stage
    have habove := (List.suffix_cons (part, text) above).trans hway
    cases above with
    | nil => exact ensureDirectory_makes hway trivial (Paved.refl hhere) fun hskip => hhere hskip.2
    | cons next above =>
      obtain ⟨name, head⟩ := next
      rw [makeStages, Action.get_bind_apply]
      by_cases hholds : tree.holds head = true
      · rw [if_pos hholds]
        obtain ⟨hpassable, hfull⟩ := passable_of_holds habove hholds
        exact ensureDirectory_makes hway hpassable (Paved.refl hfull) fun hskip => hfull hskip.2
      · rw [if_neg hholds, Action.bind_apply, Action.tryCatch_apply]
        have hmade := ih habove
        generalize makeStages ((name, head) :: above) tree = result at hmade
        -- behind a way that was passed, a regular file at its end included, the stage has its turn
        have hturn : ∀ after, tree.Passable (tree.origin path) ((name, head) :: above) →
            tree.Paved (tree.origin path) ((name, head) :: above) after →
            tree.Makes (tree.origin path) ((part, text) :: (name, head) :: above)
              ((if part ≠ "." then ensureDirectory text else pure ()) after) := by
          intro after hpassable hpaved
          have hmissing := missing_of_not_holds habove hpassable hholds
          by_cases hpoint : part = "."
          · subst hpoint
            exact .made ⟨hpassable, Or.inl ⟨rfl, hmissing⟩⟩ hpaved.skip
              fun hstuck => hstuck.1 ⟨rfl, hmissing⟩
          · rw [if_pos hpoint]
            exact ensureDirectory_makes hway hpassable hpaved fun hskip => hpoint hskip.1
        cases hmade with
        | blocked hblocked hgrew hkind =>
          dsimp only
          rw [if_pos hkind]
          exact .blocked (fun hpass => hblocked hpass.1) hgrew hkind
        | stuck hpassable hpaved hstuck hkind =>
          dsimp only
          rw [if_neg (not_not.2 hkind)]
          exact hturn _ hpassable hpaved
        | made hpassable hpaved hfree => exact hturn _ hpassable hpaved

/-! ## Errors -/

/-- An error with a beginning of a path. The file system reports it, unless no path could have such a
text. -/
def FailsWithin (path : String) (error : FileError) : Prop :=
  error.path.toList <+: path.toList ∧ ('\x00' ∉ path.toList → error.isSystem = true)

/-- One stage adds a directory at most. -/
theorem ensureDirectory_upholds (hstage : IsStage path part text above) (base : FileTree) :
    Upholds base.Grew (FailsWithin path) (ensureDirectory text) := by
  have hwithin : ∀ error : FileError, error.path = text →
      ('\x00' ∉ text.toList → error.isSystem = true) → FailsWithin path error := by
    rintro error rfl hsystem
    exact ⟨hstage.beginning, fun hfree => hsystem fun hmem => hfree (hstage.beginning.subset hmem)⟩
  refine ⟨fun tree hgrew => ?_⟩
  cases hreach : tree.reach text with
  | error error =>
    have hfails := (reach_failsAt text).allowed_of_error trivial
      (congrArg Prod.fst ((reach_apply text tree).trans (congrArg (·, tree) hreach)))
    rw [ensureDirectory_of_error hreach]
    exact ⟨hgrew, hwithin error hfails.1 hfails.2⟩
  | ok location =>
    obtain ⟨-, hleads, rfl⟩ := (reach_stage_iff hstage).1 hreach
    obtain ⟨hnone, hrun⟩ | ⟨-, hrun⟩ | ⟨-, hrun⟩ := ensureDirectory_of_ok hreach
    · rw [hrun]
      exact hgrew.trans (grew_make (leads_cons_iff.1 hleads).2.1 hnone tree.clock)
    · rw [hrun]
      exact hgrew
    · rw [hrun]
      exact ⟨hgrew, hwithin _ rfl fun _ => rfl⟩

/-- Making the stages of a path only adds directories, and fails for one of them. -/
theorem makeStages_upholds {way : List (String × String)} (hway : way <:+ stages path)
    (base : FileTree) : Upholds base.Grew (FailsWithin path) (makeStages way) := by
  induction way with
  | nil => exact Upholds.pure ()
  | cons stage above ih =>
    obtain ⟨part, text⟩ := stage
    have hlast : Upholds base.Grew (FailsWithin path) (ensureDirectory text) :=
      ensureDirectory_upholds (isStage_of_suffix hway) base
    cases above with
    | nil => exact hlast
    | cons next above =>
      obtain ⟨name, head⟩ := next
      rw [makeStages]
      refine Upholds.bind Upholds.get fun tree => ?_
      split
      · exact hlast
      · refine Upholds.bind (Upholds.tryCatch (ih ((List.suffix_cons _ _).trans hway)) ?_) fun _ => ?_
        · intro error herror
          split
          · exact Upholds.throw herror
          · exact Upholds.pure ()
        · split
          · exact hlast
          · exact Upholds.pure ()

/-- Making directories in turn only adds directories, and fails with an error on the way. -/
theorem makeInTurn_upholds (path : String) (base : FileTree) :
    Upholds base.Grew (FailsWithin path) (makeInTurn path) :=
  makeStages_upholds (List.suffix_refl _) base

/-- Making directories in turn only adds directories. -/
theorem makeInTurn_grew (path : String) (tree : FileTree) : tree.Grew (makeInTurn path tree).2 :=
  (makeInTurn_upholds path tree).after (Grew.refl tree)

/-- Making directories in turn fails for a beginning of the path. -/
theorem makeInTurn_fails {path : String} {tree : FileTree} {error : FileError}
    (h : (makeInTurn path tree).1 = .error error) : FailsWithin path error :=
  (makeInTurn_upholds path tree).allowed_of_error (Grew.refl tree) h

end FileWork

namespace FileTree

/-! ## When all directories can be made -/

/-- All directories that a path leads through can be made in turn. -/
structure CanMake (tree : FileTree) (path : String) : Prop where
  passable : tree.Passable (tree.origin path) (stages path)
  free : ¬ tree.Stuck (tree.origin path) (stages path)

end FileTree

namespace FileWork

open FileTree

/-- Directories are made in turn when they can be, and then all that was missing on the way is there. -/
theorem makeInTurn_cases (path : String) {tree : FileTree}
    (hcurrent : tree.look tree.current = some none) :
    (∃ error after, makeInTurn path tree = (.error error, after) ∧ FailsWithin path error ∧
        tree.Grew after ∧ ¬ tree.CanMake path) ∨
      ∃ after, makeInTurn path tree = (.ok (), after) ∧ tree.CanMake path ∧
        tree.Paved (tree.origin path) (stages path) after := by
  have hstart : tree.look (tree.origin path) = some none := by
    rw [origin]
    split
    · exact look_nil tree
    · exact hcurrent
  have hmakes := makeStages_makes hstart (List.suffix_refl (stages path))
  rw [← makeInTurn] at hmakes
  rcases hrun : makeInTurn path tree with ⟨error | _, after⟩
  · have hfails : FailsWithin path error := makeInTurn_fails (congrArg Prod.fst hrun)
    rw [hrun] at hmakes
    cases hmakes with
    | blocked hblocked hgrew =>
      exact Or.inl ⟨error, after, rfl, hfails, hgrew, fun h => hblocked h.passable⟩
    | stuck hpassable hpaved hstuck =>
      exact Or.inl ⟨error, after, rfl, hfails, hpaved.grew, fun h => h.free hstuck⟩
  · rw [hrun] at hmakes
    cases hmakes with
    | made hpassable hpaved hfree => exact Or.inr ⟨after, rfl, ⟨hpassable, hfree⟩, hpaved⟩

end FileWork

end ClarityDelta.Files
