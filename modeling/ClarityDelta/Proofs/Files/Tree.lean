import Mathlib.Data.List.Induction
import ClarityDelta.Proofs.Files.Path

/-!
# File trees by their locations

A tree is looked at location by location: nothing, a directory or a regular file stands there. Every
change of a tree is told by what it does to this view, in which the times of directories do not show.
A tree is sound when everything stands in a directory and no two places hold the same file.
-/

namespace ClarityDelta.Files

/-- The regular file that an entry is, none for a directory. -/
def Entry.regular? : Entry → Option RegularFile
  | .directory _ => none
  | .file f => some f

namespace FileTree

variable {tree : FileTree} {location other : Location} {entry : Entry} {file : RegularFile}

/-- What stands at a location: nothing, a directory (`some none`) or a regular file. -/
def look (tree : FileTree) (location : Location) : Option (Option RegularFile) :=
  (tree.find? location).map Entry.regular?

/-- At the root is a directory. -/
@[simp] theorem look_nil (tree : FileTree) : tree.look [] = some none := rfl

/-- Below the root stands what the entries have there. -/
theorem look_of_ne_nil (h : location ≠ []) :
    tree.look location = (tree.entries.lookup location).map Entry.regular? := by
  rw [look, find?, if_neg h]

/-- Nothing is seen where nothing is found. -/
theorem look_eq_none_iff : tree.look location = none ↔ tree.find? location = none :=
  Option.map_eq_none_iff

/-- A directory is seen where one is found, at some time. -/
theorem look_eq_directory_iff :
    tree.look location = some none ↔ ∃ modified, tree.find? location = some (.directory modified) := by
  rw [look]
  rcases tree.find? location with _ | (modified | file)
  · simp
  · simp [Entry.regular?]
  · simp [Entry.regular?]

/-- A regular file is seen where it is found. -/
theorem look_eq_file_iff :
    tree.look location = some (some file) ↔ tree.find? location = some (.file file) := by
  rw [look]
  rcases tree.find? location with _ | (modified | file)
  · simp
  · simp [Entry.regular?]
  · simp [Entry.regular?]

/-- A regular file is given where it is seen. -/
theorem file?_eq_some_iff :
    tree.file? location = some file ↔ tree.look location = some (some file) := by
  rw [look_eq_file_iff, file?]
  rcases tree.find? location with _ | (modified | file)
  · simp
  · simp
  · simp

/-! ## Changes -/

/-- Replacing an entry changes what is found there, and nowhere else. -/
theorem lookup_replace (entries : List (Location × Entry)) :
    (put.replace location entry entries).lookup other =
      if other = location then some entry else entries.lookup other := by
  induction entries with
  | nil =>
    rw [put.replace, List.lookup_cons, List.lookup_nil]
    by_cases h : other = location
    · rw [h, beq_self_eq_true, if_pos rfl]
    · rw [beq_false_of_ne h, if_neg h]
  | cons first entries ih =>
    obtain ⟨place, old⟩ := first
    rw [put.replace]
    by_cases hplace : place = location
    · rw [if_pos hplace, List.lookup_cons, List.lookup_cons, hplace]
      by_cases h : other = location
      · rw [h, beq_self_eq_true, if_pos rfl]
      · rw [beq_false_of_ne h, if_neg h]
    · rw [if_neg hplace, List.lookup_cons, List.lookup_cons, ih]
      by_cases h : other = location
      · rw [h, beq_false_of_ne (Ne.symm hplace), if_pos rfl]
      · rw [if_neg h, if_neg h]

/-- What is put at a location is seen there, and nothing else changes. -/
theorem look_put (h : location ≠ []) :
    (tree.put location entry).look other =
      if other = location then some entry.regular? else tree.look other := by
  by_cases hother : other = []
  · subst hother
    rw [if_neg (Ne.symm h), look_nil, look_nil]
  · rw [look_of_ne_nil hother, look_of_ne_nil hother, put, lookup_replace]
    split <;> rfl

/-- Putting an entry keeps the working directory. -/
@[simp] theorem put_current : (tree.put location entry).current = tree.current := rfl

/-- Putting an entry uses up no identity. -/
@[simp] theorem put_nextId : (tree.put location entry).nextId = tree.nextId := rfl

/-- Touching a directory changes nothing that is seen. -/
@[simp] theorem look_touch : (tree.touch location).look other = tree.look other := by
  rw [touch]
  split
  · next modified hfound =>
    by_cases hlocation : location = []
    · subst hlocation
      by_cases hother : other = []
      · rw [hother, look_nil, look_nil]
      · rw [look_of_ne_nil hother, look_of_ne_nil hother, put, lookup_replace, if_neg hother]
    · rw [look_put hlocation]
      split
      · next heq => rw [heq, look_of_ne_nil hlocation, hfound]; rfl
      · rfl
  · rfl

/-- Touching keeps the working directory. -/
@[simp] theorem touch_current : (tree.touch location).current = tree.current := by
  rw [touch]
  split <;> rfl

/-- Touching uses up no identity. -/
@[simp] theorem touch_nextId : (tree.touch location).nextId = tree.nextId := by
  rw [touch]
  split <;> rfl

/-- What is made at a location is seen there, and nothing else changes. -/
theorem look_make (h : location ≠ []) :
    (tree.make location entry).look other =
      if other = location then some entry.regular? else tree.look other := by
  rw [make, look_touch, look_put h]

/-- Making an entry keeps the working directory. -/
@[simp] theorem make_current : (tree.make location entry).current = tree.current := by
  rw [make, touch_current, put_current]

/-- Making an entry uses up no identity. -/
@[simp] theorem make_nextId : (tree.make location entry).nextId = tree.nextId := by
  rw [make, touch_nextId, put_nextId]

/-- Among the entries whose keys pass a test, the same is found under such a key. -/
theorem lookup_filter {α β : Type} [BEq α] [LawfulBEq α] (p : α → Bool) (key : α)
    (entries : List (α × β)) :
    (entries.filter fun entry => p entry.1).lookup key =
      if p key then entries.lookup key else none := by
  induction entries with
  | nil => simp
  | cons first entries ih =>
    obtain ⟨name, value⟩ := first
    by_cases hkey : key == name
    · obtain rfl := eq_of_beq hkey
      by_cases hp : p key
      · simp [hp]
      · simp [hp, ih]
    · rw [List.filter_cons, List.lookup_cons]
      split
      · simp [List.lookup_cons, hkey, ih]
      · simp [hkey, ih]

/-- Clearing takes away what is at the location or below it. -/
theorem look_clear :
    (tree.clear location).look other =
      if other ≠ [] ∧ location <+: other then none else tree.look other := by
  by_cases hother : other = []
  · simp [hother]
  · rw [look_of_ne_nil hother, look_of_ne_nil hother, clear]
    simp only [lookup_filter (fun place => !location.isPrefixOf place)]
    by_cases h : location <+: other
    · have hand : other ≠ [] ∧ location <+: other := ⟨hother, h⟩
      rw [List.isPrefixOf_iff_prefix.mpr h, if_pos hand]
      rfl
    · have hand : ¬ (other ≠ [] ∧ location <+: other) := fun hand => h hand.2
      rw [Bool.eq_false_iff.mpr (mt List.isPrefixOf_iff_prefix.mp h), if_neg hand]
      rfl

/-- Under a key is found the image of what was found before. -/
theorem lookup_map_snd {α β γ : Type} [BEq α] (f : β → γ) (key : α) (entries : List (α × β)) :
    (entries.map fun entry => (entry.1, f entry.2)).lookup key = (entries.lookup key).map f := by
  induction entries with
  | nil => rfl
  | cons first entries ih =>
    rw [List.map_cons, List.lookup_cons, List.lookup_cons, ih]
    split <;> rfl

/-- Under other keys, an entry is found where its new key is looked up. -/
theorem lookup_map_fst {α β : Type} [BEq α] [LawfulBEq α] {f : α → α} {key old : α}
    {entries : List (α × β)} (h : ∀ entry ∈ entries, f entry.1 = key ↔ entry.1 = old) :
    (entries.map fun entry => (f entry.1, entry.2)).lookup key = entries.lookup old := by
  induction entries with
  | nil => rfl
  | cons first entries ih =>
    have hfirst : (key == f first.1) = (old == first.1) := by
      rw [Bool.eq_iff_iff, beq_iff_eq, beq_iff_eq, eq_comm, h first List.mem_cons_self, eq_comm]
    rw [List.map_cons, List.lookup_cons, List.lookup_cons, hfirst,
      ih fun entry hentry => h entry (List.mem_cons_of_mem first hentry)]

/-- Nothing is found under a key that no entry has. -/
theorem lookup_eq_none_of_forall_ne {α β : Type} [BEq α] [LawfulBEq α] {key : α}
    {entries : List (α × β)} (h : ∀ entry ∈ entries, entry.1 ≠ key) : entries.lookup key = none := by
  rw [List.lookup_eq_none_iff]
  intro entry hentry
  exact bne_iff_ne.mpr (Ne.symm (h entry hentry))

/-- Where all entries are alike, it only matters which keys there are. -/
theorem lookup_map_const {α β γ : Type} [BEq α] [LawfulBEq α] (f : γ → α) (value : β) (key : α)
    (items : List γ) :
    (items.map fun item => (f item, value)).lookup key =
      if key ∈ items.map f then some value else none := by
  induction items with
  | nil => rfl
  | cons item items ih =>
    rw [List.map_cons, List.map_cons, List.lookup_cons, ih]
    by_cases h : key = f item
    · rw [h, beq_self_eq_true, if_pos List.mem_cons_self]
    · rw [beq_false_of_ne h]
      exact ite_congr (propext (List.mem_cons.trans (or_iff_right h)).symm) (fun _ => rfl) fun _ => rfl

/-- Something is seen where an entry is. -/
theorem look_ne_none_of_mem (h : (location, entry) ∈ tree.entries) : tree.look location ≠ none := by
  by_cases hlocation : location = []
  · rw [hlocation]
    simp
  · rw [look_of_ne_nil hlocation]
    intro hnone
    have hmissing := List.lookup_eq_none_iff.mp (Option.map_eq_none_iff.mp hnone) _ h
    simp at hmissing

/-- The tree after everything at or below a location was given another place. -/
def renamed (start destination : Location) (tree : FileTree) : FileTree :=
  { tree with
    entries := tree.entries.map fun (location, entry) =>
      if start.isPrefixOf location then (destination ++ location.drop start.length, entry)
      else (location, entry) }

/-- The place that a location gets. -/
def newPlace (start destination location : Location) : Location :=
  if start <+: location then destination ++ location.drop start.length else location

/-- What is below the start has its new place below the destination. -/
theorem newPlace_append (start destination rest : Location) :
    newPlace start destination (start ++ rest) = destination ++ rest := by
  rw [newPlace, if_pos (List.prefix_append start rest), List.drop_left]

/-- Renaming gives every entry its new place. -/
theorem renamed_entries (start destination : Location) (tree : FileTree) :
    (tree.renamed start destination).entries =
      tree.entries.map fun entry => (newPlace start destination entry.1, entry.2) := by
  refine List.map_congr_left fun entry _ => ?_
  obtain ⟨l, kind⟩ := entry
  by_cases h : start <+: l
  · simp [newPlace, h]
  · simp [newPlace, h]

/-- What stood neither at or below the old place nor at or below the new one is as it was. -/
theorem look_renamed_of_apart {start destination : Location} (hstart : ¬ start <+: other)
    (hdestination : ¬ destination <+: other) :
    (tree.renamed start destination).look other = tree.look other := by
  by_cases hother : other = []
  · rw [hother, look_nil, look_nil]
  · rw [look_of_ne_nil hother, look_of_ne_nil hother, renamed_entries]
    refine congrArg _ (lookup_map_fst fun entry _ => ?_)
    rw [newPlace]
    split
    · next hunder =>
      constructor
      · intro heq
        exact absurd (heq ▸ List.prefix_append _ _) hdestination
      · intro heq
        exact absurd (heq ▸ hunder) hstart
    · rfl

/-- Nothing is left at or below the old place. -/
theorem look_renamed_start {start destination : Location} (hstart : start ≠ [])
    (hapart : ¬ start <+: destination)
    (hapart' : ¬ destination <+: start) (rest : Location) :
    (tree.renamed start destination).look (start ++ rest) = none := by
  have hne : start ++ rest ≠ [] := fun hnil => hstart (List.append_eq_nil_iff.mp hnil).1
  rw [look_of_ne_nil hne, renamed_entries]
  refine Option.map_eq_none_iff.mpr (lookup_eq_none_of_forall_ne fun entry hentry heq => ?_)
  obtain ⟨old, -, rfl⟩ := List.mem_map.mp hentry
  dsimp only at heq
  -- an entry that is below the old place now was moved there, or was there and not moved
  by_cases hunder : start <+: old.1
  · rw [newPlace, if_pos hunder] at heq
    have hboth : destination <+: start ++ rest := heq ▸ List.prefix_append _ _
    rcases List.prefix_or_prefix_of_prefix hboth (List.prefix_append start rest) with h | h
    · exact hapart' h
    · exact hapart h
  · rw [newPlace, if_neg hunder] at heq
    exact hunder (heq ▸ List.prefix_append start rest)

/-! ## Sound trees -/

/-- A tree in which everything stands in a directory, each file has an identity that was given away
before, and no two files have the same one. The current directory has proper names. -/
structure Sound (tree : FileTree) : Prop where
  above : ∀ location, location ≠ [] → tree.look location ≠ none →
    tree.look location.dropLast = some none
  id_lt : ∀ location file, tree.look location = some (some file) → file.id < tree.nextId
  id_inj : ∀ location other file file', tree.look location = some (some file) →
    tree.look other = some (some file') → file.id = file'.id → location = other
  isName : ∀ part ∈ tree.current, IsName part

namespace Sound

/-- Below a location at which no directory stands there is nothing. -/
theorem look_append (h : tree.Sound) (hlocation : tree.look location ≠ some none)
    {rest : List String} (hrest : rest ≠ []) : tree.look (location ++ rest) = none := by
  induction rest using List.reverseRecOn with
  | nil => exact absurd rfl hrest
  | append_singleton rest part ih =>
    by_contra hsome
    have hparent := h.above (location ++ (rest ++ [part])) (by simp) hsome
    rw [← List.append_assoc, List.dropLast_concat] at hparent
    rcases List.eq_nil_or_concat rest with rfl | ⟨front, last, rfl⟩
    · rw [List.append_nil] at hparent
      exact hlocation hparent
    · rw [ih (by simp)] at hparent
      cases hparent

/-- Everything above something is a directory. -/
theorem look_of_look_append (h : tree.Sound) {rest : List String}
    (hsome : tree.look (location ++ rest) ≠ none) (hrest : rest ≠ []) :
    tree.look location = some none := by
  by_contra hlocation
  exact hsome (h.look_append hlocation hrest)

/-- A sound tree stays sound when all that is at or below a location goes. -/
theorem removed {after : FileTree} (h : tree.Sound)
    (hlook : ∀ l, after.look l = if location <+: l then none else tree.look l)
    (hcurrent : after.current = tree.current) (hnext : tree.nextId ≤ after.nextId) :
    after.Sound := by
  have hold : ∀ l kind, after.look l = some kind → ¬ location <+: l ∧ tree.look l = some kind := by
    intro l kind hkind
    rw [hlook] at hkind
    split at hkind
    · cases hkind
    · next hunder => exact ⟨hunder, hkind⟩
  refine ⟨fun l hl hsome => ?_, fun l f hf => ?_, fun l l' f f' hf hf' => ?_, ?_⟩
  · obtain ⟨kind, hkind⟩ := Option.ne_none_iff_exists'.mp hsome
    obtain ⟨hunder, hsame⟩ := hold l kind hkind
    rw [hlook, if_neg fun hup => hunder (hup.trans (List.dropLast_prefix l))]
    exact h.above l hl (by rw [hsame]; simp)
  · exact Nat.lt_of_lt_of_le (h.id_lt l f (hold l _ hf).2) hnext
  · exact h.id_inj l l' f f' (hold l _ hf).2 (hold l' _ hf').2
  · exact hcurrent ▸ h.isName

section

variable {start destination : Location}

/-- What is under the new place after renaming stood under the old one before. -/
theorem look_renamed_append (h : tree.Sound) (hnone : tree.look destination = none)
    (hapart : ¬ start <+: destination) (rest : Location) :
    (tree.renamed start destination).look (destination ++ rest) = tree.look (start ++ rest) := by
  have hbelow : ∀ rest, tree.look (destination ++ rest) = none := by
    intro rest
    rcases eq_or_ne rest [] with rfl | hrest
    · rw [List.append_nil, hnone]
    · exact h.look_append (by rw [hnone]; simp) hrest
  have hdestination : destination ++ rest ≠ [] := by
    intro hnil
    rw [(List.append_eq_nil_iff.mp hnil).1] at hnone
    cases hnone
  have hstart : start ++ rest ≠ [] := by
    intro hnil
    rw [(List.append_eq_nil_iff.mp hnil).1] at hapart
    exact hapart List.nil_prefix
  rw [look_of_ne_nil hdestination, look_of_ne_nil hstart, renamed_entries]
  refine congrArg _ (lookup_map_fst fun entry hentry => ?_)
  constructor
  · intro heq
    by_cases hunder : start <+: entry.1
    · obtain ⟨tail, htail⟩ := hunder
      rw [← htail, newPlace_append, List.append_cancel_left_eq] at heq
      rw [← htail, heq]
    · rw [newPlace, if_neg hunder] at heq
      exact absurd (hbelow rest) (heq ▸ look_ne_none_of_mem hentry)
  · rintro heq
    rw [heq, newPlace_append]

/-- What stands somewhere after renaming stood there before, or stands under the new place and stood
under the old one. -/
theorem look_renamed_cases (h : tree.Sound) (hstart : start ≠ [])
    (hnone : tree.look destination = none) (hapart : ¬ start <+: destination)
    (hapart' : ¬ destination <+: start) {kind : Option RegularFile}
    (hkind : (tree.renamed start destination).look location = some kind) :
    (∃ rest, location = destination ++ rest ∧ tree.look (start ++ rest) = some kind) ∨
      ¬ start <+: location ∧ ¬ destination <+: location ∧ tree.look location = some kind := by
  by_cases hnew : destination <+: location
  · obtain ⟨rest, rfl⟩ := hnew
    rw [h.look_renamed_append hnone hapart] at hkind
    exact Or.inl ⟨rest, rfl, hkind⟩
  · by_cases hold : start <+: location
    · obtain ⟨rest, rfl⟩ := hold
      rw [look_renamed_start hstart hapart hapart'] at hkind
      cases hkind
    · rw [look_renamed_of_apart hold hnew] at hkind
      exact Or.inr ⟨hold, hnew, hkind⟩

/-- Renaming within one directory keeps a tree sound. -/
theorem renamed (h : tree.Sound) (hstart : start ≠ []) (hnone : tree.look destination = none)
    (hapart : ¬ start <+: destination) (hapart' : ¬ destination <+: start)
    (hparent : destination.dropLast = start.dropLast) : (tree.renamed start destination).Sound where
  above l hl hsome := by
    obtain ⟨kind, hkind⟩ := Option.ne_none_iff_exists'.mp hsome
    rcases h.look_renamed_cases hstart hnone hapart hapart' hkind with
      ⟨rest, rfl, hrest⟩ | ⟨hold, hnew, hsame⟩
    · have habove := h.above (start ++ rest) (by simp [hstart]) (by rw [hrest]; simp)
      rcases eq_or_ne rest [] with rfl | hne
      · have hself : ¬ start <+: start.dropLast := by
          intro hunder
          have hlength := hunder.length_le
          have hpos := List.length_pos_iff.mpr hstart
          rw [List.length_dropLast] at hlength
          omega
        have hother : ¬ destination <+: start.dropLast := fun hunder =>
          hapart' (hunder.trans (List.dropLast_prefix start))
        rw [List.append_nil] at habove ⊢
        rw [hparent, look_renamed_of_apart hself hother, habove]
      · rw [List.dropLast_append_of_ne_nil hne] at habove ⊢
        rw [h.look_renamed_append hnone hapart, habove]
    · have habove := h.above l hl (by rw [hsame]; simp)
      have hup : ∀ place : Location, ¬ place <+: l → ¬ place <+: l.dropLast :=
        fun place hplace hunder => hplace (hunder.trans (List.dropLast_prefix l))
      rw [look_renamed_of_apart (hup _ hold) (hup _ hnew), habove]
  id_lt l f hf := by
    rcases h.look_renamed_cases hstart hnone hapart hapart' hf with
      ⟨rest, -, hrest⟩ | ⟨-, -, hsame⟩
    · exact h.id_lt _ f hrest
    · exact h.id_lt l f hsame
  id_inj l l' f f' hf hf' heq := by
    rcases h.look_renamed_cases hstart hnone hapart hapart' hf with
      ⟨rest, rfl, hrest⟩ | ⟨hold, -, hsame⟩
    · rcases h.look_renamed_cases hstart hnone hapart hapart' hf' with
        ⟨rest', rfl, hrest'⟩ | ⟨hold', -, hsame'⟩
      · rw [List.append_cancel_left (h.id_inj _ _ f f' hrest hrest' heq)]
      · exact absurd (h.id_inj _ _ f f' hrest hsame' heq ▸ List.prefix_append start rest) hold'
    · rcases h.look_renamed_cases hstart hnone hapart hapart' hf' with
        ⟨rest', rfl, hrest'⟩ | ⟨hold', -, hsame'⟩
      · exact absurd (h.id_inj _ _ f f' hsame hrest' heq ▸ List.prefix_append start rest') hold
      · exact h.id_inj l l' f f' hsame hsame' heq
  isName := h.isName

end

/-- Soundness is a matter of the view, of the identities given away and of the current directory. -/
theorem congr {after : FileTree} (h : tree.Sound) (hlook : ∀ l, after.look l = tree.look l)
    (hnext : tree.nextId ≤ after.nextId) (hcurrent : after.current = tree.current) :
    after.Sound where
  above l hl hsome := by
    rw [hlook] at hsome ⊢
    exact h.above l hl hsome
  id_lt l f hf := Nat.lt_of_lt_of_le (h.id_lt l f (hlook l ▸ hf)) hnext
  id_inj l l' f f' hf hf' := h.id_inj l l' f f' (hlook l ▸ hf) (hlook l' ▸ hf')
  isName := hcurrent ▸ h.isName

end Sound

/-- In a tree without files there are the current directory and those above it. -/
theorem look_empty (current location : Location) :
    (FileTree.empty current).look location = if location <+: current then some none else none := by
  by_cases hlocation : location = []
  · rw [hlocation, look_nil, if_pos List.nil_prefix]
  · rw [look_of_ne_nil hlocation, FileTree.empty]
    dsimp only
    rw [lookup_map_const]
    have hlength : 0 < location.length := List.length_pos_iff.mpr hlocation
    have hiff : location ∈ (List.range current.length).map (fun n => current.take (n + 1)) ↔
        location <+: current := by
      rw [List.mem_map]
      constructor
      · rintro ⟨n, -, rfl⟩
        exact List.take_prefix _ _
      · intro hunder
        refine ⟨location.length - 1, List.mem_range.mpr ?_, ?_⟩
        · have := hunder.length_le
          omega
        · rw [Nat.sub_add_cancel hlength]
          exact (List.prefix_iff_eq_take.mp hunder).symm
    by_cases hunder : location <+: current
    · rw [if_pos (hiff.mpr hunder), if_pos hunder]
      rfl
    · rw [if_neg fun h => hunder (hiff.mp h), if_neg hunder]
      rfl

/-- A tree with no more than its working directory is sound. -/
theorem sound_empty {current : Location} (h : ∀ part ∈ current, IsName part) :
    (FileTree.empty current).Sound where
  above location hne hsome := by
    rw [look_empty] at hsome ⊢
    have hunder : location <+: current := by
      by_contra hno
      exact hsome (if_neg hno)
    rw [if_pos ((List.dropLast_prefix location).trans hunder)]
  id_lt location file hfile := by
    rw [look_empty] at hfile
    split at hfile <;> cases hfile
  id_inj location other file file' hfile _ _ := by
    rw [look_empty] at hfile
    split at hfile <;> cases hfile
  isName := h

/-! ## Reaching a directory -/

/-- Whether a path's text has no name that is too long, and can be given to a file operation at all. -/
def Fits (path : String) : Prop :=
  checkPath path = .ok () ∧ ∀ part ∈ steps path, part.utf8ByteSize ≤ maxComponentBytes

/-- No part of a walk that succeeds has a name that is too long. -/
theorem size_le_of_walk {start : Location} {parts : List String}
    (h : tree.walk start parts = .ok location) :
    ∀ part ∈ parts, part.utf8ByteSize ≤ maxComponentBytes := by
  induction parts generalizing start with
  | nil => exact List.forall_mem_nil _
  | cons part parts ih =>
    rw [walk] at h
    split at h
    · cases h
    · cases h
    · split at h
      · cases h
      · next hsize => exact List.forall_mem_cons.mpr ⟨Nat.le_of_not_lt hsize, ih h⟩

/-- A path that leads somewhere fits. -/
theorem fits_of_reach {path : String} (h : tree.reach path = .ok location) : Fits path :=
  ⟨(reach_eq_ok_iff.mp h).1, size_le_of_walk (reach_eq_ok_iff.mp h).2⟩

/-- In a sound tree, the parts of a way to a directory can be walked. -/
theorem Sound.walk_of_directory (h : tree.Sound) {start : Location} {parts : List String}
    (hsize : ∀ part ∈ parts, part.utf8ByteSize ≤ maxComponentBytes) (hup : ".." ∉ parts)
    (hdirectory : tree.look (start ++ parts.filter (· ≠ ".")) = some none) :
    tree.walk start parts = .ok (start ++ parts.filter (· ≠ ".")) := by
  induction parts generalizing start with
  | nil =>
    rw [walk, List.filter_nil, List.append_nil]
  | cons part parts ih =>
    rw [List.mem_cons, not_or] at hup
    have hstart : tree.look start = some none := by
      rcases eq_or_ne ((part :: parts).filter (· ≠ ".")) [] with hnil | hne
      · rwa [hnil, List.append_nil] at hdirectory
      · exact h.look_of_look_append (by rw [hdirectory]; simp) hne
    have hfilter : start ++ (part :: parts).filter (· ≠ ".") =
        enter start part ++ parts.filter (· ≠ ".") := by
      have hone : ".." ∉ [part].filter (· ≠ ".") := fun hmem =>
        hup.1 (List.mem_singleton.mp (List.mem_filter.mp hmem).1)
      rw [enter_eq_follow, follow_of_notMem hone, List.append_assoc, ← List.filter_append]
      rfl
    obtain ⟨modified, hfound⟩ := look_eq_directory_iff.mp hstart
    rw [hfilter] at hdirectory ⊢
    rw [walk, hfound]
    dsimp only
    rw [if_neg (Nat.not_lt.mpr (hsize part List.mem_cons_self))]
    exact ih (fun p hp => hsize p (List.mem_cons_of_mem part hp)) hup.2 hdirectory

/-- In a sound tree a path leads to the directory that it names. -/
theorem Sound.reach_of_directory (h : tree.Sound) {path : String} (hfits : Fits path)
    (hup : ".." ∉ components path) (hdirectory : tree.look (locate tree.current path) = some none) :
    tree.reach path = .ok (locate tree.current path) := by
  have hstep : ".." ∉ steps path := by
    intro hmem
    refine hup (filter_steps path ▸ List.mem_filter.mpr ⟨hmem, ?_⟩)
    decide
  have hlocate : locate tree.current path =
      tree.origin path ++ (steps path).filter (· ≠ ".") := by
    rw [locate_eq_follow_origin, follow_of_notMem hup, filter_steps]
  rw [hlocate] at hdirectory ⊢
  exact reach_eq_ok_iff.mpr ⟨hfits.1, h.walk_of_directory hfits.2 hstep hdirectory⟩

/-- A directory that a path leads to is seen to be one. -/
theorem holds_of_reach_directory {path : String} (hreach : tree.reach path = .ok location)
    (hdirectory : tree.look location = some none) :
    tree.holds path = true ∧ tree.isFile path = false := by
  obtain ⟨modified, hfound⟩ := look_eq_directory_iff.mp hdirectory
  have hat : tree.at? path = some (.directory modified) := by
    rw [at?, hreach]
    exact hfound
  constructor
  · rw [holds, hat]
    rfl
  · rw [isFile, fileAt?, hat]
    rfl

end FileTree

end ClarityDelta.Files
