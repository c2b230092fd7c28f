import ClarityDelta.Files.Tree
import ClarityDelta.Proofs.Text.Lines

/-!
# Paths and the locations that they name

A path is written out of its root and its components and read again without loss, so the text of a
path, its absolute text and the location that both name say the same. Where a path leads to anything
at all, it leads to the location that it names.
-/

namespace ClarityDelta.Files

open Text

/-- A component as paths keep it. -/
def IsPart (part : String) : Prop :=
  part ≠ "" ∧ part ≠ "." ∧ '/' ∉ part.toList

/-- A name that something in a directory can have. -/
def IsName (part : String) : Prop :=
  IsPart part ∧ part ≠ ".."

instance (part : String) : Decidable (IsPart part) :=
  inferInstanceAs (Decidable (part ≠ "" ∧ part ≠ "." ∧ '/' ∉ part.toList))

instance (part : String) : Decidable (IsName part) :=
  inferInstanceAs (Decidable (IsPart part ∧ part ≠ ".."))

/-! ## Components -/

/-- The components of a text are parts of paths. -/
theorem isPart_of_mem_components {s part : String} (h : part ∈ components s) : IsPart part := by
  obtain ⟨hmem, hkept⟩ := List.mem_filter.mp h
  rw [Bool.and_eq_true, decide_eq_true_eq, decide_eq_true_eq] at hkept
  obtain ⟨piece, hpiece, rfl⟩ := List.mem_map.mp hmem
  refine ⟨hkept.1, hkept.2, ?_⟩
  rw [String.toList_ofList]
  exact not_mem_of_mem_splitAt hpiece

/-- A slash at the beginning of a path adds no component. -/
theorem components_slash (s : String) : components ("/" ++ s) = components s := by
  have hlist : ("/" ++ s).toList = '/' :: s.toList := by
    rw [String.toList_append]
    rfl
  rw [components, components, hlist, splitAt_separator]
  rfl

/-- The empty text has no components. -/
theorem components_empty : components "" = [] := by
  decide

/-- Joining pieces puts the separator between them. -/
theorem joinWith_eq_intercalate (separator : Char) (pieces : List (List Char)) :
    joinWith separator pieces = [separator].intercalate pieces := by
  induction pieces with
  | nil => rfl
  | cons piece rest ih =>
    cases rest with
    | nil => rw [List.intercalate_singleton]; rfl
    | cons next rest =>
      rw [List.intercalate_cons_cons, ← ih, List.append_assoc]
      rfl

/-- The characters of parts with slashes between them are those of the parts with slashes between
them. -/
theorem toList_intercalate_slash (parts : List String) :
    ("/".intercalate parts).toList = joinWith '/' (parts.map String.toList) := by
  rw [String.toList_intercalate, joinWith_eq_intercalate]
  rfl

/-- The components of parts with slashes between them are the parts. -/
theorem components_intercalate {parts : List String} (h : ∀ part ∈ parts, IsPart part) :
    components ("/".intercalate parts) = parts := by
  rcases List.eq_nil_or_concat parts with rfl | ⟨_, _, hconcat⟩
  · exact components_empty
  · have hne : parts.map String.toList ≠ [] := by simp [hconcat]
    have hslash : ∀ piece ∈ parts.map String.toList, '/' ∉ piece :=
      List.forall_mem_map.mpr fun part hpart => (h part hpart).2.2
    have hback : (parts.map String.toList).map String.ofList = parts := by
      rw [List.map_map]
      exact (List.map_congr_left fun part _ => String.ofList_toList).trans (List.map_id parts)
    rw [components, toList_intercalate_slash, splitAt_joinWith hne hslash, hback]
    refine List.filter_eq_self.mpr fun part hpart => ?_
    obtain ⟨hempty, hpoint, -⟩ := h part hpart
    rw [Bool.and_eq_true, decide_eq_true_eq, decide_eq_true_eq]
    exact ⟨hempty, hpoint⟩

/-- A relative path does not begin with a slash. -/
theorem startsWith_intercalate {parts : List String} (h : ∀ part ∈ parts, IsPart part) :
    startsWith ['/'] ("/".intercalate parts).toList = false := by
  cases parts with
  | nil => rfl
  | cons part parts =>
    obtain ⟨hempty, -, hslash⟩ := h part List.mem_cons_self
    obtain ⟨c, cs, hcons⟩ := List.exists_cons_of_ne_nil (l := part.toList) (by simpa using hempty)
    have hc : '/' ≠ c := by
      rintro rfl
      exact hslash (hcons ▸ List.mem_cons_self)
    have hhead : ∃ rest, ("/".intercalate (part :: parts)).toList = c :: rest := by
      cases parts with
      | nil => exact ⟨cs, by rw [String.intercalate_singleton, hcons]⟩
      | cons next parts =>
        refine ⟨cs ++ '/' :: ("/".intercalate (next :: parts)).toList, ?_⟩
        rw [String.intercalate_cons_cons, String.toList_append, String.toList_append, hcons,
          List.append_assoc]
        rfl
    obtain ⟨rest, hrest⟩ := hhead
    rw [hrest, startsWith, after?, if_neg hc]
    rfl

/-- A text that ends without a slash names a last component that ends in the same way. -/
theorem exists_components_eq {s : String} {suffix : List Char} (h : suffix <:+ s.toList)
    (hlong : 2 ≤ suffix.length) (hslash : '/' ∉ suffix) :
    ∃ front stem, components s = front ++ [String.ofList (stem ++ suffix)] := by
  obtain ⟨before, hs⟩ := h
  obtain ⟨front, stem, hcut⟩ := exists_splitAt_append hslash before
  have hkept : ∀ short : String, short.length < 2 → String.ofList (stem ++ suffix) ≠ short := by
    intro short hshort heq
    rw [← heq, String.length_ofList, List.length_append] at hshort
    omega
  refine ⟨(front.map String.ofList).filter fun part => part ≠ "" && part ≠ ".", stem, ?_⟩
  rw [components, ← hs, hcut, List.map_append, List.filter_append]
  congr 1
  apply List.filter_eq_self.mpr
  intro part hpart
  obtain rfl := List.mem_singleton.mp hpart
  rw [Bool.and_eq_true, decide_eq_true_eq, decide_eq_true_eq]
  exact ⟨hkept "" (by decide), hkept "." (by decide)⟩

/-- The text of a path up to its last slash is a part of it. -/
theorem directoryText_part (s : String) : (directoryText s).toList <:+: s.toList := by
  have hpart {cs : List Char} (hcs : cs <:+ s.toList.reverse) : cs.reverse <:+: s.toList :=
    (List.reverse_suffix.1 (by rwa [List.reverse_reverse])).isInfix
  have hhead := List.dropWhile_suffix (l := s.toList.reverse) (· ≠ '/')
  rw [directoryText, String.toList_ofList]
  split
  · exact hpart hhead
  · exact hpart ((List.dropWhile_suffix _).trans hhead)

/-! ## Roots -/

namespace Path

/-- A root is empty, one slash or two. -/
theorem rootOf_cases (s : String) : rootOf s = "" ∨ rootOf s = "/" ∨ rootOf s = "//" := by
  rw [rootOf.eq_def]
  split <;> simp

/-- A path has a root when it begins with a slash. -/
theorem isEmpty_rootOf (s : String) : (rootOf s).isEmpty = !startsWith ['/'] s.toList := by
  rw [rootOf.eq_def]
  split
  · next h => rw [h]; rfl
  · next h => rw [h]; rfl
  · next h => rw [h]; rfl
  · next h => rw [h]; rfl
  · next h =>
    cases hs : s.toList with
    | nil => rfl
    | cons c cs =>
      have hc : '/' ≠ c := by
        rintro rfl
        exact h cs hs
      simp [startsWith, after?, hc]

end Path

/-- A root in front of parts does not change the components. -/
theorem components_root_append {root : String} (hroot : root = "" ∨ root = "/" ∨ root = "//")
    {parts : List String} (h : ∀ part ∈ parts, IsPart part) :
    components (root ++ "/".intercalate parts) = parts := by
  have hdouble : "//" ++ "/".intercalate parts = "/" ++ ("/" ++ "/".intercalate parts) := by
    rw [← String.append_assoc]
    rfl
  rcases hroot with rfl | rfl | rfl
  · rw [String.empty_append, components_intercalate h]
  · rw [components_slash, components_intercalate h]
  · rw [hdouble, components_slash, components_slash, components_intercalate h]

namespace Path

/-- The path that a text is read as begins with no slash, or with one or two of them. -/
def IsRoot (root : String) : Prop :=
  root = "" ∨ root = "/" ∨ root = "//"

/-- A root in front of a text without one is its root. -/
theorem rootOf_append {root s : String} (hroot : IsRoot root)
    (hs : startsWith ['/'] s.toList = false) : rootOf (root ++ s) = root := by
  have hhead : ∀ cs, s.toList ≠ '/' :: cs := by
    intro cs hcs
    rw [hcs] at hs
    cases hs
  rcases hroot with rfl | rfl | rfl
  · rw [String.empty_append]
    have hnone := isEmpty_rootOf s
    rw [hs] at hnone
    exact String.isEmpty_iff.mp hnone
  · rw [rootOf.eq_def, String.toList_append]
    cases hcs : s.toList with
    | nil => rfl
    | cons c cs =>
      have hc : c ≠ '/' := fun heq => hhead cs (heq ▸ hcs)
      simp [hc]
  · rw [rootOf.eq_def, String.toList_append]
    cases hcs : s.toList with
    | nil => rfl
    | cons c cs =>
      have hc : c ≠ '/' := fun heq => hhead cs (heq ▸ hcs)
      simp [hc]

/-- A path with components is got back from its text. -/
theorem ofText_text {p : Path} (hroot : IsRoot p.root) (hparts : ∀ part ∈ p.parts, IsPart part)
    (hne : p.parts ≠ []) : ofText p.text = p := by
  have htext : p.text = p.root ++ "/".intercalate p.parts := by
    rw [text, if_neg]
    intro hempty
    exact hne (List.isEmpty_iff.mp (Bool.and_eq_true_iff.mp hempty).2)
  rw [ofText, htext, rootOf_append hroot (startsWith_intercalate hparts),
    components_root_append hroot hparts]

/-! ## Suffixes -/

/-- The stem of a name has no other characters than the name. -/
theorem mem_of_mem_cutSuffix {name : List Char} {c : Char} (h : c ∈ (cutSuffix name).1) :
    c ∈ name := by
  rw [cutSuffix] at h
  split at h
  · exact h
  · have hstem := (List.dropLast_sublist _).subset h
    rw [List.mem_reverse] at hstem
    exact List.mem_reverse.mp ((List.dropWhile_sublist _).subset hstem)

/-- A name is cut before its last point, unless it begins with this one. -/
theorem cutSuffix_append_point {suffix : List Char} (hne : suffix ≠ []) (hpoint : '.' ∉ suffix)
    (stem : List Char) :
    cutSuffix (stem ++ '.' :: suffix) =
      if stem = [] then ('.' :: suffix, []) else (stem, '.' :: suffix) := by
  have hreverse : (stem ++ '.' :: suffix).reverse = suffix.reverse ++ '.' :: stem.reverse := by
    simp
  have hbare : ∀ c ∈ suffix.reverse, decide (c ≠ '.') = true := by
    intro c hc
    rw [decide_eq_true_eq]
    rintro rfl
    exact hpoint (List.mem_reverse.mp hc)
  have htake : (suffix.reverse ++ '.' :: stem.reverse).takeWhile (· ≠ '.') = suffix.reverse := by
    rw [List.takeWhile_append_of_pos hbare]
    simp
  have hdrop : (suffix.reverse ++ '.' :: stem.reverse).dropWhile (· ≠ '.') =
      '.' :: stem.reverse := by
    rw [List.dropWhile_append_of_pos hbare]
    simp
  rw [cutSuffix, hreverse, htake, hdrop]
  by_cases hstem : stem = []
  · simp [hstem]
  · simp [hstem, hne]

/-- A path with a name gets another suffix: root and directories stay, and so does the name's stem. -/
theorem withSuffix?_eq {p : Path} (hname : p.name ≠ "") (suffix : String) :
    p.withSuffix? suffix = some
      { p with parts := p.parts.dropLast ++
        [String.ofList (cutSuffix p.name.toList).1 ++ suffix] } := by
  rw [withSuffix?, if_neg (by simpa using hname)]

/-- A path with another suffix has that suffix behind the stem of its last part. -/
theorem of_withSuffix?_eq_some {p path : Path} {suffix : String}
    (h : p.withSuffix? suffix = some path) :
    p.name ≠ "" ∧ path = { p with parts := p.parts.dropLast ++
      [String.ofList (cutSuffix p.name.toList).1 ++ suffix] } := by
  have hname : p.name ≠ "" := by
    intro hempty
    rw [withSuffix?, hempty] at h
    cases h
  exact ⟨hname, Option.some.inj (h.symm.trans (withSuffix?_eq hname suffix))⟩

/-- The name of a path is its last part. -/
theorem name_of_parts_eq {p : Path} {front : List String} {last : String}
    (h : p.parts = front ++ [last]) : p.name = last := by
  rw [name, h, List.getLastD_eq_getLast?, List.getLast?_concat]
  rfl

/-- The parent of a path lacks its last part. -/
theorem parent_of_parts_eq {p : Path} {front : List String} {last : String}
    (h : p.parts = front ++ [last]) : p.parent = ⟨p.root, front⟩ := by
  rw [parent, h, List.dropLast_concat]

/-- A path that has components is known by its parent and its name. -/
theorem eq_iff_of_parts_eq {p q : Path} {front front' : List String} {last last' : String}
    (hp : p.parts = front ++ [last]) (hq : q.parts = front' ++ [last']) :
    p = q ↔ p.parent = q.parent ∧ p.name = q.name := by
  constructor
  · rintro rfl
    exact ⟨rfl, rfl⟩
  · rintro ⟨hparent, hname⟩
    rw [parent_of_parts_eq hp, parent_of_parts_eq hq, mk.injEq] at hparent
    rw [name_of_parts_eq hp, name_of_parts_eq hq] at hname
    obtain ⟨root, parts⟩ := p
    obtain ⟨root', parts'⟩ := q
    obtain rfl : parts = front ++ [last] := hp
    obtain rfl : parts' = front' ++ [last'] := hq
    rw [mk.injEq, hparent.2, hname]
    exact ⟨hparent.1, rfl⟩

/-- A name that is not empty is one of the parts. -/
theorem name_mem_parts {p : Path} (hname : p.name ≠ "") : p.name ∈ p.parts := by
  rw [name, List.getLastD_eq_getLast?] at hname ⊢
  cases hlast : p.parts.getLast? with
  | none =>
    rw [hlast] at hname
    exact absurd rfl hname
  | some part => exact List.mem_of_getLast? hlast

/-- A path with another suffix is got back from its text. -/
theorem ofText_text_withSuffix {s suffix : String} {p : Path}
    (hlong : 2 ≤ suffix.length) (hslash : '/' ∉ suffix.toList)
    (h : (ofText s).withSuffix? suffix = some p) : ofText p.text = p := by
  have hparts : ∀ part ∈ (ofText s).parts, IsPart part := fun _ => isPart_of_mem_components
  obtain ⟨hname, rfl⟩ := of_withSuffix?_eq_some h
  refine ofText_text (rootOf_cases s) (fun part hpart => ?_) (by simp)
  rcases List.mem_append.mp hpart with hpart | hpart
  · exact hparts part ((List.dropLast_sublist _).subset hpart)
  · obtain rfl := List.mem_singleton.mp hpart
    have hlength : 2 ≤ (String.ofList (cutSuffix (ofText s).name.toList).1 ++ suffix).length := by
      rw [String.length_append]
      omega
    refine ⟨?_, ?_, ?_⟩
    · intro hempty
      rw [hempty] at hlength
      exact absurd hlength (by decide)
    · intro hpoint
      rw [hpoint] at hlength
      exact absurd hlength (by decide)
    · rw [String.toList_append, String.toList_ofList, List.mem_append, not_or]
      exact ⟨fun hmem => (hparts _ (name_mem_parts hname)).2.2 (mem_of_mem_cutSuffix hmem), hslash⟩

/-! ## Paths without NUL characters -/

/-- No NUL character in any part of a path. -/
def NulFree (p : Path) : Prop :=
  '\x00' ∉ p.root.toList ∧ ∀ part ∈ p.parts, '\x00' ∉ part.toList

/-- A text without NUL characters is a path without them. -/
theorem nulFree_ofText {s : String} (h : '\x00' ∉ s.toList) : (ofText s).NulFree := by
  constructor
  · show '\x00' ∉ (rootOf s).toList
    rcases rootOf_cases s with hroot | hroot | hroot <;> rw [hroot] <;> decide
  · intro part hpart hmem
    obtain ⟨piece, hpiece, rfl⟩ := List.mem_map.mp (List.mem_filter.mp hpart).1
    rw [String.toList_ofList] at hmem
    exact h (mem_of_mem_splitAt hpiece hmem)

/-- A path below another one has no NUL character, if neither has one. -/
theorem NulFree.join {base p : Path} (hbase : base.NulFree) (hp : p.NulFree) :
    (base.join p).NulFree := by
  rw [Path.join]
  split
  · exact hp
  · exact ⟨hbase.1, fun part hpart => (List.mem_append.mp hpart).elim (hbase.2 part) (hp.2 part)⟩

/-- The parent of a path has no other characters than the path. -/
theorem NulFree.parent {p : Path} (h : p.NulFree) : p.parent.NulFree :=
  ⟨h.1, fun part hpart => h.2 part ((List.dropLast_sublist _).subset hpart)⟩

/-- Another suffix without NUL characters brings none. -/
theorem NulFree.withSuffix {p path : Path} (h : p.NulFree) {suffix : String}
    (hsuffix : '\x00' ∉ suffix.toList) (hpath : p.withSuffix? suffix = some path) :
    path.NulFree := by
  obtain ⟨hname, rfl⟩ := of_withSuffix?_eq_some hpath
  refine ⟨h.1, fun part hpart => ?_⟩
  rcases List.mem_append.mp hpart with hpart | hpart
  · exact h.2 part ((List.dropLast_sublist _).subset hpart)
  · rw [List.mem_singleton.mp hpart, String.toList_append, String.toList_ofList, List.mem_append,
      not_or]
    exact ⟨fun hmem => h.2 _ (name_mem_parts hname) (mem_of_mem_cutSuffix hmem), hsuffix⟩

/-- The text of a path without NUL characters has none. -/
theorem NulFree.text {p : Path} (h : p.NulFree) : '\x00' ∉ p.text.toList := by
  rw [Path.text]
  split
  · decide
  · rw [String.toList_append, List.mem_append, not_or]
    refine ⟨h.1, fun hmem => ?_⟩
    rw [toList_intercalate_slash] at hmem
    rcases mem_joinWith hmem with heq | ⟨piece, hpiece, hc⟩
    · exact absurd heq (by decide)
    · obtain ⟨part, hpart, rfl⟩ := List.mem_map.mp hpiece
      exact h.2 part hpart hc

end Path

/-! ## Locations -/

/-- Parts that do not go up lead down by themselves. -/
theorem follow_of_notMem {parts : List String} (h : ".." ∉ parts) (start : Location) :
    follow start parts = start ++ parts := by
  induction parts generalizing start with
  | nil => exact (List.append_nil start).symm
  | cons part parts ih =>
    rw [List.mem_cons, not_or] at h
    rw [follow, List.foldl_cons, if_neg (Ne.symm h.1)]
    refine (ih h.2 _).trans ?_
    rw [List.append_assoc, List.singleton_append]

/-- The way that is led to is made of the start and of parts that do not go up. -/
theorem mem_follow {start : Location} {parts : List String} {part : String}
    (h : part ∈ follow start parts) : part ∈ start ∨ part ∈ parts ∧ part ≠ ".." := by
  induction parts generalizing start with
  | nil => exact Or.inl h
  | cons first parts ih =>
    rw [follow, List.foldl_cons] at h
    rcases ih h with h | ⟨h, hne⟩
    · by_cases hup : first = ".."
      · rw [if_pos hup] at h
        exact Or.inl ((List.dropLast_sublist start).subset h)
      · rw [if_neg hup] at h
        rcases List.mem_append.mp h with h | h
        · exact Or.inl h
        · obtain rfl := List.mem_singleton.mp h
          exact Or.inr ⟨List.mem_cons_self, hup⟩
    · exact Or.inr ⟨List.mem_cons_of_mem first h, hne⟩

/-- The locations that texts name are made of names. -/
theorem isName_of_mem_locate {current : Location} (hcurrent : ∀ part ∈ current, IsName part)
    {s part : String} (h : part ∈ locate current s) : IsName part := by
  rw [locate] at h
  rcases mem_follow h with h | ⟨h, hne⟩
  · split at h
    · exact hcurrent part h
    · cases h
  · exact ⟨isPart_of_mem_components h, hne⟩

/-- A text of names behind a root names just them. -/
theorem locate_rooted {root : String} (hroot : root = "/" ∨ root = "//") {parts : List String}
    (h : ∀ part ∈ parts, IsName part) (current : Location) :
    locate current (root ++ "/".intercalate parts) = parts := by
  have hslash : (Path.rootOf (root ++ "/".intercalate parts)).isEmpty = false := by
    rw [Path.isEmpty_rootOf, String.toList_append]
    rcases hroot with rfl | rfl <;> rfl
  rw [locate, hslash, components_root_append (Or.inr hroot) fun part hpart => (h part hpart).1]
  exact follow_of_notMem (fun hup => (h ".." hup).2 rfl) []

/-- The absolute text of a path begins with one or two slashes, and its location follows. -/
theorem exists_absoluteText_eq (current : Location) (s : String) :
    ∃ root, (root = "/" ∨ root = "//") ∧
      absoluteText current s = root ++ "/".intercalate (locate current s) := by
  rw [absoluteText]
  rcases Path.rootOf_cases s with h | h | h
  · exact ⟨"/", Or.inl rfl, by rw [h]; rfl⟩
  · exact ⟨"/", Or.inl rfl, by rw [h]; rfl⟩
  · exact ⟨"//", Or.inr rfl, by rw [h]; rfl⟩

/-- The absolute text of a path names the same location, wherever it is seen from. -/
theorem locate_absoluteText {current : Location} (hcurrent : ∀ part ∈ current, IsName part)
    (s : String) (other : Location) :
    locate other (absoluteText current s) = locate current s := by
  obtain ⟨root, hroot, heq⟩ := exists_absoluteText_eq current s
  rw [heq]
  exact locate_rooted hroot (fun part hpart => isName_of_mem_locate hcurrent hpart) other

/-- A path's text names the location that the path was read from. -/
theorem locate_text (current : Location) (s : String) :
    locate current (Path.ofText s).text = locate current s := by
  have hparts : ∀ part ∈ components s, IsPart part := fun part => isPart_of_mem_components
  rw [Path.text, Path.ofText]
  split
  · next hnone =>
    obtain ⟨hroot, hempty⟩ : (Path.rootOf s).isEmpty = true ∧ (components s).isEmpty = true :=
      Bool.and_eq_true_iff.mp hnone
    rw [locate, locate, hroot, List.isEmpty_iff.mp hempty]
    rfl
  · have hroot : (Path.rootOf (Path.rootOf s ++ "/".intercalate (components s))).isEmpty =
        (Path.rootOf s).isEmpty := by
      rw [Path.isEmpty_rootOf, String.toList_append]
      rcases Path.rootOf_cases s with h | h | h
      · rw [h, String.toList_empty, List.nil_append, startsWith_intercalate hparts]
        rfl
      · rw [h]
        rfl
      · rw [h]
        rfl
    rw [locate, hroot, components_root_append (Path.rootOf_cases s) hparts, ← locate]

/-! ## Following a path in a tree -/

/-- One step in a tree leads where the part leads. -/
theorem FileTree.enter_eq_follow (location : Location) (part : String) :
    enter location part = follow location ([part].filter (· ≠ ".")) := by
  rw [enter]
  by_cases h : part = "."
  · simp [h, follow]
  · simp [h]

/-- Parts are followed one after the other. -/
theorem follow_append (start : Location) (front back : List String) :
    follow start (front ++ back) = follow (follow start front) back :=
  List.foldl_append

/-- A walk that succeeds leads where its parts lead. -/
theorem FileTree.walk_eq {tree : FileTree} {start location : Location} {parts : List String}
    (h : tree.walk start parts = .ok location) :
    location = follow start (parts.filter (· ≠ ".")) := by
  induction parts generalizing start with
  | nil =>
    rw [walk] at h
    exact (Except.ok.inj h).symm
  | cons part parts ih =>
    rw [walk] at h
    split at h
    · cases h
    · cases h
    · split at h
      · cases h
      · rw [ih h, enter_eq_follow, ← follow_append, ← List.filter_append, List.singleton_append]

/-- The steps of a path that go anywhere are its components. -/
theorem FileTree.filter_steps (path : String) :
    (steps path).filter (· ≠ ".") = components path := by
  have hkept : ∀ parts : List String, ((if parts.getLast? = some "" then parts ++ ["."]
      else parts).filter (· ≠ "")).filter (· ≠ ".") =
        parts.filter fun part => part ≠ "" && part ≠ "." := by
    intro parts
    rw [List.filter_filter]
    split
    · rw [List.filter_append]
      simp [Bool.and_comm]
    · simp [Bool.and_comm]
  exact hkept _

/-- A path leads somewhere when its text can be followed through directories. -/
theorem FileTree.reach_eq_ok_iff {tree : FileTree} {path : String} {location : Location} :
    tree.reach path = .ok location ↔
      checkPath path = .ok () ∧ tree.walk (tree.origin path) (steps path) = .ok location := by
  rw [reach]
  cases checkPath path with
  | error error =>
    constructor
    · intro h
      cases h
    · rintro ⟨h, -⟩
      cases h
  | ok =>
    cases tree.walk (tree.origin path) (steps path) with
    | error kind =>
      constructor
      · intro h
        cases h
      · rintro ⟨-, h⟩
        cases h
    | ok found =>
      constructor
      · intro h
        exact ⟨rfl, congrArg Except.ok (Except.ok.inj h)⟩
      · rintro ⟨-, h⟩
        exact congrArg Except.ok (Except.ok.inj h)

/-- A path names the location that it leads to from its origin. -/
theorem FileTree.locate_eq_follow_origin (tree : FileTree) (path : String) :
    locate tree.current path = follow (tree.origin path) (components path) := by
  rw [locate, origin, Path.isEmpty_rootOf]
  cases startsWith ['/'] path.toList <;> rfl

/-- What a path leads to stands at the location that it names. -/
theorem FileTree.reach_eq {tree : FileTree} {path : String} {location : Location}
    (h : tree.reach path = .ok location) : location = locate tree.current path := by
  rw [walk_eq (reach_eq_ok_iff.mp h).2, filter_steps, locate_eq_follow_origin]

end ClarityDelta.Files
