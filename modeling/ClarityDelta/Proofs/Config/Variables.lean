import ClarityDelta.Proofs.Config.Leaf

/-!
# Variables and the fields they set

The names of variables are without case, and distinct. The variable of a field sets it, whatever the
order of the variables, and one that reaches below it changes nothing then: `get?_foldlM_of_mem`.
-/

namespace ClarityDelta.Config

open Data Fields Text

variable {fields lower upper : Fields} {name : String} {value : Value}

/-! ## Names without case -/

/-- A name in which lower case changes nothing. -/
def IsLowered (s : String) : Prop :=
  lowered s = s

instance (s : String) : Decidable (IsLowered s) :=
  inferInstanceAs (Decidable (lowered s = s))

/-- A character that is no capital is its own lower case. -/
theorem toLower_of_not_isUpper {c : Char} (h : ¬ c.isUpper = true) : c.toLower = c :=
  dif_neg fun hupper => h (decide_eq_true hupper)

/-- In lower case, a capital letter is a letter that is no capital one. -/
theorem toLower_of_isUpper {c : Char} (h : c.isUpper = true) :
    ¬ c.toLower.isUpper = true ∧ c.toLower ≠ '\u212A' := by
  have hupper := of_decide_eq_true h
  have hlower : c.toLower.val = c.val + 32 := congrArg Char.val (dif_pos hupper)
  have hval : c.toLower.val.toNat = c.val.toNat + 32 := by
    have hle : c.val.toNat ≤ 90 := hupper.2
    have hnumber : (32 : UInt32).toNat = 32 := rfl
    rw [hlower, UInt32.toNat_add, hnumber]
    omega
  have hge : 65 ≤ c.val.toNat := hupper.1
  constructor
  · intro hagain
    have hle : c.toLower.val.toNat ≤ 90 := (of_decide_eq_true hagain).2
    omega
  · intro heq
    have hkelvin : ('\u212A' : Char).val.toNat = 8490 := rfl
    have hle : c.val.toNat ≤ 90 := hupper.2
    rw [heq] at hval
    omega

/-- A lowered text is lowered. -/
theorem isLowered_lowered (s : String) : IsLowered (lowered s) := by
  rw [IsLowered, lowered, lowered, String.map_map]
  congr 1
  funext c
  rw [Function.comp]
  by_cases hc : c = '\u212A'
  · subst hc
    decide
  · rw [if_neg hc]
    by_cases hupper : c.isUpper = true
    · obtain ⟨hnot, hne⟩ := toLower_of_isUpper hupper
      rw [if_neg hne, toLower_of_not_isUpper hnot]
    · rw [toLower_of_not_isUpper hupper, if_neg hc, toLower_of_not_isUpper hupper]

/-- What is in lower case is so character by character. -/
theorem isLowered_iff {s : String} :
    IsLowered s ↔ ∀ c ∈ s.toList, (if c = '\u212A' then 'k' else c.toLower) = c := by
  rw [IsLowered, lowered, ← String.toList_inj, String.toList_map]
  conv_lhs => rhs; rw [← List.map_id s.toList]
  exact List.map_inj_left

/-- The names of variables are distinct, and each is one of the environment in lower case. -/
theorem foldCase_names (environment : List (String × String)) :
    ((foldCase environment).map Prod.fst).Nodup ∧
      ∀ name ∈ (foldCase environment).map Prod.fst, ∃ entry ∈ environment, name = lowered entry.1 := by
  induction environment using List.reverseRecOn with
  | nil => exact ⟨List.nodup_nil, fun name hname => absurd hname List.not_mem_nil⟩
  | append_singleton environment entry' ih =>
    obtain ⟨hnodup, hnames⟩ := ih
    have hbefore : ∀ name ∈ (foldCase environment).map Prod.fst,
        ∃ entry ∈ environment ++ [entry'], name = lowered entry.1 := fun name hname =>
      let ⟨entry, hentry, heq⟩ := hnames name hname
      ⟨entry, List.mem_append_left _ hentry, heq⟩
    rw [foldCase, List.foldl_append, ← foldCase]
    dsimp only [List.foldl_cons, List.foldl_nil]
    split
    · -- the variable takes the place of one with its name
      have hsame : ((foldCase environment).map fun entry =>
          if entry.1 = lowered entry'.1 then (lowered entry'.1, entry'.2) else entry).map
            Prod.fst = (foldCase environment).map Prod.fst := by
        rw [List.map_map]
        refine List.map_congr_left fun entry _ => ?_
        rw [Function.comp]
        split
        · next heq => exact heq.symm
        · rfl
      rw [hsame]
      exact ⟨hnodup, hbefore⟩
    · next hany =>
      rw [List.map_append, List.map_singleton]
      refine ⟨List.nodup_append.mpr ⟨hnodup, List.nodup_singleton _, ?_⟩, ?_⟩
      · rintro a ha b hb rfl
        obtain ⟨entry, hentry, rfl⟩ := List.mem_map.mp ha
        rw [List.mem_singleton] at hb
        exact hany (List.any_eq_true.mpr ⟨entry, hentry, decide_eq_true hb⟩)
      · intro name hname
        rcases List.mem_append.mp hname with hmem | hmem
        · exact hbefore name hmem
        · exact ⟨entry', List.mem_append_right _ (List.mem_singleton_self _),
            List.mem_singleton.mp hmem⟩

/-- With different names, every entry is found by its name. -/
theorem lookup_of_mem {named : List (String × String)} {name text : String}
    (hnodup : (named.map Prod.fst).Nodup) (hmem : (name, text) ∈ named) :
    named.lookup name = some text := by
  obtain ⟨front, back, rfl⟩ := List.append_of_mem hmem
  rw [List.map_append, List.map_cons] at hnodup
  refine List.lookup_eq_some_iff.mpr
    ⟨front, back, rfl, fun entry hentry => bne_iff_ne.mpr fun heq => ?_⟩
  exact (List.nodup_append.mp hnodup).2.2 name (List.mem_map.mpr ⟨entry, hentry, heq.symm⟩) name
    List.mem_cons_self rfl

/-- A text that is found by a name is in the list with it. -/
theorem mem_of_lookup {named : List (String × String)} {name text : String}
    (h : named.lookup name = some text) : (name, text) ∈ named := by
  obtain ⟨front, back, rfl, -⟩ := List.lookup_eq_some_iff.mp h
  exact List.mem_append_right front List.mem_cons_self

/-- The names of an environment without case are lowered. -/
theorem isLowered_of_mem_foldCase {environment : List (String × String)} {name : String}
    (h : name ∈ (foldCase environment).map Prod.fst) : IsLowered name := by
  obtain ⟨entry, -, rfl⟩ := (foldCase_names environment).2 name h
  exact isLowered_lowered entry.1

/-! ## Names cut at pairs of lines -/

/-- A text is cut at the first pair of lines, if it has one. -/
theorem splitNesting_cases (piece cs : List Char) :
    splitNesting piece cs = [String.ofList (piece ++ cs)] ∨
      ∃ front back, cs = front ++ nesting ++ back ∧
        splitNesting piece cs = String.ofList (piece ++ front) :: splitNesting [] back := by
  fun_induction splitNesting piece cs with
  | case1 piece rest => exact Or.inr ⟨[], rest, rfl, by rw [List.append_nil]⟩
  | case2 piece c rest _ ih =>
    rcases ih with heq | ⟨front, back, hrest, heq⟩
    · exact Or.inl (by rw [heq, List.append_assoc, List.singleton_append])
    · refine Or.inr ⟨c :: front, back, by rw [hrest]; rfl, ?_⟩
      rw [heq, List.append_assoc, List.singleton_append]
  | case3 piece => exact Or.inl (by rw [List.append_nil])

/-- A text without pairs of lines is one piece. -/
theorem splitNesting_of_notNested {cs : List Char} (h : ¬ nesting <:+: cs) :
    splitNesting [] cs = [String.ofList cs] := by
  obtain heq | ⟨front, back, hcs, -⟩ := splitNesting_cases [] cs
  · exact heq
  · exact absurd ⟨front, back, hcs.symm⟩ h

/-- A name has a first part. -/
theorem splitNesting_ne_nil (cs : List Char) : splitNesting [] cs ≠ [] := by
  obtain heq | ⟨_, _, -, heq⟩ := splitNesting_cases [] cs
  · rw [heq]
    exact List.cons_ne_nil _ _
  · rw [heq]
    exact List.cons_ne_nil _ _

/-! ## Fields of a section -/

/-- The variable of an option. -/
def variableOf (place : Place) : String :=
  match place.part with
  | none => variableStem ++ place.name
  | some part => variableStem ++ part ++ "__" ++ place.name

/-- The variable of a leaf in a section is made of the section's, the separator and the leaf's name. -/
theorem toList_variableOf (part name : String) :
    (variableOf ⟨some part, name⟩).toList =
      (variableStem ++ part).toList ++ nesting ++ name.toList := by
  simp only [variableOf, String.toList_append, nesting]

/-- Whether a variable reaches below an option. -/
def ReachesBelow (place : Place) (entry : String × String) : Prop :=
  (variableOf place).toList ++ nesting <+: entry.1.toList

instance (place : Place) (entry : String × String) : Decidable (ReachesBelow place entry) :=
  inferInstanceAs (Decidable ((variableOf place).toList ++ nesting <+: entry.1.toList))

/-- The fields of a section after a variable, none when a list is not well written. -/
def setByVariable (part : Section) (fields : Fields) (entry : String × String) : Option Fields :=
  match after? ((variableStem ++ part.name).toList ++ nesting) entry.1.toList with
  | none => some fields
  | some rest =>
    let names := splitNesting [] rest
    let way := names.dropLast
    let last := names.getLastD ""
    (fieldValue (way.isEmpty && part.lists.contains last) entry.2).map fun v =>
      setDeep fields way last v

/-- The nested fields of a section are set by its variables one after the other. -/
theorem nestedFields_eq (part : Section) (named : List (String × String)) :
    nestedFields part named = named.foldlM (setByVariable part) [] := rfl

variable {part : Section} {entry : String × String} {named entries : List (String × String)}
  {result : Fields}

/-- A variable is not one of the section, or it is that of a field, or it reaches below one. -/
theorem setByVariable_cases (part : Section) (fields : Fields) (entry : String × String) :
    setByVariable part fields entry = some fields ∨
      (∃ name, entry.1 = variableOf ⟨some part.name, name⟩ ∧
        setByVariable part fields entry =
          (fieldValue (part.lists.contains name) entry.2).map fun value => fields.set name value) ∨
      ∃ name way last, ReachesBelow ⟨some part.name, name⟩ entry ∧
        setByVariable part fields entry =
          some (setDeep fields (name :: way) last (.text entry.2)) := by
  rw [setByVariable]
  rcases hrest : after? ((variableStem ++ part.name).toList ++ nesting) entry.1.toList with _ | rest
  · exact Or.inl rfl
  · rw [after?_eq_some_iff] at hrest
    dsimp only
    obtain heq | ⟨front, back, rfl, heq⟩ := splitNesting_cases [] rest
    · refine Or.inr (Or.inl ⟨String.ofList rest, ?_, ?_⟩)
      · rw [← String.toList_inj, toList_variableOf, String.toList_ofList, hrest]
      · rw [heq]
        rfl
    · obtain ⟨second, more, hmore⟩ := List.exists_cons_of_ne_nil (splitNesting_ne_nil back)
      refine Or.inr (Or.inr ⟨String.ofList front, (second :: more).dropLast,
        (second :: more).getLastD "", ⟨back, ?_⟩, ?_⟩)
      · rw [toList_variableOf, String.toList_ofList, hrest]
        simp only [List.append_assoc]
      · rw [heq, hmore]
        rfl

/-- The variable of a field sets it. -/
theorem setByVariable_own (hname : ¬ nesting <:+: name.toList) (fields : Fields) (text : String) :
    setByVariable part fields (variableOf ⟨some part.name, name⟩, text) =
      (fieldValue (part.lists.contains name) text).map fun value => fields.set name value := by
  have hafter : after? ((variableStem ++ part.name).toList ++ nesting)
      (variableOf ⟨some part.name, name⟩).toList = some name.toList :=
    after?_eq_some_iff.mpr (toList_variableOf part.name name)
  rw [setByVariable]
  dsimp only
  rw [hafter]
  dsimp only
  rw [splitNesting_of_notNested hname, String.ofList_toList]
  rfl

/-- Setting below one key leaves the other keys alone. -/
theorem get?_setDeep_of_ne {key : String} (hne : key ≠ name) (fields : Fields) (way : List String)
    (last : String) (value : Value) : (setDeep fields (key :: way) last value).get? name =
      fields.get? name := by
  rw [setDeep]
  split
  · rw [get?_set, if_neg (Ne.symm hne)]
  · rfl
  · rw [get?_set, if_neg (Ne.symm hne)]

/-- What is no object keeps what is below it from being set. -/
theorem setDeep_of_isLeaf {old : Value} (hold : fields.get? name = some old) (hleaf : IsLeaf old)
    (way : List String) (last : String) (value : Value) :
    setDeep fields (name :: way) last value = fields := by
  rw [setDeep]
  split
  · next inner hinner =>
    exact absurd (Option.some.inj (hold.symm.trans hinner)) (hleaf inner)
  · rfl
  · next hnone =>
    rw [hnone] at hold
    cases hold

/-- Another variable leaves a field as it is, one that reaches below it only where it is no object. -/
theorem get?_setByVariable (hset : setByVariable part fields entry = some result)
    (hother : entry.1 ≠ variableOf ⟨some part.name, name⟩)
    (hbelow : ReachesBelow ⟨some part.name, name⟩ entry →
      ∃ old, fields.get? name = some old ∧ IsLeaf old) :
    result.get? name = fields.get? name := by
  obtain heq | ⟨key, hkey, heq⟩ | ⟨key, way, last, hreaches, heq⟩ :=
    setByVariable_cases part fields entry
  · rw [heq] at hset
    rw [Option.some.inj hset]
  · rw [heq] at hset
    obtain ⟨value, -, rfl⟩ := Option.map_eq_some_iff.mp hset
    have hne : name ≠ key := fun h => hother (h ▸ hkey)
    rw [get?_set, if_neg hne]
  · rw [heq] at hset
    obtain rfl := Option.some.inj hset
    by_cases hkey : key = name
    · subst hkey
      obtain ⟨old, hold, hleaf⟩ := hbelow hreaches
      rw [setDeep_of_isLeaf hold hleaf]
    · exact get?_setDeep_of_ne hkey fields way last _

/-- A field that no variable sets and that none reaches below keeps its value. -/
theorem get?_foldlM (hset : entries.foldlM (setByVariable part) fields = some result)
    (hother : ∀ entry ∈ entries, entry.1 ≠ variableOf ⟨some part.name, name⟩)
    (hbelow : (∃ old, fields.get? name = some old ∧ IsLeaf old) ∨
      ∀ entry ∈ entries, ¬ ReachesBelow ⟨some part.name, name⟩ entry) :
    result.get? name = fields.get? name := by
  induction entries generalizing fields with
  | nil => rw [Option.some.inj hset]
  | cons entry entries ih =>
    rw [List.foldlM_cons] at hset
    obtain ⟨middle, hfirst, hrest⟩ := Option.bind_eq_some_iff.mp hset
    have hmiddle : middle.get? name = fields.get? name :=
      get?_setByVariable hfirst (hother entry List.mem_cons_self) fun hreaches =>
        hbelow.resolve_right fun hnone => hnone entry List.mem_cons_self hreaches
    -- a field that has a plain value still has it behind the first variable
    have hlater : (∃ old, middle.get? name = some old ∧ IsLeaf old) ∨
        ∀ entry ∈ entries, ¬ ReachesBelow ⟨some part.name, name⟩ entry := by
      rw [hmiddle]
      exact hbelow.imp_right fun hnone entry hentry => hnone entry (List.mem_cons_of_mem _ hentry)
    rw [ih hrest (fun entry hentry => hother entry (List.mem_cons_of_mem _ hentry)) hlater, hmiddle]

/-- The variable of a field counts, wherever it stands among the others. -/
theorem get?_foldlM_of_mem (hset : named.foldlM (setByVariable part) [] = some result)
    (hnodup : (named.map Prod.fst).Nodup) (hname : ¬ nesting <:+: name.toList) {text : String}
    (hmem : (variableOf ⟨some part.name, name⟩, text) ∈ named)
    (hvalue : fieldValue (part.lists.contains name) text = some value) (hleaf : IsLeaf value) :
    result.get? name = some value := by
  obtain ⟨front, back, rfl⟩ := List.append_of_mem hmem
  rw [List.map_append, List.map_cons] at hnodup
  rw [List.foldlM_append] at hset
  obtain ⟨before, -, hset⟩ := Option.bind_eq_some_iff.mp hset
  rw [List.foldlM_cons, setByVariable_own hname, hvalue] at hset
  have hback : back.foldlM (setByVariable part) (before.set name value) = some result := hset
  have hown : (before.set name value).get? name = some value := by rw [get?_set, if_pos rfl]
  rw [get?_foldlM hback (fun entry hentry heq => ?_)
    (Or.inl ⟨value, hown, hleaf⟩), hown]
  -- no other variable has its name
  have hlater := (List.nodup_cons.mp (List.nodup_append.mp hnodup).2.1).1
  exact hlater (List.mem_map.mpr ⟨entry, hentry, heq⟩)

/-- Fields with distinct names in lower case. -/
structure Tidy (fields : Fields) : Prop where
  nodup : (names fields).Nodup
  lowered : ∀ name ∈ names fields, IsLowered name

/-- Setting a lowered name leaves fields tidy. -/
theorem Tidy.set (h : Tidy fields) (hname : IsLowered name) (value : Value) :
    Tidy (fields.set name value) where
  nodup := nodup_set h.nodup name value
  lowered other hother := by
    rw [names_set] at hother
    split at hother
    · exact h.lowered other hother
    · rcases List.mem_append.mp hother with hmem | hmem
      · exact h.lowered other hmem
      · exact List.mem_singleton.mp hmem ▸ hname

/-- A part of a lowered text is lowered. -/
theorem isLowered_of_within {s : String} (hs : IsLowered s) (h : name.toList <:+: s.toList) :
    IsLowered name :=
  isLowered_iff.mpr fun c hc => isLowered_iff.mp hs c (h.subset hc)

/-- The name of a leaf is a part of its variable. -/
theorem name_within_variableOf (part name : String) :
    name.toList <:+: (variableOf ⟨some part, name⟩).toList :=
  ⟨_, [], by rw [toList_variableOf, List.append_nil]⟩

/-- Setting something below a key changes nothing or the value of that key. -/
theorem setDeep_cases (fields : Fields) (key : String) (way : List String) (last : String)
    (value : Value) : setDeep fields (key :: way) last value = fields ∨
      ∃ inner, setDeep fields (key :: way) last value = fields.set key inner := by
  rw [setDeep]
  split
  · exact Or.inr ⟨_, rfl⟩
  · exact Or.inl rfl
  · exact Or.inr ⟨_, rfl⟩

/-- What a lowered variable sets in tidy fields leaves them tidy. -/
theorem Tidy.setByVariable (h : Tidy fields) (hentry : IsLowered entry.1)
    (hset : setByVariable part fields entry = some result) : Tidy result := by
  obtain heq | ⟨key, hkey, heq⟩ | ⟨key, way, last, hreaches, heq⟩ :=
    setByVariable_cases part fields entry
  · exact Option.some.inj (heq.symm.trans hset) ▸ h
  · obtain ⟨value, -, rfl⟩ := Option.map_eq_some_iff.mp (heq.symm.trans hset)
    exact h.set (isLowered_of_within hentry (hkey ▸ name_within_variableOf part.name key)) value
  · obtain rfl := Option.some.inj (heq.symm.trans hset)
    have hlowered : IsLowered key := isLowered_of_within hentry
      ((name_within_variableOf part.name key).trans
        ((List.infix_append [] _ _).trans hreaches.isInfix))
    obtain hsame | ⟨inner, hinner⟩ := setDeep_cases fields key way last (.text entry.2)
    · rw [hsame]
      exact h
    · rw [hinner]
      exact h.set hlowered inner

/-- What lowered variables set one after the other leaves fields tidy. -/
theorem Tidy.foldlM (h : Tidy fields) (hentries : ∀ entry ∈ entries, IsLowered entry.1)
    (hset : entries.foldlM (Config.setByVariable part) fields = some result) : Tidy result := by
  induction entries generalizing fields with
  | nil => exact Option.some.inj hset ▸ h
  | cons entry entries ih =>
    rw [List.foldlM_cons] at hset
    obtain ⟨middle, hfirst, hrest⟩ := Option.bind_eq_some_iff.mp hset
    exact ih (h.setByVariable (hentries entry List.mem_cons_self) hfirst)
      (fun other hother => hentries other (List.mem_cons_of_mem _ hother)) hrest

/-- The fields are found where all lists are well written. -/
theorem exists_foldlM_eq_some (part : Section) (hlists : ∀ entry ∈ entries, ∀ name ∈ part.lists,
      entry.1 = variableOf ⟨some part.name, name⟩ → ∃ value, fieldValue true entry.2 = some value)
    (fields : Fields) : ∃ result, entries.foldlM (setByVariable part) fields = some result := by
  induction entries generalizing fields with
  | nil => exact ⟨fields, rfl⟩
  | cons entry entries ih =>
    obtain ⟨middle, hmiddle⟩ : ∃ middle, setByVariable part fields entry = some middle := by
      obtain heq | ⟨key, hkey, heq⟩ | ⟨key, way, last, -, heq⟩ := setByVariable_cases part fields entry
      · exact ⟨_, heq⟩
      · cases hlist : part.lists.contains key with
        | false => exact ⟨_, by rw [heq, hlist]; rfl⟩
        | true =>
          obtain ⟨value, hvalue⟩ := hlists entry List.mem_cons_self key (by simpa using hlist) hkey
          exact ⟨_, by rw [heq, hlist, hvalue]; rfl⟩
      · exact ⟨_, heq⟩
    rw [List.foldlM_cons, hmiddle]
    exact ih (fun other hother => hlists other (List.mem_cons_of_mem _ hother)) middle

end ClarityDelta.Config
