import Mathlib.Data.List.Induction
import Mathlib.Data.List.Nodup
import ClarityDelta.Verification.Plan

/-!
# Grouping by file

`groupByFile` puts one name after the other under its file. What comes of it can be told without an
order of steps: every file once, where it comes first, with the names of all its functions in order.
-/

namespace ClarityDelta.Verification

variable {file name : String} {files : List String}

/-- Erasing the repetitions of a list with one more item keeps this item exactly when the list does not
have it. -/
private theorem eraseDups_concat (files : List String) (file : String) :
    (files ++ [file]).eraseDups =
      if file ∈ files then files.eraseDups else files.eraseDups ++ [file] := by
  rw [List.eraseDups_append]
  by_cases h : file ∈ files
  · rw [if_pos h]
    simp [List.removeAll, h]
  · rw [if_neg h]
    simp [List.removeAll, h, List.eraseDups_cons]

/-- Files without repetitions are all different. -/
theorem nodup_eraseDups (files : List String) : files.eraseDups.Nodup := by
  induction files using List.reverseRecOn with
  | nil => exact List.nodup_nil
  | append_singleton files file ih =>
    rw [eraseDups_concat]
    split
    · exact ih
    · rename_i hnew
      have hnew' : file ∉ files.eraseDups := fun h => hnew (List.mem_eraseDups.mp h)
      exact ih.append (List.nodup_singleton file) (List.disjoint_singleton.mpr hnew')

/-- A name put under a file that is not there makes a group of its own, the last one. -/
theorem addToGroup_of_notMem (names : String → List String) (h : file ∉ files) :
    addToGroup file name (files.map fun f => (f, names f)) =
      (files.map fun f => (f, names f)) ++ [(file, [name])] := by
  induction files with
  | nil => rfl
  | cons f files ih =>
    have hne : f ≠ file := fun heq => h (heq ▸ List.mem_cons_self)
    rw [List.map_cons, addToGroup, if_neg hne, ih fun hmem => h (List.mem_cons_of_mem f hmem)]
    rfl

/-- A name put under a file that is there comes last in its group and leaves the others alone. -/
theorem addToGroup_of_mem (names : String → List String) (hnodup : files.Nodup) (h : file ∈ files) :
    addToGroup file name (files.map fun f => (f, names f)) =
      files.map fun f => (f, if f = file then names f ++ [name] else names f) := by
  induction files with
  | nil => exact absurd h List.not_mem_nil
  | cons f files ih =>
    obtain ⟨hf, hnodup⟩ := List.nodup_cons.mp hnodup
    rw [List.map_cons, List.map_cons, addToGroup]
    by_cases heq : f = file
    · rw [if_pos heq, if_pos heq]
      refine congrArg _ (List.map_congr_left fun g hg => ?_)
      have hne : g ≠ file := fun h => hf (by rw [heq, ← h]; exact hg)
      rw [if_neg hne]
    · rw [if_neg heq, if_neg heq]
      exact congrArg _ (ih hnodup (List.mem_of_ne_of_mem (Ne.symm heq) h))

/-- The names of the functions of a file. -/
def namesIn (changed : List ChangedFunction) (file : String) : List String :=
  (changed.filter (·.file == file)).map (·.name)

/-- A last changed function is the last one of its file. -/
theorem namesIn_concat (changed : List ChangedFunction) (f : ChangedFunction) (file : String) :
    namesIn (changed ++ [f]) file =
      if file = f.file then namesIn changed file ++ [f.name] else namesIn changed file := by
  by_cases h : file = f.file
  · simp [namesIn, h]
  · simp [namesIn, h, Ne.symm h]

/-- A file without changes has no changed functions. -/
theorem namesIn_eq_nil (changed : List ChangedFunction) {file : String}
    (h : file ∉ changed.map (·.file)) : namesIn changed file = [] := by
  rw [namesIn, List.map_eq_nil_iff, List.filter_eq_nil_iff]
  intro f hf heq
  exact h (List.mem_map.mpr ⟨f, hf, eq_of_beq heq⟩)

/-- Every file has one group, which stands where the file comes first and holds the names of the
file's functions. -/
theorem groupByFile_eq (changed : List ChangedFunction) :
    groupByFile changed =
      (changed.map (·.file)).eraseDups.map fun file => (file, namesIn changed file) := by
  -- the fold goes from the left, so its last step is the one for the last function
  induction changed using List.reverseRecOn with
  | nil => rfl
  | append_singleton changed f ih =>
    have hstep : groupByFile (changed ++ [f]) = addToGroup f.file f.name (groupByFile changed) := by
      simp only [groupByFile, List.foldl_append, List.foldl_cons, List.foldl_nil]
    rw [hstep, ih, List.map_append, List.map_singleton, eraseDups_concat]
    by_cases h : f.file ∈ changed.map (·.file)
    · rw [if_pos h, addToGroup_of_mem _ (nodup_eraseDups _) (List.mem_eraseDups.mpr h)]
      exact List.map_congr_left fun file _ => by rw [namesIn_concat]
    · rw [if_neg h, addToGroup_of_notMem _ fun hmem => h (List.mem_eraseDups.mp hmem),
        List.map_append, List.map_singleton, namesIn_concat, if_pos rfl, namesIn_eq_nil changed h]
      refine congrArg (· ++ _) (List.map_congr_left fun file hfile => ?_)
      have hne : file ≠ f.file := fun heq => h (heq ▸ List.mem_eraseDups.mp hfile)
      rw [namesIn_concat, if_neg hne]

/-- A changed function is in a group of its file. -/
theorem exists_group_of_mem {changed : List ChangedFunction} {f : ChangedFunction}
    (h : f ∈ changed) : ∃ names, (f.file, names) ∈ groupByFile changed ∧ f.name ∈ names := by
  refine ⟨namesIn changed f.file, ?_, ?_⟩
  · rw [groupByFile_eq]
    exact List.mem_map.mpr ⟨f.file, List.mem_eraseDups.mpr (List.mem_map.mpr ⟨f, h, rfl⟩), rfl⟩
  · exact List.mem_map.mpr ⟨f, List.mem_filter.mpr ⟨h, beq_self_eq_true _⟩, rfl⟩

end ClarityDelta.Verification
