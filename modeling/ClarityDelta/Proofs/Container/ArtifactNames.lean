import ClarityDelta.Container.TreeGenerator
import ClarityDelta.Verification.Plan
import ClarityDelta.Proofs.Files.Path

/-!
# Names of artifacts

A contract's file has a stem in front of the suffix of contracts, and two functions cut it off: one
for the name of the contract, which takes whatever stands there, and one for the artifact, for which a
name that begins with its last point has no suffix. They differ where nothing stands in front of the
suffix, and there only (`artifactPath?_eq`). The artifact of such a file is named like that of the
file whose stem is the suffix itself, so the two contracts have one artifact:
`artifactPath_onlySuffix`. All other contracts have artifacts of their own, named for the contract
(`artifactPath_of_contract`).
-/

namespace ClarityDelta.Container

open Files Text Verification

/-- A file of a contract, its path written with slashes. -/
structure IsContract (file : String) : Prop where
  suffix : contractSuffix.toList <:+ file.toList
  no_backslash : '\\' ∉ file.toList

/-- What is left of a contract's name in that of its artifact, given what stands in front of the
suffix. -/
def artifactStem (stem : List Char) : List Char :=
  if stem = [] then contractSuffix.toList else stem

/-- Two stems have artifacts of the same stem exactly if they are equal or one is empty and the other is
the suffix of contracts. -/
theorem artifactStem_eq_iff {stem other : List Char} :
    artifactStem stem = artifactStem other ↔
      stem = other ∨ (stem = [] ∧ other = contractSuffix.toList) ∨
        (stem = contractSuffix.toList ∧ other = []) := by
  have hsuffix : contractSuffix.toList ≠ [] := by decide
  by_cases hstem : stem = []
  · subst hstem
    by_cases hother : other = []
    · simp [hother]
    · simp [artifactStem, hother, Ne.symm hother, hsuffix.symm, eq_comm]
  · by_cases hother : other = []
    · simp [artifactStem, hstem, hother]
    · simp [artifactStem, hstem, hother]

/-! ## The name of the contract and of its artifact -/

/-- The path of a contract ends with its stem and the suffix. -/
theorem exists_parts_eq {file : String} (h : contractSuffix.toList <:+ file.toList) :
    ∃ front stem, (Path.ofText file).parts =
      front ++ [String.ofList (stem ++ contractSuffix.toList)] :=
  exists_components_eq h (by decide) (by decide)

/-- A contract is named for its stem. -/
theorem contractName_eq {file : String} (h : IsContract file) {front : List String}
    {stem : List Char} (hparts : (Path.ofText file).parts =
      front ++ [String.ofList (stem ++ contractSuffix.toList)]) :
    contractName file = String.ofList stem := by
  have hslashed : String.ofList (file.toList.map fun c => if c = '\\' then '/' else c) = file := by
    rw [← String.toList_inj, String.toList_ofList]
    refine (List.map_congr_left fun c hc => if_neg ?_).trans (List.map_id file.toList)
    rintro rfl
    exact h.no_backslash hc
  have hends : endsWith contractSuffix.toList (stem ++ contractSuffix.toList) = true :=
    endsWith_iff.mpr (List.suffix_append stem contractSuffix.toList)
  have hlength : (String.ofList (stem ++ contractSuffix.toList)).length - contractSuffix.length =
      stem.length := by
    rw [String.length_ofList, List.length_append, String.length_toList]
    omega
  rw [contractName, hslashed, Path.name_of_parts_eq hparts, withoutContractSuffix,
    String.toList_ofList, if_pos hends, hlength, List.take_left]

/-- The artifact of a contract is named for its stem too, or for the suffix if the stem is empty. -/
theorem artifactPath?_eq {file : String} {front : List String} {stem : List Char}
    (hparts : (Path.ofText file).parts =
      front ++ [String.ofList (stem ++ contractSuffix.toList)]) :
    artifactPath? file = some ⟨Path.rootOf file,
      front ++ [String.ofList (artifactStem stem) ++ artifactSuffix]⟩ := by
  have hname := Path.name_of_parts_eq hparts
  have hsuffix : contractSuffix.toList = '.' :: ['c', 'l', 'a', 'r'] := rfl
  have hcut : (Path.cutSuffix (stem ++ contractSuffix.toList)).1 = artifactStem stem := by
    rw [hsuffix, Path.cutSuffix_append_point (by decide) (by decide), artifactStem, hsuffix]
    split <;> rfl
  have hne : (Path.ofText file).name ≠ "" := by
    intro hempty
    rw [hname, ← String.toList_inj, String.toList_ofList, hsuffix] at hempty
    exact List.append_ne_nil_of_right_ne_nil stem (List.cons_ne_nil _ _) hempty
  rw [artifactPath?, Path.withSuffix?_eq hne, hname, String.toList_ofList, hcut, hparts,
    List.dropLast_concat]
  rfl

/-- Names with the suffix of contracts are the same when their stems are. -/
theorem ofList_append_suffix_eq_iff {stem other : List Char} :
    String.ofList (stem ++ contractSuffix.toList) = String.ofList (other ++ contractSuffix.toList) ↔
      stem = other := by
  rw [← String.toList_inj, String.toList_ofList, String.toList_ofList, List.append_left_inj]

/-- Nothing that ends with the suffix of contracts ends with that of artifacts. -/
theorem ofList_append_suffix_ne (stem : List Char) (front : String) :
    String.ofList (stem ++ contractSuffix.toList) ≠ front ++ artifactSuffix := by
  intro heq
  have hlast := congrArg (·.toList.getLast?) heq
  have hcontract : contractSuffix.toList = ['.', 'c', 'l', 'a', 'r'] := rfl
  have hartifact : artifactSuffix.toList = ['.', 'c', 'l', 'a', 'r', 'a', 's', 't'] := rfl
  simp only [String.toList_ofList, String.toList_append, hcontract, hartifact] at hlast
  simp at hlast

/-- Artifacts are the same when they lie in one directory and are named for the same stem. -/
theorem artifactPath_eq_iff {file other : String} {front front' : List String}
    {stem stem' : List Char}
    (hparts : (Path.ofText file).parts =
      front ++ [String.ofList (stem ++ contractSuffix.toList)])
    (hparts' : (Path.ofText other).parts =
      front' ++ [String.ofList (stem' ++ contractSuffix.toList)]) :
    artifactPath file = artifactPath other ↔
      (Path.ofText file).parent = (Path.ofText other).parent ∧
        artifactStem stem = artifactStem stem' := by
  rw [artifactPath, artifactPath, artifactPath?_eq hparts, artifactPath?_eq hparts',
    Except.ok.injEq, Path.eq_iff_of_parts_eq rfl rfl, Path.parent_of_parts_eq rfl,
    Path.parent_of_parts_eq rfl, Path.parent_of_parts_eq hparts, Path.parent_of_parts_eq hparts',
    Path.name_of_parts_eq rfl, Path.name_of_parts_eq rfl]
  apply and_congr_right'
  rw [← String.toList_inj, String.toList_append, String.toList_append, List.append_left_inj,
    String.toList_ofList, String.toList_ofList]

/-! ## Contracts and artifacts -/

/-- A contract has an artifact beside it. It is named for the contract, unless the contract's file is
named by the suffix alone, and it is no contract. Two contracts have one artifact only if they are one
path, or lie in one directory under the two names that are given here. -/
theorem artifactPath_of_contract {file : String} (hfile : IsContract file) :
    ∃ path, artifactPath file = .ok path ∧
      path.parent = (Path.ofText file).parent ∧
      path.name = (if (Path.ofText file).name = ".clar" then ".clar" else contractName file) ++
        ".clarast" ∧
      (∀ contract : String, contractSuffix.toList <:+ contract.toList →
        Path.ofText contract ≠ path) ∧
      ∀ other, IsContract other → (artifactPath file = artifactPath other ↔
        Path.ofText file = Path.ofText other ∨
          (Path.ofText file).parent = (Path.ofText other).parent ∧
            ((Path.ofText file).name = ".clar" ∧ (Path.ofText other).name = ".clar.clar" ∨
              (Path.ofText file).name = ".clar.clar" ∧ (Path.ofText other).name = ".clar")) := by
  obtain ⟨front, stem, hparts⟩ := exists_parts_eq hfile.suffix
  have hname := Path.name_of_parts_eq hparts
  have hbare : ".clar" = String.ofList ([] ++ contractSuffix.toList) := rfl
  have hdouble : ".clar.clar" = String.ofList (contractSuffix.toList ++ contractSuffix.toList) := rfl
  refine ⟨_, by rw [artifactPath, artifactPath?_eq hparts], ?_, ?_, ?_, ?_⟩
  · rw [Path.parent_of_parts_eq rfl, Path.parent_of_parts_eq hparts]
    rfl
  · rw [Path.name_of_parts_eq rfl, hname, contractName_eq hfile hparts, artifactStem]
    by_cases hstem : stem = []
    · subst hstem
      rfl
    · rw [if_neg hstem, if_neg]
      · rfl
      · rwa [hbare, ofList_append_suffix_eq_iff]
  · intro contract hsuffix heq
    obtain ⟨front', stem', hparts'⟩ := exists_parts_eq hsuffix
    have hname' := Path.name_of_parts_eq hparts'
    rw [heq, Path.name_of_parts_eq rfl] at hname'
    exact ofList_append_suffix_ne stem' _ hname'.symm
  · intro other hother
    obtain ⟨front', stem', hparts'⟩ := exists_parts_eq hother.suffix
    have hname' := Path.name_of_parts_eq hparts'
    rw [artifactPath_eq_iff hparts hparts', artifactStem_eq_iff, and_or_left,
      Path.eq_iff_of_parts_eq hparts hparts', hname, hname', hdouble, hbare]
    simp only [ofList_append_suffix_eq_iff]

/-- A contract whose name begins with two points has an artifact of its own, whatever points and slashes
its directory has. -/
theorem artifactPath_of_contract_points :
    IsContract "./a.b//..clar" ∧ IsContract "a.b/.clar" ∧
      (∃ path, artifactPath "./a.b//..clar" = .ok path ∧ path.parent = ⟨"", ["a.b"]⟩ ∧
        path.name = contractName "./a.b//..clar" ++ ".clarast") ∧
      artifactPath "./a.b//..clar" ≠ artifactPath "a.b/.clar" := by
  have hfile : IsContract "./a.b//..clar" := ⟨by decide, by decide⟩
  have hother : IsContract "a.b/.clar" := ⟨by decide, by decide⟩
  obtain ⟨path, hpath, hparent, hname, -, hshared⟩ := artifactPath_of_contract hfile
  refine ⟨hfile, hother, ⟨path, hpath, ?_, ?_⟩, ?_⟩
  · rw [hparent]
    decide +kernel
  · rw [hname]
    decide +kernel
  · rw [Ne, hshared _ hother]
    decide +kernel

/-- The contract that is named by the suffix alone: its artifact is not named for it, and another
contract in its directory has the same. -/
theorem artifactPath_onlySuffix :
    IsContract ".clar" ∧ IsContract ".clar.clar" ∧
      Path.ofText ".clar" ≠ Path.ofText ".clar.clar" ∧
      artifactPath ".clar" = .ok ⟨"", [".clar.clarast"]⟩ ∧
      artifactPath ".clar.clar" = .ok ⟨"", [".clar.clarast"]⟩ ∧
      contractName ".clar" ++ artifactSuffix = ".clarast" := by
  have hfile : artifactPath? ".clar" = some ⟨"", [".clar.clarast"]⟩ := by decide +kernel
  have hother : artifactPath? ".clar.clar" = some ⟨"", [".clar.clarast"]⟩ := by decide +kernel
  refine ⟨⟨by decide, by decide⟩, ⟨by decide, by decide⟩, by decide +kernel, ?_, ?_,
    by decide +kernel⟩
  · rw [artifactPath, hfile]
  · rw [artifactPath, hother]

end ClarityDelta.Container
