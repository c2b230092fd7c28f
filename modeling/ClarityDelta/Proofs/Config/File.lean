import ClarityDelta.Proofs.Logging.Steady

/-!
# What the configuration file gives

The configuration file is the first of its places that a regular file stands at. What it gives is decided
by its content: `documentOf` tells the document that is read there, if the content is one.
-/

namespace ClarityDelta.Config

open Data Files Logging Text

variable {w : Workspace} {path : String} {file : RegularFile}

/-- The document in the content of a file, which may be none at all, or what keeps it from being read. -/
def documentOf (content : ByteArray) : Except Fault (Option Yaml.Document) :=
  match Utf8.decode content with
  | .error cause => .error (.undecodable cause)
  | .ok text =>
    match Yaml.document (String.ofList (normalizeLineEnds text.toList)) with
    | .ok document => .ok (some document)
    | .error .illFormed => .ok none
    | .error (.scalar cause) => .error (.scalar cause)

/-- What is noted of a document that gives no settings, unless it is nothing at all. -/
def warning? (path : String) : Option Yaml.Document → Option String
  | none => some "读取 YAML 配置失败，将使用默认/环境变量配置: ill-formed"
  | some (.other value) =>
    if isNothing value then none else some s!"配置文件顶层不是映射，已忽略: {path}"
  | some _ => none

/-- The workspace after what is noted of a document. -/
def Warned (path : String) (document : Option Yaml.Document) (w after : Workspace) : Prop :=
  match warning? path document with
  | none => after = w
  | some message => say configLogger (.warning message) w = (.ok (), after)

/-- Without a configuration file, nothing is given and nothing is noted. -/
theorem fileFields_of_none (hpath : configPaths.find? w.files.isFile = none) :
    fileFields w = (.ok [], w) := by
  rw [fileFields, Action.get_bind_apply, hpath]
  rfl

/-- What the configuration file gives is decided by the document in its content. -/
theorem fileFields_of_some (hpath : configPaths.find? w.files.isFile = some path)
    (hfile : w.files.fileAt? path = some file) :
    fileFields w = (match documentOf file.content with
      | .error fault => throw fault
      | .ok (some (.mapping pairs)) => return pairs
      | .ok document => do
        if let some message := warning? path document then say configLogger (.warning message)
        return [] : Work (List (Yaml.Key × Value))) w := by
  rw [fileFields, Action.get_bind_apply, hpath]
  dsimp only
  rw [hfile, Option.map_some, documentOf]
  cases Utf8.decode file.content with
  | error cause => rfl
  | ok text =>
    dsimp only
    rw [textFields]
    cases hdocument : Yaml.document (String.ofList (normalizeLineEnds text.toList)) with
    | error fault =>
      cases fault with
      | illFormed => rfl
      | scalar cause => rfl
    | ok document =>
      cases document with
      | mapping pairs => rfl
      | empty => rfl
      | other value =>
        dsimp only
        rw [documentFields, warning?]
        by_cases hvalue : isNothing value = true
        · simp only [hvalue]
          rfl
        · simp only [hvalue]
          rfl

/-- A mapping is what the file gives, whatever its keys are. -/
theorem fileFields_of_mapping (hpath : configPaths.find? w.files.isFile = some path)
    (hfile : w.files.fileAt? path = some file) {pairs : List (Yaml.Key × Value)}
    (hdocument : documentOf file.content = .ok (some (.mapping pairs))) :
    fileFields w = (.ok pairs, w) := by
  rw [fileFields_of_some hpath hfile, hdocument]
  rfl

/-- The configuration file gives fields, all of which are named by texts. -/
def Gives (w : Workspace) (fields : Fields) (after : Workspace) : Prop :=
  ∃ pairs, fileFields w = (.ok pairs, after) ∧ (∀ pair ∈ pairs, pair.1 ≠ .other) ∧
    Yaml.textFields pairs = fields

/-- A file that gives no fields adds nothing to the settings. -/
theorem gives_nothing {after : Workspace} (h : fileFields w = (.ok [], after)) : Gives w [] after :=
  ⟨[], h, fun _ hpair => absurd hpair List.not_mem_nil, rfl⟩

/-- What the first configuration file gives when it is a mapping whose keys are texts, and nothing where
there is no such file. -/
def mappingOf (files : FileTree) : Option Fields :=
  match configPaths.find? files.isFile with
  | none => some []
  | some path =>
    (files.fileAt? path).bind fun file =>
      match documentOf file.content with
      | .ok (some (.mapping pairs)) =>
        if pairs.any (·.1 = .other) then none else some (Yaml.textFields pairs)
      | _ => none

/-- Without a configuration file, the mapping is empty. -/
theorem mappingOf_of_none {files : FileTree} (hpath : configPaths.find? files.isFile = none) :
    mappingOf files = some [] := by
  rw [mappingOf, hpath]

/-- A configuration file with a mapping gives its fields, without a note. -/
theorem gives_of_mappingOf {fields : Fields} (h : mappingOf w.files = some fields) : Gives w fields w := by
  rw [mappingOf] at h
  split at h
  · next hpath =>
    rw [← Option.some.inj h]
    exact gives_nothing (fileFields_of_none hpath)
  · next path hpath =>
    obtain ⟨file, hfile, hdocument⟩ := Option.bind_eq_some_iff.mp h
    split at hdocument
    · next pairs heq =>
      split at hdocument
      · cases hdocument
      · next hkeys =>
        refine ⟨pairs, fileFields_of_mapping hpath hfile heq, fun pair hpair hother => hkeys ?_,
          Option.some.inj hdocument⟩
        exact List.any_eq_true.mpr ⟨pair, hpair, decide_eq_true hother⟩
    · cases hdocument

/-- The warning about a configuration file can be rendered. -/
theorem renders_warning (hpath : path ∈ configPaths) {document : Option Yaml.Document}
    {message : String} (h : warning? path document = some message) :
    Terminal.Markup.Renders message := by
  unfold warning? at h
  split at h
  · obtain rfl := Option.some.inj h
    exact Terminal.Markup.ClosesNothing.renders (by decide +kernel)
  · split at h
    · cases h
    · obtain rfl := Option.some.inj h
      refine Terminal.Markup.ClosesNothing.renders ?_
      revert path
      decide +kernel
  · cases h

/-- The warning for a document, if it has one, is noted, which cannot fail. -/
theorem exists_warned (hpath : path ∈ configPaths) (document : Option Yaml.Document) (w : Workspace) :
    ∃ after, Warned path document w after := by
  have hsteady : Steady fun _ => True := ⟨fun _ _ _ _ => trivial, fun _ _ _ => trivial,
    fun _ _ _ => trivial, fun _ _ _ => trivial⟩
  unfold Warned
  cases hwarning : warning? path document with
  | none => exact ⟨w, rfl⟩
  | some message =>
    have hnever : Upholds (fun _ => True) (fun _ => False) (say configLogger (.warning message)) :=
      hsteady.say_of_renders _ (renders_warning hpath hwarning)
    rcases hrun : say configLogger (.warning message) w with ⟨fault | _, after⟩
    · exact (hnever.allowed_of_error trivial (congrArg Prod.fst hrun)).elim
    · exact ⟨after, hrun⟩

/-- A document that is no mapping gives nothing, and is warned of unless it is nothing at all. -/
theorem fileFields_of_other (hpath : configPaths.find? w.files.isFile = some path)
    (hfile : w.files.fileAt? path = some file) {document : Option Yaml.Document}
    (hdocument : documentOf file.content = .ok document)
    (hother : ∀ pairs, document ≠ some (.mapping pairs)) :
    ∃ after, Warned path document w after ∧ fileFields w = (.ok [], after) := by
  obtain ⟨after, hwarned⟩ := exists_warned (List.mem_of_find?_eq_some hpath) document w
  have hgives : (do
      if let some message := warning? path document then say configLogger (.warning message)
      return [] : Work (List (Yaml.Key × Value))) w = (.ok [], after) := by
    unfold Warned at hwarned
    cases hwarning : warning? path document with
    | none =>
      rw [hwarning] at hwarned
      rw [hwarned]
      rfl
    | some message =>
      rw [hwarning] at hwarned
      dsimp only at hwarned ⊢
      rw [Action.bind_apply, hwarned]
      rfl
  refine ⟨after, hwarned, ?_⟩
  rw [fileFields_of_some hpath hfile, hdocument]
  cases document with
  | none => exact hgives
  | some document =>
    cases document with
    | mapping pairs => exact absurd rfl (hother pairs)
    | other value => exact hgives
    | empty => exact hgives

end ClarityDelta.Config
