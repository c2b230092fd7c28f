import ClarityDelta.Proofs.Config.Layers
import ClarityDelta.Proofs.Data.Yaml.Refusal

/-!
# Configuration files of any content

Most of what may stand in a configuration file keeps nothing from being loaded: a mapping is what the
file gives, and any other content gives nothing, so that all options have their defaults where nothing
else is said of them. Reading stops at bytes that are no text and at a scalar without a value. A mapping
with a key that is no text is read, but no settings are built with it: `fileFields_of_content`.
-/

namespace ClarityDelta.Config

open Data Fields Files Text

variable {w : Workspace} {path : String} {file : RegularFile} {content : ByteArray} {fault : Fault}
  {environment : List (String × String)}

/-! ## Contents that are refused -/

/-- The bytes are no text, or something in the text has no value. -/
inductive RefusedContent (content : ByteArray) : Fault → Prop
  | notText {cause} : Utf8.decode content = .error cause → RefusedContent content (.undecodable cause)
  | noValue {text cause} : Utf8.decode content = .ok text →
      Yaml.RefusedText cause (String.ofList (normalizeLineEnds text.toList)) →
        RefusedContent content (.scalar cause)

/-- A content that has no document is refused for that fault. -/
theorem refused_of_documentOf (h : documentOf content = .error fault) :
    RefusedContent content fault := by
  rw [documentOf] at h
  cases hdecode : Utf8.decode content with
  | error cause =>
    rw [hdecode] at h
    exact Except.error.inj h ▸ .notText hdecode
  | ok text =>
    rw [hdecode] at h
    dsimp only at h
    cases hdocument : Yaml.document (String.ofList (normalizeLineEnds text.toList)) with
    | ok document =>
      rw [hdocument] at h
      cases h
    | error refusal =>
      rw [hdocument] at h
      cases refusal with
      | illFormed => cases h
      | scalar cause => exact Except.error.inj h ▸ .noValue hdecode (Yaml.refused_of_document hdocument)

/-! ## Nothing but the file -/

/-- No variable of the environment is one of the program. -/
def Unset (environment : List (String × String)) : Prop :=
  ∀ entry ∈ environment, ¬ variableStem.toList <+: (lowered entry.1).toList

instance (environment : List (String × String)) : Decidable (Unset environment) :=
  inferInstanceAs (Decidable (∀ entry ∈ environment, ¬ variableStem.toList <+: (lowered entry.1).toList))

/-- No variable of an unset environment begins as the program's variables do. -/
theorem Unset.not_stem (h : Unset environment) {entry : String × String}
    (hentry : entry ∈ foldCase environment) : ¬ variableStem.toList <+: entry.1.toList := by
  obtain ⟨original, horiginal, heq⟩ :=
    (foldCase_names environment).2 entry.1 (List.mem_map_of_mem hentry)
  rw [heq]
  exact h original horiginal

/-- No variable of the program is found in an unset environment. -/
theorem Unset.lookup_eq_none (h : Unset environment) {name : String}
    (hname : variableStem.toList <+: name.toList) : (foldCase environment).lookup name = none := by
  cases hlookup : (foldCase environment).lookup name with
  | none => rfl
  | some text =>
    exact absurd hname (h.not_stem (mem_of_lookup hlookup))

/-- The variables of all leaves begin alike. -/
theorem stem_begins_variableOf (place : Place) : variableStem.toList <+: (variableOf place).toList := by
  unfold variableOf
  split
  · exact ⟨_, (String.toList_append ..).symm⟩
  · simp only [String.toList_append, List.append_assoc]
    exact List.prefix_append _ _

/-- An unset environment is well written. -/
theorem Unset.wellWritten (h : Unset environment) : WellWritten (foldCase environment) where
  whole part _ text htext := by
    rw [h.lookup_eq_none ⟨part.name.toList, (String.toList_append ..).symm⟩] at htext
    cases htext
  lists part _ name _ text htext := by
    rw [h.lookup_eq_none (stem_begins_variableOf _)] at htext
    cases htext
  below part _ name _ entry hentry hreaches :=
    absurd ((stem_begins_variableOf _).trans ((List.prefix_append _ _).trans hreaches))
      (h.not_stem hentry)

/-- An unset environment gives no leaf a value. -/
theorem Unset.environmentValue_eq_none (h : Unset environment) (place : Place) :
    environmentValue (foldCase environment) place = none := by
  have hown : ownValue (foldCase environment) place = none := by
    rw [ownValue, h.lookup_eq_none (stem_begins_variableOf place)]
    rfl
  unfold environmentValue
  cases place.part with
  | none => exact hown
  | some part =>
    have hwhole : wholeFields (foldCase environment) part = [] := by
      rw [wholeFields, h.lookup_eq_none ⟨part.toList, (String.toList_append ..).symm⟩]
      rfl
    dsimp only
    rw [hown, hwhole]
    rfl

/-- Without fields, no leaf has a value. -/
theorem valueAt_nil (place : Place) : valueAt [] place = none := by
  unfold valueAt
  split
  · rfl
  · rfl

/-- Where nothing is said of any option, each has its default. -/
theorem load_defaults (h : Unset w.environment) {after : Workspace}
    (hfile : fileFields w = (.ok [], after)) : ∃ settings, load [] w = (.ok settings, after) ∧
      ∀ option ∈ options, option.leaf.get settings = option.leaf.default := by
  have hnothing : ∀ place, firstValue [] [] (foldCase w.environment) place = none := fun place => by
    rw [firstValue, valueAt_nil, h.environmentValue_eq_none]
    rfl
  have hsections : Sectioned [] := by decide
  obtain ⟨settings, hload, hall⟩ := load_eq hsections distinct_nil h.wellWritten (gives_nothing hfile) hsections
    fun option _ => ⟨option.leaf.default, by rw [hnothing]; rfl⟩
  refine ⟨settings, hload, fun option hoption => ?_⟩
  have hvalue := hall option hoption
  rw [hnothing] at hvalue
  exact (Checked.valid.inj hvalue).symm

/-! ## Any content -/

/-- A configuration file that breaks off inside a list. -/
def brokenFile : Workspace :=
  configured [] (some "base_ref: [".toUTF8)

/-- A configuration file of one byte that begins no character. -/
def strayByte : Workspace :=
  configured [] (some ⟨#[0xFF]⟩)

end ClarityDelta.Config
