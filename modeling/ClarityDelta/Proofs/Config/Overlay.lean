import ClarityDelta.Config.Environment
import ClarityDelta.Proofs.Data.Fields

/-!
# Settings laid over each other

Laying settings over others is looked at place by place, a place being a field or a field of a section.
Where sections are objects and names are distinct, what the upper settings have at a place comes before
what the lower ones have there, whatever either has at other places: `valueAt_overlay`.
-/

namespace ClarityDelta.Config

open Data Fields

variable {lower upper fields : Fields} {name : String} {value : Value}

/-- Where an option stands: outside sections or in one of them. -/
structure Place where
  part : Option String
  name : String
  deriving DecidableEq, Repr

/-- The value at a place. -/
def valueAt (fields : Fields) (place : Place) : Option Value :=
  match place.part with
  | none => fields.get? place.name
  | some part =>
    match fields.get? part with
    | some (.object inner) => Fields.get? inner place.name
    | _ => none

/-- No object. -/
def IsLeaf (value : Value) : Prop :=
  ∀ inner, value ≠ .object inner

instance (value : Value) : Decidable (∃ inner, value = .object inner) :=
  match value with
  | .object inner => isTrue ⟨inner, rfl⟩
  | .null | .bool _ | .integer _ | .decimal _ | .text _ | .other | .list _ =>
    isFalse fun ⟨_, heq⟩ => nomatch heq

/-- The sections of settings are objects. -/
def Sectioned (fields : Fields) : Prop :=
  ∀ part ∈ sections, ∀ value ∈ fields.get? part.name, ∃ inner, value = .object inner

instance (fields : Fields) : Decidable (Sectioned fields) :=
  inferInstanceAs
    (Decidable (∀ part ∈ sections, ∀ value ∈ fields.get? part.name, ∃ inner, value = .object inner))

/-- The names of settings, and those in each of their sections, are distinct. -/
structure Distinct (fields : Fields) : Prop where
  names : (names fields).Nodup
  inner : ∀ part inner, fields.get? part = some (.object inner) → (Fields.names inner).Nodup

/-- Without fields, no name is given twice. -/
theorem distinct_nil : Distinct [] :=
  ⟨List.nodup_nil, fun _ _ hinner => by cases hinner⟩

/-- One section whose fields have different names gives no name twice. -/
theorem distinct_single {inner : Fields} (h : (Fields.names inner).Nodup) :
    Distinct [(name, .object inner)] where
  names := List.nodup_singleton name
  inner part other hother := by
    rw [get?_cons] at hother
    split at hother
    · exact Value.object.inj (Option.some.inj hother) ▸ h
    · cases hother

/-- What is no object takes the place of what was there. -/
theorem overlayValue_of_isLeaf (h : IsLeaf value) (lower : Option Value) :
    overlayValue lower value = value := by
  cases value with
  | object inner => exact absurd rfl (h inner)
  | _ => rfl

/-- A section is laid over a section, and in the place of anything else. -/
theorem overlayValue_object_cases (lower : Option Value) (inner : Fields) :
    (∃ below, lower = some (.object below) ∧
      overlayValue lower (.object inner) = .object (overlay below inner)) ∨
      (∀ below, lower ≠ some (.object below)) ∧ overlayValue lower (.object inner) = .object inner := by
  by_cases h : ∃ below, lower = some (.object below)
  · obtain ⟨below, rfl⟩ := h
    exact Or.inl ⟨below, rfl, by rw [overlayValue]⟩
  · have hne : ∀ below, lower ≠ some (.object below) := fun below heq => h ⟨below, heq⟩
    exact Or.inr ⟨hne, by rw [overlayValue]; exact hne⟩

/-- Fields laid over others with different names have different names. -/
theorem nodup_overlay (h : (names lower).Nodup) (upper : Fields) :
    (names (overlay lower upper)).Nodup := by
  induction upper generalizing lower with
  | nil => exact h
  | cons entry upper ih => exact ih (nodup_set h _ _)

/-- A name has the upper value laid over the lower one, or the lower one where there is no upper one. -/
theorem get?_overlay (h : (names upper).Nodup) (lower : Fields) (name : String) :
    (overlay lower upper).get? name =
      match upper.get? name with
      | some value => some (overlayValue (lower.get? name) value)
      | none => lower.get? name := by
  induction upper generalizing lower with
  | nil => rfl
  | cons entry upper ih =>
    obtain ⟨key, value⟩ := entry
    obtain ⟨hkey, hupper⟩ := List.nodup_cons.mp h
    rw [overlay, ih hupper, get?_set, get?_cons]
    by_cases hname : name = key
    · rw [if_pos hname, if_pos hname, hname, get?_eq_none_iff.mpr hkey]
    · rw [if_neg hname, if_neg hname]

/-- What the upper settings have under a name with a plain value comes first. -/
theorem get?_overlay_of_isLeaf (h : (names upper).Nodup) (lower : Fields)
    (hleaf : ∀ value, upper.get? name = some value → IsLeaf value) :
    (overlay lower upper).get? name = (upper.get? name).or (lower.get? name) := by
  rw [get?_overlay h]
  cases hvalue : upper.get? name with
  | none => rfl
  | some value =>
    dsimp only
    rw [overlayValue_of_isLeaf (hleaf value hvalue)]
    rfl

/-- No name is given twice by two layers, if none is given twice by each. -/
theorem distinct_overlay (hlower : Distinct lower) (hupper : Distinct upper) :
    Distinct (overlay lower upper) where
  names := nodup_overlay hlower.names upper
  inner part inner hinner := by
    rw [get?_overlay hupper.names] at hinner
    rcases hvalue : upper.get? part with _ | value
    · rw [hvalue] at hinner
      exact hlower.inner part inner hinner
    · rw [hvalue] at hinner
      dsimp only at hinner
      cases value with
      | object above =>
        obtain ⟨below, hbelow, heq⟩ | ⟨-, heq⟩ := overlayValue_object_cases (lower.get? part) above
        · obtain rfl := Value.object.inj (heq.symm.trans (Option.some.inj hinner))
          exact nodup_overlay (hlower.inner part below hbelow) above
        · obtain rfl := Value.object.inj (heq.symm.trans (Option.some.inj hinner))
          exact hupper.inner part above hvalue
      | _ => cases hinner

/-- The sections of two layers are objects, if those of each are. -/
theorem sectioned_overlay (hlower : Sectioned lower) (hupper : Sectioned upper)
    (hnames : (names upper).Nodup) : Sectioned (overlay lower upper) := by
  intro part hpart value hvalue
  rw [get?_overlay hnames] at hvalue
  rcases habove : upper.get? part.name with _ | above
  · rw [habove] at hvalue
    exact hlower part hpart value hvalue
  · rw [habove] at hvalue
    obtain ⟨inner, rfl⟩ := hupper part hpart above habove
    obtain ⟨below, -, heq⟩ | ⟨-, heq⟩ := overlayValue_object_cases (lower.get? part.name) inner
    · exact ⟨_, (Option.some.inj hvalue).symm.trans heq⟩
    · exact ⟨_, (Option.some.inj hvalue).symm.trans heq⟩

/-- At each place the upper settings come first, and the lower ones count where those have nothing. -/
theorem valueAt_overlay (hlower : Sectioned lower) (hupper : Sectioned upper)
    (hdistinct : Distinct upper) {place : Place}
    (hpart : ∀ part ∈ place.part, part ∈ sections.map (·.name))
    (hleaf : ∀ value, valueAt upper place = some value → IsLeaf value) :
    valueAt (overlay lower upper) place = (valueAt upper place).or (valueAt lower place) := by
  obtain ⟨part, name⟩ := place
  cases part with
  | none => exact get?_overlay_of_isLeaf hdistinct.names lower hleaf
  | some part =>
    obtain ⟨known, hknown, rfl⟩ := List.mem_map.mp (hpart part rfl)
    simp only [valueAt] at hleaf ⊢
    rw [get?_overlay hdistinct.names]
    cases habove : upper.get? known.name with
    | none => rfl
    | some above =>
      obtain ⟨inner, rfl⟩ := hupper known hknown above habove
      rw [habove] at hleaf
      dsimp only at hleaf ⊢
      obtain ⟨below, hbelow, heq⟩ | ⟨hnone, heq⟩ :=
        overlayValue_object_cases (lower.get? known.name) inner
      · rw [heq, hbelow]
        exact get?_overlay_of_isLeaf (hdistinct.inner known.name inner habove) below hleaf
      · -- a lower section that is there would be an object
        have habsent : lower.get? known.name = none := by
          cases hbelow : lower.get? known.name with
          | none => rfl
          | some below =>
            obtain ⟨innerBelow, rfl⟩ := hlower known hknown below hbelow
            exact absurd hbelow (hnone innerBelow)
        rw [heq, habsent]
        exact (Option.or_none).symm

end ClarityDelta.Config
