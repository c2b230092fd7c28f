import ClarityDelta.Data.Value

/-!
# Merging settings

Sources of settings are laid over each other field by field: where both give a section, the sections
are laid over each other, and otherwise the upper source wins.
-/

namespace ClarityDelta.Config

open Data

mutual

/-- The fields of a source with those of an upper one laid over them. -/
def overlay (lower : Fields) : (upper : Fields) → Fields
  | [] => lower
  | (name, value) :: rest =>
    overlay (lower.set name (overlayValue (lower.get? name) value)) rest

/-- The value of a field that the upper source gives. -/
def overlayValue (lower : Option Value) : (upper : Value) → Value
  | .object upper =>
    match lower with
    | some (.object lower) => .object (overlay lower upper)
    | _ => .object upper
  | upper => upper

end

end ClarityDelta.Config
