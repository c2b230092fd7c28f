import Mathlib.Data.List.Basic
import ClarityDelta.Text.Encoding

/-!
# Texts that have bytes

Texts are lists of code points, each given in just one way, `existsUnique_points`. A text is encoded when
all its code points are characters, `encode_eq_ok_iff`. Otherwise the fault tells the first surrogate: its
code, its position, and how many surrogates stand together there, `encode_eq_error_iff`.
-/

namespace ClarityDelta.Text.CodeText

variable {text : CodeText}

/-- The code points from the first surrogate on. -/
def brokenPoints : Option (Fin 2048 × List CodePoint) → List CodePoint
  | none => []
  | some (index, rest) => .surrogate index :: rest

/-- The code points of a text. -/
def points (text : CodeText) : List CodePoint :=
  text.characters.toList.map .char ++ brokenPoints text.broken

/-- Characters and what follows them are told apart at the first surrogate. -/
theorem split_unique {cs ds : List Char} {broken other : Option (Fin 2048 × List CodePoint)}
    (h : cs.map .char ++ brokenPoints broken = ds.map .char ++ brokenPoints other) :
    cs = ds ∧ broken = other := by
  induction cs generalizing ds with
  | nil =>
    cases ds with
    | nil => rcases broken with _ | ⟨index, rest⟩ <;> rcases other with _ | ⟨index', rest'⟩ <;>
        simp_all [brokenPoints]
    | cons d ds => rcases broken with _ | ⟨index, rest⟩ <;> simp [brokenPoints] at h
  | cons c cs ih =>
    cases ds with
    | nil => rcases other with _ | ⟨index, rest⟩ <;> simp [brokenPoints] at h
    | cons d ds =>
      obtain ⟨hchar, hrest⟩ := List.cons_eq_cons.mp h
      obtain ⟨rfl, rfl⟩ := ih hrest
      exact ⟨congrArg (· :: cs) (CodePoint.char.inj hchar), rfl⟩

/-- Every list of code points is just one text. -/
theorem existsUnique_points (codes : List CodePoint) : ∃! text : CodeText, text.points = codes := by
  have hexists : ∃ (cs : List Char) (broken : Option (Fin 2048 × List CodePoint)),
      cs.map .char ++ brokenPoints broken = codes := by
    induction codes with
    | nil => exact ⟨[], none, rfl⟩
    | cons code codes ih =>
      cases code with
      | surrogate index => exact ⟨[], some (index, codes), rfl⟩
      | char c =>
        obtain ⟨cs, broken, rfl⟩ := ih
        exact ⟨c :: cs, broken, rfl⟩
  obtain ⟨cs, broken, hcodes⟩ := hexists
  refine ⟨⟨String.ofList cs, broken⟩, ?_, fun other hother => ?_⟩
  · show (String.ofList cs).toList.map .char ++ brokenPoints broken = codes
    rw [String.toList_ofList, hcodes]
  · obtain ⟨characters, broken'⟩ := other
    obtain ⟨rfl, rfl⟩ := split_unique (Eq.trans hother hcodes.symm)
    rw [String.ofList_toList]

/-- The fault of a text that has a surrogate behind some characters. -/
def faultAt (characters : String) (index : Fin 2048) (rest : List CodePoint) : EncodeFault :=
  ⟨0xD800 + index.val, characters.length, 1 + (rest.takeWhile (·.isSurrogate)).length⟩

/-- A text of characters has their bytes. -/
theorem encode_ofString (s : String) : (ofString s).encode = .ok s.toUTF8 := rfl

/-- Just the texts of characters are encoded, each as its characters. -/
theorem encode_eq_ok_iff {content : ByteArray} :
    text.encode = .ok content ↔ ∃ s : String, text = ofString s ∧ content = s.toUTF8 := by
  constructor
  · intro h
    obtain ⟨characters, _ | ⟨index, rest⟩⟩ := text
    · exact ⟨characters, rfl, (Except.ok.inj h).symm⟩
    · cases h
  · rintro ⟨s, rfl, rfl⟩
    rfl

/-- Just the texts with a surrogate are refused, each for its first one. -/
theorem encode_eq_error_iff {fault : EncodeFault} :
    text.encode = .error fault ↔ ∃ (characters : String) (index : Fin 2048) (rest : List CodePoint),
      text = ⟨characters, some (index, rest)⟩ ∧ fault = faultAt characters index rest := by
  constructor
  · intro h
    obtain ⟨characters, _ | ⟨index, rest⟩⟩ := text
    · cases h
    · exact ⟨characters, index, rest, rfl, (Except.error.inj h).symm⟩
  · rintro ⟨characters, index, rest, rfl, rfl⟩
    rfl

end ClarityDelta.Text.CodeText
