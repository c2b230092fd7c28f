import ClarityDelta.Data.Checked
import ClarityDelta.Proofs.Data.Json.ReadBack
import ClarityDelta.Report.Sarif

/-!
# What a document of findings tells

A document of findings is read by following names and indices from its root. Every finding comes out
of it again as it went in, and so do the name and the version of the tool; its text holds the
document, so the text loses nothing either: `Sarif.text_recovers`. There is a text as long as no number
has too many digits to be printed.
-/

namespace ClarityDelta

open Data Text

namespace Data.Value

/-- The part of a value that a way leads to. -/
def part? : List Step → Value → Option Value
  | [], v => some v
  | .field name :: way, .object fields => (Fields.get? fields name).bind (part? way)
  | .item index :: way, .list items => items[index]?.bind (part? way)
  | _, _ => none

/-- The text that a value is. -/
def text? : Value → Option String
  | .text s => some s
  | _ => none

/-- The natural number that a value is. -/
def natural? : Value → Option Nat
  | .integer (.ofNat n) => some n
  | _ => none

/-- The list that a value is. -/
def items? : Value → Option (List Value)
  | .list items => some items
  | _ => none

end Data.Value

namespace Report

/-- Whether the numbers of a finding are within the limit on the digits of a number. -/
def Finding.Fits (limit : Option Nat) (finding : Finding) : Prop :=
  ∀ n ∈ finding.line :: finding.column.toList, limit.all ((Text.decimal n).length ≤ ·) = true

instance (limit : Option Nat) (finding : Finding) : Decidable (finding.Fits limit) :=
  inferInstanceAs (Decidable (∀ n ∈ _, _))

namespace Sarif

/-! ## Reading a document -/

/-- The way from a result to the place of its failure. -/
def placeWay : List Step :=
  [.field "locations", .item 0, .field "physicalLocation"]

/-- The line that a result is shown at. -/
def startLine? (result : Value) : Option Nat :=
  (result.part? (placeWay ++ [.field "region", .field "startLine"])).bind Value.natural?

/-- The column that a result is shown at, if it has one. -/
def startColumn? (result : Value) : Option Nat :=
  (result.part? (placeWay ++ [.field "region", .field "startColumn"])).bind Value.natural?

/-- The rule that a result refers to. -/
def ruleId? (result : Value) : Option String :=
  (result.part? [.field "ruleId"]).bind Value.text?

/-- The file that a result is about. -/
def file? (result : Value) : Option String :=
  (result.part? (placeWay ++ [.field "artifactLocation", .field "uri"])).bind Value.text?

/-- The finding that a result tells. -/
def finding? (result : Value) : Option Finding := do
  return {
    ruleId := ← ruleId? result
    message := ← (result.part? [.field "message", .field "text"]).bind Value.text?
    file := ← file? result
    line := ← startLine? result
    column := startColumn? result }

/-- The way from a document to its only run. -/
def runWay : List Step :=
  [.field "runs", .item 0]

/-- The results of a document. -/
def results? (document : Value) : Option (List Value) :=
  (document.part? (runWay ++ [.field "results"])).bind Value.items?

/-- A text that a document tells about its tool. -/
def tool? (name : String) (document : Value) : Option String :=
  (document.part? (runWay ++ [.field "tool", .field "driver", .field name])).bind Value.text?

/-- The rules that a document lists. -/
def rules? (document : Value) : Option (List Value) :=
  (document.part? (runWay ++ [.field "tool", .field "driver", .field "rules"])).bind Value.items?

/-- What a document is made from: its findings, and the name and the version of its tool. -/
def contents? (document : Value) : Option (List Finding × String × String) := do
  let findings ← (← results? document).mapM finding?
  return (findings, ← tool? "name" document, ← tool? "version" document)

/-- A finding is got back from its result. -/
theorem finding?_result (finding : Finding) : finding? (result finding) = some finding := by
  obtain ⟨ruleId, message, file, line, column⟩ := finding
  cases column <;> rfl

/-- The results of a document are those of its findings, in order. -/
theorem results?_document (findings : List Finding) (tool version : String) :
    results? (document findings tool version) = some (findings.map result) := rfl

/-- A document lists all rules. -/
theorem rules?_document (findings : List Finding) (tool version : String) :
    rules? (document findings tool version) = some (Rule.all.map rule) := rfl

/-- A document names its tool and the version. -/
theorem tool?_document (findings : List Finding) (tool version : String) :
    tool? "name" (document findings tool version) = some tool ∧
      tool? "version" (document findings tool version) = some version := ⟨rfl, rfl⟩

/-- The findings, the tool and the version are got back from a document. -/
theorem contents?_document (findings : List Finding) (tool version : String) :
    contents? (document findings tool version) = some (findings, tool, version) := by
  have hfindings : (findings.map result).mapM finding? = some findings := by
    induction findings with
    | nil => rfl
    | cons finding findings ih =>
      rw [List.map_cons, List.mapM_cons, finding?_result, ih]
      rfl
  obtain ⟨htool, hversion⟩ := tool?_document findings tool version
  rw [contents?, results?_document, htool, hversion, Option.bind_eq_bind, Option.bind_some,
    hfindings]
  rfl

/-! ## The text of a document -/

variable {limit : Option Nat}

/-- A message is plain. -/
theorem plain_message (s : String) : (message s).Plain limit :=
  .object (by simp) (List.forall_mem_singleton.mpr (.text s))

/-- A rule is plain. -/
theorem plain_rule (r : Rule) : (rule r).Plain limit := by
  refine .object (by simp) ?_
  simp only [List.forall_mem_cons]
  exact ⟨.text _, plain_message _, plain_message _, List.forall_mem_nil _⟩

/-- The region of a finding whose numbers fit is plain. -/
theorem plain_region {finding : Finding} (h : finding.Fits limit) :
    (region finding.line finding.column).Plain limit := by
  have hline : (Value.natural finding.line).Plain limit :=
    .integer (h finding.line List.mem_cons_self)
  cases hcolumn : finding.column with
  | none => exact .object (by simp) (List.forall_mem_singleton.mpr hline)
  | some column =>
    have hmem : column ∈ finding.line :: finding.column.toList := by simp [hcolumn]
    refine .object (by simp) ?_
    simp only [Option.map_some, Option.toList_some, List.forall_mem_cons]
    exact ⟨hline, .integer (h column hmem), List.forall_mem_nil _⟩

/-- The result of a finding whose numbers fit is plain. -/
theorem plain_result {finding : Finding} (h : finding.Fits limit) :
    (result finding).Plain limit := by
  have hfile : (Value.object [("uri", .text finding.file)]).Plain limit :=
    .object (by simp) (List.forall_mem_singleton.mpr (.text _))
  have hplace : (Value.object [("artifactLocation", .object [("uri", .text finding.file)]),
      ("region", region finding.line finding.column)]).Plain limit := by
    refine .object (by simp) ?_
    simp only [List.forall_mem_cons]
    exact ⟨hfile, plain_region h, List.forall_mem_nil _⟩
  have hlocation : (Value.list [.object [("physicalLocation", .object [
      ("artifactLocation", .object [("uri", .text finding.file)]),
      ("region", region finding.line finding.column)])]]).Plain limit :=
    .list (List.forall_mem_singleton.mpr
      (.object (by simp) (List.forall_mem_singleton.mpr hplace)))
  refine .object (by simp) ?_
  simp only [List.forall_mem_cons]
  exact ⟨.text _, .text _, plain_message _, hlocation, List.forall_mem_nil _⟩

/-- The document of findings whose numbers fit is plain. -/
theorem plain_document {findings : List Finding} (h : ∀ finding ∈ findings, finding.Fits limit)
    (tool version : String) : (document findings tool version).Plain limit := by
  have hrules : (Value.list (Rule.all.map rule)).Plain limit :=
    .list (List.forall_mem_map.mpr fun r _ => plain_rule r)
  have hresults : (Value.list (findings.map result)).Plain limit :=
    .list (List.forall_mem_map.mpr fun finding hfinding => plain_result (h finding hfinding))
  have hdriver : (Value.object [("name", .text tool), ("version", .text version),
      ("rules", .list (Rule.all.map rule))]).Plain limit := by
    refine .object (by simp) ?_
    simp only [List.forall_mem_cons]
    exact ⟨.text _, .text _, hrules, List.forall_mem_nil _⟩
  have hrun : (Value.object [("tool", .object [("driver", .object [("name", .text tool),
      ("version", .text version), ("rules", .list (Rule.all.map rule))])]),
      ("results", .list (findings.map result))]).Plain limit := by
    refine .object (by simp) ?_
    simp only [List.forall_mem_cons]
    exact ⟨.object (by simp) (List.forall_mem_singleton.mpr hdriver), hresults,
      List.forall_mem_nil _⟩
  refine .object (by simp) ?_
  simp only [List.forall_mem_cons]
  exact ⟨.text _, .text _, .list (List.forall_mem_singleton.mpr hrun), List.forall_mem_nil _⟩

/-- Texts with the same bytes are the same. -/
theorem eq_of_toUTF8_eq {s t : String} (h : s.toUTF8 = t.toUTF8) : s = t :=
  String.toByteArray_inj.mp h

/-! ## Documents that are printed -/

/-- A message has no numbers. -/
theorem checkNumbers_message (s : String) : Json.checkNumbers (message s) = .ok () := rfl

/-- A rule has no numbers. -/
theorem checkNumbers_rule (r : Rule) : Json.checkNumbers (rule r) = .ok () := rfl

/-- A result is printed exactly if its line and its column have few enough digits. -/
theorem checkNumbers_result_iff (finding : Finding) :
    Json.checkNumbers (result finding) = .ok () ↔ finding.Fits (some maxDigits) := by
  have hregion : Json.checkNumbers (region finding.line finding.column) = .ok () ↔
      finding.Fits (some maxDigits) := by
    rw [region, Json.checkNumbers, Json.checkFields_eq_ok_iff, Finding.Fits]
    cases finding.column <;>
      simp [Value.natural, Json.checkNumbers, checkDigits_eq_ok_iff]
  rw [← hregion, result]
  simp only [Json.checkNumbers, Json.checkFields_eq_ok_iff, Json.checkItems_eq_ok_iff,
    List.forall_mem_cons, List.not_mem_nil, IsEmpty.forall_iff, implies_true, and_true, true_and,
    checkNumbers_message]

/-- A document has a text exactly if all numbers of its findings have few enough digits. -/
theorem text_eq_ok_iff {findings : List Finding} {tool version s : String} :
    text findings tool version = .ok s ↔ (∀ finding ∈ findings, finding.Fits (some maxDigits)) ∧
      s = String.ofList (Json.pretty 0 (document findings tool version)) := by
  have hdocument : Json.checkNumbers (document findings tool version) = .ok () ↔
      ∀ finding ∈ findings, finding.Fits (some maxDigits) := by
    rw [document]
    simp only [Json.checkNumbers, Json.checkFields_eq_ok_iff, Json.checkItems_eq_ok_iff,
      List.forall_mem_cons, List.not_mem_nil, IsEmpty.forall_iff, implies_true, and_true, true_and,
      List.forall_mem_map, checkNumbers_rule, checkNumbers_result_iff]
  rw [text, Json.document_eq_ok_iff, hdocument]

/-- The text of a document holds it, for readers with the same limit on digits and for those without
one. -/
theorem readWithin?_text {findings : List Finding} {tool version s : String}
    (h : text findings tool version = .ok s) (hlimit : limit = none ∨ limit = some maxDigits) :
    Json.readWithin? limit s = some (document findings tool version) := by
  obtain ⟨hfits, rfl⟩ := text_eq_ok_iff.mp h
  refine Json.readWithin?_pretty (plain_document (fun finding hfinding => ?_) tool version)
  rcases hlimit with rfl | rfl
  · exact fun _ _ => rfl
  · exact hfits finding hfinding

/-- Findings have a text exactly if none of their numbers has too many digits. The text holds the document
of the findings, and the document tells what it was made from. So two different contents never have the
same text, nor the same bytes. -/
theorem text_recovers (findings : List Finding) (tool version : String) :
    ((∃ s, text findings tool version = .ok s) ↔
      ∀ finding ∈ findings, finding.Fits (some maxDigits)) ∧
    ∀ s, text findings tool version = .ok s →
      Json.readWithin? none s = some (document findings tool version) ∧
      Json.read? s = some (document findings tool version) ∧
      contents? (document findings tool version) = some (findings, tool, version) ∧
      ∀ others otherTool otherVersion other, text others otherTool otherVersion = .ok other →
        s.toUTF8 = other.toUTF8 → findings = others ∧ tool = otherTool ∧ version = otherVersion := by
  refine ⟨⟨fun ⟨s, hs⟩ => (text_eq_ok_iff.mp hs).1, fun h => ⟨_, text_eq_ok_iff.mpr ⟨h, rfl⟩⟩⟩, ?_⟩
  intro s hs
  refine ⟨readWithin?_text hs (Or.inl rfl), readWithin?_text hs (Or.inr rfl),
    contents?_document findings tool version, ?_⟩
  intro others otherTool otherVersion other hother hbytes
  obtain rfl : s = other := eq_of_toUTF8_eq hbytes
  -- equal texts hold one document, and a document was made from one contents only
  have hdocument : document findings tool version = document others otherTool otherVersion := by
    rw [← Option.some_inj, ← readWithin?_text hs (Or.inl rfl), readWithin?_text hother (Or.inl rfl)]
  have hcontents : some (findings, tool, version) = some (others, otherTool, otherVersion) := by
    rw [← contents?_document, ← contents?_document, hdocument]
  simpa using hcontents

/-- Two findings, one without a column, are recovered although their messages hold a quote, a backslash
and control characters. -/
theorem text_recovers_controlCharacters :
    let findings : List Finding :=
      [⟨"clarity-verify-assertion", "\"\\\n\x01", "a.clar", 3, none⟩,
        ⟨"clarity-verify-overflow", "\t\x7f", "ä.clar", 12, some 1⟩]
    ∃ s, text findings "check" "0.1" = .ok s ∧
      Json.read? s = some (document findings "check" "0.1") := by
  intro findings
  have hfits : ∀ finding ∈ findings, finding.Fits (some maxDigits) := by decide +kernel
  obtain ⟨s, hs⟩ := (text_recovers findings "check" "0.1").1.mpr hfits
  exact ⟨s, hs, ((text_recovers findings "check" "0.1").2 s hs).2.1⟩

/-- A finding on a line whose number has one digit more than is printed. -/
def farFinding : Finding :=
  ⟨"clarity-verify-assertion", "m", "a.clar", 10 ^ maxDigits, none⟩

/-- Such a finding has no text, so it cannot be read back either. -/
theorem text_farFinding : ¬ ∃ s, text [farFinding] "check" "0.1" = .ok s := by
  rintro ⟨s, hs⟩
  have hfits := (text_eq_ok_iff.mp hs).1 farFinding (List.mem_singleton.mpr rfl)
  have hline := hfits (10 ^ maxDigits) List.mem_cons_self
  rw [Option.all_some, decide_eq_true_eq, length_decimal_pow] at hline
  exact absurd hline (Nat.not_succ_le_self maxDigits)

end Sarif

end Report

end ClarityDelta
