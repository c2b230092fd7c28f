import Mathlib.Data.List.Forall2
import ClarityDelta.Proofs.Outcome
import ClarityDelta.Proofs.Report.Document
import ClarityDelta.Proofs.Verification.LineNumbers
import ClarityDelta.Record.Fields
import ClarityDelta.Report.Summary

/-!
# Findings, document and summary side by side

The failures of a run are shown three times: as findings, as results of a document, and as entries of
a summary. The three are laid side by side here, one section for each function that is not verified:
the same failures in the same order, under the same rules and at the same lines, `reports_agree`. There is
no summary when a line number has too many digits to be printed.
-/

namespace ClarityDelta.Report

open Data Text Verification

/-! ## Findings -/

/-- A finding shows a failure of a file. -/
structure Finding.Shows (file : String) (failure : FailureRecord) (finding : Finding) : Prop where
  file_eq : finding.file = file
  ruleId_eq : finding.ruleId = (Rule.ofTitle failure.title).id
  message_eq : finding.message =
    s!"Verification failed in function '{failure.functionName}': {failure.failingCode}"
  column_eq : finding.column = some 1
  one_le_line : 1 ≤ finding.line
  line_eq : 0 < failure.lineNumber → (finding.line : Int) = failure.lineNumber

namespace Finding

/-- A finding is on the first line or a later one. -/
theorem one_le_lineOf (n : Int) : 1 ≤ lineOf n := by
  unfold lineOf
  split <;> omega

/-- The finding of a failure shows it. -/
theorem shows_ofFailure (file : String) (failure : FailureRecord) :
    (ofFailure file failure).Shows file failure where
  file_eq := rfl
  ruleId_eq := rfl
  message_eq := rfl
  column_eq := rfl
  one_le_line := one_le_lineOf failure.lineNumber
  line_eq := by
    intro hpos
    show ((lineOf failure.lineNumber : Nat) : Int) = failure.lineNumber
    rw [lineOf, if_pos hpos, Int.toNat_of_nonneg (by omega)]

/-- The record of a finding takes every finding whose line and column count from 1. -/
theorem check_fields {finding : Finding} (hline : 1 ≤ finding.line)
    (hcolumn : ∀ column ∈ finding.column, 1 ≤ column) :
    check finding.fields = .valid finding := by
  have hvalid : (Value.option .natural finding.column).asOption (Value.asIntFrom 1) =
      .valid finding.column := by
    cases hc : finding.column with
    | none => rfl
    | some column =>
      show ((Value.natural column).asIntFrom 1).map some = _
      rw [Value.asIntFrom_natural (hcolumn column hc)]
      rfl
  simp [check, fields, Fields.required, Fields.optional, Fields.get?, List.lookup_cons,
    Value.asText, Value.asIntFrom_natural hline, hvalid, Checked.within, Functor.map, Seq.seq,
    Checked.map, Checked.both]

end Finding

/-! ## Sections -/

/-- A function that is not verified, each of its failures with its finding. -/
structure FailedSection where
  result : VerificationResult
  shown : List (FailureRecord × Finding)
  not_verified : result.verified = false
  failures_eq : shown.map (·.1) = result.failures
  shows : ∀ pair ∈ shown, pair.2.Shows result.file pair.1

namespace FailedSection

/-- The section of a result that is not verified. -/
def ofResult (result : VerificationResult) (h : result.verified = false) : FailedSection where
  result := result
  shown := result.failures.map fun failure => (failure, Finding.ofFailure result.file failure)
  not_verified := h
  failures_eq := by rw [List.map_map]; exact List.map_id result.failures
  shows := by
    intro pair hpair
    obtain ⟨failure, -, rfl⟩ := List.mem_map.mp hpair
    exact Finding.shows_ofFailure result.file failure

/-- The sections of results, none for those that are verified. -/
def ofResults : List VerificationResult → List FailedSection
  | [] => []
  | result :: results =>
    if h : result.verified = false then ofResult result h :: ofResults results
    else ofResults results

/-- The findings of a section. -/
def findings (part : FailedSection) : List Finding :=
  part.shown.map (·.2)

/-- The entry of a failure in a summary, under the rule of its finding and at the finding's line. -/
def entry (failure : FailureRecord) (finding : Finding) : String :=
  let line := if 0 < failure.lineNumber then toString finding.line else "unknown"
  s!"- **{failure.title}** (`{finding.ruleId}`) at line {line}\n"
    ++ s!"  `{failure.failingCode}`\n\n"

/-- The text of a section in a summary: a heading, and an entry for each failure. -/
def text (part : FailedSection) : String :=
  s!"### Function: `{part.result.functionName}` in `{Summary.baseName part.result.file}`\n\n"
    ++ String.join (part.shown.map fun pair => entry pair.1 pair.2)

/-- There is one section for each result that is not verified, in order. -/
theorem map_result_ofResults (results : List VerificationResult) :
    (ofResults results).map (·.result) = results.filter (!·.verified) := by
  induction results with
  | nil => rfl
  | cons result results ih =>
    rw [ofResults]
    split
    · next h => rw [List.map_cons, ih, List.filter_cons, h]; rfl
    · next h => rw [Bool.not_eq_false] at h; rw [ih, List.filter_cons, h]; rfl

/-- The findings of a section are those of its result. -/
theorem findings_ofResult (result : VerificationResult) (h : result.verified = false) :
    (ofResult result h).findings = Finding.ofResult result := by
  rw [findings, ofResult, List.map_map, Finding.ofResult, h]
  rfl

/-- The findings of all sections are those of all results. -/
theorem flatMap_findings_ofResults (results : List VerificationResult) :
    (ofResults results).flatMap findings = Finding.ofResults results := by
  induction results with
  | nil => rfl
  | cons result results ih =>
    rw [ofResults, Finding.ofResults, List.flatMap_cons]
    split
    · next h => rw [List.flatMap_cons, ih, findings_ofResult]; rfl
    · next h =>
      rw [Bool.not_eq_false] at h
      rw [ih, Finding.ofResult, h]
      rfl

/-- A failure has the same entry in a summary, whether it is made of itself or of its finding, as long as
its line number can be printed. -/
theorem entry_eq_ok_iff {file : String} {failure : FailureRecord} {finding : Finding} {s : String}
    (h : finding.Shows file failure) :
    Summary.entry failure = .ok s ↔ failure.LineFits ∧ s = entry failure finding := by
  have hok (hfits : failure.LineFits) : Summary.entry failure = .ok (entry failure finding) := by
    rw [Summary.entry, Summary.lineText, entry, h.ruleId_eq]
    by_cases hpos : 0 < failure.lineNumber
    · have hline : failure.lineNumber.toNat = finding.line := by
        rw [← h.line_eq hpos]
        exact Int.toNat_natCast finding.line
      rw [if_pos hpos, printed_eq_ok_iff.mpr ⟨hfits hpos, rfl⟩, hline, if_pos hpos]
      rfl
    · rw [if_neg hpos, if_neg hpos]
      rfl
  constructor
  · intro heq
    have hfits : failure.LineFits := by
      intro hpos
      obtain ⟨shown, hshown, -⟩ := bind_eq_ok heq
      rw [Summary.lineText, if_pos hpos] at hshown
      exact (printed_eq_ok_iff.mp hshown).1
    exact ⟨hfits, Except.ok.inj (heq.symm.trans (hok hfits))⟩
  · rintro ⟨hfits, rfl⟩
    exact hok hfits

/-- A section has the same text in a summary, as long as its line numbers can be printed. -/
theorem resultSection_eq_ok_iff (part : FailedSection) {s : String} :
    Summary.resultSection part.result = .ok s ↔ part.result.LinesFit ∧ s = part.text := by
  have hentries : ∀ {entries : List String}, part.result.failures.mapM Summary.entry = .ok entries ↔
      part.result.LinesFit ∧ entries = part.shown.map fun pair => entry pair.1 pair.2 := by
    intro entries
    rw [VerificationResult.LinesFit, ← part.failures_eq, List.mapM_map, List.forall_mem_map]
    exact mapM_eq_ok_iff fun pair hpair _ => entry_eq_ok_iff (part.shows pair hpair)
  have hok (hfits : part.result.LinesFit) : Summary.resultSection part.result = .ok part.text := by
    rw [Summary.resultSection, hentries.mpr ⟨hfits, rfl⟩]
    rfl
  constructor
  · intro heq
    obtain ⟨_, hshown, -⟩ := bind_eq_ok heq
    have hfits := (hentries.mp hshown).1
    exact ⟨hfits, Except.ok.inj (heq.symm.trans (hok hfits))⟩
  · rintro ⟨hfits, rfl⟩
    exact hok hfits

end FailedSection

/-! ## Results of a document -/

namespace Sarif

/-- The identifier of a rule that a document lists. -/
def listedId? (rule : Value) : Option String :=
  (rule.part? [.field "id"]).bind Value.text?

/-- A result of a document that lists the given rules tells a finding: it refers to one rule, and
its line and its column count from 1. -/
structure Tells (rules : List Value) (finding : Finding) (result : Value) : Prop where
  finding_eq : finding? result = some finding
  one_rule : ∃ id, ruleId? result = some id ∧
    (rules.filter fun rule => listedId? rule = some id).length = 1
  one_le_line : ∃ line, startLine? result = some line ∧ 1 ≤ line
  one_le_column : ∃ column, startColumn? result = some column ∧ 1 ≤ column

/-- Every rule is listed once. -/
theorem length_filter_listedId? (rule : Rule) :
    ((Rule.all.map Sarif.rule).filter fun listed => listedId? listed = some rule.id).length =
      1 := by
  cases rule <;> decide

/-- A result of the document tells the finding that it was made of. -/
theorem tells_result {file : String} {failure : FailureRecord} {finding : Finding}
    (h : finding.Shows file failure) : Tells (Rule.all.map rule) finding (result finding) where
  finding_eq := finding?_result finding
  one_rule := ⟨finding.ruleId, rfl, h.ruleId_eq ▸ length_filter_listedId? _⟩
  one_le_line := ⟨finding.line, rfl, h.one_le_line⟩
  one_le_column := by
    obtain ⟨ruleId, message, file, line, column⟩ := finding
    obtain rfl : column = some 1 := h.column_eq
    exact ⟨1, rfl, Nat.le_refl 1⟩

end Sarif

/-! ## The summary -/

namespace Summary

/-- The counts at the beginning of a summary. -/
def counts (verified failed : Nat) : String :=
  "# Clarity Smart Contract Verification Summary\n\n"
    ++ s!"- Total functions verified: {verified + failed}\n"
    ++ s!"- Successfully verified: {verified}\n"
    ++ s!"- Verification failed: {failed}\n\n"

/-- What follows the counts: one sentence when nothing failed, else the sections. -/
def body (sections : List FailedSection) : String :=
  if sections = [] then "All functions were successfully verified!\n"
  else "## Failed Verifications\n\n" ++ String.join (sections.map FailedSection.text)

/-- There are no failed results just when there are no sections. -/
theorem isEmpty_filter_eq (results : List VerificationResult) :
    (results.filter (!·.verified)).isEmpty = (FailedSection.ofResults results).isEmpty := by
  rw [← FailedSection.map_result_ofResults, List.isEmpty_map]

/-- There is a summary when the line numbers of the failures can be printed, and then it is the counts and
what follows them. -/
theorem text_eq_ok_iff {results : List VerificationResult} {s : String} :
    text results = .ok s ↔
      (∀ result ∈ results, result.verified = false → result.LinesFit) ∧
        s = counts (results.countP (·.verified)) (results.countP (!·.verified)) ++
          body (FailedSection.ofResults results) := by
  have hlength : results.length = results.countP (·.verified) + results.countP (!·.verified) := by
    rw [List.length_eq_countP_add_countP (·.verified)]
    simp only [Bool.not_eq_true, Bool.decide_eq_false]
  have hheader : header results.length (results.filter (!·.verified)).length =
      counts (results.countP (·.verified)) (results.countP (!·.verified)) := by
    unfold header counts
    rw [← List.countP_eq_length_filter, hlength, Nat.add_sub_cancel]
  have hfits : (∀ result ∈ results, result.verified = false → result.LinesFit) ↔
      ∀ part ∈ FailedSection.ofResults results, part.result.LinesFit := by
    rw [← List.forall_mem_map (P := VerificationResult.LinesFit) (f := FailedSection.result),
      FailedSection.map_result_ofResults]
    simp only [List.mem_filter, Bool.not_eq_true', and_imp]
  have hsections : ∀ {sections : List String},
      (results.filter (!·.verified)).mapM resultSection = .ok sections ↔
        (∀ part ∈ FailedSection.ofResults results, part.result.LinesFit) ∧
          sections = (FailedSection.ofResults results).map FailedSection.text := by
    intro sections
    rw [← FailedSection.map_result_ofResults, List.mapM_map]
    exact mapM_eq_ok_iff fun part _ _ => part.resultSection_eq_ok_iff
  rw [hfits]
  unfold text body
  dsimp only
  rw [hheader, isEmpty_filter_eq]
  by_cases hnone : FailedSection.ofResults results = []
  · rw [hnone, List.isEmpty_nil, if_pos rfl, if_pos rfl]
    have hproper : ∀ part ∈ ([] : List FailedSection), part.result.LinesFit := by
      exact fun part hpart => absurd hpart List.not_mem_nil
    exact ⟨fun heq => ⟨hproper, (Except.ok.inj heq).symm⟩, fun heq => congrArg Except.ok heq.2.symm⟩
  · rw [if_neg (by simpa using hnone), if_neg hnone]
    constructor
    · intro heq
      obtain ⟨sections, hshown, hs⟩ := bind_eq_ok heq
      obtain ⟨hproper, rfl⟩ := hsections.mp hshown
      exact ⟨hproper, (Except.ok.inj hs).symm⟩
    · rintro ⟨hproper, rfl⟩
      rw [hsections.mpr ⟨hproper, rfl⟩]
      rfl

/-- Results whose line numbers can all be printed have a summary. -/
theorem exists_text {results : List VerificationResult} (h : ∀ result ∈ results, result.LinesFit) :
    ∃ s, text results = .ok s :=
  ⟨_, text_eq_ok_iff.mpr ⟨fun result hresult _ => h result hresult, rfl⟩⟩

end Summary

/-- Findings, document and summary show the same failures, function by function: the findings are
those of the sections, which pass the check of their record; each result of the document tells the
finding in its place; and the summary, which exists just when the line numbers of these failures can be
printed, has one section for each function that is not verified. -/
theorem reports_agree (results : List VerificationResult) (tool version : String) :
    ∃ sections : List FailedSection,
      sections.map (·.result) = results.filter (!·.verified) ∧
      Finding.ofResults results = sections.flatMap (·.findings) ∧
      (∀ finding ∈ Finding.ofResults results, Finding.check finding.fields = .valid finding) ∧
      (∃ rules shown,
        Sarif.rules? (Sarif.document (Finding.ofResults results) tool version) = some rules ∧
        Sarif.results? (Sarif.document (Finding.ofResults results) tool version) = some shown ∧
        List.Forall₂ (Sarif.Tells rules) (Finding.ofResults results) shown) ∧
      ∀ s, Summary.text results = .ok s ↔
        (∀ result ∈ results, result.verified = false → result.LinesFit) ∧
          s = Summary.counts (results.countP (·.verified)) (results.countP (!·.verified)) ++
            Summary.body sections := by
  -- every finding comes from a section, so it shows a failure there: the check and the document
  -- need no more than that
  have hshows : ∀ finding ∈ Finding.ofResults results,
      ∃ file failure, finding.Shows file failure := by
    intro finding hfinding
    rw [← FailedSection.flatMap_findings_ofResults] at hfinding
    obtain ⟨part, -, hpart⟩ := List.mem_flatMap.mp hfinding
    obtain ⟨pair, hpair, rfl⟩ := List.mem_map.mp hpart
    exact ⟨_, _, part.shows pair hpair⟩
  refine ⟨FailedSection.ofResults results, FailedSection.map_result_ofResults results,
    (FailedSection.flatMap_findings_ofResults results).symm, ?_, ?_, fun _ => Summary.text_eq_ok_iff⟩
  · intro finding hfinding
    obtain ⟨file, failure, h⟩ := hshows finding hfinding
    refine Finding.check_fields h.one_le_line fun column hcolumn => ?_
    rw [h.column_eq] at hcolumn
    obtain rfl := Option.some.inj hcolumn
    exact Nat.le_refl 1
  · refine ⟨_, _, Sarif.rules?_document .., Sarif.results?_document .., ?_⟩
    rw [List.forall₂_map_right_iff, List.forall₂_same]
    intro finding hfinding
    obtain ⟨file, failure, h⟩ := hshows finding hfinding
    exact Sarif.tells_result h

/-- A result with one failure, on the given line. -/
def resultOn (line : Nat) : VerificationResult :=
  ⟨false, [⟨"f", line, "assertion", "(ok u1)"⟩], "", "a.clar", "f"⟩

/-- A result with a failure on a line whose number is too long to be printed has no summary. -/
theorem not_summary_of_lt {line : Nat} (h : maxDigits < (decimal line).length) {s : String} :
    Summary.text [resultOn line] ≠ .ok s := by
  intro hs
  have hfits := (Summary.text_eq_ok_iff.mp hs).1 (resultOn line) (List.mem_singleton.mpr rfl) rfl
  have hpos : 0 < line := by
    refine Nat.pos_of_ne_zero fun hzero => ?_
    rw [hzero] at h
    exact absurd h (by decide +kernel)
  have hline : (decimal line).length ≤ maxDigits :=
    hfits _ (List.mem_singleton.mpr rfl) (Int.natCast_pos.mpr hpos)
  omega

/-- The least such number has one digit more than is printed: there is a finding but no summary. -/
theorem summary_farLine :
    (Finding.ofResults [resultOn (10 ^ maxDigits)]).length = 1 ∧
      ¬ ∃ s, Summary.text [resultOn (10 ^ maxDigits)] = .ok s := by
  refine ⟨rfl, ?_⟩
  rintro ⟨s, hs⟩
  exact not_summary_of_lt (by rw [length_decimal_pow]; exact Nat.lt_succ_self maxDigits) hs

end ClarityDelta.Report
