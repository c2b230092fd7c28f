import ClarityDelta.Proofs.Text.Numeral
import ClarityDelta.Verification.Verdict

/-!
# Line numbers of failures

A failure's line number comes from a state line, where a numeral with too many digits is not read. So the
line numbers of all failures that the checker's output tells of have few enough digits to be printed again:
`linesFit_of_verdict`.
-/

namespace ClarityDelta.Verification

open Text

/-- The line number of a failure, if it is one, has few enough digits to be printed. -/
def FailureRecord.LineFits (failure : FailureRecord) : Prop :=
  0 < failure.lineNumber → (decimal failure.lineNumber.toNat).length ≤ maxDigits

/-- The line numbers of all failures of a result have few enough digits. -/
def VerificationResult.LinesFit (result : VerificationResult) : Prop :=
  ∀ failure ∈ result.failures, failure.LineFits

/-- A failure on an unknown line has no line number to be printed. -/
theorem lineFits_of_unknownLine {failure : FailureRecord} (h : failure.lineNumber = unknownLine) :
    failure.LineFits := by
  intro hpos
  rw [h] at hpos
  exact absurd hpos (by decide)

namespace CounterexampleReader

/-- The line numbers of a reader's records, and that of its last state line, have few enough digits. -/
structure LinesFit (reader : CounterexampleReader) : Prop where
  line : ∀ n ∈ reader.line, (decimal n).length ≤ maxDigits
  records : ∀ record ∈ reader.records, record.LineFits

variable {reader : CounterexampleReader}

/-- A record has the line number of the last state line. -/
theorem LinesFit.violated (h : reader.LinesFit) (title code : Option (List Char)) :
    (reader.violated title code).LinesFit where
  line := h.line
  records := by
    intro record hrecord
    rcases List.mem_append.mp hrecord with hold | hnew
    · exact h.records record hold
    obtain rfl := List.mem_singleton.mp hnew
    cases hline : reader.line with
    | none => exact lineFits_of_unknownLine (by rw [failure, hline]; rfl)
    | some n =>
      intro _
      simpa [failure, hline] using h.line n hline

/-- Reading keeps the line numbers short: a numeral with too many digits stops it. -/
theorem LinesFit.read (h : reader.LinesFit) (ls : List (List Char)) :
    (reader.read ls).1.LinesFit := by
  fun_induction CounterexampleReader.read reader ls with
  | case1 reader => exact h
  | case2 reader l rest line hmarker ih => exact ih ⟨h.line, h.records⟩
  | case3 reader l rest line hmarker hscanning ih => exact ih h
  | case4 reader l rest line hmarker hopen state hstate long hlong => exact h
  | case5 reader l rest line hmarker hopen state hstate n hn ih =>
    refine ih ⟨fun m hm => ?_, h.records⟩
    obtain rfl := Option.some.inj hm
    exact length_decimal_of_numeral hn
  | case6 reader l rest line hmarker hopen hstate hviolation title code ih =>
    exact ih (h.violated title.1 code.1)
  | case7 reader l rest line hmarker hopen hstate hviolation ih => exact ih h

end CounterexampleReader

/-- The line numbers of all failures in the checker's output have few enough digits. -/
theorem linesFit_of_verdict {output file function : String} {result : VerificationResult}
    (h : verdict output file function = .ok result) : result.LinesFit := by
  rw [verdict] at h
  split at h
  · obtain rfl := Except.ok.inj h
    exact fun failure hfailure => absurd hfailure List.not_mem_nil
  · split at h
    · have hread : (CounterexampleReader.start.readText output).1.LinesFit :=
        CounterexampleReader.LinesFit.read ⟨fun _ hn => (by cases hn),
          fun _ hrecord => absurd hrecord List.not_mem_nil⟩ _
      rw [counterexamples] at h
      rcases hdone : CounterexampleReader.start.readText output with ⟨reader, _ | long⟩
      · rw [hdone] at h hread
        obtain rfl := Except.ok.inj h
        exact hread.records
      · rw [hdone] at h
        cases h
    · obtain rfl := Except.ok.inj h
      intro failure hfailure
      obtain rfl := List.mem_singleton.mp hfailure
      exact lineFits_of_unknownLine rfl

end ClarityDelta.Verification
