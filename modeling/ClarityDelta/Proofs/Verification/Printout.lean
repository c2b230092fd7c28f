import ClarityDelta.Proofs.Text.Lines
import ClarityDelta.Proofs.Verification.Reading
import ClarityDelta.Proofs.Verification.StateLineMatch

/-!
# Counterexamples as they are printed

A printout has any lines in front, and then one counterexample after the other: a marker, lines of
which some are state lines, a violated property with its title and code, and any lines up to the next
marker. Blank lines may stand before the title and the code, and blanks around every line. What is
printed is read back: `counterexamples_text`.
-/

namespace ClarityDelta.Verification

open Text

/-! ## State lines -/

/-- A state line as it is printed. The numbers are written with the digits 0 to 9. -/
structure PrintedState where
  step : List Char
  file : List Char
  line : List Char
  function : List Char
  thread : List Char
  step_digits : IsRun Char.isDigit step
  file_word : IsWord file
  line_digits : IsRun Char.isDigit line
  function_word : IsWord function
  thread_digits : IsRun Char.isDigit thread

namespace PrintedState

/-- The words of a state line, with a space between one and the next. -/
def text (state : PrintedState) : List Char :=
  joinWith ' ' ["State".toList, state.step, "file".toList, state.file, "line".toList, state.line,
    "function".toList, state.function, "thread".toList, state.thread]

/-- The number of the source line. -/
def number (state : PrintedState) : Nat :=
  Nat.ofDigitChars 10 state.line 0

end PrintedState

/-- The digits 0 to 9 are digits with their own values. -/
theorem digit?_of_isDigit {c : Char} (h : c.isDigit = true) :
    digit? c = some (c.toNat - '0'.toNat) := by
  have hrange : 48 ≤ c.toNat ∧ c.toNat < 48 + 10 := by
    simp only [Char.isDigit, Bool.and_eq_true, decide_eq_true_eq] at h
    exact ⟨h.1, Nat.lt_succ_of_le h.2⟩
  have hfirst : digitZeros.find? (fun first => first ≤ c.toNat && c.toNat < first + 10) =
      some 48 := by
    rw [digitZeros]
    exact List.find?_cons_of_pos (by simpa using hrange)
  rw [digit?, hfirst]
  rfl

/-- ASCII digits are digits. -/
theorem isRun_isDigit {cs : List Char} (h : IsRun Char.isDigit cs) : IsRun isDigit cs := by
  refine ⟨h.1, fun c hc => ?_⟩
  rw [isDigit, digit?_of_isDigit (h.2 c hc)]
  rfl

/-- A single blank is a run of blanks. -/
theorem isRun_space : IsRun isBlank [' '] :=
  ⟨List.cons_ne_nil ' ' [], by simp [isBlank]⟩

/-- Read digit by digit, the digits 0 to 9 have the value that decimal notation gives them. -/
theorem natOfDigits_eq {cs : List Char} (h : ∀ c ∈ cs, c.isDigit = true) :
    natOfDigits cs = Nat.ofDigitChars 10 cs 0 := by
  have hfrom (n : Nat) : (cs.filterMap digit?).foldl (fun value digit => value * 10 + digit) n =
      Nat.ofDigitChars 10 cs n := by
    induction cs generalizing n with
    | nil => rfl
    | cons c cs ih =>
      rw [List.filterMap_cons_some (digit?_of_isDigit (h c List.mem_cons_self)), List.foldl_cons,
        Nat.ofDigitChars_cons, Nat.mul_comm]
      exact ih (fun c' hc' => h c' (List.mem_cons_of_mem c hc')) _
  exact hfrom 0

namespace PrintedState

/-- The number of the line is read if it has no more digits than are read. -/
theorem numeral_line (state : PrintedState) (h : state.line.length ≤ maxDigits) :
    numeral state.line = .ok state.number := by
  rw [numeral, if_pos h, natOfDigits_eq state.line_digits.2, number]

/-- What the search for a state line tells of it. -/
def told (state : PrintedState) : StateLine :=
  ⟨state.line, state.function⟩

/-- The text behind the file. -/
def tail (state : PrintedState) : List Char :=
  ' ' :: ("line".toList ++ (' ' :: (state.line ++ (' ' :: ("function".toList ++
    (' ' :: (state.function ++ (' ' :: ("thread".toList ++ (' ' :: state.thread))))))))))

/-- A printed state line begins with its words and the file, each behind one blank. -/
theorem text_eq (state : PrintedState) :
    state.text = "State".toList ++ (' ' :: (state.step ++ (' ' :: ("file".toList ++
      (' ' :: (state.file ++ state.tail)))))) := by
  simp [text, joinWith, tail]

/-- What follows the file in a printed state line tells the line and the function. -/
theorem isTail_tail (state : PrintedState) : state.told.IsTail state.tail :=
  ⟨isRun_isDigit state.line_digits, state.function_word, state.thread, [],
    isRun_isDigit state.thread_digits, [' '], _, isRun_space, rfl, [' '], _, isRun_space, rfl,
    [' '], _, isRun_space, rfl, [' '], _, isRun_space, rfl, [' '], _, isRun_space, rfl,
    [' '], [], isRun_space, by simp, rfl⟩

/-- Behind the word `file` the file is passed and the tail is read. -/
theorem file?_tail (state : PrintedState) :
    StateLine.file? (' ' :: (state.file ++ state.tail)) = some state.told := by
  -- no tail begins inside the file, which has no blanks
  obtain ⟨c, more, hcons, -⟩ := state.file_word.exists_eq_cons
  have hmore : ∀ c' ∈ more, isBlank c' = false := by
    intro c' hc'
    have hmem : c' ∈ state.file := hcons ▸ List.mem_cons_of_mem c hc'
    simpa using state.file_word.2 c' hmem
  have hfirst : StateLine.firstTail? state.tail = some state.told := by
    have hread := StateLine.tail?_eq_some_iff.2 state.isTail_tail
    rw [tail] at hread ⊢
    rw [StateLine.firstTail?, hread]
    rfl
  have hcut := StateLine.file?_append isRun_space
    (state.file_word.isBlank_of_mem_head? state.tail)
  rw [List.singleton_append] at hcut
  rw [hcut, hcons, List.cons_append, List.drop_succ_cons, List.drop_zero,
    StateLine.firstTail?_append_of_not_isBlank hmore, hfirst]
  rfl

/-- A printed state line is found with its line and its function. -/
theorem find?_text (state : PrintedState) : StateLine.find? state.text = some state.told := by
  have hhere : StateLine.here? state.text = some state.told := by
    rw [text_eq]
    exact StateLine.here?_eq_some_iff.2 ⟨_, state.step, _, rfl, isRun_isDigit state.step_digits,
      ⟨[' '], _, isRun_space, rfl, [' '], _, isRun_space, rfl, rfl⟩, state.file?_tail⟩
  obtain ⟨c, cs, hcons⟩ : ∃ c cs, state.text = c :: cs := ⟨'S', _, state.text_eq⟩
  rw [hcons] at hhere ⊢
  rw [StateLine.find?, hhere]
  rfl

/-- A state line is no marker, which has no state line in it. -/
theorem not_isMarker (state : PrintedState) {l : List Char} (h : trim l = state.text) :
    ¬IsMarker l := by
  intro hmarker
  have hnone : StateLine.find? counterexampleMarker = none := by decide
  rw [← hmarker, h, state.find?_text] at hnone
  exact Option.some_ne_none _ hnone

end PrintedState

/-! ## Counterexamples -/

/-- A line between a marker and the violated property: a state line whose number can be read, or
anything that the reader passes over. -/
inductive Detail where
  | state (l : List Char) (state : PrintedState) (trim_eq : trim l = state.text)
    (length_le : state.line.length ≤ 4300)
  | noise (l : List Char) (not_marker : ¬IsMarker l)
    (no_state : ∀ state : StateLine, ¬state.StandsIn (trim l)) (not_violation : ¬IsViolation l)

namespace Detail

/-- The line as it is printed. -/
def line : Detail → List Char
  | state l _ _ _ => l
  | noise l _ _ _ => l

/-- The state line, if the line is one. -/
def state? : Detail → Option PrintedState
  | state _ found _ _ => some found
  | noise _ _ _ _ => none

end Detail

/-- A counterexample as it is printed, with the lines up to the next one. -/
structure PrintedCounterexample where
  marker : List Char
  details : List Detail
  violation : List Char
  aboveTitle : List (List Char)
  title : List Char
  aboveCode : List (List Char)
  code : List Char
  behind : List (List Char)
  isMarker : IsMarker marker
  isViolation : IsViolation violation
  violation_no_state : ∀ state : StateLine, ¬state.StandsIn (trim violation)
  aboveTitle_blank : ∀ l ∈ aboveTitle, isBlankText l = true
  title_content : isBlankText title = false
  aboveCode_blank : ∀ l ∈ aboveCode, isBlankText l = true
  code_content : isBlankText code = false
  behind_not_marker : ∀ l ∈ behind, ¬IsMarker l

namespace PrintedCounterexample

/-- All lines of a counterexample. -/
def printed (block : PrintedCounterexample) : List (List Char) :=
  block.marker :: (block.details.map Detail.line ++ block.violation ::
    (block.aboveTitle ++ block.title :: (block.aboveCode ++ block.code :: block.behind)))

/-- The state lines of a counterexample. -/
def states (block : PrintedCounterexample) : List PrintedState :=
  block.details.filterMap Detail.state?

/-- The record of a counterexample, when `latest` is the last state line up to its end. -/
def record (block : PrintedCounterexample) (latest : Option PrintedState) : FailureRecord where
  functionName := (latest.map fun state => String.ofList state.function).getD "unknown_function"
  lineNumber := (latest.map fun state => Int.ofNat state.number).getD unknownLine
  title := String.ofList (trim block.title)
  failingCode := String.ofList (trim block.code)

end PrintedCounterexample

/-- A printout: any lines in front, and then counterexamples. -/
structure Printout where
  preamble : List (List Char)
  blocks : List PrintedCounterexample
  preamble_not_marker : ∀ l ∈ preamble, ¬IsMarker l
  no_newline : ∀ l ∈ preamble ++ blocks.flatMap PrintedCounterexample.printed, '\n' ∉ l

namespace Printout

/-- The text that is printed. -/
def text (printout : Printout) : String :=
  String.ofList (unlines (printout.preamble ++
    printout.blocks.flatMap PrintedCounterexample.printed))

/-- The last state line up to the end of the counterexample at a place, in it or in an earlier one. -/
def latest (printout : Printout) (i : Nat) : Option PrintedState :=
  ((printout.blocks.take (i + 1)).flatMap PrintedCounterexample.states).getLast?

/-- The records of a printout: one for each counterexample, in order. -/
def records (printout : Printout) : List FailureRecord :=
  printout.blocks.mapIdx fun i block => block.record (printout.latest i)

end Printout

/-! ## Reading a printout -/

namespace CounterexampleReader

variable {rest : List (List Char)} {seen : List PrintedState} {records : List FailureRecord}

/-- The reader that has come by the given state lines and has made the given records. -/
def having (phase : Phase) (seen : List PrintedState) (records : List FailureRecord) :
    CounterexampleReader where
  phase := phase
  line := seen.getLast?.map PrintedState.number
  function := seen.getLast?.map fun state => String.ofList state.function
  records := records

/-- A line of a counterexample adds its state line to those that were read. -/
theorem read_detail (detail : Detail) :
    (having .inCounterexample seen records).read (detail.line :: rest) =
      (having .inCounterexample (seen ++ detail.state?.toList) records).read rest := by
  have hopen : (having .inCounterexample seen records).phase ≠ .scanning := Phase.noConfusion
  cases detail with
  | state l state trim_eq length_le =>
    have hfind : StateLine.find? (trim l) = some state.told := trim_eq ▸ state.find?_text
    rw [Detail.line, read_of_state hopen (state.not_isMarker trim_eq) hfind
      (state.numeral_line length_le)]
    simp [having, Detail.state?, PrintedState.told]
  | noise l not_marker no_state not_violation =>
    rw [Detail.line, read_of_noise hopen not_marker (StateLine.find?_eq_none_iff.2 no_state)
      not_violation]
    simp [Detail.state?]

/-- Details are read through, and the states among them are kept. -/
theorem read_details (details : List Detail) :
    (having .inCounterexample seen records).read (details.map Detail.line ++ rest) =
      (having .inCounterexample (seen ++ details.filterMap Detail.state?) records).read rest := by
  induction details generalizing seen with
  | nil => simp
  | cons detail details ih =>
    have hstates : (detail :: details).filterMap Detail.state? =
        detail.state?.toList ++ details.filterMap Detail.state? := by
      cases h : detail.state? <;> simp [h]
    rw [List.map_cons, List.cons_append, read_detail, ih, hstates, List.append_assoc]

/-- A violated property makes the record of its counterexample from the state line read last. -/
theorem violated_having (block : PrintedCounterexample) :
    (having .inCounterexample seen records).violated (some (trim block.title))
        (some (trim block.code)) =
      having .scanning seen (records ++ [block.record seen.getLast?]) := by
  simp [having, violated, failure, PrintedCounterexample.record, Option.map_map, Function.comp_def]

/-- A counterexample makes one record, and outside of it nothing is left to be read. -/
theorem read_printed (block : PrintedCounterexample) :
    (having .scanning seen records).read (block.printed ++ rest) =
      (having .scanning (seen ++ block.states)
        (records ++ [block.record (seen ++ block.states).getLast?])).read rest := by
  have hnone : StateLine.find? (trim block.violation) = none :=
    StateLine.find?_eq_none_iff.2 block.violation_no_state
  have hmarker : ¬IsMarker block.violation := by
    intro hmarker
    have hviolation := block.isViolation
    rw [IsViolation, hmarker] at hviolation
    exact absurd hviolation (by decide)
  rw [PrintedCounterexample.printed, List.cons_append, read_of_isMarker block.isMarker]
  simp only [List.append_assoc, List.cons_append]
  change (having .inCounterexample seen records).read _ = _
  rw [read_details, read_of_isViolation Phase.noConfusion hmarker hnone block.isViolation,
    splitContent_append block.aboveTitle_blank block.title_content,
    splitContent_append block.aboveCode_blank block.code_content, violated_having,
    read_append_of_scanning rfl block.behind_not_marker]
  rfl

/-- Counterexamples are read one after the other, the state lines of each holding for the next ones
too. -/
theorem read_blocks (blocks : List PrintedCounterexample) :
    (having .scanning seen records).read (blocks.flatMap PrintedCounterexample.printed) =
      (having .scanning (seen ++ blocks.flatMap PrintedCounterexample.states)
        (records ++ blocks.mapIdx fun i block => block.record
          (seen ++ (blocks.take (i + 1)).flatMap PrintedCounterexample.states).getLast?), none) := by
  induction blocks generalizing seen records with
  | nil => simp [read_nil]
  | cons block blocks ih =>
    rw [List.flatMap_cons, read_printed, ih]
    simp [List.mapIdx_cons, List.append_assoc]

end CounterexampleReader

/-- The reader comes to the same from printed lines as from the lines of their text. The two differ when
there are no lines: an empty text has one, and it is empty. -/
theorem read_lines_unlines {ls : List (List Char)} (hls : ∀ l ∈ ls, '\n' ∉ l) :
    CounterexampleReader.start.read (lines (unlines ls)) = CounterexampleReader.start.read ls := by
  by_cases hne : ls = []
  · subst hne
    exact CounterexampleReader.read_of_scanning (by decide) rfl
  · rw [lines_unlines hne hls]

/-- A printout is read back: each of its counterexamples gives one record, in order, with its title
and code and with the line and function of the last state line up to its end. -/
theorem counterexamples_text (printout : Printout) :
    counterexamples printout.text = .ok printout.records := by
  have hread : CounterexampleReader.start.readText printout.text =
      (CounterexampleReader.having .scanning
        (printout.blocks.flatMap PrintedCounterexample.states) printout.records, none) := by
    rw [CounterexampleReader.readText, Printout.text, String.toList_ofList,
      read_lines_unlines printout.no_newline,
      CounterexampleReader.read_append_of_scanning rfl printout.preamble_not_marker]
    exact @CounterexampleReader.read_blocks [] [] printout.blocks
  rw [counterexamples, hread]
  rfl

/-- A state line of an unsigned subtraction. -/
def subtraction : PrintedState where
  step := "12".toList
  file := "vault.clar".toList
  line := "7".toList
  function := "withdraw".toList
  thread := "3".toList
  step_digits := by simp [IsRun]
  file_word := by simp [IsWord, IsRun, isBlank]
  line_digits := by simp [IsRun]
  function_word := by simp [IsWord, IsRun, isBlank]
  thread_digits := by simp [IsRun]

/-- An underflow behind a state line, whose code looks like a marker, and a second counterexample
without a state line. -/
def twoFailures : Printout where
  preamble := ["ESBMC".toList]
  blocks := [
    { marker := "[Counterexample]".toList
      details := [
        .noise [] (by decide) (StateLine.find?_eq_none_iff.1 rfl) (by decide),
        .state "  State 12 file vault.clar line 7 function withdraw thread 3".toList subtraction
          (by decide) (by decide)]
      violation := "Violated property:".toList
      aboveTitle := [[]]
      title := "  arithmetic underflow".toList
      aboveCode := []
      code := "[Counterexample]".toList
      behind := [[]]
      isMarker := by decide
      isViolation := by decide
      violation_no_state := StateLine.find?_eq_none_iff.1 rfl
      aboveTitle_blank := by decide
      title_content := by decide
      aboveCode_blank := by decide
      code_content := by decide
      behind_not_marker := by decide },
    { marker := " [Counterexample]".toList
      details := []
      violation := "Violated property:".toList
      aboveTitle := []
      title := "assertion".toList
      aboveCode := []
      code := "x > 0".toList
      behind := ["VERIFICATION FAILED".toList]
      isMarker := by decide
      isViolation := by decide
      violation_no_state := StateLine.find?_eq_none_iff.1 rfl
      aboveTitle_blank := by decide
      title_content := by decide
      aboveCode_blank := by decide
      code_content := by decide
      behind_not_marker := by decide }]
  preamble_not_marker := by decide
  no_newline := by decide

/-- Two failures are read back, one with a line of code that is the marker. -/
theorem counterexamples_text_twoFailures :
    counterexamples twoFailures.text =
      .ok [⟨"withdraw", 7, "arithmetic underflow", "[Counterexample]"⟩,
        ⟨"withdraw", 7, "assertion", "x > 0"⟩] :=
  (counterexamples_text twoFailures).trans (congrArg Except.ok (by decide +kernel))

end ClarityDelta.Verification
