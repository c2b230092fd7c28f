import ClarityDelta.Verification.Counterexample

/-!
# How counterexamples are read

What the reader does next depends on the line at hand only, on whether a counterexample is open, and
for a violated property on the next two lines with content. Each kind of line has one lemma here,
which tells how reading goes on; nothing else needs to open `CounterexampleReader.read`.
-/

namespace ClarityDelta.Verification

open Text

/-- A line that opens a counterexample. -/
abbrev IsMarker (l : List Char) : Prop :=
  trim l = counterexampleMarker

/-- A line that announces a violated property. -/
abbrev IsViolation (l : List Char) : Prop :=
  violatedProperty <+: trim l

namespace CounterexampleReader

/-! ## Lines with content -/

/-- A blank line is passed over in the search for content. -/
theorem splitContent_cons_of_blank {l : List Char} (hl : isBlankText l = true)
    (ls : List (List Char)) : splitContent (l :: ls) = splitContent ls := by
  rw [splitContent, contentLine?, if_pos hl, splitContent]

/-- A line that is not blank is content, and is taken without blanks around it. -/
theorem splitContent_cons_of_content {l : List Char} (hl : isBlankText l = false)
    (ls : List (List Char)) : splitContent (l :: ls) = (some (trim l), ls) := by
  rw [splitContent, contentLine?, if_neg (by simp [hl])]

/-- Behind blank lines the first line with content is handed out trimmed. -/
theorem splitContent_append {blanks : List (List Char)}
    (hblanks : ∀ l ∈ blanks, isBlankText l = true) {l : List Char} (hl : isBlankText l = false)
    (rest : List (List Char)) : splitContent (blanks ++ l :: rest) = (some (trim l), rest) := by
  induction blanks with
  | nil => exact splitContent_cons_of_content hl rest
  | cons blank blanks ih =>
    rw [List.cons_append, splitContent_cons_of_blank (hblanks blank List.mem_cons_self)]
    exact ih fun l' hl' => hblanks l' (List.mem_cons_of_mem blank hl')

/-- A split finds no content, or it passes some lines whatever comes after them. -/
theorem splitContent_cases (ls : List (List Char)) :
    splitContent ls = (none, []) ∨
      ∃ passed content rest, ls = passed ++ rest ∧
        ∀ more, splitContent (passed ++ more) = (some content, more) := by
  induction ls with
  | nil => exact Or.inl rfl
  | cons l ls ih =>
    cases hl : isBlankText l with
    | true =>
      obtain hnone | ⟨passed, content, rest, rfl, hsplit⟩ := ih
      · exact Or.inl ((splitContent_cons_of_blank hl ls).trans hnone)
      · refine Or.inr ⟨l :: passed, content, rest, rfl, fun more => ?_⟩
        exact (splitContent_cons_of_blank hl _).trans (hsplit more)
    | false => exact Or.inr ⟨[l], trim l, ls, rfl, splitContent_cons_of_content hl⟩

/-- Behind a violated property nothing is left, or a title and a code are passed whatever comes after
them. -/
theorem splitContent_twice_cases (ls : List (List Char)) :
    (splitContent (splitContent ls).2).2 = [] ∨
      ∃ passed title code rest, ls = passed ++ rest ∧ ∀ more,
        (splitContent (passed ++ more)).1 = some title ∧
          splitContent (splitContent (passed ++ more)).2 = (some code, more) := by
  obtain hnone | ⟨passed, title, rest, rfl, htitle⟩ := splitContent_cases ls
  · rw [hnone]
    exact Or.inl rfl
  · rw [htitle]
    obtain hnone | ⟨passed', code, rest, rfl, hcode⟩ := splitContent_cases rest
    · rw [hnone]
      exact Or.inl rfl
    · refine Or.inr ⟨passed ++ passed', title, code, rest, by simp, fun more => ?_⟩
      rw [List.append_assoc, htitle]
      exact ⟨rfl, hcode more⟩

/-! ## One line -/

variable {reader : CounterexampleReader} {l : List Char} {rest : List (List Char)}

/-- Without lines nothing is read. -/
theorem read_nil (reader : CounterexampleReader) : reader.read [] = (reader, none) := by
  rw [read]

/-- A marker opens a counterexample, whatever was open before. -/
theorem read_of_isMarker (h : IsMarker l) :
    reader.read (l :: rest) = read { reader with phase := .inCounterexample } rest := by
  rw [read, if_pos h]

/-- Outside of counterexamples only a marker counts. -/
theorem read_of_scanning (hmarker : ¬IsMarker l) (hphase : reader.phase = .scanning) :
    reader.read (l :: rest) = reader.read rest := by
  rw [read, if_neg hmarker, if_pos hphase]

/-- A state line tells the line and the function. -/
theorem read_of_state (hopen : reader.phase ≠ .scanning) {state : StateLine} {n : Nat}
    (hmarker : ¬IsMarker l) (hstate : StateLine.find? (trim l) = some state)
    (hn : numeral state.digits = .ok n) :
    reader.read (l :: rest) =
      read { reader with line := some n, function := some (String.ofList state.function) } rest := by
  rw [read, if_neg hmarker, if_neg hopen]
  simp only [hstate, hn]

/-- A state line whose number is too long stops the reader. -/
theorem read_of_longState (hopen : reader.phase ≠ .scanning) {state : StateLine}
    {long : LongNumeral} (hmarker : ¬IsMarker l) (hstate : StateLine.find? (trim l) = some state)
    (hlong : numeral state.digits = .error long) :
    reader.read (l :: rest) = (reader, some long) := by
  rw [read, if_neg hmarker, if_neg hopen]
  simp only [hstate, hlong]

/-- A violated property takes its title and its code from the next lines with content. -/
theorem read_of_isViolation (hopen : reader.phase ≠ .scanning) (hmarker : ¬IsMarker l)
    (hstate : StateLine.find? (trim l) = none) (hviolation : IsViolation l) :
    reader.read (l :: rest) =
      read (reader.violated (splitContent rest).1 (splitContent (splitContent rest).2).1)
        (splitContent (splitContent rest).2).2 := by
  rw [read, if_neg hmarker, if_neg hopen]
  simp only [hstate, startsWith_iff.2 hviolation, if_true]

/-- Any other line of a counterexample is passed over. -/
theorem read_of_noise (hopen : reader.phase ≠ .scanning) (hmarker : ¬IsMarker l)
    (hstate : StateLine.find? (trim l) = none) (hviolation : ¬IsViolation l) :
    reader.read (l :: rest) = reader.read rest := by
  have hstarts : startsWith violatedProperty (trim l) = false := by
    rw [← Bool.not_eq_true, startsWith_iff]
    exact hviolation
  rw [read, if_neg hmarker, if_neg hopen]
  simp only [hstate, hstarts, Bool.false_eq_true, if_false]

/-! ## Many lines -/

/-- Outside of counterexamples everything up to the next marker is passed over. -/
theorem read_append_of_scanning (hphase : reader.phase = .scanning) {ls : List (List Char)}
    (hls : ∀ l ∈ ls, ¬IsMarker l) : reader.read (ls ++ rest) = reader.read rest := by
  induction ls with
  | nil => rfl
  | cons l ls ih =>
    rw [List.cons_append, read_of_scanning (hls l List.mem_cons_self) hphase]
    exact ih fun l' hl' => hls l' (List.mem_cons_of_mem l hl')

/-- When a reader has read some lines without being stopped, and a counterexample is open then, reading
goes on from there: no title or code of an earlier one is still looked for. -/
theorem read_append_of_open {before : List (List Char)} {after : CounterexampleReader}
    (h : reader.read before = (after, none)) (hphase : after.phase ≠ .scanning) :
    reader.read (before ++ rest) = after.read rest := by
  fun_induction read reader before with
  | case1 reader =>
    obtain ⟨rfl, -⟩ := Prod.mk.inj h
    rfl
  | case2 reader l ls line hmarker ih =>
    rw [List.cons_append, read_of_isMarker hmarker, ih h]
  | case3 reader l ls line hmarker hscanning ih =>
    rw [List.cons_append, read_of_scanning hmarker hscanning, ih h]
  | case4 reader l ls line hmarker hopen state hstate long hlong =>
    exact absurd (Prod.mk.inj h).2 (Option.some_ne_none long)
  | case5 reader l ls line hmarker hopen state hstate n hn ih =>
    rw [List.cons_append, read_of_state hopen hmarker hstate hn, ih h]
  | case6 reader l ls line hmarker hopen hstate hviolation title code ih =>
    obtain hnil | ⟨passed, found, found', ls, rfl, hsplit⟩ := splitContent_twice_cases ls
    · -- nothing is left, so no counterexample is open after the violated property
      rw [show code.2 = [] from hnil, read_nil] at h
      obtain ⟨rfl, -⟩ := Prod.mk.inj h
      exact absurd rfl hphase
    · obtain ⟨htitle, hcode⟩ := hsplit ls
      obtain ⟨htitle', hcode'⟩ := hsplit (ls ++ rest)
      simp only [title, code, htitle, hcode] at h ih
      rw [List.cons_append, List.append_assoc,
        read_of_isViolation hopen hmarker hstate (startsWith_iff.1 hviolation), htitle', hcode', ih h]
  | case7 reader l ls line hmarker hopen hstate hviolation ih =>
    rw [startsWith_iff] at hviolation
    rw [List.cons_append, read_of_noise hopen hmarker hstate hviolation, ih h]

/-- A reader is stopped by the first state line that it comes to, while a counterexample is open,
whose number is too long. -/
theorem read_snd_eq_some_iff {ls : List (List Char)} {long : LongNumeral} :
    (reader.read ls).2 = some long ↔
      ∃ before l behind after, ls = before ++ l :: behind ∧
        reader.read before = (after, none) ∧ after.phase ≠ .scanning ∧ ¬IsMarker l ∧
        ∃ state, StateLine.find? (trim l) = some state ∧ numeral state.digits = .error long := by
  constructor
  · intro h
    fun_induction read reader ls with
    | case1 => exact absurd h (Option.some_ne_none long).symm
    | case2 reader l ls line hmarker ih =>
      obtain ⟨before, l', behind, after, rfl, hread, hstop⟩ := ih h
      exact ⟨l :: before, l', behind, after, rfl, (read_of_isMarker hmarker).trans hread, hstop⟩
    | case3 reader l ls line hmarker hscanning ih =>
      obtain ⟨before, l', behind, after, rfl, hread, hstop⟩ := ih h
      exact ⟨l :: before, l', behind, after, rfl,
        (read_of_scanning hmarker hscanning).trans hread, hstop⟩
    | case4 reader l ls line hmarker hopen state hstate long' hlong =>
      obtain rfl : long' = long := Option.some.inj h
      exact ⟨[], l, ls, reader, rfl, read_nil reader, hopen, hmarker, state, hstate, hlong⟩
    | case5 reader l ls line hmarker hopen state hstate n hn ih =>
      obtain ⟨before, l', behind, after, rfl, hread, hstop⟩ := ih h
      exact ⟨l :: before, l', behind, after, rfl,
        (read_of_state hopen hmarker hstate hn).trans hread, hstop⟩
    | case6 reader l ls line hmarker hopen hstate hviolation title code ih =>
      obtain ⟨before, l', behind, after, hrest, hread, hstop⟩ := ih h
      obtain hnil | ⟨passed, found, found', ls, rfl, hsplit⟩ := splitContent_twice_cases ls
      · exact absurd (hrest.symm.trans hnil) (by simp)
      · obtain ⟨htitle, hcode⟩ := hsplit ls
        obtain ⟨htitle', hcode'⟩ := hsplit before
        simp only [title, code, htitle, hcode] at hrest hread
        refine ⟨l :: (passed ++ before), l', behind, after, by simp [hrest], ?_, hstop⟩
        rw [read_of_isViolation hopen hmarker hstate (startsWith_iff.1 hviolation), htitle', hcode',
          hread]
    | case7 reader l ls line hmarker hopen hstate hviolation ih =>
      obtain ⟨before, l', behind, after, rfl, hread, hstop⟩ := ih h
      rw [startsWith_iff] at hviolation
      exact ⟨l :: before, l', behind, after, rfl,
        (read_of_noise hopen hmarker hstate hviolation).trans hread, hstop⟩
  · rintro ⟨before, l, behind, after, rfl, hread, hopen, hmarker, state, hstate, hlong⟩
    rw [read_append_of_open hread hopen,
      read_of_longState hopen hmarker hstate hlong]

end CounterexampleReader

end ClarityDelta.Verification
