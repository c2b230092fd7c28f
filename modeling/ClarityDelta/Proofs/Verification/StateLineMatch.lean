import ClarityDelta.Proofs.Text.Run
import ClarityDelta.Verification.StateLine

/-!
# Where a state line stands in a line

`StateLine.find?` tries one place of a line after the other and goes through a state line word by
word. Here it is said without a search what it is for a state line to stand in a line,
`StateLine.StandsIn`: its words follow one another with runs of blanks between them, and the file
is anything but empty. The search finds a state line that stands there, and finds nothing only where
none does: `standsIn_of_find?` and `find?_eq_none_iff`.
-/

namespace ClarityDelta.Text

/-- A run of characters with a property, of which there is at least one. -/
def IsRun (p : Char → Bool) (cs : List Char) : Prop :=
  cs ≠ [] ∧ ∀ c ∈ cs, p c = true

/-- A run has a first character. -/
theorem IsRun.exists_eq_cons {p : Char → Bool} {cs : List Char} (h : IsRun p cs) :
    ∃ c rest, cs = c :: rest ∧ p c = true := by
  obtain ⟨c, rest, rfl⟩ := List.exists_cons_of_ne_nil h.1
  exact ⟨c, rest, rfl, h.2 c List.mem_cons_self⟩

/-- Every text is cut behind its longest run, which may be empty. -/
theorem exists_longest_run (p : Char → Bool) (cs : List Char) :
    ∃ run rest, cs = run ++ rest ∧ (∀ c ∈ run, p c = true) ∧ ∀ c ∈ rest.head?, p c = false :=
  ⟨_, _, takeWhile_dropWhile_iff.1 ⟨rfl, rfl⟩⟩

/-- No digit is a blank. -/
theorem isBlank_of_isDigit {c : Char} (h : isDigit c = true) : isBlank c = false := by
  rw [isDigit, digit?, Option.isSome_map, Option.isSome_iff_exists] at h
  obtain ⟨first, hfirst⟩ := h
  have hmem := List.mem_of_find?_eq_some hfirst
  have hrange := List.find?_some hfirst
  have hgaps : ∀ first ∈ digitZeros, first = 0x30 ∨ 0x660 ≤ first ∧ first + 10 ≤ 0x1680 ∨
      0x1681 ≤ first ∧ first + 10 ≤ 0x2000 ∨ 0x3001 ≤ first := by decide
  have hgap := hgaps first hmem
  simp only [Bool.and_eq_true, decide_eq_true_eq] at hrange
  simp only [isBlank, Bool.or_eq_false_iff, Bool.and_eq_false_iff, decide_eq_false_iff_not,
    beq_eq_false_iff_ne, ne_eq]
  omega

end ClarityDelta.Text

namespace ClarityDelta.Verification

open Text

/-! ## Words behind blanks -/

/-- `run?` takes a run that could not be longer. -/
theorem run?_eq_some_iff {p : Char → Bool} {cs run rest : List Char} :
    run? p cs = some (run, rest) ↔
      IsRun p run ∧ cs = run ++ rest ∧ ∀ c ∈ rest.head?, p c = false := by
  have hcut : run? p cs = some (run, rest) ↔
      run ≠ [] ∧ cs.takeWhile p = run ∧ cs.dropWhile p = rest := by
    rw [run?]
    split
    · next hempty =>
      rw [List.isEmpty_iff] at hempty
      rw [hempty]
      exact ⟨fun h => absurd h (by simp), fun h => absurd h.2.1.symm h.1⟩
    · next hsome =>
      rw [List.isEmpty_iff] at hsome
      rw [Option.some.injEq, Prod.mk.injEq]
      exact ⟨fun h => ⟨h.1 ▸ hsome, h⟩, And.right⟩
  rw [hcut, takeWhile_dropWhile_iff]
  exact ⟨fun ⟨hne, heq, hall, hrest⟩ => ⟨⟨hne, hall⟩, heq, hrest⟩,
    fun ⟨⟨hne, hall⟩, heq, hrest⟩ => ⟨hne, heq, hall, hrest⟩⟩

/-- A text that goes through the given words, each behind a run of blanks, and goes on behind them. -/
def Spaced : List (List Char) → List Char → List Char → Prop
  | [], behind, cs => cs = behind
  | word :: words, behind, cs =>
    ∃ gap rest, IsRun isBlank gap ∧ cs = gap ++ (word ++ rest) ∧ Spaced words behind rest

/-- Where a word is to follow, the text begins with a blank. -/
theorem Spaced.isBlank_of_mem_head? {word : List Char} {words : List (List Char)}
    {behind cs : List Char} (h : Spaced (word :: words) behind cs) :
    ∀ c ∈ cs.head?, isBlank c = true := by
  obtain ⟨gap, rest, hgap, rfl, -⟩ := h
  obtain ⟨b, gap, rfl, hb⟩ := hgap.exists_eq_cons
  intro c hc
  obtain rfl : b = c := by simpa using hc
  exact hb

/-- The words of a state line begin without a blank. -/
def IsWord (word : List Char) : Prop :=
  IsRun (!isBlank ·) word

/-- A text that begins with a word does not begin with a blank. -/
theorem IsWord.isBlank_of_mem_head? {word : List Char} (h : IsWord word) (rest : List Char) :
    ∀ c ∈ (word ++ rest).head?, isBlank c = false := by
  obtain ⟨c, word, rfl, hc⟩ := h.exists_eq_cons
  intro c' hc'
  obtain rfl : c = c' := by simpa using hc'
  simpa using hc

/-- Behind its blanks a text begins with a word exactly when `afterBlanks?` gives it. -/
theorem afterBlanks?_eq_some_append_iff {word cs rest : List Char} (hword : IsWord word) :
    afterBlanks? cs = some (word ++ rest) ↔
      ∃ gap, IsRun isBlank gap ∧ cs = gap ++ (word ++ rest) := by
  rw [afterBlanks?_eq_some_iff]
  constructor
  · rintro ⟨gap, hne, rfl, hall, -⟩
    exact ⟨gap, ⟨hne, hall⟩, rfl⟩
  · rintro ⟨gap, ⟨hne, hall⟩, rfl⟩
    exact ⟨gap, hne, rfl, hall, hword.isBlank_of_mem_head? rest⟩

/-- What follows a word is found behind blanks and the word. -/
theorem afterWord?_eq_some_iff {word : String} {cs rest : List Char}
    (hword : IsWord word.toList) :
    afterWord? word cs = some rest ↔
      ∃ gap, IsRun isBlank gap ∧ cs = gap ++ (word.toList ++ rest) := by
  rw [← afterBlanks?_eq_some_append_iff hword]
  simp only [afterWord?, Option.bind_eq_bind, Option.bind_eq_some_iff, after?_eq_some_iff]
  exact ⟨fun ⟨_, h, heq⟩ => heq ▸ h, fun h => ⟨_, h, rfl⟩⟩

/-- A run without blanks is read behind blanks when what follows it ends it. -/
theorem afterBlanks?_run?_iff {p : Char → Bool} {cs run rest : List Char}
    (hp : ∀ c, p c = true → isBlank c = false) :
    (∃ atRun, afterBlanks? cs = some atRun ∧ run? p atRun = some (run, rest)) ↔
      IsRun p run ∧ (∃ gap, IsRun isBlank gap ∧ cs = gap ++ (run ++ rest)) ∧
        ∀ c ∈ rest.head?, p c = false := by
  have hword (h : IsRun p run) : IsWord run :=
    ⟨h.1, fun c hc => by simpa using hp c (h.2 c hc)⟩
  constructor
  · rintro ⟨_, hblanks, hread⟩
    obtain ⟨hrun, rfl, hrest⟩ := run?_eq_some_iff.1 hread
    exact ⟨hrun, (afterBlanks?_eq_some_append_iff (hword hrun)).1 hblanks, hrest⟩
  · rintro ⟨hrun, hgap, hrest⟩
    exact ⟨_, (afterBlanks?_eq_some_append_iff (hword hrun)).2 hgap,
      run?_eq_some_iff.2 ⟨hrun, rfl, hrest⟩⟩

/-- Digits are found behind blanks, as many as there are. -/
theorem digits?_eq_some_iff {cs digits rest : List Char} :
    digits? cs = some (digits, rest) ↔
      IsRun isDigit digits ∧ (∃ gap, IsRun isBlank gap ∧ cs = gap ++ (digits ++ rest)) ∧
        ∀ c ∈ rest.head?, isDigit c = false := by
  rw [← afterBlanks?_run?_iff fun c => isBlank_of_isDigit]
  simp only [digits?, Option.bind_eq_bind, Option.bind_eq_some_iff]

/-- Behind blanks digits are read, those given and all that follow them. -/
theorem exists_digits?_eq_some {gap digits : List Char} (hgap : IsRun isBlank gap)
    (hdigits : IsRun isDigit digits) (behind : List Char) :
    ∃ longest rest, digits? (gap ++ (digits ++ behind)) = some (longest, rest) := by
  obtain ⟨more, rest, rfl, hall, hrest⟩ := exists_longest_run isDigit behind
  have hlongest : IsRun isDigit (digits ++ more) :=
    ⟨List.append_ne_nil_of_left_ne_nil hdigits.1 more,
      fun c hc => (List.mem_append.1 hc).elim (hdigits.2 c) (hall c)⟩
  exact ⟨_, rest, digits?_eq_some_iff.2 ⟨hlongest, ⟨gap, hgap, by simp⟩, hrest⟩⟩

/-- A run without blanks could not be longer where another word is to follow. -/
theorem Spaced.not_of_mem_head? {p : Char → Bool} (hp : ∀ c, p c = true → isBlank c = false)
    {word : List Char} {words : List (List Char)} {behind cs : List Char}
    (h : Spaced (word :: words) behind cs) : ∀ c ∈ cs.head?, p c = false := by
  intro c hc
  have hblank := h.isBlank_of_mem_head? c hc
  by_contra hpc
  rw [hp c (by simpa using hpc)] at hblank
  exact Bool.noConfusion hblank

namespace StateLine

/-! ## The tail of a state line -/

/-- A text that begins with the tail of a state line, which tells the line and the function. -/
def IsTail (state : StateLine) (cs : List Char) : Prop :=
  IsRun isDigit state.digits ∧ IsWord state.function ∧
    ∃ thread behind, IsRun isDigit thread ∧
      Spaced ["line".toList, state.digits, "function".toList, state.function, "thread".toList,
        thread] behind cs

/-- The keyword `line` is a word. -/
theorem isWord_line : IsWord "line".toList := by
  simp [IsWord, IsRun, isBlank]

/-- The keyword `function` is a word. -/
theorem isWord_function : IsWord "function".toList := by
  simp [IsWord, IsRun, isBlank]

/-- The keyword `thread` is a word. -/
theorem isWord_thread : IsWord "thread".toList := by
  simp [IsWord, IsRun, isBlank]

/-- The keyword `file` is a word. -/
theorem isWord_file : IsWord "file".toList := by
  simp [IsWord, IsRun, isBlank]

/-- The tail of a state line is read exactly where it stands. -/
theorem tail?_eq_some_iff {cs : List Char} {state : StateLine} :
    tail? cs = some state ↔ state.IsTail cs := by
  have hnotBlank : ∀ c, (!isBlank c) = true → isBlank c = false := fun c h => by simpa using h
  simp only [tail?, Option.bind_eq_bind, Option.bind_eq_some_iff, Prod.exists, Option.some.injEq]
  constructor
  · rintro ⟨r₁, hline, digits, r₂, hdigits, r₃, hfunction, r₄, hblanks, name, r₅, hname, r₆,
      hthread, number, behind, hnumber, rfl⟩
    obtain ⟨gap₁, hgap₁, rfl⟩ := (afterWord?_eq_some_iff isWord_line).1 hline
    obtain ⟨hrun, ⟨gap₂, hgap₂, rfl⟩, -⟩ := digits?_eq_some_iff.1 hdigits
    obtain ⟨gap₃, hgap₃, rfl⟩ := (afterWord?_eq_some_iff isWord_function).1 hfunction
    obtain ⟨hword, ⟨gap₄, hgap₄, rfl⟩, -⟩ :=
      (afterBlanks?_run?_iff hnotBlank).1 ⟨r₄, hblanks, hname⟩
    obtain ⟨gap₅, hgap₅, rfl⟩ := (afterWord?_eq_some_iff isWord_thread).1 hthread
    obtain ⟨hrun', ⟨gap₆, hgap₆, rfl⟩, -⟩ := digits?_eq_some_iff.1 hnumber
    exact ⟨hrun, hword, number, behind, hrun', gap₁, _, hgap₁, rfl, gap₂, _, hgap₂, rfl, gap₃, _,
      hgap₃, rfl, gap₄, _, hgap₄, rfl, gap₅, _, hgap₅, rfl, gap₆, _, hgap₆, rfl, rfl⟩
  · rintro ⟨hrun, hword, number, behind, hrun', gap₁, r₁, hgap₁, rfl, gap₂, r₂, hgap₂, rfl, h₂⟩
    have hends₂ := h₂.not_of_mem_head? fun c => isBlank_of_isDigit
    obtain ⟨gap₃, r₃, hgap₃, rfl, gap₄, r₄, hgap₄, rfl, h₄⟩ := h₂
    have hends₄ := h₄.not_of_mem_head? hnotBlank
    obtain ⟨gap₅, r₅, hgap₅, rfl, gap₆, r₆, hgap₆, rfl, rfl⟩ := h₄
    obtain ⟨r₀, hblanks, hname⟩ :=
      (afterBlanks?_run?_iff hnotBlank).2 ⟨hword, ⟨gap₄, hgap₄, rfl⟩, hends₄⟩
    obtain ⟨longest, rest, hnumber⟩ := exists_digits?_eq_some hgap₆ hrun' r₆
    exact ⟨_, (afterWord?_eq_some_iff isWord_line).2 ⟨gap₁, hgap₁, rfl⟩, _, _,
      digits?_eq_some_iff.2 ⟨hrun, ⟨gap₂, hgap₂, rfl⟩, hends₂⟩, _,
      (afterWord?_eq_some_iff isWord_function).2 ⟨gap₃, hgap₃, rfl⟩, _, hblanks, _, _, hname, _,
      (afterWord?_eq_some_iff isWord_thread).2 ⟨gap₅, hgap₅, rfl⟩, _, _, hnumber, rfl⟩

/-- How many blanks are in front of a tail makes no difference. -/
theorem tail?_append_of_isRun {gap : List Char} (hgap : IsRun isBlank gap) (rest : List Char) :
    tail? (gap ++ rest) = tail? (' ' :: rest) := by
  obtain ⟨b, gap', rfl, hb⟩ := hgap.exists_eq_cons
  have hblanks : afterBlanks? (b :: (gap' ++ rest)) = afterBlanks? (' ' :: rest) := by
    rw [afterBlanks?, afterBlanks?, if_pos hb, if_pos (by decide), trimStart, trimStart,
      List.dropWhile_append_of_pos fun c hc => hgap.2 c (List.mem_cons_of_mem b hc)]
  simp only [List.cons_append, tail?, afterWord?, hblanks]

/-- What follows the file in a state line is not empty. -/
theorem IsTail.ne_nil {state : StateLine} {cs : List Char} (h : state.IsTail cs) : cs ≠ [] := by
  obtain ⟨-, -, thread, behind, -, gap, rest, hgap, rfl, -⟩ := h
  exact List.append_ne_nil_of_left_ne_nil hgap.1 _

/-- No tail begins with a character that is not blank. -/
theorem firstTail?_append_of_not_isBlank {cs : List Char} (h : ∀ c ∈ cs, isBlank c = false)
    (rest : List Char) : firstTail? (cs ++ rest) = firstTail? rest := by
  induction cs with
  | nil => rfl
  | cons c cs ih =>
    have hc := h c List.mem_cons_self
    have hnone : tail? (c :: (cs ++ rest)) = none := by
      simp [tail?, afterWord?, afterBlanks?, hc]
    rw [List.cons_append, firstTail?, hnone]
    exact ih fun c' hc' => h c' (List.mem_cons_of_mem c hc')

/-- The first tail found is one that stands somewhere in the text. -/
theorem exists_isTail_of_firstTail? {state : StateLine} {cs : List Char}
    (h : firstTail? cs = some state) : ∃ before tail, cs = before ++ tail ∧ state.IsTail tail := by
  induction cs with
  | nil => exact absurd h (by simp [firstTail?])
  | cons c cs ih =>
    rw [firstTail?] at h
    cases htail : tail? (c :: cs) with
    | some found =>
      rw [htail] at h
      obtain rfl := Option.some.inj h
      exact ⟨[], c :: cs, rfl, tail?_eq_some_iff.1 htail⟩
    | none =>
      rw [htail] at h
      obtain ⟨before, tail, rfl, hstate⟩ := ih h
      exact ⟨c :: before, tail, rfl, hstate⟩

/-- Where a tail stands in a text, one is found. -/
theorem firstTail?_ne_none {state : StateLine} {tail : List Char} (h : state.IsTail tail)
    (before : List Char) : firstTail? (before ++ tail) ≠ none := by
  induction before with
  | nil =>
    obtain ⟨c, cs, rfl⟩ := List.exists_cons_of_ne_nil h.ne_nil
    rw [List.nil_append, firstTail?, tail?_eq_some_iff.2 h]
    exact Option.some_ne_none state
  | cons c before ih =>
    rw [List.cons_append, firstTail?]
    cases tail? (c :: (before ++ tail)) with
    | some found => exact Option.some_ne_none found
    | none => exact ih

/-! ## The file of a state line -/

/-- A text that begins with blanks, a file and the tail of a state line. The file is anything but
empty; a line has no line feed, so there is no need to exclude one. -/
def HasFile (state : StateLine) (cs : List Char) : Prop :=
  ∃ gap file tail, IsRun isBlank gap ∧ file ≠ [] ∧ cs = gap ++ (file ++ tail) ∧ state.IsTail tail

/-- What `file?` looks for behind all the blanks. -/
theorem file?_append {blanks rest : List Char} (hblanks : IsRun isBlank blanks)
    (hrest : ∀ c ∈ rest.head?, isBlank c = false) :
    file? (blanks ++ rest) =
      (firstTail? (rest.drop 1) <|> if blanks.length < 3 then none else tail? (' ' :: rest)) := by
  obtain ⟨htake, hdrop⟩ := takeWhile_dropWhile_iff.2
    ⟨Eq.refl (blanks ++ rest), hblanks.2, hrest⟩
  have hsome : blanks.isEmpty = false := by simpa using hblanks.1
  simp only [file?, htake, hdrop, hsome, Bool.false_eq_true, if_false]

/-- A file that is found stands there. -/
theorem hasFile_of_file? {state : StateLine} {cs : List Char} (h : file? cs = some state) :
    state.HasFile cs := by
  obtain ⟨blanks, rest, rfl, hall, hrest⟩ := exists_longest_run isBlank cs
  have hblanks : blanks ≠ [] := by
    rintro rfl
    have htake := (takeWhile_dropWhile_iff.2 ⟨rfl, hall, hrest⟩).1
    simp only [file?, htake, List.isEmpty_nil, if_true] at h
    exact absurd h (Option.some_ne_none state).symm
  rw [file?_append ⟨hblanks, hall⟩ hrest] at h
  cases hfirst : firstTail? (rest.drop 1) with
  | some found =>
    -- the file begins with the first character that is not blank
    rw [hfirst] at h
    obtain rfl : found = state := Option.some.inj h
    obtain ⟨before, tail, hdrop, htail⟩ := exists_isTail_of_firstTail? hfirst
    cases rest with
    | nil => exact absurd (List.append_eq_nil_iff.1 hdrop.symm).2 htail.ne_nil
    | cons c rest =>
      obtain rfl : rest = before ++ tail := hdrop
      exact ⟨blanks, c :: before, tail, ⟨hblanks, hall⟩, List.cons_ne_nil c before, rfl, htail⟩
  | none =>
    -- the file is the second of at least three blanks
    rw [hfirst] at h
    replace h : (if blanks.length < 3 then none else tail? (' ' :: rest)) = some state := h
    split at h
    · exact absurd h (Option.some_ne_none state).symm
    · next hlength =>
      obtain ⟨b₁, b₂, b₃, more, rfl⟩ : ∃ b₁ b₂ b₃ more, blanks = b₁ :: b₂ :: b₃ :: more := by
        match blanks, hlength with
        | b₁ :: b₂ :: b₃ :: more, _ => exact ⟨b₁, b₂, b₃, more, rfl⟩
        | [], hlength | [_], hlength | [_, _], hlength => exact absurd (by simp) hlength
      have hlast : IsRun isBlank (b₃ :: more) :=
        ⟨List.cons_ne_nil b₃ more, fun c hc => hall c (by simp [List.mem_cons.1 hc])⟩
      have hfirst : IsRun isBlank [b₁] :=
        ⟨List.cons_ne_nil b₁ [], fun c hc => hall c (by simp [List.mem_singleton.1 hc])⟩
      rw [← tail?_append_of_isRun hlast] at h
      exact ⟨[b₁], [b₂], _, hfirst, List.cons_ne_nil b₂ [], rfl, tail?_eq_some_iff.1 h⟩

/-- Where a file stands, one is found. -/
theorem file?_ne_none {state : StateLine} {cs : List Char} (h : state.HasFile cs) :
    file? cs ≠ none := by
  obtain ⟨gap, file, tail, hgap, hfile, rfl, htail⟩ := h
  by_cases hblank : ∀ c ∈ file, isBlank c = true
  · -- the file is made of blanks, so all before the word `line` are blanks
    have hstate := tail?_eq_some_iff.2 htail
    obtain ⟨-, -, thread, behind, -, gap', rest, hgap', rfl, -⟩ := htail
    have hall : IsRun isBlank (gap ++ (file ++ gap')) := by
      refine ⟨List.append_ne_nil_of_left_ne_nil hgap.1 _, fun c hc => ?_⟩
      rcases List.mem_append.1 hc with hc | hc
      · exact hgap.2 c hc
      · exact (List.mem_append.1 hc).elim (hblank c) (hgap'.2 c)
    have hlength : ¬(gap ++ (file ++ gap')).length < 3 := by
      have h₁ := List.length_pos_iff.2 hgap.1
      have h₂ := List.length_pos_iff.2 hfile
      have h₃ := List.length_pos_iff.2 hgap'.1
      simp only [List.length_append]
      omega
    have hcut := file?_append hall (isWord_line.isBlank_of_mem_head? rest)
    rw [tail?_append_of_isRun hgap'] at hstate
    rw [if_neg hlength, hstate] at hcut
    simp only [List.append_assoc] at hcut ⊢
    rw [hcut]
    cases firstTail? (("line".toList ++ rest).drop 1) with
    | some found => exact Option.some_ne_none found
    | none => exact Option.some_ne_none state
  · -- the search for the tail begins behind the first character that is not blank
    obtain ⟨blanks, rest, rfl, hall, hrest⟩ := exists_longest_run isBlank file
    cases rest with
    | nil => exact absurd (by simpa using hall) hblank
    | cons c rest =>
      have hblanks : IsRun isBlank (gap ++ blanks) := by
        refine ⟨List.append_ne_nil_of_left_ne_nil hgap.1 _, fun c hc => ?_⟩
        exact (List.mem_append.1 hc).elim (hgap.2 c) (hall c)
      have hfound := firstTail?_ne_none htail rest
      have hcut := @file?_append _ (c :: (rest ++ tail)) hblanks hrest
      simp only [List.append_assoc, List.cons_append] at hcut ⊢
      rw [hcut, List.drop_succ_cons, List.drop_zero]
      cases hfirst : firstTail? (rest ++ tail) with
      | some found => exact Option.some_ne_none found
      | none => exact absurd hfirst hfound

/-! ## State lines -/

/-- A text that begins with a state line. -/
def Begins (state : StateLine) (cs : List Char) : Prop :=
  ∃ text step rest, cs = "State".toList ++ text ∧ IsRun isDigit step ∧
    Spaced [step, "file".toList] rest text ∧ state.HasFile rest

/-- A line in which a state line stands. -/
def StandsIn (state : StateLine) (line : List Char) : Prop :=
  ∃ before text, line = before ++ text ∧ state.Begins text

/-- The words before the file leave no choice. -/
theorem here?_eq_some_iff {state : StateLine} {cs : List Char} :
    here? cs = some state ↔ ∃ text step rest, cs = "State".toList ++ text ∧ IsRun isDigit step ∧
      Spaced [step, "file".toList] rest text ∧ file? rest = some state := by
  simp only [here?, Option.bind_eq_bind, Option.bind_eq_some_iff, Prod.exists, after?_eq_some_iff]
  constructor
  · rintro ⟨text, rfl, step, behind, hdigits, rest, hword, hfile⟩
    obtain ⟨hstep, ⟨gap₁, hgap₁, rfl⟩, -⟩ := digits?_eq_some_iff.1 hdigits
    obtain ⟨gap₂, hgap₂, rfl⟩ := (afterWord?_eq_some_iff isWord_file).1 hword
    exact ⟨_, step, rest, rfl, hstep, ⟨gap₁, _, hgap₁, rfl, gap₂, _, hgap₂, rfl, rfl⟩, hfile⟩
  · rintro ⟨text, step, rest, rfl, hstep, ⟨gap₁, behind, hgap₁, rfl, hspaced⟩, hfile⟩
    have hends := hspaced.not_of_mem_head? fun c => isBlank_of_isDigit
    obtain ⟨gap₂, r₂, hgap₂, rfl, rfl⟩ := hspaced
    exact ⟨_, rfl, step, _, digits?_eq_some_iff.2 ⟨hstep, ⟨gap₁, hgap₁, rfl⟩, hends⟩, _,
      (afterWord?_eq_some_iff isWord_file).2 ⟨gap₂, hgap₂, rfl⟩, hfile⟩

/-- Where a state line is found, a text begins with one. -/
theorem begins_of_here? {state : StateLine} {cs : List Char} (h : here? cs = some state) :
    state.Begins cs := by
  obtain ⟨text, step, rest, rfl, hstep, hspaced, hfile⟩ := here?_eq_some_iff.1 h
  exact ⟨text, step, rest, rfl, hstep, hspaced, hasFile_of_file? hfile⟩

/-- Where a text begins with a state line, one is found. -/
theorem here?_ne_none {state : StateLine} {cs : List Char} (h : state.Begins cs) :
    here? cs ≠ none := by
  obtain ⟨text, step, rest, rfl, hstep, hspaced, hfile⟩ := h
  obtain ⟨found, hfound⟩ := Option.ne_none_iff_exists'.1 (file?_ne_none hfile)
  rw [here?_eq_some_iff.2 ⟨text, step, rest, rfl, hstep, hspaced, hfound⟩]
  exact Option.some_ne_none found

/-- What is found stands in the line. -/
theorem standsIn_of_find? {state : StateLine} {line : List Char} (h : find? line = some state) :
    state.StandsIn line := by
  induction line with
  | nil => exact absurd h (by simp [find?])
  | cons c line ih =>
    rw [find?] at h
    cases hhere : here? (c :: line) with
    | some found =>
      rw [hhere] at h
      obtain rfl := Option.some.inj h
      exact ⟨[], c :: line, rfl, begins_of_here? hhere⟩
    | none =>
      rw [hhere] at h
      obtain ⟨before, text, rfl, hbegins⟩ := ih h
      exact ⟨c :: before, text, rfl, hbegins⟩

/-- Nothing is found only where no state line stands. -/
theorem find?_eq_none_iff {line : List Char} :
    find? line = none ↔ ∀ state : StateLine, ¬state.StandsIn line := by
  constructor
  · rintro h state ⟨before, text, rfl, hbegins⟩
    induction before with
    | nil =>
      obtain ⟨c, text, rfl⟩ : ∃ c cs, text = c :: cs := by
        obtain ⟨text, step, rest, rfl, -⟩ := hbegins
        exact ⟨'S', "tate".toList ++ text, rfl⟩
      rw [List.nil_append, find?] at h
      cases hhere : here? (c :: text) with
      | some found =>
        rw [hhere] at h
        exact Option.some_ne_none found h
      | none => exact here?_ne_none hbegins hhere
    | cons c before ih =>
      rw [List.cons_append, find?] at h
      cases hhere : here? (c :: (before ++ text)) with
      | some found =>
        rw [hhere] at h
        exact Option.some_ne_none found h
      | none =>
        rw [hhere] at h
        exact ih h
  · intro h
    rw [Option.eq_none_iff_forall_ne_some]
    exact fun state hsome => h state (standsIn_of_find? hsome)

end StateLine

end ClarityDelta.Verification
