import ClarityDelta.Text.ShellWords
import ClarityDelta.Proofs.Text.Run

/-!
# Command lines put together and trimmed

A character of a command line is skipped, ends a word, or goes on with the word at hand, wherever the
reading stands; `exists_open_step` and `exists_quoted_step` say the last of it for all modes. So the
reading of a text leads to a mode and a word at hand from which any text behind it is read
(`exists_behind`). From these follow the two laws about lines here.

* A line that has words is read up to a place between words or in a word without quotes
  (`wordsFrom_append_cases`). So a separator behind the line ends its last word, and lines with a
  separator between them have the words of both: `split_append_separator`.
* Trimming takes more than separators away and does not look at what stands in front of a blank.
  A line that has words can have none when trimmed only because a backslash has lost its blank. In
  all other cases the words are the same exactly when nothing but separators was taken away:
  `exists_split_trimmed`. Any other blank is a letter, and the words of the line have more letters
  then (`exists_blanks_append`, `exists_append_blanks`).
-/

namespace ClarityDelta.Text.ShellWords

/-! ## Steps -/

/-- A character that does not separate words begins one or goes on with one in the same way. -/
theorem exists_open_step {c : Char} (h : isSeparator c = false) :
    ∃ mode more, mode ≠ Mode.between ∧ ∀ word cs,
      wordsFrom .bare word (c :: cs) = wordsFrom mode (word ++ more) cs ∧
      wordsFrom .between word (c :: cs) = wordsFrom mode more cs := by
  by_cases hsingle : c = '\''
  · subst hsingle
    exact ⟨.single, [], nofun, fun word cs => by simp [wordsFrom, h]⟩
  · by_cases hdouble : c = '"'
    · subst hdouble
      exact ⟨.double, [], nofun, fun word cs => by simp [wordsFrom, h]⟩
    · by_cases hbackslash : c = '\\'
      · subst hbackslash
        exact ⟨.escaped, [], nofun, fun word cs => by simp [wordsFrom, h]⟩
      · refine ⟨.bare, [c], nofun, fun word cs => ?_⟩
        simp [wordsFrom, h, hsingle, hdouble, hbackslash]

/-- Inside quotes and behind a backslash every character goes on with the word. -/
theorem exists_quoted_step {mode : Mode} (hbetween : mode ≠ .between) (hbare : mode ≠ .bare)
    (c : Char) :
    ∃ mode' more, mode' ≠ Mode.between ∧ ∀ word cs,
      wordsFrom mode word (c :: cs) = wordsFrom mode' (word ++ more) cs := by
  cases mode with
  | between => exact absurd rfl hbetween
  | bare => exact absurd rfl hbare
  | single =>
    by_cases hquote : c = '\''
    · exact ⟨.bare, [], nofun, fun word cs => by simp [wordsFrom, hquote]⟩
    · exact ⟨.single, [c], nofun, fun word cs => by simp [wordsFrom, hquote]⟩
  | double =>
    by_cases hquote : c = '"'
    · exact ⟨.bare, [], nofun, fun word cs => by simp [wordsFrom, hquote]⟩
    · by_cases hbackslash : c = '\\'
      · exact ⟨.doubleEscaped, [], nofun, fun word cs => by simp [wordsFrom, hbackslash]⟩
      · exact ⟨.double, [c], nofun, fun word cs => by simp [wordsFrom, hquote, hbackslash]⟩
  | escaped => exact ⟨.bare, [c], nofun, fun word cs => rfl⟩
  | doubleEscaped =>
    by_cases hkept : c = '"' ∨ c = '\\'
    · exact ⟨.double, [c], nofun, fun word cs => by simp [wordsFrom, hkept]⟩
    · exact ⟨.double, ['\\', c], nofun, fun word cs => by simp [wordsFrom, hkept]⟩

/-- Between words a separator is passed over. -/
theorem between_separator {c : Char} (h : isSeparator c = true) (word cs : List Char) :
    wordsFrom .between word (c :: cs) = wordsFrom .between word cs := by
  rw [wordsFrom, if_pos h]

/-- A separator ends a bare word. -/
theorem bare_separator {c : Char} (h : isSeparator c = true) (word cs : List Char) :
    wordsFrom .bare word (c :: cs) =
      (wordsFrom .between [] cs).map (String.ofList word :: ·) := by
  rw [wordsFrom, if_pos h]

/-- Between words, it does not matter what the last one was. -/
theorem between_eq (word cs : List Char) :
    wordsFrom .between word cs = wordsFrom .between [] cs := by
  induction cs with
  | nil => rfl
  | cons c cs ih =>
    cases hc : isSeparator c with
    | true => rw [between_separator hc, between_separator hc, ih]
    | false =>
      obtain ⟨mode, more, -, hstep⟩ := exists_open_step hc
      rw [(hstep word cs).2, (hstep [] cs).2]

/-- What is made of an outcome succeeds only if the outcome did. -/
theorem map_eq_ok {f : List String → List String} {result : Except ShellFault (List String)}
    {ws : List String} (h : result.map f = .ok ws) : ∃ us, result = .ok us ∧ f us = ws := by
  cases result with
  | error fault => cases h
  | ok us => exact ⟨us, rfl, Except.ok.inj h⟩

/-! ## Lines in pieces -/

/-- A text leads to a mode and a word at hand, and what stands behind the text is read from there. -/
theorem exists_behind (mode : Mode) (word cs : List Char) :
    ∃ front mode' word', ∀ rest,
      wordsFrom mode word (cs ++ rest) = (wordsFrom mode' word' rest).map (front ++ ·) := by
  induction cs generalizing mode word with
  | nil =>
    refine ⟨[], mode, word, fun rest => ?_⟩
    rw [List.nil_append]
    cases wordsFrom mode word rest <;> rfl
  | cons c cs ih =>
    -- a character that goes on with a word leaves the rest to the mode that it leads to
    have hgo : ∀ mode' word', (∀ ds, wordsFrom mode word (c :: ds) = wordsFrom mode' word' ds) →
        ∃ front mode' word', ∀ rest,
          wordsFrom mode word (c :: cs ++ rest) = (wordsFrom mode' word' rest).map (front ++ ·) := by
      intro mode' word' hstep
      simp only [List.cons_append, hstep]
      exact ih mode' word'
    by_cases hbetween : mode = .between
    · subst hbetween
      cases hc : isSeparator c with
      | true => exact hgo _ _ fun ds => between_separator hc word ds
      | false =>
        obtain ⟨mode', more, -, hstep⟩ := exists_open_step hc
        exact hgo _ _ fun ds => (hstep word ds).2
    · by_cases hbare : mode = .bare
      · subst hbare
        cases hc : isSeparator c with
        | true =>
          obtain ⟨front, mode', word', hrest⟩ := ih .between []
          refine ⟨String.ofList word :: front, mode', word', fun rest => ?_⟩
          rw [List.cons_append, bare_separator hc, hrest]
          cases wordsFrom mode' word' rest <;> rfl
        | false =>
          obtain ⟨mode', more, -, hstep⟩ := exists_open_step hc
          exact hgo _ _ fun ds => (hstep word ds).1
      · obtain ⟨mode', more, -, hstep⟩ := exists_quoted_step hbetween hbare c
        exact hgo _ _ (hstep word)

/-- Behind a text that has words the reading stands between words, or in the last word and outside
quotes. -/
theorem wordsFrom_append_cases {mode : Mode} {word cs : List Char} {ws : List String}
    (h : wordsFrom mode word cs = .ok ws) :
    (∀ rest, wordsFrom mode word (cs ++ rest) = (wordsFrom .between [] rest).map (ws ++ ·)) ∨
      ∃ front last, ws = front ++ [String.ofList last] ∧
        ∀ rest, wordsFrom mode word (cs ++ rest) = (wordsFrom .bare last rest).map (front ++ ·) := by
  obtain ⟨front, mode', word', hrest⟩ := exists_behind mode word cs
  have hend := hrest []
  rw [List.append_nil, h] at hend
  cases mode' with
  | between =>
    obtain rfl : ws = front ++ [] := Except.ok.inj hend
    left
    intro rest
    rw [hrest, between_eq, List.append_nil]
  | bare => exact Or.inr ⟨front, word', Except.ok.inj hend, hrest⟩
  | single => cases hend
  | double => cases hend
  | escaped => cases hend
  | doubleEscaped => cases hend

/-- Lines with a separator between them have the words of both. -/
theorem split_append_separator {s t : String} {ws us : List String} (hs : split s = .ok ws)
    (ht : split t = .ok us) : split (s ++ " " ++ t) = .ok (ws ++ us) := by
  have hspace : isSeparator ' ' = true := rfl
  have hlist : (s ++ " " ++ t).toList = s.toList ++ ' ' :: t.toList := by
    rw [String.toList_append, String.toList_append, List.append_assoc]
    rfl
  rw [split] at hs ht ⊢
  rw [hlist]
  rcases wordsFrom_append_cases hs with h | ⟨front, last, rfl, h⟩
  · rw [h, between_separator hspace, ht]
    rfl
  · rw [h, bare_separator hspace, ht, List.append_assoc]
    rfl

/-! ## Letters -/

/-- The letters of all words. -/
def letters (ws : List String) : List Char :=
  ws.flatMap String.toList

/-- The letters of two lists of words are put together as the lists are. -/
theorem letters_append (ws us : List String) : letters (ws ++ us) = letters ws ++ letters us :=
  List.flatMap_append

/-- The letters of words begin with those of the first one. -/
theorem letters_cons (w : String) (ws : List String) : letters (w :: ws) = w.toList ++ letters ws :=
  List.flatMap_cons

/-- What was read of the word at hand comes in front of all other letters, which do not depend on
it. -/
theorem exists_letters_eq {mode : Mode} (hmode : mode ≠ .between) {word cs : List Char}
    {ws : List String} (h : wordsFrom mode word cs = .ok ws) :
    ∃ rest, letters ws = word ++ rest ∧
      ∀ word', ∃ ws', wordsFrom mode word' cs = .ok ws' ∧ letters ws' = word' ++ rest := by
  have hword : ∀ word, letters [String.ofList word] = word ++ [] := by
    intro word
    rw [letters, List.flatMap_singleton, String.toList_ofList, List.append_nil]
  induction cs generalizing mode word ws with
  | nil =>
    cases mode with
    | between => exact absurd rfl hmode
    | bare =>
      obtain rfl := Except.ok.inj h
      exact ⟨[], hword word, fun word' => ⟨_, rfl, hword word'⟩⟩
    | single => cases h
    | double => cases h
    | escaped => cases h
    | doubleEscaped => cases h
  | cons c cs ih =>
    have hgo : ∀ mode' more, mode' ≠ Mode.between →
        (∀ word ds, wordsFrom mode word (c :: ds) = wordsFrom mode' (word ++ more) ds) →
        ∃ rest, letters ws = word ++ rest ∧
          ∀ word', ∃ ws', wordsFrom mode word' (c :: cs) = .ok ws' ∧ letters ws' = word' ++ rest := by
      intro mode' more hmode' hstep
      rw [hstep] at h
      obtain ⟨rest, hws, hall⟩ := ih hmode' h
      refine ⟨more ++ rest, by rw [hws, List.append_assoc], fun word' => ?_⟩
      obtain ⟨ws', hws', hletters⟩ := hall (word' ++ more)
      exact ⟨ws', by rw [hstep, hws'], by rw [hletters, List.append_assoc]⟩
    by_cases hbare : mode = .bare
    · subst hbare
      cases hc : isSeparator c with
      | true =>
        rw [bare_separator hc] at h
        obtain ⟨us, hus, rfl⟩ := map_eq_ok h
        refine ⟨letters us, by rw [letters_cons, String.toList_ofList], fun word' => ?_⟩
        refine ⟨String.ofList word' :: us, ?_, by rw [letters_cons, String.toList_ofList]⟩
        rw [bare_separator hc, hus]
        rfl
      | false =>
        obtain ⟨mode', more, hmode', hstep⟩ := exists_open_step hc
        exact hgo mode' more hmode' fun word ds => (hstep word ds).1
    · obtain ⟨mode', more, hmode', hstep⟩ := exists_quoted_step hmode hbare c
      exact hgo mode' more hmode' hstep

/-- A word that was begun before a text adds its letters to those of the text. It is a word of its own
when the text does not go on with it. -/
theorem exists_bare_eq (word : List Char) {cs : List Char} {ws : List String}
    (h : wordsFrom .between [] cs = .ok ws) :
    ∃ ws', wordsFrom .bare word cs = .ok ws' ∧ letters ws' = word ++ letters ws ∧
      ((∀ c ∈ cs.head?, isSeparator c = true) → ws' = String.ofList word :: ws) := by
  have hletters : letters (String.ofList word :: ws) = word ++ letters ws := by
    rw [letters_cons, String.toList_ofList]
  cases cs with
  | nil =>
    obtain rfl := Except.ok.inj h
    exact ⟨_, rfl, hletters, fun _ => rfl⟩
  | cons c cs =>
    cases hc : isSeparator c with
    | true =>
      rw [between_separator hc] at h
      refine ⟨_, ?_, hletters, fun _ => rfl⟩
      rw [bare_separator hc, h]
      rfl
    | false =>
      obtain ⟨mode, more, hmode, hstep⟩ := exists_open_step hc
      rw [(hstep [] cs).2] at h
      obtain ⟨rest, hws, hall⟩ := exists_letters_eq hmode h
      obtain ⟨ws', hws', hmore⟩ := hall (word ++ more)
      refine ⟨ws', by rw [(hstep word cs).1, hws'], ?_, fun hhead => ?_⟩
      · rw [hmore, hws, List.append_assoc]
      · rw [hhead c rfl] at hc
        cases hc

/-! ## Blanks at the ends -/

/-- The characters that do not separate words. -/
def unseparating (cs : List Char) : List Char :=
  cs.filter (!isSeparator ·)

/-- Nothing is left of just the texts that are separators only. -/
theorem unseparating_eq_nil_iff {cs : List Char} :
    unseparating cs = [] ↔ ∀ c ∈ cs, isSeparator c = true := by
  simp [unseparating, List.filter_eq_nil_iff]

/-- A blank is neither a quote nor a backslash. -/
theorem not_quoting_of_isBlank {c : Char} (h : isBlank c = true) :
    c ≠ '\'' ∧ c ≠ '"' ∧ c ≠ '\\' := by
  refine ⟨?_, ?_, ?_⟩
  all_goals
    rintro rfl
    cases h

/-- A blank that does not separate words is a letter like any other. -/
theorem between_blank {c : Char} (hblank : isBlank c = true) (hc : isSeparator c = false)
    (word cs : List Char) : wordsFrom .between word (c :: cs) = wordsFrom .bare [c] cs := by
  obtain ⟨hsingle, hdouble, hbackslash⟩ := not_quoting_of_isBlank hblank
  simp [wordsFrom, hc, hsingle, hdouble, hbackslash]

/-- Blanks do not close quotes. -/
theorem wordsFrom_quoted_blanks {mode : Mode} (hmode : mode = .single ∨ mode = .double)
    {blanks : List Char} (hblanks : ∀ c ∈ blanks, isBlank c = true) (word : List Char) :
    wordsFrom mode word blanks = .error .unclosedQuotation := by
  induction blanks generalizing word with
  | nil => rcases hmode with rfl | rfl <;> rfl
  | cons c blanks ih =>
    obtain ⟨hc, hrest⟩ := List.forall_mem_cons.mp hblanks
    obtain ⟨hsingle, hdouble, hbackslash⟩ := not_quoting_of_isBlank hc
    rcases hmode with rfl | rfl
    · rw [wordsFrom, if_neg hsingle, ih hrest]
    · rw [wordsFrom, if_neg hdouble, if_neg hbackslash, ih hrest]

/-- A text that has words has words with blanks in front too: the blanks that separate are skipped, the
others are letters of the first word. -/
theorem exists_blanks_append {blanks : List Char} (hblanks : ∀ c ∈ blanks, isBlank c = true)
    {cs : List Char} {ws : List String} (h : wordsFrom .between [] cs = .ok ws) :
    ∃ ws', wordsFrom .between [] (blanks ++ cs) = .ok ws' ∧
      letters ws' = unseparating blanks ++ letters ws ∧ (unseparating blanks = [] → ws' = ws) := by
  induction blanks with
  | nil => exact ⟨ws, h, rfl, fun _ => rfl⟩
  | cons c blanks ih =>
    obtain ⟨hc, hrest⟩ := List.forall_mem_cons.mp hblanks
    obtain ⟨us, hus, hletters, hsame⟩ := ih hrest
    rw [List.cons_append]
    cases hseparator : isSeparator c with
    | true =>
      have hskip : unseparating (c :: blanks) = unseparating blanks := by
        simp [unseparating, hseparator]
      rw [between_separator hseparator, hskip]
      exact ⟨us, hus, hletters, hsame⟩
    | false =>
      have hkeep : unseparating (c :: blanks) = c :: unseparating blanks := by
        simp [unseparating, hseparator]
      obtain ⟨ws', hws', hmore, -⟩ := exists_bare_eq [c] hus
      rw [between_blank hc hseparator, hkeep]
      refine ⟨ws', hws', ?_, nofun⟩
      rw [hmore, hletters]
      rfl

/-- A text that has words has words with blanks behind it too: the blanks that separate are skipped, the
others are letters of the last word. -/
theorem exists_append_blanks {blanks : List Char} (hblanks : ∀ c ∈ blanks, isBlank c = true)
    {cs : List Char} {ws : List String} (h : wordsFrom .between [] cs = .ok ws) :
    ∃ ws', wordsFrom .between [] (cs ++ blanks) = .ok ws' ∧
      letters ws' = letters ws ++ unseparating blanks ∧ (unseparating blanks = [] → ws' = ws) := by
  have hnothing : wordsFrom .between [] [] = .ok [] := rfl
  obtain ⟨us, hus, hletters, hsame⟩ := exists_blanks_append hblanks hnothing
  have hempty : letters [] = [] := rfl
  rw [List.append_nil] at hus
  rw [hempty, List.append_nil] at hletters
  rcases wordsFrom_append_cases h with hrest | ⟨front, last, rfl, hrest⟩
  · refine ⟨ws ++ us, by rw [hrest, hus]; rfl, ?_, fun hnone => ?_⟩
    · rw [letters_append, hletters]
    · rw [hsame hnone, List.append_nil]
  · obtain ⟨vs, hvs, hmore, hends⟩ := exists_bare_eq last hus
    refine ⟨front ++ vs, by rw [hrest, hvs]; rfl, ?_, fun hnone => ?_⟩
    · rw [letters_append, letters_append, hmore, hletters, letters_cons, hempty,
        String.toList_ofList, List.append_nil, List.append_assoc]
    · have hall := unseparating_eq_nil_iff.mp hnone
      rw [hends fun c hc => hall c (List.mem_of_mem_head? hc), hsame hnone]

/-! ## Trimming -/

/-- A line has words if it has when trimmed, and they are the same exactly when trimming takes nothing
but separators away. -/
theorem exists_split_of_trimmed {s : String} {us : List String} (h : split (trimmed s) = .ok us) :
    ∃ ws, split s = .ok ws ∧
      (us = ws ↔ ∀ c ∈ trimmedOff s.toList, isSeparator c = true) := by
  obtain ⟨front, back, hs, hoff, hfront, hback⟩ := exists_eq_trim s.toList
  rw [split, trimmed, String.toList_ofList] at h
  obtain ⟨vs, hvs, hletters, hsame⟩ := exists_append_blanks hback h
  obtain ⟨ws, hws, hletters', hsame'⟩ := exists_blanks_append hfront hvs
  refine ⟨ws, by rw [split, hs, hws], ?_⟩
  have hoff : unseparating (trimmedOff s.toList) = unseparating front ++ unseparating back := by
    rw [hoff, unseparating, List.filter_append]
    rfl
  rw [← unseparating_eq_nil_iff, hoff, List.append_eq_nil_iff]
  constructor
  · intro heq
    -- words that are the same have the same number of letters
    rw [← heq, hletters] at hletters'
    have hlength := congrArg List.length hletters'
    rw [List.length_append, List.length_append] at hlength
    constructor
    · exact List.eq_nil_of_length_eq_zero (by omega)
    · exact List.eq_nil_of_length_eq_zero (by omega)
  · rintro ⟨hnone, hnone'⟩
    rw [hsame' hnone, hsame hnone']

/-- What goes on with a word could begin one. -/
theorem exists_between_of_bare {word cs : List Char} {ws : List String}
    (h : wordsFrom .bare word cs = .ok ws) : ∃ us, wordsFrom .between [] cs = .ok us := by
  cases cs with
  | nil => exact ⟨[], rfl⟩
  | cons c cs =>
    cases hc : isSeparator c with
    | true =>
      rw [bare_separator hc] at h
      obtain ⟨us, hus, -⟩ := map_eq_ok h
      exact ⟨us, by rw [between_separator hc, hus]⟩
    | false =>
      obtain ⟨mode, more, hmode, hstep⟩ := exists_open_step hc
      rw [(hstep word cs).1] at h
      obtain ⟨rest, -, hall⟩ := exists_letters_eq hmode h
      obtain ⟨us, hus, -⟩ := hall more
      exact ⟨us, by rw [(hstep [] cs).2, hus]⟩

/-- No text needs the blanks in front of it. -/
theorem exists_of_blanks_append {blanks : List Char} (hblanks : ∀ c ∈ blanks, isBlank c = true)
    {cs : List Char} {ws : List String} (h : wordsFrom .between [] (blanks ++ cs) = .ok ws) :
    ∃ us, wordsFrom .between [] cs = .ok us := by
  induction blanks generalizing ws with
  | nil => exact ⟨ws, h⟩
  | cons c blanks ih =>
    obtain ⟨hc, hrest⟩ := List.forall_mem_cons.mp hblanks
    rw [List.cons_append] at h
    cases hseparator : isSeparator c with
    | true =>
      rw [between_separator hseparator] at h
      exact ih hrest h
    | false =>
      rw [between_blank hc hseparator] at h
      obtain ⟨us, hus⟩ := exists_between_of_bare h
      exact ih hrest hus

/-- A text needs the blanks behind it only for a backslash at its end. -/
theorem cases_of_append_blanks {blanks : List Char} (hblanks : ∀ c ∈ blanks, isBlank c = true)
    {cs : List Char} {ws : List String} (h : wordsFrom .between [] (cs ++ blanks) = .ok ws) :
    (∃ us, wordsFrom .between [] cs = .ok us) ∨
      wordsFrom .between [] cs = .error .unfinishedEscape := by
  obtain ⟨front, mode, word, hbehind⟩ := exists_behind .between [] cs
  have hend := hbehind []
  rw [List.append_nil] at hend
  rw [hbehind] at h
  obtain ⟨us, hus, -⟩ := map_eq_ok h
  rw [hend]
  cases mode with
  | between => exact Or.inl ⟨_, rfl⟩
  | bare => exact Or.inl ⟨_, rfl⟩
  | single =>
    rw [wordsFrom_quoted_blanks (Or.inl rfl) hblanks] at hus
    cases hus
  | double =>
    rw [wordsFrom_quoted_blanks (Or.inr rfl) hblanks] at hus
    cases hus
  | escaped => exact Or.inr rfl
  | doubleEscaped => exact Or.inr rfl

/-- A line that has words has some when trimmed, unless a backslash is left without its blank. They
are the same exactly when trimming takes nothing but separators away. -/
theorem exists_split_trimmed {s : String} {ws : List String} (h : split s = .ok ws)
    (hescape : split (trimmed s) ≠ .error .unfinishedEscape) :
    ∃ us, split (trimmed s) = .ok us ∧
      (us = ws ↔ ∀ c ∈ trimmedOff s.toList, isSeparator c = true) := by
  obtain ⟨front, back, hs, -, hfront, hback⟩ := exists_eq_trim s.toList
  have hline := h
  rw [split, hs] at hline
  obtain ⟨vs, hvs⟩ := exists_of_blanks_append hfront hline
  have htrimmed : split (trimmed s) = wordsFrom .between [] (trim s.toList) := by
    rw [split, trimmed, String.toList_ofList]
  rcases cases_of_append_blanks hback hvs with ⟨us, hus⟩ | hfault
  · rw [← htrimmed] at hus
    obtain ⟨own, hown, hsame⟩ := exists_split_of_trimmed hus
    obtain rfl := Except.ok.inj (h.symm.trans hown)
    exact ⟨us, hus, hsame⟩
  · exact absurd (htrimmed.trans hfault) hescape

end ClarityDelta.Text.ShellWords
