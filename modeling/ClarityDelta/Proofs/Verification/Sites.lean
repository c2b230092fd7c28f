import Mathlib.Data.List.TakeWhile
import ClarityDelta.Proofs.Verification.Reading

/-!
# Where records are made

A violated property takes its title and its code from the next two lines with content, which `contents`
lists. A `Site` is a place of some lines where a record is made. Sites and records belong together one
by one: `Site.getElem?_records` gives the record of a site, `exists_site_of_lt` the site of a record,
and `Site.index_lt_index` says that both come in one order.
-/

namespace ClarityDelta.Verification

open Text

/-- A violated property does not open a counterexample. -/
theorem not_isMarker_of_isViolation {l : List Char} (h : IsViolation l) : ¬IsMarker l := by
  intro hmarker
  rw [IsViolation, hmarker] at h
  exact absurd h (by decide)

/-- A marker is a line with content. -/
theorem isBlankText_of_isMarker {l : List Char} (h : IsMarker l) : isBlankText l = false := by
  rw [← Bool.not_eq_true]
  intro hblank
  have hnone : trim l = [] := by
    rw [trim, trimStart, List.dropWhile_eq_nil_iff.2 (List.all_eq_true.1 hblank)]
    rfl
  rw [IsMarker, hnone] at h
  exact absurd h (by decide)

/-! ## Lines with content -/

/-- The lines with content, trimmed. -/
def contents (ls : List (List Char)) : List (List Char) :=
  (ls.filter (!isBlankText ·)).map trim

/-- The contents of two runs of lines are put together as the lines are. -/
theorem contents_append (ls more : List (List Char)) :
    contents (ls ++ more) = contents ls ++ contents more := by
  rw [contents, List.filter_append, List.map_append]
  rfl

/-- A blank line has no content. -/
theorem contents_cons_of_blank {l : List Char} (hl : isBlankText l = true)
    (ls : List (List Char)) : contents (l :: ls) = contents ls := by
  rw [contents, List.filter_cons_of_neg (by simp [hl]), contents]

/-- A line that is not blank is content, without blanks around it. -/
theorem contents_cons_of_content {l : List Char} (hl : isBlankText l = false)
    (ls : List (List Char)) : contents (l :: ls) = trim l :: contents ls := by
  rw [contents, List.filter_cons_of_pos (by simp [hl]), List.map_cons, contents]

/-- A marker is content like any other line. -/
theorem contents_cons_of_isMarker {l : List Char} (h : IsMarker l) (ls : List (List Char)) :
    contents (l :: ls) = counterexampleMarker :: contents ls := by
  rw [contents_cons_of_content (isBlankText_of_isMarker h), h]

namespace CounterexampleReader

/-- Lines without content are passed over by a split. -/
theorem splitContent_append_of_contents_eq_nil {ls : List (List Char)} (h : contents ls = [])
    (more : List (List Char)) : splitContent (ls ++ more) = splitContent more := by
  induction ls with
  | nil => rfl
  | cons l ls ih =>
    cases hl : isBlankText l with
    | true =>
      rw [contents_cons_of_blank hl] at h
      rw [List.cons_append, splitContent_cons_of_blank hl, ih h]
    | false =>
      rw [contents_cons_of_content hl] at h
      exact absurd h (List.cons_ne_nil _ _)

/-- A split hands out the first content and passes the lines up to it, whatever comes behind. -/
theorem exists_splitContent_append {ls : List (List Char)} {content : List Char}
    {others : List (List Char)} (h : contents ls = content :: others) :
    ∃ passed rest, ls = passed ++ rest ∧ contents rest = others ∧
      ∀ more, splitContent (passed ++ more) = (some content, more) := by
  induction ls with
  | nil => exact absurd h.symm (List.cons_ne_nil content others)
  | cons l ls ih =>
    cases hl : isBlankText l with
    | true =>
      rw [contents_cons_of_blank hl] at h
      obtain ⟨passed, rest, rfl, hrest, hsplit⟩ := ih h
      refine ⟨l :: passed, rest, rfl, hrest, ?_⟩
      intro more
      rw [List.cons_append, splitContent_cons_of_blank hl, hsplit]
    | false =>
      rw [contents_cons_of_content hl] at h
      obtain ⟨rfl, rfl⟩ := List.cons.inj h
      exact ⟨[l], ls, rfl, rfl, splitContent_cons_of_content hl⟩

/-- A split finds the first content and leaves the others. -/
theorem splitContent_contents (ls : List (List Char)) :
    (splitContent ls).1 = (contents ls)[0]? ∧
      contents (splitContent ls).2 = (contents ls).drop 1 := by
  cases h : contents ls with
  | nil =>
    have hsplit := splitContent_append_of_contents_eq_nil h []
    rw [List.append_nil] at hsplit
    rw [hsplit]
    exact ⟨rfl, rfl⟩
  | cons content others =>
    obtain ⟨passed, rest, rfl, hrest, hsplit⟩ := exists_splitContent_append h
    rw [hsplit]
    exact ⟨rfl, hrest⟩

/-- The title and the code that a violated property finds are the first two contents. -/
theorem splitContent_twice (ls : List (List Char)) :
    (splitContent ls).1 = (contents ls)[0]? ∧
      (splitContent (splitContent ls).2).1 = (contents ls)[1]? := by
  obtain ⟨htitle, hrest⟩ := splitContent_contents ls
  obtain ⟨hcode, -⟩ := splitContent_contents (splitContent ls).2
  refine ⟨htitle, hcode.trans ?_⟩
  rw [hrest, List.getElem?_drop]

/-- The lines that a split leaves are the last ones. -/
theorem splitContent_snd_suffix (ls : List (List Char)) : (splitContent ls).2 <:+ ls := by
  obtain hnone | ⟨passed, content, rest, rfl, hsplit⟩ := splitContent_cases ls
  · rw [hnone]
    exact List.nil_suffix
  · rw [hsplit]
    exact List.suffix_append passed rest

/-- Without a title and a code nothing is left. -/
theorem splitContent_twice_snd_of_length_lt {ls : List (List Char)}
    (h : (contents ls).length < 2) : (splitContent (splitContent ls).2).2 = [] := by
  have hnone {ls : List (List Char)} (hls : contents ls = []) : (splitContent ls).2 = [] := by
    have hsplit := splitContent_append_of_contents_eq_nil hls []
    rw [List.append_nil] at hsplit
    rw [hsplit]
    rfl
  apply hnone
  rw [(splitContent_contents ls).2, List.drop_eq_nil_iff]
  omega

/-- With a title and a code the lines up to the code are passed, whatever comes behind. -/
theorem exists_splitContent_twice_append {ls : List (List Char)} (h : 2 ≤ (contents ls).length) :
    ∃ passed, ls = passed ++ (splitContent (splitContent ls).2).2 ∧ ∀ more,
      (splitContent (passed ++ more)).1 = (splitContent ls).1 ∧
        splitContent (splitContent (passed ++ more)).2 =
          ((splitContent (splitContent ls).2).1, more) := by
  obtain ⟨title, code, others, hcontents⟩ : ∃ title code others,
      contents ls = title :: code :: others := by
    match contents ls, h with
    | title :: code :: others, _ => exact ⟨title, code, others, rfl⟩
  obtain ⟨passed, rest, rfl, hrest, htitle⟩ := exists_splitContent_append hcontents
  obtain ⟨passed', rest', rfl, -, hcode⟩ := exists_splitContent_append hrest
  have hboth : ∀ more, splitContent (passed ++ (passed' ++ more)) = (some title, passed' ++ more) ∧
      splitContent (passed' ++ more) = (some code, more) :=
    fun more => ⟨htitle _, hcode more⟩
  refine ⟨passed ++ passed', ?_, ?_⟩
  · rw [(hboth rest').1, (hboth rest').2, List.append_assoc]
  · intro more
    rw [List.append_assoc, (hboth more).1, (hboth more).2, (hboth rest').1, (hboth rest').2]
    exact ⟨rfl, rfl⟩

/-- A marker with fewer than two contents before it is passed over. -/
theorem splitContent_twice_suffix {ls : List (List Char)} (h : (contents ls).length < 2)
    {marker : List Char} (hmarker : IsMarker marker) (more : List (List Char)) :
    (splitContent (splitContent (ls ++ marker :: more)).2).2 <:+ more := by
  have hpassed := splitContent_cons_of_content (isBlankText_of_isMarker hmarker) more
  cases hcontents : contents ls with
  | nil =>
    rw [splitContent_append_of_contents_eq_nil hcontents, hpassed]
    exact splitContent_snd_suffix more
  | cons title others =>
    obtain ⟨passed, rest, rfl, hrest, htitle⟩ := exists_splitContent_append hcontents
    have hnone : contents rest = [] := by
      rw [hcontents, List.length_cons] at h
      rw [hrest]
      exact List.eq_nil_of_length_eq_zero (by omega)
    refine ⟨[], ?_⟩
    rw [List.nil_append, List.append_assoc, htitle,
      splitContent_append_of_contents_eq_nil hnone, hpassed]

/-! ## Reading, record by record -/

/-- Reading by what happens to the records: a line stops the reader, or it is passed with the records
as they were, or it is a violated property. -/
theorem read_induction {motive : CounterexampleReader → List (List Char) → Prop}
    (nil : ∀ reader, motive reader [])
    (stop : ∀ (reader : CounterexampleReader) l rest long,
      (∀ more, reader.read (l :: more) = (reader, some long)) → motive reader (l :: rest))
    (pass : ∀ (reader next : CounterexampleReader) l rest,
      (∀ more, reader.read (l :: more) = next.read more) → next.records = reader.records →
        motive next rest → motive reader (l :: rest))
    (violation : ∀ (reader : CounterexampleReader) l rest, reader.phase ≠ .scanning →
      IsViolation l → StateLine.find? (trim l) = none →
        motive (reader.violated (splitContent rest).1 (splitContent (splitContent rest).2).1)
          (splitContent (splitContent rest).2).2 → motive reader (l :: rest))
    (reader : CounterexampleReader) (ls : List (List Char)) : motive reader ls := by
  fun_induction read reader ls with
  | case1 reader => exact nil reader
  | case2 reader l rest line hmarker ih =>
    exact pass reader _ l rest (fun _ => read_of_isMarker hmarker) rfl ih
  | case3 reader l rest line hmarker hscanning ih =>
    exact pass reader reader l rest (fun _ => read_of_scanning hmarker hscanning) rfl ih
  | case4 reader l rest line hmarker hopen state hstate long hlong =>
    exact stop reader l rest long fun _ => read_of_longState hopen hmarker hstate hlong
  | case5 reader l rest line hmarker hopen state hstate n hn ih =>
    exact pass reader _ l rest (fun _ => read_of_state hopen hmarker hstate hn) rfl ih
  | case6 reader l rest line hmarker hopen hstate hviolation title code ih =>
    exact violation reader l rest hopen (startsWith_iff.1 hviolation) hstate ih
  | case7 reader l rest line hmarker hopen hstate hviolation ih =>
    rw [startsWith_iff] at hviolation
    exact pass reader reader l rest (fun _ => read_of_noise hopen hmarker hstate hviolation) rfl ih

/-- A violated property with a title and a code is read with the lines up to the code, whatever comes
behind. -/
theorem exists_read_append_of_isViolation {reader : CounterexampleReader} {l : List Char}
    {rest : List (List Char)} (hopen : reader.phase ≠ .scanning) (hviolation : IsViolation l)
    (hstate : StateLine.find? (trim l) = none) (hcontents : 2 ≤ (contents rest).length) :
    ∃ passed, l :: rest = passed ++ (splitContent (splitContent rest).2).2 ∧ ∀ more,
      reader.read (passed ++ more) =
        (reader.violated (splitContent rest).1 (splitContent (splitContent rest).2).1).read
          more := by
  obtain ⟨passed, hrest, hsplit⟩ := exists_splitContent_twice_append hcontents
  refine ⟨l :: passed, congrArg (l :: ·) hrest, ?_⟩
  intro more
  obtain ⟨htitle, hcode⟩ := hsplit more
  rw [List.cons_append, read_of_isViolation hopen (not_isMarker_of_isViolation hviolation) hstate
    hviolation, htitle, hcode]

/-- Records are only added, at the end. -/
theorem records_prefix_read (reader : CounterexampleReader) (ls : List (List Char)) :
    reader.records <+: (reader.read ls).1.records := by
  induction reader, ls using read_induction with
  | nil reader => exact ⟨[], by rw [read_nil, List.append_nil]⟩
  | stop reader l rest long hstop => exact ⟨[], by rw [hstop, List.append_nil]⟩
  | pass reader next l rest hpass hrecords ih =>
    rw [hpass, ← hrecords]
    exact ih
  | violation reader l rest hopen hviolation hstate ih =>
    rw [read_of_isViolation hopen (not_isMarker_of_isViolation hviolation) hstate hviolation]
    exact (List.prefix_append _ _).trans ih

/-- A reader that is not stopped by some lines is not stopped by the first ones of them. -/
theorem read_snd_eq_none_of_append {reader : CounterexampleReader} {ls more : List (List Char)}
    (h : (reader.read (ls ++ more)).2 = none) : (reader.read ls).2 = none := by
  rw [Option.eq_none_iff_forall_ne_some] at h ⊢
  intro long hlong
  obtain ⟨before, l, behind, after, rfl, hstop⟩ := read_snd_eq_some_iff.1 hlong
  have hall : before ++ l :: behind ++ more = before ++ l :: (behind ++ more) := by
    rw [List.append_assoc, List.cons_append]
  exact h long (read_snd_eq_some_iff.2 ⟨before, l, behind ++ more, after, hall, hstop⟩)

/-- Lines that are all read are read as far as any line. -/
theorem exists_read_eq_of_append {reader : CounterexampleReader} {ls more : List (List Char)}
    (h : (reader.read (ls ++ more)).2 = none) : ∃ after, reader.read ls = (after, none) :=
  ⟨_, Prod.ext rfl (read_snd_eq_none_of_append h)⟩

/-! ## Sites -/

/-- A place where a record is made: a violated property that a reader comes to while a counterexample
is open, and the reader as it is then. -/
structure Site (reader : CounterexampleReader) (ls : List (List Char)) where
  before : List (List Char)
  violation : List Char
  behind : List (List Char)
  after : CounterexampleReader
  lines_eq : ls = before ++ violation :: behind
  read_eq : reader.read before = (after, none)
  opened : after.phase ≠ .scanning
  isViolation : IsViolation violation
  no_state : StateLine.find? (trim violation) = none

namespace Site

variable {reader : CounterexampleReader} {ls : List (List Char)}

/-- The number of records before the one that is made here. -/
def index (site : Site reader ls) : Nat :=
  site.after.records.length

/-- The record that is made here: the title and the code are the next two contents. -/
def record (site : Site reader ls) : FailureRecord :=
  site.after.failure (contents site.behind)[0]? (contents site.behind)[1]?

/-- A site in the first line. -/
def here {l : List Char} {rest : List (List Char)} (hopen : reader.phase ≠ .scanning)
    (hviolation : IsViolation l) (hstate : StateLine.find? (trim l) = none) :
    Site reader (l :: rest) :=
  ⟨[], l, rest, reader, rfl, read_nil reader, hopen, hviolation, hstate⟩

/-- A site in the lines behind some others is one in all of them, when the others bring the reader to
where it starts from. -/
def behindLines {next : CounterexampleReader} {passed : List (List Char)}
    (hpass : ∀ more, reader.read (passed ++ more) = next.read more) (site : Site next ls) :
    Site reader (passed ++ ls) :=
  { site with
    before := passed ++ site.before
    lines_eq := by rw [List.append_assoc, ← site.lines_eq]
    read_eq := (hpass site.before).trans site.read_eq }

/-- From a site on, reading goes on behind the first two contents, with the record that they give. -/
theorem read_violation (site : Site reader ls) (more : List (List Char)) :
    reader.read (site.before ++ site.violation :: more) =
      (site.after.violated (contents more)[0]? (contents more)[1]?).read
        (splitContent (splitContent more).2).2 := by
  obtain ⟨htitle, hcode⟩ := splitContent_twice more
  rw [read_append_of_open site.read_eq site.opened, read_of_isViolation site.opened
    (not_isMarker_of_isViolation site.isViolation) site.no_state site.isViolation, htitle, hcode]

/-- The record of a site is one of the records, with as many before it as were made before. -/
theorem getElem?_records (site : Site reader ls) :
    (reader.read ls).1.records[site.index]? = some site.record := by
  have hprefix := records_prefix_read
    (site.after.violated (contents site.behind)[0]? (contents site.behind)[1]?)
    (splitContent (splitContent site.behind).2).2
  rw [← site.read_violation, ← site.lines_eq] at hprefix
  obtain ⟨others, hothers⟩ := hprefix
  rw [← hothers, violated, List.append_assoc, index, List.getElem?_append_right (Nat.le_refl _),
    Nat.sub_self]
  rfl

/-- A site further on comes with a later record. -/
theorem index_lt_index (site site' : Site reader ls)
    (h : site.before.length < site'.before.length) : site.index < site'.index := by
  have hprefix : site.before ++ [site.violation] <+: ls := by
    refine ⟨site.behind, ?_⟩
    rw [List.append_assoc, List.singleton_append, ← site.lines_eq]
  have hprefix' : site'.before <+: ls := ⟨_, site'.lines_eq.symm⟩
  have hlength : (site.before ++ [site.violation]).length ≤ site'.before.length := by
    rw [List.length_append, List.length_singleton]
    exact h
  -- the second site is reached from the first one, over the record that is made there
  obtain ⟨between, hbetween⟩ := List.prefix_of_prefix_length_le hprefix hprefix' hlength
  rw [List.append_assoc, List.singleton_append] at hbetween
  have hread := site.read_violation between
  rw [hbetween, site'.read_eq] at hread
  have hadded := records_prefix_read
    (site.after.violated (contents between)[0]? (contents between)[1]?)
    (splitContent (splitContent between).2).2
  rw [← hread] at hadded
  have hle := hadded.length_le
  rw [violated, List.length_append, List.length_singleton] at hle
  exact hle

end Site

/-- Each record is made at a site. -/
theorem exists_site_of_lt {reader : CounterexampleReader} {ls : List (List Char)} {i : Nat}
    (hfrom : reader.records.length ≤ i) (hto : i < (reader.read ls).1.records.length) :
    ∃ site : Site reader ls, site.index = i := by
  induction reader, ls using read_induction with
  | nil reader =>
    rw [read_nil] at hto
    exact absurd hto (Nat.not_lt.2 hfrom)
  | stop reader l rest long hstop =>
    rw [hstop] at hto
    exact absurd hto (Nat.not_lt.2 hfrom)
  | pass reader next l rest hpass hrecords ih =>
    have hpassed : ∀ more, reader.read ([l] ++ more) = next.read more := hpass
    rw [hpass] at hto
    obtain ⟨site, hsite⟩ := ih (hrecords ▸ hfrom) hto
    exact ⟨site.behindLines hpassed, hsite⟩
  | violation reader l rest hopen hviolation hstate ih =>
    rcases Nat.eq_or_lt_of_le hfrom with heq | hlt
    · exact ⟨Site.here hopen hviolation hstate, heq⟩
    · rw [read_of_isViolation hopen (not_isMarker_of_isViolation hviolation) hstate hviolation]
        at hto
      have hnext : (reader.violated (splitContent rest).1
          (splitContent (splitContent rest).2).1).records.length ≤ i := by
        rw [violated, List.length_append, List.length_singleton]
        exact hlt
      obtain ⟨site, hsite⟩ := ih hnext hto
      by_cases hcontents : 2 ≤ (contents rest).length
      · obtain ⟨passed, hrest, hpassed⟩ :=
          exists_read_append_of_isViolation hopen hviolation hstate hcontents
        rw [hrest]
        exact ⟨site.behindLines hpassed, hsite⟩
      · -- nothing is left to be read, so there is no further site
        have hnil := splitContent_twice_snd_of_length_lt (Nat.not_le.1 hcontents)
        have hlines := hnil.symm.trans site.lines_eq
        exact absurd hlines (by simp)

end CounterexampleReader

end ClarityDelta.Verification
