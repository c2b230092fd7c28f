import ClarityDelta.Proofs.Verification.Sites

/-!
# Counterexamples that break off

Titles and codes are looked for without regard to markers. So it matters how many lines with content
stand between a violated property and the next marker. With two of them, or when no marker follows, the
record is made of the lines of its own counterexample, and placeholders stand for what is missing. With
fewer, the marker itself becomes the title or the code, and the counterexample that it opens is not
read.

`counterexamples_told` says for which sites the record is made of the counterexample's own lines, and
which counterexamples have a site.
-/

namespace ClarityDelta.Verification

open Text

namespace CounterexampleReader

/-! ## Markers -/

/-- A marker opens a counterexample when each violated property before it has a title and a code before
it too. -/
theorem read_append_of_isMarker {reader after : CounterexampleReader}
    {before rest : List (List Char)} {marker : List Char} (hread : reader.read before = (after, none))
    (hmarker : IsMarker marker)
    (hsites : ∀ site : Site reader before, 2 ≤ (contents site.behind).length) :
    reader.read (before ++ marker :: rest) =
      read { after with phase := .inCounterexample } rest := by
  induction reader, before using read_induction with
  | nil reader =>
    rw [read_nil] at hread
    obtain ⟨rfl, -⟩ := Prod.mk.inj hread
    exact read_of_isMarker hmarker
  | stop reader l ls long hstop =>
    rw [hstop] at hread
    exact absurd (Prod.mk.inj hread).2 (Option.some_ne_none long)
  | pass reader next l ls hpass hrecords ih =>
    have hpassed : ∀ more, reader.read ([l] ++ more) = next.read more := hpass
    rw [hpass] at hread
    rw [List.cons_append, hpass]
    exact ih hread fun site => hsites (site.behindLines hpassed)
  | violation reader l ls hopen hviolation hstate ih =>
    -- this line is itself a site, so its title and its code come before the marker
    have hcontents : 2 ≤ (contents ls).length := hsites (Site.here hopen hviolation hstate)
    obtain ⟨passed, hls, hpassed⟩ :=
      exists_read_append_of_isViolation hopen hviolation hstate hcontents
    rw [hls] at hread hsites ⊢
    rw [hpassed] at hread
    rw [List.append_assoc, hpassed]
    exact ih hread fun site => hsites (site.behindLines hpassed)

/-- Lines without a marker and without a violated property leave a counterexample open. -/
theorem exists_read_eq_of_details {reader : CounterexampleReader} {details : List (List Char)}
    (hopen : reader.phase ≠ .scanning)
    (hdetails : ∀ l ∈ details, ¬IsMarker l ∧ (IsViolation l → StateLine.find? (trim l) ≠ none))
    (hread : (reader.read details).2 = none) :
    ∃ after, reader.read details = (after, none) ∧ after.phase ≠ .scanning := by
  induction details generalizing reader with
  | nil => exact ⟨reader, read_nil reader, hopen⟩
  | cons l details ih =>
    obtain ⟨hmarker, hviolation⟩ := hdetails l List.mem_cons_self
    have hothers := fun l' hl' => hdetails l' (List.mem_cons_of_mem l hl')
    cases hstate : StateLine.find? (trim l) with
    | none =>
      have hnoise : ¬IsViolation l := fun h => hviolation h hstate
      rw [read_of_noise hopen hmarker hstate hnoise] at hread ⊢
      exact ih hopen hothers hread
    | some state =>
      cases hn : numeral state.digits with
      | error long =>
        rw [read_of_longState hopen hmarker hstate hn] at hread
        exact absurd hread (Option.some_ne_none long)
      | ok n =>
        rw [read_of_state hopen hmarker hstate hn] at hread ⊢
        exact ih hopen hothers hread

/-- When a title or a code is still looked for at a marker, nothing of what comes before the next marker
is read. -/
theorem read_of_length_contents_lt {reader : CounterexampleReader}
    (hphase : reader.phase = .scanning) {between details : List (List Char)} {marker : List Char}
    (hcontents : (contents between).length < 2) (hmarker : IsMarker marker)
    (hdetails : ∀ l ∈ details, ¬IsMarker l) :
    reader.read (splitContent (splitContent (between ++ marker :: details)).2).2 =
      (reader, none) := by
  have hsuffix := splitContent_twice_suffix hcontents hmarker details
  rw [← List.append_nil (splitContent _).2,
    read_append_of_scanning hphase fun l hl => hdetails l (hsuffix.subset hl), read_nil]

/-- A marker, and the first violated property behind it. -/
structure Frame (ls : List (List Char)) where
  before : List (List Char)
  marker : List Char
  details : List (List Char)
  violation : List Char
  behind : List (List Char)
  lines_eq : ls = before ++ marker :: (details ++ violation :: behind)
  isMarker : IsMarker marker
  details_pass : ∀ l ∈ details, ¬IsMarker l ∧ (IsViolation l → StateLine.find? (trim l) ≠ none)
  isViolation : IsViolation violation
  no_state : StateLine.find? (trim violation) = none

/-- The lines before the violated property. -/
def Frame.upToViolation {ls : List (List Char)} (frame : Frame ls) : List (List Char) :=
  frame.before ++ frame.marker :: frame.details

/-- A counterexample makes a record of its own exactly when each violated property before it has a
title and a code before its marker. -/
theorem Frame.exists_site_iff {reader : CounterexampleReader} {ls : List (List Char)}
    (frame : Frame ls) (hread : (reader.read ls).2 = none) :
    (∃ site : Site reader ls, site.before = frame.upToViolation) ↔
      ∀ site : Site reader frame.before, 2 ≤ (contents site.behind).length := by
  have hall : ls = frame.upToViolation ++ frame.violation :: frame.behind := by
    rw [upToViolation, List.append_assoc, List.cons_append]
    exact frame.lines_eq
  constructor
  · rintro ⟨site, hbefore⟩ first
    by_contra hfew
    -- the first of the two sites takes the marker, so at the second one no counterexample is open
    have hread' := site.read_eq
    rw [hbefore, upToViolation, first.lines_eq, List.append_assoc, List.cons_append,
      first.read_violation, read_of_length_contents_lt rfl (Nat.not_le.1 hfew) frame.isMarker
        fun l hl => (frame.details_pass l hl).1] at hread'
    obtain ⟨hafter, -⟩ := Prod.mk.inj hread'
    apply site.opened
    rw [← hafter]
    rfl
  · intro hsites
    rw [hall] at hread
    have hupTo := read_snd_eq_none_of_append hread
    obtain ⟨after, hafter⟩ := exists_read_eq_of_append hupTo
    have hmarker : reader.read frame.upToViolation =
        read { after with phase := .inCounterexample } frame.details :=
      read_append_of_isMarker hafter frame.isMarker hsites
    rw [hmarker] at hupTo
    obtain ⟨last, hlast, hopen⟩ :=
      exists_read_eq_of_details Phase.noConfusion frame.details_pass hupTo
    exact ⟨⟨frame.upToViolation, frame.violation, frame.behind, last, hall, hmarker.trans hlast,
      hopen, frame.isViolation, frame.no_state⟩, rfl⟩

/-! ## Counterexamples cut short -/

namespace Site

variable {reader : CounterexampleReader} {ls : List (List Char)}

/-- The lines that are left of the counterexample: those up to the next marker. -/
def own (site : Site reader ls) : List (List Char) :=
  site.behind.takeWhile (¬IsMarker ·)

/-- The record that the lines of the counterexample give: placeholders stand for the title and the
code when they are missing there. -/
def ownRecord (site : Site reader ls) : FailureRecord :=
  site.after.failure (contents site.own)[0]? (contents site.own)[1]?

/-- The next marker comes before a title and a code. -/
def CutShort (site : Site reader ls) : Prop :=
  (contents site.own).length < 2 ∧ site.own ≠ site.behind

/-- When the next marker does not cut it short, a counterexample makes its record from its own
lines. -/
theorem record_eq_ownRecord (site : Site reader ls) (h : ¬site.CutShort) :
    site.record = site.ownRecord := by
  by_cases hall : site.own = site.behind
  · rw [ownRecord, hall]
    rfl
  · have hboth : 2 ≤ (contents site.own).length := by
      by_contra hfew
      exact h ⟨Nat.not_le.1 hfew, hall⟩
    have hcontents : contents site.behind =
        contents site.own ++ contents (site.behind.dropWhile (¬IsMarker ·)) := by
      rw [← contents_append, own, List.takeWhile_append_dropWhile]
    rw [record, hcontents, List.getElem?_append_left (by omega),
      List.getElem?_append_left (by omega)]
    rfl

/-- When the next marker cuts a counterexample short, the marker is taken for the title, or for the
code if a title is there. -/
theorem record_of_cutShort (site : Site reader ls) (h : site.CutShort) :
    contents site.own = [] ∧ site.record.title = String.ofList counterexampleMarker ∨
      ∃ title, contents site.own = [title] ∧ site.record.title = String.ofList title ∧
        site.record.failingCode = String.ofList counterexampleMarker := by
  obtain ⟨hfew, hmore⟩ := h
  have hsplit : site.behind = site.own ++ site.behind.dropWhile (¬IsMarker ·) :=
    List.takeWhile_append_dropWhile.symm
  cases hrest : site.behind.dropWhile (¬IsMarker ·) with
  | nil =>
    rw [hrest, List.append_nil] at hsplit
    exact absurd hsplit.symm hmore
  | cons marker more =>
    have hmarker : IsMarker marker := by
      have hnot := List.head?_dropWhile_not (¬IsMarker ·) site.behind
      rw [hrest] at hnot
      simpa using hnot
    have hcontents : contents site.behind =
        contents site.own ++ counterexampleMarker :: contents more := by
      rw [hsplit, hrest, contents_append, contents_cons_of_isMarker hmarker]
    cases hown : contents site.own with
    | nil =>
      rw [hown] at hcontents
      refine Or.inl ⟨rfl, ?_⟩
      rw [record, hcontents]
      rfl
    | cons title others =>
      have hnone : others = [] := by
        rw [hown, List.length_cons] at hfew
        exact List.eq_nil_of_length_eq_zero (by omega)
      rw [hown, hnone] at hcontents
      refine Or.inr ⟨title, by rw [hnone], ?_, ?_⟩
      · rw [record, hcontents]
        rfl
      · rw [record, hcontents]
        rfl

end Site

end CounterexampleReader

/-! ## Texts -/

open CounterexampleReader

/-- What the records of a text have to do with its lines. -/
structure Told (ls : List (List Char)) (records : List FailureRecord) : Prop where
  /-- Each record is made at a site. -/
  exists_site : ∀ i < records.length, ∃ site : Site start ls, site.index = i
  /-- At each site a record is made, behind as many others as were made before. -/
  getElem?_index : ∀ site : Site start ls, records[site.index]? = some site.record
  /-- Each site has a record of its own, later sites later ones. -/
  index_lt : ∀ site site' : Site start ls,
    site.before.length < site'.before.length → site.index < site'.index
  /-- Unless the next marker comes before a title and a code, the record is made of the lines before
  this marker, placeholders standing for what is missing there. -/
  own : ∀ site : Site start ls, ¬site.CutShort → site.record = site.ownRecord
  /-- If it does, the marker is taken for the title or the code. -/
  cutShort : ∀ site : Site start ls, site.CutShort →
    contents site.own = [] ∧ site.record.title = String.ofList counterexampleMarker ∨
      ∃ title, contents site.own = [title] ∧ site.record.title = String.ofList title ∧
        site.record.failingCode = String.ofList counterexampleMarker
  /-- A counterexample has a site, and so a record of its own, exactly when each violated property
  before its marker has a title and a code before this marker. -/
  frame : ∀ frame : Frame ls, (∃ site : Site start ls, site.before = frame.upToViolation) ↔
    ∀ site : Site start frame.before, 2 ≤ (contents site.behind).length

/-- The records of a text come from its violated properties one by one, each from the lines of its own
counterexample unless that breaks off before a title and a code and another one follows. -/
theorem counterexamples_told {text : String} {records : List FailureRecord}
    (h : counterexamples text = .ok records) : Told (lines text.toList) records := by
  obtain ⟨hrecords, hread⟩ : (start.read (lines text.toList)).1.records = records ∧
      (start.read (lines text.toList)).2 = none := by
    rw [counterexamples, readText] at h
    rcases hall : start.read (lines text.toList) with ⟨reader, _ | long⟩
    · rw [hall] at h
      exact ⟨Except.ok.inj h, rfl⟩
    · rw [hall] at h
      cases h
  refine ⟨?exists_site, ?getElem?_index, ?index_lt, ?own, ?cutShort, ?frame⟩
  case exists_site =>
    intro i hi
    exact exists_site_of_lt (Nat.zero_le i) (hrecords.symm ▸ hi)
  case getElem?_index =>
    intro site
    rw [← hrecords]
    exact site.getElem?_records
  case index_lt => exact Site.index_lt_index
  case own => exact Site.record_eq_ownRecord
  case cutShort => exact Site.record_of_cutShort
  case frame => exact fun frame => frame.exists_site_iff hread

/-- An output that ends before the title of its second counterexample. -/
def endsEarly : String :=
  "\n".intercalate ["[Counterexample]", "Violated property:", "assertion", "(ok u1)",
    "[Counterexample]", "Violated property:", ""]

/-- Its two records. The second one has placeholders. -/
def endsEarlyRecords : List FailureRecord :=
  [⟨"unknown_function", -1, "assertion", "(ok u1)"⟩,
    ⟨"unknown_function", -1, "unknown-property", "unknown-failing-code"⟩]

/-- A counterexample that breaks off early is told with placeholders. -/
theorem counterexamples_told_endsEarly :
    counterexamples endsEarly = .ok endsEarlyRecords ∧
      Told (lines endsEarly.toList) endsEarlyRecords := by
  have hread : counterexamples endsEarly = .ok endsEarlyRecords := by decide +kernel
  exact ⟨hread, counterexamples_told hread⟩

/-- An output whose first counterexample breaks off before its title. The second one is complete. -/
def breaksOff : String :=
  "\n".intercalate ["[Counterexample]", "State 1 file a.clar line 3 function f thread 0",
    "Violated property:", "[Counterexample]", "State 2 file a.clar line 9 function g thread 0",
    "Violated property:", "assertion", "(ok u1)"]

/-- The marker of the complete counterexample is taken for the title of the other one and its state line
for the code, so it makes no record. -/
theorem counterexamples_breaksOff :
    counterexamples breaksOff =
      .ok [⟨"f", 3, "[Counterexample]", "State 2 file a.clar line 9 function g thread 0"⟩] := by
  decide +kernel

end ClarityDelta.Verification
