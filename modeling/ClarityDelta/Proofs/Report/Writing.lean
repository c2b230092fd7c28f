import ClarityDelta.Proofs.Files.Storing
import ClarityDelta.Proofs.Logging.Confined
import ClarityDelta.Proofs.Text.Encoding
import ClarityDelta.Report.Write

/-!
# Reports are written whole or not at all

A report that is written stands where its path leads to, and all other regular files are as they were;
where writing it fails, all regular files are as they were, whatever directories were made by then. Only
a text with a surrogate ends in another way: it has no bytes, but the file is opened before that is found,
so an empty file is left, `write_surrogate`. A step never takes a directory away, so a path that once led to
a report goes on leading to it. `writeEach_stores` says from that what the files are after any run of
reports: at each location the last text stored there.
-/

namespace ClarityDelta.Report

open Files FileTree FileWork Logging Text

variable {path : String} {text : CodeText} {before middle after : FileTree} {location : Location}

/-- Writing a text writes its bytes, or nothing and then fails when it has none. -/
theorem exists_writeCodes_eq (path : String) (text : CodeText) :
    (∃ content, text.encode = .ok content ∧
      writeCodes path text = (do FileWork.write path content; return none)) ∨
      ∃ fault, text.encode = .error fault ∧
        writeCodes path text = (do FileWork.write path ByteArray.empty; return some fault) := by
  rw [writeCodes]
  cases text.encode with
  | ok content => exact Or.inl ⟨content, rfl, rfl⟩
  | error fault => exact Or.inr ⟨fault, rfl, rfl⟩

/-- A file is written with some content, and what the fault is, if there is one, is told afterwards; or
directories have been made at most. -/
theorem makeDirectories_return_cases (directory path : String) (content : ByteArray)
    (fault? : Option EncodeFault) (tree : FileTree) :
    let work : FileWork (Option EncodeFault) := do
      makeDirectories directory
      FileWork.write path content
      return fault?
    (∃ error after, work tree = (.error error, after) ∧ tree.Grew after ∧
      ('\x00' ∉ directory.toList → '\x00' ∉ path.toList → error.isSystem = true)) ∨
      ∃ middle location after, tree.Grew middle ∧ middle.reach path = .ok location ∧
        work tree = (.ok fault?, after) ∧ Wrote location content middle after := by
  intro work
  have hwork : work = ((do makeDirectories directory; FileWork.write path content) >>= fun _ =>
      pure fault? : FileWork (Option EncodeFault)) := (bind_assoc _ _ _).symm
  rw [hwork, Action.bind_apply]
  obtain ⟨error, after, hrun, hgrew⟩ | ⟨middle, location, after, hgrew, hreach, hrun, hwrote⟩ :=
    makeDirectories_write_cases directory path content tree
  · rw [hrun]
    exact Or.inl ⟨error, after, rfl, hgrew, fun hdirectory hpath =>
      (makeDirectories_write_isSystem hdirectory hpath content).allowed_of_error trivial
        (congrArg Prod.fst hrun)⟩
  · rw [hrun]
    exact Or.inr ⟨middle, location, after, hgrew, hreach, rfl, hwrote⟩

/-- A report is written where its path leads to; or writing it fails, and directories have been made at
most. The command line is told of the failure, unless no path of the file system has such a text. A text
that has no bytes leaves an empty file where its path leads to. -/
theorem write_cases (path : String) (text : CodeText) (w : Workspace) :
    (∃ fault files, write path text w = (.error fault, { w with files := files }) ∧
      w.files.Grew files ∧
      (fault.isOwn = true → ∃ cause, fault = .report (Path.ofText path).text cause) ∧
      ('\x00' ∉ path.toList → fault.isOwn = true)) ∨
      ∃ middle files content, w.files.Grew middle ∧
        middle.reach (Path.ofText path).text = .ok (locate w.files.current path) ∧
        Wrote (locate w.files.current path) content middle files ∧
        (text.encode = .ok content ∧
            write path text w = (.ok (Path.ofText path).text, { w with files := files }) ∨
          content = ByteArray.empty ∧ ∃ fault, text.encode = .error fault ∧
            write path text w = (.error (.unencodable fault), { w with files := files })) := by
  -- with a content and a fault that belong to the text, both ends are the same but for the outcome
  have hcases {content : ByteArray} {fault? : Option EncodeFault}
      (hwrite : writeCodes (Path.ofText path).text text =
        (do FileWork.write (Path.ofText path).text content; return fault?)) :
      (∃ error files, Work.tryFiles (do
          makeDirectories (Path.ofText path).parent.text
          writeCodes (Path.ofText path).text text) w = (.ok (.error error), { w with files := files }) ∧
        w.files.Grew files ∧ ('\x00' ∉ path.toList → error.isSystem = true)) ∨
        ∃ middle files, w.files.Grew middle ∧
          middle.reach (Path.ofText path).text = .ok (locate w.files.current path) ∧
          Wrote (locate w.files.current path) content middle files ∧ Work.tryFiles (do
            makeDirectories (Path.ofText path).parent.text
            writeCodes (Path.ofText path).text text) w = (.ok (.ok fault?), { w with files := files }) := by
    rw [hwrite, tryFiles_apply]
    obtain ⟨error, after, hrun, hgrew, hsystem⟩ | ⟨middle, location, after, hgrew, hreach, hrun, hwrote⟩ :=
      makeDirectories_return_cases (Path.ofText path).parent.text (Path.ofText path).text content fault?
        w.files
    · rw [hrun]
      exact Or.inl ⟨error, after, rfl, hgrew, fun hpath => hsystem
        (Path.nulFree_ofText hpath).parent.text (Path.nulFree_ofText hpath).text⟩
    · rw [hrun]
      have hplace : location = locate w.files.current path := by
        rw [reach_eq hreach, hgrew.current_eq, locate_text]
      rw [hplace] at hreach hwrote
      exact Or.inr ⟨middle, after, hgrew, hreach, hwrote, rfl⟩
  have hfailed {error : FileError} {files : FileTree} (hrun : Work.tryFiles (do
        makeDirectories (Path.ofText path).parent.text
        writeCodes (Path.ofText path).text text) w = (.ok (.error error), { w with files := files }))
      (hsystem : '\x00' ∉ path.toList → error.isSystem = true) :
      ∃ fault, write path text w = (.error fault, { w with files := files }) ∧
        (fault.isOwn = true → ∃ cause, fault = .report (Path.ofText path).text cause) ∧
        ('\x00' ∉ path.toList → fault.isOwn = true) := by
    rw [write, Action.bind_apply, hrun]
    dsimp only
    by_cases h : error.isSystem = true
    · rw [if_pos h]
      exact ⟨_, rfl, fun _ => ⟨error, rfl⟩, fun _ => rfl⟩
    · rw [if_neg h]
      exact ⟨_, rfl, fun hown => (by cases hown), fun hpath => absurd (hsystem hpath) h⟩
  obtain ⟨content, hencode, hwrite⟩ | ⟨fault, hencode, hwrite⟩ :=
    exists_writeCodes_eq (Path.ofText path).text text
  · obtain ⟨error, files, hrun, hgrew, hsystem⟩ | ⟨middle, files, hgrew, hreach, hwrote, hrun⟩ :=
      hcases hwrite
    · obtain ⟨fault, hfault, hown⟩ := hfailed hrun hsystem
      exact Or.inl ⟨fault, files, hfault, hgrew, hown⟩
    · refine Or.inr ⟨middle, files, content, hgrew, hreach, hwrote, Or.inl ⟨hencode, ?_⟩⟩
      rw [write, Action.bind_apply, hrun]
      rfl
  · obtain ⟨error, files, hrun, hgrew, hsystem⟩ | ⟨middle, files, hgrew, hreach, hwrote, hrun⟩ :=
      hcases hwrite
    · obtain ⟨fault, hfault, hown⟩ := hfailed hrun hsystem
      exact Or.inl ⟨fault, files, hfault, hgrew, hown⟩
    · refine Or.inr ⟨middle, files, ByteArray.empty, hgrew, hreach, hwrote,
        Or.inr ⟨rfl, fault, hencode, ?_⟩⟩
      rw [write, Action.bind_apply, hrun]
      rfl

/-- A report of characters is written where its path leads to; or writing it fails, and directories have
been made at most. -/
theorem write_ofString_cases (path s : String) (w : Workspace) :
    (∃ fault files, write path s w = (.error fault, { w with files := files }) ∧
      w.files.Grew files ∧
      (fault.isOwn = true → ∃ cause, fault = .report (Path.ofText path).text cause) ∧
      ('\x00' ∉ path.toList → fault.isOwn = true)) ∨
      ∃ middle files, w.files.Grew middle ∧
        middle.reach (Path.ofText path).text = .ok (locate w.files.current path) ∧
        Wrote (locate w.files.current path) s.toUTF8 middle files ∧
          write path s w = (.ok (Path.ofText path).text, { w with files := files }) := by
  obtain hfailed | ⟨middle, files, content, hgrew, hreach, hwrote, hends⟩ := write_cases path s w
  · exact Or.inl hfailed
  obtain ⟨hencode, hrun⟩ | ⟨-, fault, hencode, -⟩ := hends
  · obtain rfl := Except.ok.inj ((CodeText.encode_ofString s).symm.trans hencode)
    exact Or.inr ⟨middle, files, hgrew, hreach, hwrote, hrun⟩
  · rw [CodeText.encode_ofString] at hencode
    cases hencode

/-! ## One report -/

/-- How writing a report ends. It stands at the location that its path names, the path in its one form
leads there, and the other regular files stay; or the fault names the path, and all regular files
stay; or the text has a surrogate, which the fault tells, and an empty file stands at that location. -/
inductive Ends (path : String) (text : CodeText) (before after : FileTree) : Except Fault String → Prop
  | stored (s : String) (text_eq : text = .ofString s) (file : RegularFile)
      (reach_eq : after.reach (Path.ofText path).text = .ok (locate before.current path))
      (file_eq : after.file? (locate before.current path) = some file)
      (content_eq : file.content = s.toUTF8)
      (others : ∀ other, other ≠ locate before.current path →
        after.file? other = before.file? other) :
      Ends path text before after (.ok (Path.ofText path).text)
  | failed (cause : FileError) (files : ∀ location, after.file? location = before.file? location) :
      Ends path text before after (.error (.report (Path.ofText path).text cause))
  | emptied (characters : String) (index : Fin 2048) (rest : List CodePoint)
      (text_eq : text = ⟨characters, some (index, rest)⟩) (file : RegularFile)
      (reach_eq : after.reach (Path.ofText path).text = .ok (locate before.current path))
      (file_eq : after.file? (locate before.current path) = some file)
      (content_eq : file.content = ByteArray.empty)
      (others : ∀ other, other ≠ locate before.current path →
        after.file? other = before.file? other) :
      Ends path text before after (.error (.unencodable (CodeText.faultAt characters index rest)))

/-- The directories of a tree are there afterwards, and paths begin at the same place. -/
structure KeepsWays (before after : FileTree) : Prop where
  current_eq : after.current = before.current
  directories : ∀ location, before.look location = some none → after.look location = some none

/-- A tree keeps its own ways. -/
theorem KeepsWays.refl (tree : FileTree) : KeepsWays tree tree :=
  ⟨rfl, fun _ h => h⟩

/-- Ways that are kept twice are kept. -/
theorem KeepsWays.trans (h : KeepsWays before middle) (hlast : KeepsWays middle after) :
    KeepsWays before after :=
  ⟨hlast.current_eq.trans h.current_eq, fun l hl => hlast.directories l (h.directories l hl)⟩

/-- Making directories keeps all ways. -/
theorem keepsWays_of_grew (h : before.Grew after) : KeepsWays before after where
  current_eq := h.current_eq
  directories l hl := by
    rcases h.look_cases l with heq | ⟨hnone, -⟩
    · rw [heq, hl]
    · rw [hnone] at hl
      cases hl

/-- Writing a file keeps all ways. -/
theorem keepsWays_of_wrote {content : ByteArray} (h : Wrote location content before after) :
    KeepsWays before after where
  current_eq := h.current_eq
  directories l hl := by
    -- no directory is at the place of the file
    have hne : l ≠ location := fun heq => h.look_ne (heq ▸ hl)
    rw [h.look_of_ne l hne, hl]

/-- Writing a report ends in one of the three ways, nothing but files being touched. -/
theorem write_ends (hpath : '\x00' ∉ path.toList) (text : CodeText) (w : Workspace) :
    ∃ outcome files, (write path text).attempt w = (.ok outcome, { w with files := files }) ∧
      Ends path text w.files files outcome ∧ KeepsWays w.files files := by
  obtain ⟨fault, files, hrun, hgrew, hown, hnul⟩ |
      ⟨middle, files, content, hgrew, hreach, hwrote, hends⟩ := write_cases path text w
  · obtain ⟨cause, rfl⟩ := hown (hnul hpath)
    refine ⟨_, files, ?_, .failed cause hgrew.file?_eq, keepsWays_of_grew hgrew⟩
    rw [Action.attempt, hrun]
  · have hways : KeepsWays w.files files := (keepsWays_of_grew hgrew).trans (keepsWays_of_wrote hwrote)
    have hothers : ∀ other, other ≠ locate w.files.current path →
        files.file? other = w.files.file? other := fun other hother =>
      (hwrote.file?_eq hother).trans (hgrew.file?_eq other)
    obtain ⟨file, hfile, hcontent, -⟩ := hwrote.look_eq
    obtain ⟨hencode, hrun⟩ | ⟨rfl, fault, hencode, hrun⟩ := hends
    · obtain ⟨s, rfl, rfl⟩ := CodeText.encode_eq_ok_iff.mp hencode
      refine ⟨_, files, ?_, .stored s rfl file (hwrote.reach hreach) (file?_eq_some_iff.mpr hfile)
        hcontent hothers, hways⟩
      rw [Action.attempt, hrun]
    · obtain ⟨characters, index, rest, htext, rfl⟩ := CodeText.encode_eq_error_iff.mp hencode
      refine ⟨_, files, ?_, .emptied characters index rest htext file (hwrote.reach hreach)
        (file?_eq_some_iff.mpr hfile) hcontent hothers, hways⟩
      rw [Action.attempt, hrun]

/-! ## Reports one after another -/

/-- Writes texts to their paths one after another, whatever becomes of each. -/
def writeEach (requests : List (String × CodeText)) : Work (List (Except Fault String)) :=
  requests.mapM fun request => (write request.1 request.2).attempt

/-- How some requests end, one after another, no directory being taken away. -/
inductive AllEnd :
    FileTree → List (String × CodeText) → List (Except Fault String) → FileTree → Prop
  | nil (tree : FileTree) : AllEnd tree [] [] tree
  | cons {before middle after : FileTree} {path : String} {text : CodeText}
      {outcome : Except Fault String} {requests : List (String × CodeText)} {outcomes : List (Except Fault String)}
      (first : Ends path text before middle outcome) (ways : KeepsWays before middle)
      (rest : AllEnd middle requests outcomes after) :
      AllEnd before ((path, text) :: requests) (outcome :: outcomes) after

/-- What a request leaves where its path leads to, if anything: its text, or the empty text when its own
cannot be encoded. -/
def left? (text : CodeText) : Except Fault String → Option CodeText
  | .ok _ => some text
  | .error (.unencodable _) => some (.ofString "")
  | .error _ => none

/-- The texts that were left at a location, in order. -/
def textsAt (current location : Location) (requests : List (String × CodeText))
    (outcomes : List (Except Fault String)) : List CodeText :=
  (requests.zip outcomes).filterMap fun (request, outcome) =>
    if locate current request.1 = location then left? request.2 outcome else none

/-- At a location stands the last of some texts, or what stood there before when there is none. -/
def HoldsLast (before after : FileTree) (location : Location) (texts : List CodeText) : Prop :=
  match texts.getLast? with
  | some text => ∃ file, after.file? location = some file ∧ text.encode = .ok file.content
  | none => after.file? location = before.file? location

variable {requests : List (String × CodeText)} {outcome : Except Fault String}
  {outcomes : List (Except Fault String)}

/-- The first request leaves its text at a location if its path leads there; the others leave theirs
behind it. -/
theorem textsAt_cons (current location : Location) (path : String) (text : CodeText)
    (outcome : Except Fault String) :
    textsAt current location ((path, text) :: requests) (outcome :: outcomes) =
      (if locate current path = location then left? text outcome else none).toList ++
        textsAt current location requests outcomes := by
  rw [textsAt, List.zip_cons_cons, List.filterMap_cons]
  dsimp only
  cases (if locate current path = location then left? text outcome else none) with
  | none => rfl
  | some left => rfl

/-- A request leaves nothing at other locations than that of its path. -/
theorem Ends.file?_eq (h : Ends path text before after outcome)
    (hlocation : locate before.current path ≠ location) :
    after.file? location = before.file? location := by
  cases h with
  | stored s htext file hreach hfile hcontent hothers => exact hothers location hlocation.symm
  | failed cause hfiles => exact hfiles location
  | emptied characters index rest htext file hreach hfile hcontent hothers =>
    exact hothers location hlocation.symm

/-- What a request leaves stands at the location of its path. -/
theorem Ends.holdsLast (h : Ends path text before after outcome) :
    HoldsLast before after (locate before.current path) (left? text outcome).toList := by
  cases h with
  | stored s htext file hreach hfile hcontent hothers =>
    refine ⟨file, hfile, ?_⟩
    rw [htext, hcontent]
    exact CodeText.encode_ofString s
  | failed cause hfiles => exact hfiles _
  | emptied characters index rest htext file hreach hfile hcontent hothers =>
    refine ⟨file, hfile, ?_⟩
    rw [hcontent]
    exact CodeText.encode_ofString ""

/-- What a location holds after a request, unless there is a last text for it from later on. -/
theorem Ends.holdsLast_append (h : Ends path text before middle outcome) {texts : List CodeText}
    (hlast : HoldsLast middle after location texts) :
    HoldsLast before after location
      ((if locate before.current path = location then left? text outcome else none).toList ++ texts) := by
  rw [HoldsLast, List.getLast?_append]
  rw [HoldsLast] at hlast
  rcases hfound : texts.getLast? with _ | last
  · rw [hfound] at hlast
    dsimp only at hlast
    rw [Option.none_or, hlast]
    by_cases hplace : locate before.current path = location
    · rw [if_pos hplace, ← hplace]
      exact h.holdsLast
    · rw [if_neg hplace]
      exact h.file?_eq hplace
  · rw [hfound] at hlast
    exact hlast

/-- A way that was open stays open. -/
theorem KeepsWays.reach_eq (h : KeepsWays before after) (hreach : before.reach path = .ok location) :
    after.reach path = .ok location :=
  reach_of_directories h.directories h.current_eq hreach

namespace AllEnd

/-- Requests one after another keep all ways. -/
theorem keepsWays (h : AllEnd before requests outcomes after) : KeepsWays before after := by
  induction h with
  | nil tree => exact .refl tree
  | cons _ ways _ ih => exact ways.trans ih

/-- The path of a report that was written goes on leading to its location. -/
theorem reach_eq (h : AllEnd before requests outcomes after) {written : String}
    (hmem : ((path, text), .ok written) ∈ requests.zip outcomes) :
    after.reach written = .ok (locate before.current path) := by
  induction h with
  | nil => exact absurd hmem List.not_mem_nil
  | cons first ways rest ih =>
    rw [List.zip_cons_cons, List.mem_cons] at hmem
    rcases hmem with heq | hmem
    · cases heq
      cases first with
      | stored s htext file hreach => exact rest.keepsWays.reach_eq hreach
    · rw [ih hmem, ways.current_eq]

/-- After some requests each location holds the last text that was left there. -/
theorem holdsLast (h : AllEnd before requests outcomes after) (location : Location) :
    HoldsLast before after location (textsAt before.current location requests outcomes) := by
  induction h with
  | nil tree => rfl
  | cons first ways rest ih =>
    rw [textsAt_cons]
    rw [ways.current_eq] at ih
    exact first.holdsLast_append ih

end AllEnd

/-- Requests end one after another, each in one of the three ways. -/
theorem writeEach_allEnd (hpaths : ∀ request ∈ requests, '\x00' ∉ request.1.toList) (w : Workspace) :
    ∃ outcomes files, writeEach requests w = (.ok outcomes, { w with files := files }) ∧
      AllEnd w.files requests outcomes files := by
  induction requests generalizing w with
  | nil => exact ⟨[], w.files, rfl, .nil _⟩
  | cons request requests ih =>
    obtain ⟨path, text⟩ := request
    obtain ⟨outcome, middle, hfirst, hends, hways⟩ := write_ends (hpaths _ List.mem_cons_self) text w
    obtain ⟨outcomes, files, hrest, hall⟩ :=
      ih (fun request hrequest => hpaths request (List.mem_cons_of_mem _ hrequest))
        { w with files := middle }
    refine ⟨outcome :: outcomes, files, ?_, .cons hends hways hall⟩
    rw [writeEach, List.mapM_cons, Action.bind_apply, hfirst]
    dsimp only
    rw [Action.bind_apply, ← writeEach, hrest]
    rfl

/-- Each report is written whole or not at all, whatever was written before it, but for texts with a
surrogate. The path of a report that was written leads to its location for good, and each location holds the
last text that was left there, or what it held before when there is none. -/
theorem writeEach_stores (requests : List (String × CodeText))
    (hpaths : ∀ request ∈ requests, '\x00' ∉ request.1.toList) (w : Workspace) :
    ∃ outcomes files, writeEach requests w = (.ok outcomes, { w with files := files }) ∧
      AllEnd w.files requests outcomes files ∧
      (∀ path text written, ((path, text), .ok written) ∈ requests.zip outcomes →
        files.reach written = .ok (locate w.files.current path)) ∧
      ∀ location, HoldsLast w.files files location
        (textsAt w.files.current location requests outcomes) := by
  obtain ⟨outcomes, files, hrun, hall⟩ := writeEach_allEnd hpaths w
  exact ⟨outcomes, files, hrun, hall, fun _ _ _ => hall.reach_eq, hall.holdsLast⟩

/-- A report two directories down, one below a report, one that takes a way round to the first, and one
where a directory is. -/
def fourReports : List (String × CodeText) :=
  [("out/a/r.md", "one"), ("out/a/r.md/x", "two"), ("./out/b/..//a/r.md", "three"), ("out/a/", "four")]

/-- A workspace without files. -/
def bareWorkspace : Workspace where
  files := .empty ["w"]
  environment := []
  answer _ _ := .timedOut
  calls := []
  loggers := []
  console := []
  shown := []

/-- The first report has the text of the third one then, and the others are not written. -/
theorem writeEach_stores_roundabout :
    ∃ outcomes files, writeEach fourReports bareWorkspace =
        (.ok outcomes, { bareWorkspace with files := files }) ∧
      AllEnd bareWorkspace.files fourReports outcomes files ∧
      outcomes.map Except.isOk = [true, false, true, false] ∧
      (files.fileAt? "out/a/r.md").map (·.content.toList) = some "three".toUTF8.toList := by
  obtain ⟨outcomes, files, hrun, hall, -, -⟩ :=
    writeEach_stores fourReports (by decide) bareWorkspace
  refine ⟨outcomes, files, hrun, hall, ?_, ?_⟩
  · have hcodes : (writeEach fourReports bareWorkspace).1.toOption.map (·.map Except.isOk) =
        some [true, false, true, false] := by decide +kernel
    rw [hrun] at hcodes
    exact Option.some.inj hcodes
  · have hfiles : files = (writeEach fourReports bareWorkspace).2.files := by rw [hrun]
    rw [hfiles]
    decide +kernel

/-- The first surrogate. -/
def loneSurrogate : CodeText :=
  ⟨"", some (0, [])⟩

/-- Over a report that is there, a text with a surrogate fails otherwise than reports do, and the report is
lost. -/
theorem write_surrogate :
    ∃ before files, (write "out.sarif" "kept" bareWorkspace).2 = before ∧
      (before.files.fileAt? "out.sarif").map (·.content.toList) = some "kept".toUTF8.toList ∧
      write "out.sarif" loneSurrogate before =
        (.error (.unencodable ⟨0xD800, 0, 1⟩), { before with files := files }) ∧
      (files.fileAt? "out.sarif").map (·.content.toList) = some [] := by
  refine ⟨_, (write "out.sarif" loneSurrogate (write "out.sarif" "kept" bareWorkspace).2).2.files, rfl,
    by decide +kernel, rfl, by decide +kernel⟩

end ClarityDelta.Report
