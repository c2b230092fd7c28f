import ClarityDelta.Proofs.Container.ExitCode
import ClarityDelta.Proofs.Container.Steady
import ClarityDelta.Proofs.Files.StatusTime
import ClarityDelta.Proofs.Files.Storing
import ClarityDelta.Proofs.Logging.Consoles

/-!
# Artifacts are stored or nothing changes

The generator of syntax trees ends in one of three ways. An artifact that is not older than its contract
is used again; or the container was run once and what it printed is stored; or there is no artifact, and
no regular file has changed. Notes are written to logs meanwhile, which keep to a zone of their own that
the way to the artifact avoids. `artifact_ensures` tells this of one request in any workspace, with all
that may keep it from being finished. From that `artifact_stored_or_left_out` says of any run of edits and
requests that a request is finished in one of these ways, as long as the contract's name closes no tag
where there is a console. Where it does, the request may fail: `artifact_closingName`.
-/

namespace ClarityDelta.Container

open Files FileTree FileWork Invocation Logging Terminal Text

/-- What is printed of a tree: what a process has printed that ended with 0, if it is not blank. -/
def printed? : Answer → Option String
  | .finished code out _ => if code = 0 && !isBlankText out.toList then some out else none
  | .timedOut => none
  | .failed _ => none

/-- A tree is printed just by a process that ended with 0 and whose output is not blank. -/
theorem printed?_eq_some_iff {answer : Answer} {tree : String} :
    printed? answer = some tree ↔
      ∃ err, answer = .finished 0 tree err ∧ isBlankText tree.toList = false := by
  cases answer with
  | finished code out err =>
    rw [printed?]
    split
    · next h =>
      rw [Bool.and_eq_true, decide_eq_true_eq, Bool.not_eq_true'] at h
      obtain ⟨rfl, hblank⟩ := h
      constructor
      · intro heq
        obtain rfl := Option.some.inj heq
        exact ⟨err, rfl, hblank⟩
      · rintro ⟨err', heq, -⟩
        obtain ⟨-, rfl, -⟩ := Answer.finished.inj heq
        rfl
    · next h =>
      constructor
      · intro heq
        cases heq
      · rintro ⟨err', heq, hblank⟩
        obtain ⟨rfl, rfl, -⟩ := Answer.finished.inj heq
        exact absurd (by simp [hblank]) h
  | timedOut => exact ⟨fun h => (by cases h), fun ⟨_, h, _⟩ => (by cases h)⟩
  | failed reason => exact ⟨fun h => (by cases h), fun ⟨_, h, _⟩ => (by cases h)⟩

namespace TreeGenerator

variable {generator : TreeGenerator} {file : String} {readable : Prop} {current : Location}
  {zone : Location → Prop} {base before : Workspace} {files : FileTree}

/-- The call that prints the tree of a contract. -/
def call (generator : TreeGenerator) (file : String) : Call :=
  generator.runner.call generator.image [file]

/-! ## The container -/

/-- What is printed of a tree is told by the output of a container that ended. -/
theorem printed?_of_ended {runner : Runner} {image : Image} {given : Answer} {output : Output}
    (h : runner.ended image given = .ok output) :
    printed? given =
      if output.code = 0 && !isBlankText output.out.toList then some output.out else none := by
  cases given with
  | finished code out err =>
    obtain rfl := Except.ok.inj h
    rfl
  | timedOut => cases h
  | failed reason => cases h

/-- A container that did not end printed no tree, and fails as the checker does. -/
theorem failure_of_ended {runner : Runner} {image : Image} {given : Answer} {fault : Fault}
    (h : runner.ended image given = .error fault) :
    printed? given = none ∧ ∃ failure, fault = .checker failure := by
  cases given with
  | finished code out err => cases h
  | timedOut => exact ⟨rfl, _, (Except.error.inj h).symm⟩
  | failed reason => exact ⟨rfl, _, (Except.error.inj h).symm⟩

/-- A workspace in which another program was called once more. -/
def called (base : Workspace) (call : Call) : Workspace :=
  { base with calls := base.calls ++ [call] }

/-- A call gets the answer that is due, and leaves all but the calls undisturbed. -/
theorem call_ensures (call : Call) {failed : Fault → Workspace → Prop} :
    Ensures (Undisturbed readable current zone base) (Work.call call)
      (fun given w => given = base.answer base.calls call ∧
        Undisturbed readable current zone (called base call) w) failed := by
  refine ⟨fun w h => ⟨?_, ⟨h.confined.sound, h.confined.current_eq, h.confined.logs, h.confined.kept⟩,
    h.consoles, h.answer_eq, ?_⟩⟩
  · rw [h.answer_eq, h.calls_eq]
  · exact congrArg (· ++ [call]) h.calls_eq

/-- A container is run by one call, unless the note before it cannot be rendered. -/
theorem run_ensures (runner : Runner) (image : Image) (arguments : List String) :
    Ensures (Undisturbed readable current zone base) (runner.run image arguments)
      (fun output w =>
        runner.ended image (base.answer base.calls (runner.call image arguments)) = .ok output ∧
          Undisturbed readable current zone (called base (runner.call image arguments)) w)
      fun fault w => Undisturbed readable current zone base w ∧ Unrendered readable fault ∨
        Undisturbed readable current zone (called base (runner.call image arguments)) w ∧
          runner.ended image (base.answer base.calls (runner.call image arguments)) = .error fault := by
  obtain ⟨message, hrun⟩ := runner.run_eq image arguments
  rw [hrun]
  refine say_bind_undisturbed _ _ (fun _ _ h hcause => Or.inl ⟨h, hcause⟩) ?_
  refine Ensures.bind (call_ensures _) fun given => ?_
  cases hended : runner.ended image given with
  | ok output => exact Ensures.pure fun w h => ⟨h.1 ▸ hended, h.2⟩
  | error fault => exact Ensures.throw fun w h => Or.inr ⟨h.2, h.1 ▸ hended⟩

/-- The container is run once, and what it prints is given. -/
theorem generate_ensures (generator : TreeGenerator) (file : String) :
    Ensures (Undisturbed readable current zone base) (generator.generate file)
      (fun output w => output = printed? (base.answer base.calls (generator.call file)) ∧
        Undisturbed readable current zone (called base (generator.call file)) w)
      fun fault w => LogsApart readable current zone w ∧ Unrendered readable fault := by
  -- what is left to be done when nothing was printed
  have hnothing (message : Note) {start : Workspace → Prop}
      (hstart : ∀ w, start w →
        Undisturbed readable current zone (called base (generator.call file)) w)
      (hnone : ∀ w, start w → printed? (base.answer base.calls (generator.call file)) = none) :
      Ensures start (do say generator.runner.logger message; return none)
        (fun output w => output = printed? (base.answer base.calls (generator.call file)) ∧
          Undisturbed readable current zone (called base (generator.call file)) w)
        fun fault w => LogsApart readable current zone w ∧ Unrendered readable fault := by
    refine Ensures.of_fact hnone fun hnone => ?_
    refine (say_bind_undisturbed _ message (fun _ _ h hcause => ⟨h.logsApart, hcause⟩) ?_).narrow hstart
    exact Ensures.pure fun w h => ⟨hnone.symm, h⟩
  refine Ensures.bind ((run_ensures generator.runner generator.image [file]).attempt _)
    fun outcome => ?_
  split
  · next failure =>
    -- a note that cannot be rendered does not fail as the checker does, so the container was run
    have hended {w : Workspace} (h : Undisturbed readable current zone base w ∧
          Unrendered readable (.checker failure) ∨
        Undisturbed readable current zone (called base (generator.call file)) w ∧
          generator.runner.ended generator.image (base.answer base.calls (generator.call file)) =
            .error (.checker failure)) := h.resolve_left fun ⟨_, _, cause, heq⟩ => by cases heq
    exact hnothing _ (fun w h => (hended (h.2 _ rfl)).1)
      fun w h => (failure_of_ended (hended (h.2 _ rfl)).2).1
  · next fault hother =>
    refine Ensures.throw fun w h => ?_
    rcases h.2 fault rfl with ⟨hw, hunrendered⟩ | ⟨-, hended⟩
    · exact ⟨hw.logsApart, hunrendered⟩
    · obtain ⟨-, failure, rfl⟩ := failure_of_ended hended
      exact absurd rfl (hother failure)
  · next output =>
    split
    · next hgood =>
      refine Ensures.pure fun w h => ⟨?_, (h.1 output rfl).2⟩
      exact ((printed?_of_ended (h.1 output rfl).1).trans (if_pos hgood)).symm
    · next hbad =>
      exact hnothing _ (fun w h => (h.1 output rfl).2)
        fun w h => (printed?_of_ended (h.1 output rfl).1).trans (if_neg hbad)

/-! ## Freshness -/

/-- The outcome of the test for a regular file, which depends on the files only. -/
def tested (path : String) (files : FileTree) : Except Fault Bool :=
  match files.reach path with
  | .error error => if error.kind = .nameTooLong then .error (.file error) else .ok false
  | .ok _ => .ok (files.isFile path)

/-- The test changes nothing. -/
theorem testFile_apply (path : String) (w : Workspace) :
    testFile path w = (tested path w.files, w) := by
  rw [testFile, tested, Action.get_bind_apply]
  cases w.files.reach path with
  | error error =>
    dsimp only
    split <;> rfl
  | ok location => rfl

/-- A path that passes the test is a regular file. -/
theorem isFile_of_tested {path : String} (h : tested path files = .ok true) :
    files.isFile path = true := by
  rw [tested] at h
  split at h
  · split at h
    · cases h
    · cases h
  · exact Except.ok.inj h

/-- What is fresh is a regular file, written no earlier than the contract as far as their status tells.
The test changes nothing. -/
theorem isFresh_ensures (source target : String) (before : Workspace) :
    Ensures (· = before) (isFresh source target)
      (fun fresh w => w = before ∧ (fresh = true →
        ∃ made written, before.files.modified? source = some made ∧
          before.files.fileAt? target = some written ∧
          statusTime made ≤ statusTime written.modified))
      fun fault w => w = before ∧ tested target before.files = .error fault := by
  have htest : Ensures (· = before) (testFile target)
      (fun isFile w => w = before ∧ tested target before.files = .ok isFile)
      fun fault w => w = before ∧ tested target before.files = .error fault := by
    refine ⟨fun w hw => ?_⟩
    rw [testFile_apply, hw]
    cases htested : tested target before.files with
    | error fault => exact ⟨rfl, rfl⟩
    | ok isFile => exact ⟨rfl, rfl⟩
  refine Ensures.bind htest fun isFile => ?_
  cases isFile with
  | false => exact Ensures.pure fun w h => ⟨h.1, fun hfalse => by cases hfalse⟩
  | true =>
    refine Ensures.get_bind fun w h => ?_
    obtain ⟨rfl, htested⟩ := h
    obtain ⟨written, hwritten⟩ := Option.isSome_iff_exists.mp (isFile_of_tested htested)
    dsimp only
    rw [modified?_of_fileAt? hwritten]
    cases hmade : w.files.modified? source with
    | none => exact Ensures.pure fun _ heq => ⟨heq, fun hfalse => by cases hfalse⟩
    | some made =>
      refine Ensures.pure fun _ heq => ⟨heq, fun hle => ?_⟩
      exact ⟨made, written, rfl, hwritten, of_decide_eq_true hle⟩

/-- A regular file that was written no earlier than the contract is fresh, although times are rounded. -/
theorem isFresh_of_le {source target : String} {w : Workspace} {made : Int} {written : RegularFile}
    (htested : tested target w.files = .ok true) (hmade : w.files.modified? source = some made)
    (hwritten : w.files.fileAt? target = some written) (hle : made ≤ written.modified) :
    isFresh source target w = (.ok true, w) := by
  rw [isFresh, Action.bind_apply, testFile_apply, htested]
  dsimp only
  rw [if_neg (by decide), Action.get_bind_apply, hmade, modified?_of_fileAt? hwritten]
  exact congrArg (fun fresh => (Except.ok fresh, w)) (decide_eq_true (statusTime_mono hle))

/-! ## Requests -/

/-- A reference is the contract's path with the suffix of artifacts. -/
structure IsReference (file reference : String) : Prop where
  path_eq : (Path.ofText file).withSuffix? artifactSuffix = some (Path.ofText reference)
  text_eq : (Path.ofText reference).text = reference
  isAbsolute_eq : (Path.ofText reference).isAbsolute = (Path.ofText file).isAbsolute

/-- The process was run once and ended well, and what it printed is the content of the file that the
target leads to. No other regular file outside the zone has changed. -/
structure Stored (generator : TreeGenerator) (zone : Location → Prop) (file target : String)
    (before after : Workspace) : Prop where
  calls_eq : after.calls = before.calls ++ [generator.call file]
  stored : ∃ tree err location written,
    before.answer before.calls (generator.call file) = .finished 0 tree err ∧
      isBlankText tree.toList = false ∧ after.files.reach target = .ok location ∧
      after.files.file? location = some written ∧ written.content = tree.toUTF8 ∧
      ∀ other, other ≠ location → ¬ zone other → after.files.file? other = before.files.file? other

/-- No process was run and no regular file outside the zone has changed. The target leads to one that is
not older than the contract, as far as their status tells. -/
structure Reused (generator : TreeGenerator) (zone : Location → Prop) (file target : String)
    (before after : Workspace) : Prop where
  reuse : generator.reuse = true
  calls_eq : after.calls = before.calls
  file?_eq : ∀ location, ¬ zone location → after.files.file? location = before.files.file? location
  fresh : ∃ made written,
    before.files.modified? (generator.inDirectory (Path.ofText file)) = some made ∧
      before.files.fileAt? target = some written ∧ after.files.fileAt? target = some written ∧
      statusTime made ≤ statusTime written.modified

/-- The process was run once, but it did not end well or what it printed cannot be stored, in a tree that
differs from the one before in the zone only. No regular file outside the zone has changed. -/
structure LeftOut (generator : TreeGenerator) (zone : Location → Prop) (file : String)
    (before after : Workspace) : Prop where
  calls_eq : after.calls = before.calls ++ [generator.call file]
  file?_eq : ∀ location, ¬ zone location → after.files.file? location = before.files.file? location
  because : ∀ tree err path,
    before.answer before.calls (generator.call file) = .finished 0 tree err →
      isBlankText tree.toList = false → artifactPath? file = some path →
      ∃ files error, SameOutside zone before.files files ∧
        (store (generator.inDirectory path) tree files).1 = .error error

/-- How a request for the artifact of a contract is answered. -/
def Answers (generator : TreeGenerator) (zone : Location → Prop) (file : String)
    (before after : Workspace) : Option String → Prop
  | some reference => IsReference file reference ∧
      (Stored generator zone file (generator.inDirectory (Path.ofText reference)) before after ∨
        Reused generator zone file (generator.inDirectory (Path.ofText reference)) before after)
  | none => LeftOut generator zone file before after

/-- Why a request may not be finished: a console cannot render a note, the contract's path has no name,
the test for an artifact fails, or storing one fails otherwise than in the file system. -/
def Excused (generator : TreeGenerator) (file : String) (before : Workspace) (readable : Prop)
    (fault : Fault) : Prop :=
  Unrendered readable fault ∨ (Path.ofText file).name = "" ∨
    ∃ path, artifactPath? file = some path ∧
      ((generator.reuse = true ∧
          (testFile (generator.inDirectory path) before).1 = .error fault) ∨
        ∃ tree files error, (store (generator.inDirectory path) tree files).1 = .error error ∧
          error.isSystem = false)

/-- No log is on the way to the artifact of a contract. -/
def Separate (generator : TreeGenerator) (zone : Location → Prop) (current : Location)
    (file : String) : Prop :=
  ∀ path, artifactPath? file = some path → Avoids zone current (generator.inDirectory path)

/-- Only a path without a name has no artifact. -/
theorem name_of_artifactPath? (h : artifactPath? file = none) : (Path.ofText file).name = "" := by
  by_contra hname
  rw [artifactPath?, Path.withSuffix?_eq hname] at h
  cases h

/-- The path of an artifact is got back from its text, which is a reference. -/
theorem isReference_text {path : Path} (h : artifactPath? file = some path) :
    Path.ofText path.text = path ∧ IsReference file path.text := by
  have hback : Path.ofText path.text = path :=
    Path.ofText_text_withSuffix (by decide) (by decide) h
  refine ⟨hback, ?_, ?_, ?_⟩
  · rw [hback]
    exact h
  · rw [hback]
  · rw [hback]
    obtain ⟨-, rfl⟩ := Path.of_withSuffix?_eq_some h
    rfl

/-- File work that leaves files in their places is done on a tree that differs from the given one in the
zone only, and what comes behind it begins with the tree that it leaves. -/
theorem tryFiles_bind_ensures {α β : Type} {work : FileWork α} {rest : Except FileError α → Work β}
    {after : β → Workspace → Prop} {failed : Fault → Workspace → Prop}
    (hstays : ∀ files : FileTree, files.Stays (work files).2)
    (h : ∀ files, files.current = current → SameOutside zone base.files files →
      Ensures (Undisturbed readable current zone { base with files := (work files).2 })
        (rest (work files).1) after failed) :
    Ensures (Undisturbed readable current zone base) (Work.tryFiles work >>= rest) after failed := by
  refine ⟨fun w hw => ?_⟩
  rw [Action.bind_apply, tryFiles_apply]
  have hlogs := hw.logsApart.confined.of_stays (hstays w.files) trivial
  exact (h w.files hw.confined.current_eq hw.confined.kept).run _
    ⟨hlogs.mono fun _ => SameOutside.refl zone _, hw.consoles, hw.answer_eq, hw.calls_eq⟩

/-- A tree that was printed is stored, and noted then. Otherwise there is no artifact. -/
theorem store_ensures {path : Path} {tree err : String} (hpath : artifactPath? file = some path)
    (hprinted : before.answer before.calls (generator.call file) = .finished 0 tree err)
    (hblank : isBlankText tree.toList = false) (rest : Except FileError Unit → Work (Option String))
    (hok : ∃ message, rest (.ok ()) = (do
      say generator.runner.logger message
      return some path.text))
    (herror : ∀ error, ∃ message, rest (.error error) = (do
      if !error.isSystem then throw (.file error)
      say generator.runner.logger message
      return none)) :
    Ensures (Undisturbed readable current zone (called before (generator.call file)))
      (Work.tryFiles (store (generator.inDirectory path) tree) >>= rest)
      (fun outcome w => LogsApart readable current zone w ∧
        (Separate generator zone current file → Answers generator zone file before w outcome))
      fun fault w => LogsApart readable current zone w ∧
        Excused generator file before readable fault := by
  refine tryFiles_bind_ensures (fun files => makeDirectories_write_stays _ _ _ files)
    fun files hcurrent hsame => ?_
  obtain ⟨error, grown, hrun, hgrew⟩ | ⟨middle, location, after, hgrew, hreach, hrun, hwrote⟩ :=
    makeDirectories_write_cases (Path.ofText (generator.inDirectory path)).parent.text
      (generator.inDirectory path) tree.toUTF8 files
  · have hstored : store (generator.inDirectory path) tree files = (.error error, grown) := hrun
    obtain ⟨message, hrest⟩ := herror error
    rw [hstored, hrest]
    -- directories may have been made by then, but regular files are as they were
    split
    · next hforeign =>
      refine Ensures.throw fun w h => ⟨h.logsApart, Or.inr (Or.inr ⟨path, hpath, Or.inr ?_⟩)⟩
      exact ⟨tree, files, error, congrArg Prod.fst hstored, by simpa using hforeign⟩
    · refine say_bind_undisturbed _ _ (fun _ _ h hcause => ⟨h.logsApart, Or.inl hcause⟩) ?_
      refine Ensures.pure fun w h => ⟨h.logsApart, fun _ => ⟨h.calls_eq, fun l hl => ?_,
        fun tree' err' path' hfinished _ hpath' => ⟨files, error, hsame, ?_⟩⟩⟩
      · rw [h.confined.kept.file?_eq hl]
        exact (hgrew.file?_eq l).trans (hsame.file?_eq hl)
      · obtain ⟨-, rfl, -⟩ := Answer.finished.inj (hprinted.symm.trans hfinished)
        obtain rfl := Option.some.inj (hpath.symm.trans hpath')
        exact congrArg Prod.fst hstored
  · have hstored : store (generator.inDirectory path) tree files = (.ok (), after) := hrun
    obtain ⟨message, hrest⟩ := hok
    rw [hstored, hrest]
    refine say_bind_undisturbed _ _ (fun _ _ h hcause => ⟨h.logsApart, Or.inl hcause⟩) ?_
    refine Ensures.pure fun w h => ⟨h.logsApart, fun hseparate => ?_⟩
    obtain ⟨hback, hreference⟩ := isReference_text hpath
    obtain ⟨written, hwritten, hcontent, -⟩ := hwrote.look_eq
    -- the note behind it is written to a log, which is not on the way to the artifact
    have hplace : after.reach (generator.inDirectory path) = .ok location := hwrote.reach hreach
    have hafter : Avoids zone after.current (generator.inDirectory path) := by
      rw [hwrote.current_eq, hgrew.current_eq, hcurrent]
      exact hseparate path hpath
    have hlocation : ¬ zone location := hafter _ (mem_trail_of_walk (reach_eq_ok_iff.mp hplace).2)
    refine ⟨hreference, Or.inl ⟨h.calls_eq, tree, err, location, written, hprinted, hblank, ?_, ?_,
      hcontent, fun other hother hother' => ?_⟩⟩
    · rw [hback]
      exact (h.confined.kept.reach_eq hafter).trans hplace
    · exact (h.confined.kept.file?_eq hlocation).trans (file?_eq_some_iff.mpr hwritten)
    · rw [h.confined.kept.file?_eq hother']
      exact (hwrote.file?_eq hother).trans ((hgrew.file?_eq other).trans (hsame.file?_eq hother'))

/-- A request is answered in one of the three ways if no log is in its way, or there is an excuse for its
fault. -/
theorem artifact_ensures (generator : TreeGenerator) (file : String)
    (hlogs : LogsApart readable current zone before) :
    Ensures (· = before) (generator.artifact file)
      (fun outcome w => LogsApart readable current zone w ∧
        (Separate generator zone current file → Answers generator zone file before w outcome))
      fun fault w => LogsApart readable current zone w ∧
        Excused generator file before readable fault := by
  have hbegin : ∀ w, w = before → Undisturbed readable current zone before w := by
    rintro _ rfl
    exact hlogs.undisturbed
  rw [artifact, artifactPath]
  cases hpath : artifactPath? file with
  | none =>
    exact Ensures.throw fun w h => ⟨(hbegin w h).logsApart, Or.inr (Or.inl (name_of_artifactPath? hpath))⟩
  | some path =>
    -- the tree is made when nothing is to be used again, or when what is there is not fresh
    refine Ensures.ite_of_else ?_ fun hreuse hmake => ?_
    · refine Ensures.narrow ?_ hbegin
      refine say_bind_undisturbed _ _ (fun _ _ h hcause => ⟨h.logsApart, Or.inl hcause⟩) ?_
      refine Ensures.bind ((generate_ensures generator file).widen
        fun _ _ h => ⟨h.1, Or.inl h.2⟩) fun output => Ensures.of_fact (fun _ h => h.1) ?_
      intro houtput
      cases output with
      | none =>
        refine Ensures.pure fun w h => ⟨h.2.logsApart, fun _ => ⟨h.2.calls_eq,
          fun l hl => h.2.confined.kept.file?_eq hl, fun tree err path' hfinished hblank => ?_⟩⟩
        rw [printed?_eq_some_iff.mpr ⟨err, hfinished, hblank⟩] at houtput
        cases houtput
      | some tree =>
        obtain ⟨err, hfinished, hblank⟩ := printed?_eq_some_iff.mp houtput.symm
        exact (store_ensures hpath hfinished hblank _ ⟨_, rfl⟩ fun _ => ⟨_, rfl⟩).narrow fun _ h => h.2
    · refine Ensures.bind ((isFresh_ensures _ _ before).widen fun fault w h =>
        ⟨(hbegin w h.1).logsApart, Or.inr (Or.inr ⟨path, hpath, Or.inl ⟨hreuse, ?_⟩⟩)⟩) fun fresh => ?_
      · rw [testFile_apply]
        exact h.2
      · split
        · next hfresh =>
          refine Ensures.of_fact (fun _ h => h.2 hfresh) fun hgiven => ?_
          refine (say_bind_undisturbed _ _ (fun _ _ h hcause => ⟨h.logsApart, Or.inl hcause⟩) ?_).narrow
            fun w h => hbegin w h.1
          refine Ensures.pure fun w h => ⟨h.logsApart, fun hseparate => ?_⟩
          obtain ⟨hback, hreference⟩ := isReference_text hpath
          obtain ⟨made, written, hmade, hwritten, hle⟩ := hgiven
          have hkept : w.files.fileAt? (generator.inDirectory path) = some written := by
            rw [h.confined.kept.fileAt?_eq (hlogs.confined.current_eq ▸ hseparate path hpath), hwritten]
          refine ⟨hreference, Or.inr ⟨hreuse, h.calls_eq, fun l hl => h.confined.kept.file?_eq hl,
            made, written, hmade, ?_, ?_, hle⟩⟩
          · rw [hback]
            exact hwritten
          · rw [hback]
            exact hkept
        · exact hmake.narrow fun _ h => h.1

/-- Storing at a path without NUL characters fails in the file system only. -/
theorem store_upholds {path : Path} (hpath : path.NulFree) (tree : String) :
    Upholds (fun _ => True) (fun error => error.isSystem = true) (store path.text tree) := by
  have hparent : '\x00' ∉ (Path.ofText path.text).parent.text.toList :=
    (Path.nulFree_ofText hpath.text).parent.text
  exact makeDirectories_write_isSystem hparent hpath.text tree.toUTF8

/-- Nothing is excused when notes can be rendered, the contract's path has a name, no path holds a NUL
character and the test for an artifact is answered. -/
theorem not_excused {before : Workspace} {fault : Fault}
    (herror : (generator.artifact file before).1 = .error fault)
    (hname : (Path.ofText file).name ≠ "") (hfile : '\x00' ∉ file.toList)
    (hdirectory : '\x00' ∉ generator.runner.directory.toList)
    (htest : generator.reuse = true → ∀ path, artifactPath? file = some path →
      ∃ isFile, (testFile (generator.inDirectory path) before).1 = .ok isFile) :
    ¬Excused generator file before (Markup.ClosesNothing file) fault := by
  rintro (⟨hreadable, cause, rfl⟩ | hempty | ⟨path, hpath, ⟨hreuse, hfailed⟩ |
    ⟨tree, files, error, hfailed, hforeign⟩⟩)
  · -- all notes on a file whose name closes nothing can be rendered
    have hsteady : Steady fun _ => True :=
      ⟨fun _ _ _ _ => trivial, fun _ _ _ => trivial, fun _ _ _ => trivial, fun _ _ _ => trivial⟩
    have hunmarked : Upholds (fun _ => True) Unmarked (generator.artifact file) :=
      artifact_steady hsteady (fun _ _ h => h) (Or.inr hreadable) generator
    exact hunmarked.allowed_of_error trivial herror cause rfl
  · exact hname hempty
  · obtain ⟨isFile, hanswered⟩ := htest hreuse path hpath
    rw [hanswered] at hfailed
    cases hfailed
  · have hfree : ((Path.ofText generator.runner.directory).join path).NulFree :=
      (Path.nulFree_ofText hdirectory).join
        ((Path.nulFree_ofText hfile).withSuffix (by decide) hpath)
    have hsystem : error.isSystem = true :=
      (store_upholds hfree tree).allowed_of_error trivial hfailed
    rw [hsystem] at hforeign
    cases hforeign

/-! ## Runs -/

/-- What may be done to the files between requests. -/
inductive Edit where
  | write (path : String) (content : ByteArray)
  | makeDirectories (path : String)
  | setModified (path : String) (time : Int)
  | remove (path : String)

/-- An edit as file work. -/
def Edit.work : Edit → FileWork Unit
  | write path content => FileWork.write path content
  | makeDirectories path => FileWork.makeDirectories path
  | setModified path time => FileWork.setModified path time
  | remove path => FileWork.removeAll path

/-- Edits move no file to another place. -/
theorem Edit.stays (edit : Edit) (tree : FileTree) : tree.Stays (edit.work tree).2 := by
  cases edit with
  | write path content => exact write_stays path content tree
  | makeDirectories path => exact (makeDirectories_grew path tree).stays
  | setModified path time => exact setModified_stays path time tree
  | remove path => exact removeAll_stays path tree

/-- What may happen: the files are edited, or the artifact of a contract is requested. -/
inductive Step where
  | edit (edit : Edit)
  | request (file : String)

/-- The workspace after a step, whether that was finished or not. -/
def runStep (generator : TreeGenerator) (w : Workspace) : Step → Workspace
  | .edit edit => (Work.tryFiles edit.work w).2
  | .request file => (generator.artifact file w).2

/-- The workspace after some steps. -/
def runSteps (generator : TreeGenerator) (steps : List Step) (w : Workspace) : Workspace :=
  steps.foldl generator.runStep w

/-- A step leaves the logs where they are, and brings no console. -/
theorem runStep_logsApart {w : Workspace} (h : LogsApart readable current zone w) (step : Step) :
    LogsApart readable current zone (generator.runStep w step) := by
  cases step with
  | edit edit =>
    rw [runStep, tryFiles_apply]
    exact ⟨h.confined.of_stays (edit.stays w.files) trivial, h.consoles⟩
  | request file =>
    have hdone := (artifact_ensures generator file h).run w rfl
    rw [runStep]
    rcases hrun : generator.artifact file w with ⟨fault | outcome, after⟩
    · rw [hrun] at hdone
      exact hdone.1
    · rw [hrun] at hdone
      exact hdone.1

/-- Steps leave the logs where they are, and bring no console. -/
theorem runSteps_logsApart (steps : List Step) {w : Workspace}
    (h : LogsApart readable current zone w) :
    LogsApart readable current zone (generator.runSteps steps w) := by
  induction steps generalizing w with
  | nil => exact h
  | cons step steps ih => exact ih (runStep_logsApart h step)

/-- After any steps, the artifact of a contract is stored, used again or left out, when no log is on the
way to it. If there is a console, this is so for a contract whose name closes no tag. -/
theorem artifact_stored_or_left_out (generator : TreeGenerator) (steps : List Step) (file : String)
    (start : Workspace) (hname : (Path.ofText file).name ≠ "") (hfile : '\x00' ∉ file.toList)
    (hdirectory : '\x00' ∉ generator.runner.directory.toList)
    (hlogs : LogsApart (Markup.ClosesNothing file) current zone start)
    (hseparate : Separate generator zone current file)
    (htest : generator.reuse = true → ∀ path, artifactPath? file = some path →
      ∃ isFile, (testFile (generator.inDirectory path) (generator.runSteps steps start)).1 =
        .ok isFile) :
    ∃ outcome after,
      generator.artifact file (generator.runSteps steps start) = (.ok outcome, after) ∧
        Answers generator zone file (generator.runSteps steps start) after outcome := by
  have hbefore : LogsApart (Markup.ClosesNothing file) current zone (generator.runSteps steps start) :=
    runSteps_logsApart steps hlogs
  have hdone := (artifact_ensures generator file hbefore).run _ rfl
  rcases hrun : generator.artifact file (generator.runSteps steps start) with
    ⟨fault | outcome, after⟩
  · rw [hrun] at hdone
    exact absurd hdone.2
      (not_excused (congrArg Prod.fst hrun) hname hfile hdirectory htest)
  · rw [hrun] at hdone
    exact ⟨outcome, after, rfl, hdone.2 hseparate⟩

/-- A generator that uses artifacts again. -/
def reusing : TreeGenerator :=
  ⟨⟨"docker", "/w", some 60, "clarity_verify"⟩, ⟨"ast", "v1"⟩, true⟩

/-- The places of the log `app.log` in a directory. -/
def appLog : Location → Prop :=
  LogZone ["w"] "app.log" 1

/-- A workspace where a tree is printed once, and no container ends in time after that. Notes are written to
the console and to a log. -/
def answeringOnce : Workspace where
  files := .empty ["w"]
  environment := []
  answer calls _ := if calls.isEmpty then .finished 0 "{}" "" else .timedOut
  calls := []
  loggers := [{ Logger.fresh rootName with
    handlers := [.console, .file ⟨"/w/app.log", none, 0, 1024, 1, "%(message)s", ""⟩] }]
  console := []
  shown := []

/-- A contract is written, its artifact is requested, and the contract is written again. -/
def contractChanged : List Step :=
  [.edit (.write "a.clar" "(ok u1)".toUTF8), .request "a.clar", .edit (.write "a.clar" "(ok u2)".toUTF8),
    .edit (.setModified "a.clar" 1000000000)]

/-- The console and the log of that workspace keep apart from its artifacts. -/
theorem logsApart_answeringOnce :
    LogsApart (Markup.ClosesNothing "a.clar") ["w"] appLog answeringOnce where
  confined := by
    refine ⟨sound_empty (by decide), rfl, fun logger hlogger sink hsink => ?_, trivial⟩
    obtain rfl := List.mem_singleton.mp hlogger
    obtain rfl : sink = ⟨"/w/app.log", none, 0, 1024, 1, "%(message)s", ""⟩ := by
      simpa [Logger.fresh] using hsink
    exact ⟨⟨"app.log", by decide +kernel, fun _ h => h⟩, fun id hid => by cases hid⟩
  consoles := by decide

/-- The artifact is older than the contract then, and it stays when there is no other. -/
theorem artifact_stored_or_left_out_stale :
    ∃ outcome after,
      reusing.artifact "a.clar" (reusing.runSteps contractChanged answeringOnce) =
          (.ok outcome, after) ∧
        Answers reusing appLog "a.clar" (reusing.runSteps contractChanged answeringOnce) after outcome ∧
          outcome = none ∧
          (after.files.fileAt? "a.clarast").map (·.content.toList) = some "{}".toUTF8.toList := by
  have hpath : artifactPath? "a.clar" = some ⟨"", ["a.clarast"]⟩ := by decide +kernel
  have hseparate : Separate reusing appLog ["w"] "a.clar" := by
    intro path hsome
    obtain rfl := Option.some.inj (hsome.symm.trans hpath)
    have htrail : trail ((FileTree.empty ["w"]).origin (reusing.inDirectory ⟨"", ["a.clarast"]⟩))
        (steps (reusing.inDirectory ⟨"", ["a.clarast"]⟩)) = [[], ["w"], ["w", "a.clarast"]] := by
      decide +kernel
    rw [Avoids, htrail]
    rintro location hlocation (rfl | ⟨n, hn, hcount, hbackup⟩)
    · revert hlocation
      decide +kernel
    · obtain rfl : n = 1 := by omega
      revert location
      decide +kernel
  obtain ⟨outcome, after, hrun, hanswers⟩ :=
    artifact_stored_or_left_out reusing contractChanged "a.clar" answeringOnce (by decide)
      (by decide) (by decide) logsApart_answeringOnce hseparate fun _ path hsome => ⟨true, by
        obtain rfl := Option.some.inj (hsome.symm.trans hpath)
        decide +kernel⟩
  refine ⟨outcome, after, hrun, hanswers, ?_, ?_⟩
  · have hnone : (reusing.artifact "a.clar" (reusing.runSteps contractChanged answeringOnce)).1 =
        .ok none := by decide +kernel
    rw [hrun] at hnone
    exact Except.ok.inj hnone
  · have hafter : after =
        (reusing.artifact "a.clar" (reusing.runSteps contractChanged answeringOnce)).2 := by rw [hrun]
    rw [hafter]
    decide +kernel

/-- A container that fails, where notes are written to the console. -/
def failingContainer : Workspace :=
  { answeringOnce with
    answer := fun _ _ => .finished 1 "" "oops]"
    loggers := [{ Logger.fresh rootName with handlers := [.console] }] }

/-- A contract's name and what a container said, each of them escaped, close a tag together, so the request
fails. -/
theorem artifact_closingName : (Path.ofText "[/a.clar").name ≠ "" ∧
    (reusing.artifact "[/a.clar" failingContainer).1 =
      .error (.markup (.notOpen "[/a.clar: oops]" 16)) := by
  decide +kernel

end TreeGenerator

end ClarityDelta.Container
