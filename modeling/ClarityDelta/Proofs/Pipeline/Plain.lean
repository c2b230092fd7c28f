import ClarityDelta.Proofs.Change.Patch
import ClarityDelta.Proofs.Logging.Steady
import ClarityDelta.Proofs.Pipeline.Invariant
import ClarityDelta.Proofs.Source.DefinitionSpans
import ClarityDelta.Proofs.Terminal.Messages
import ClarityDelta.Proofs.Verification.Grouping

/-!
# Notes of a run

A run puts names of files and functions into its notes without escaping them, where they may close what
is not open. `Collaborators.Plain` says of those who answer a run that the names in their answers close
nothing. Then all notes of the run can be rendered, and what it comes to has plain names as well,
`run_plain`. Messages of failures may say anything, since they are escaped and stand at the end of a
note.
-/

namespace ClarityDelta

open Change Config Files Logging Pipeline Report Source Terminal Terminal.Markup Text Verification

/-! ## Plain names -/

namespace Verification

/-- A failure whose function and title close nothing. -/
structure FailureRecord.Plain (failure : FailureRecord) : Prop where
  functionName : ClosesNothing failure.functionName
  title : ClosesNothing failure.title

/-- A result whose function closes nothing, nor do its failures. -/
structure VerificationResult.Plain (result : VerificationResult) : Prop where
  functionName : ClosesNothing result.functionName
  failures : ∀ failure ∈ result.failures, failure.Plain

/-- A job for a file and a function whose names close nothing. -/
structure VerificationJob.Plain (job : VerificationJob) : Prop where
  file : ClosesNothing job.file
  functionName : ClosesNothing job.functionName

/-- An output of the checker whose counterexamples are failures with plain names. -/
def PlainOutput (output : String) : Prop :=
  ∀ failures, counterexamples output = .ok failures → ∀ failure ∈ failures, failure.Plain

instance (failure : FailureRecord) : Decidable failure.Plain :=
  decidable_of_iff (ClosesNothing failure.functionName ∧ ClosesNothing failure.title)
    ⟨fun ⟨hfunction, htitle⟩ => ⟨hfunction, htitle⟩, fun ⟨hfunction, htitle⟩ => ⟨hfunction, htitle⟩⟩

instance (output : String) : Decidable (PlainOutput output) :=
  match h : counterexamples output with
  | .ok failures => decidable_of_iff (∀ failure ∈ failures, failure.Plain)
    ⟨fun hplain _ hfailures => Except.ok.inj (h.symm.trans hfailures) ▸ hplain,
      fun hplain => hplain failures h⟩
  | .error _ => .isTrue fun _ hfailures => by rw [h] at hfailures; cases hfailures

end Verification

/-- A changed function whose file and name close nothing. -/
structure ChangedFunction.Plain (f : ChangedFunction) : Prop where
  file : ClosesNothing f.file
  name : ClosesNothing f.name

namespace Source

/-- A contract text in whose headers all names close nothing. -/
def PlainText (text : String) : Prop :=
  ∀ scanning, ∀ span ∈ scan scanning text, ClosesNothing span.header.name

instance (text : String) : Decidable (PlainText text) :=
  decidable_of_iff ((∀ span ∈ scan .raw text, ClosesNothing span.header.name) ∧
      ∀ span ∈ scan .commentAware text, ClosesNothing span.header.name)
    ⟨fun ⟨hraw, haware⟩ scanning => by cases scanning <;> assumption,
      fun hplain => ⟨hplain .raw, hplain .commentAware⟩⟩

variable {scanning : Scanning} {file : String}

/-- The definitions of a plain content are in its file and have plain names. -/
theorem plain_of_mem_revisionDefinitions {content : Option String} {f : FunctionDefinition}
    (hcontent : ∀ text ∈ content, PlainText text)
    (h : f ∈ revisionDefinitions scanning file content) : f.file = file ∧ ClosesNothing f.name := by
  rw [revisionDefinitions.eq_def] at h
  split at h
  · cases h
  · next text =>
    split at h
    · cases h
    · obtain ⟨span, hspan, rfl⟩ := List.mem_map.1 h
      exact ⟨rfl, hcontent text rfl scanning span hspan⟩

/-- The notes on a plain content of a plain file can be rendered. -/
theorem renders_of_mem_revisionNotes {content : Option String} {message : Note}
    (hfile : ClosesNothing file) (hcontent : ∀ text ∈ content, PlainText text)
    (h : message ∈ revisionNotes scanning file content) : Renders message.message := by
  rw [revisionNotes.eq_def] at h
  split at h
  · cases h
  · next text =>
    split at h
    · cases h
    · rcases List.mem_append.1 h with h | h
      · obtain ⟨span, hspan, rfl⟩ : ∃ span, unclosed? (scan scanning text) = some span ∧
            Note.warning (unclosedNotice file span) = message := by
          simpa [Option.mem_toList] using h
        have hmem : span ∈ scan scanning text :=
          List.mem_of_getLast? (Option.filter_eq_some_iff.1 hspan).1
        have hname : ClosesNothing span.header.name := hcontent text rfl scanning span hmem
        have hopened := (hfile.finish (show Finishes ": 函数 " by decide)).around hname
          (show Finishes " 自第 " by decide)
        have hdepth := hopened.around (closesNothing_nat span.first)
          (show Finishes " 行起括号未配平（深度 " by decide)
        exact (hdepth.around (closesNothing_int span.depth)
          (show Finishes "），剩余内容全部归入该函数" by decide)).closesNothing.renders
      · obtain rfl := List.mem_singleton.1 h
        exact ((hfile.finish (show Finishes ": 解析到 " by decide)).around (closesNothing_nat _)
          (show Finishes " 个函数定义" by decide)).closesNothing.renders

/-- Changed functions of a plain file with plain contents are plain. -/
theorem plain_of_mem_compareRevisions {old new : Option String} {f : ChangedFunction}
    (hfile : ClosesNothing file) (hold : ∀ text ∈ old, PlainText text)
    (hnew : ∀ text ∈ new, PlainText text) (h : f ∈ compareRevisions scanning file old new) : f.Plain := by
  have hplain {content : Option String} (hcontent : ∀ text ∈ content, PlainText text)
      {g : FunctionDefinition} {change : ChangeType}
      (hg : g ∈ revisionDefinitions scanning file content) : ChangedFunction.Plain ⟨g, change⟩ := by
    obtain ⟨hfile', hname⟩ := plain_of_mem_revisionDefinitions hcontent hg
    exact ⟨by rw [hfile']; exact hfile, hname⟩
  obtain ⟨g, hg, hchange⟩ | ⟨g, hg, hchange⟩ := mem_compare_iff.1 h
  · obtain ⟨-, rfl⟩ | ⟨g', hg', -, rfl⟩ := ofBase?_eq_some_iff.1 hchange
    · exact hplain hold hg
    · exact hplain hnew (mem_of_lookup hg')
  · obtain ⟨-, rfl⟩ := ofHead?_eq_some_iff.1 hchange
    exact hplain hnew hg

end Source

/-! ## Runs -/

namespace Pipeline

variable {σ : Type} {invariant : σ → Prop} {allowed : Fault → Prop} {c : Collaborators σ}

/-- Collaborators that keep an invariant, fail with allowed faults only as long as what they note can be
rendered, and answer with names that close nothing. The checker may fail in any way. -/
structure Collaborators.Plain (c : Collaborators σ) (invariant : σ → Prop) (allowed : Fault → Prop) :
    Prop where
  note : ∀ message : Note, Renders message.message → Upholds invariant allowed (c.note message)
  modifiedFiles : ∀ base head directories, Yields invariant allowed
    (fun files => ∀ file ∈ files, ClosesNothing file) (c.modifiedFiles base head directories)
  content : ∀ revision path, ClosesNothing revision → ClosesNothing path →
    Yields invariant allowed (fun content => ∀ text ∈ content, PlainText text)
      (c.content revision path)
  artifact : ∀ file, ClosesNothing file → Upholds invariant allowed (c.artifact file)
  check : ∀ file artifact function flags,
    Yields invariant (fun _ => True) PlainOutput (c.check file artifact function flags)

/-- Noting words that close nothing keeps the invariant of plain collaborators. -/
theorem Collaborators.Plain.words (h : c.Plain invariant allowed) {message : Note}
    (hmessage : ClosesNothing message.message) : Upholds invariant allowed (c.note message) :=
  h.note message hmessage.renders

/-- The changed functions of a plain file are plain, and all notes on them can be rendered. -/
theorem changedInFile_plain (h : c.Plain invariant allowed) {base head file : String}
    (hbase : ClosesNothing base) (hhead : ClosesNothing head) (hfile : ClosesNothing file)
    (scanning : Scanning) :
    Yields invariant allowed (fun changed => ∀ f ∈ changed, f.Plain)
      (changedInFile c scanning base head file) := by
  refine Yields.after (h.words (Finished.append (by decide) hfile)) fun _ => ?_
  refine Yields.bind (h.content base file hbase hfile) fun old hold => ?_
  refine Yields.bind (h.content head file hhead hfile) fun new hnew => ?_
  refine Yields.after (Upholds.forM fun message hmessage => h.note message ?_) fun _ => ?_
  · rcases List.mem_append.1 hmessage with hmessage | hmessage
    · exact renders_of_mem_revisionNotes hfile hold hmessage
    · exact renders_of_mem_revisionNotes hfile hnew hmessage
  · exact Yields.pure fun f hf => plain_of_mem_compareRevisions hfile hold hnew hf

/-- The changed functions of plain files are plain, and all notes on them can be rendered. -/
theorem changedFunctions_plain (h : c.Plain invariant allowed) {base head : String} {files : List String}
    (hbase : ClosesNothing base) (hhead : ClosesNothing head)
    (hfiles : ∀ file ∈ files, ClosesNothing file) (scanning : Scanning) :
    Yields invariant allowed (fun changed => ∀ f ∈ changed, f.Plain)
      (changedFunctions c scanning base head files) := by
  refine Yields.after (h.words (by decide)) fun _ => ?_
  refine Yields.bind (Yields.mapM_all fun file hfile =>
    changedInFile_plain h hbase hhead (hfiles file hfile) scanning) fun found hfound => ?_
  refine Yields.after (h.words ?_) fun _ => Yields.pure fun f hf => ?_
  · exact (Finished.around (by decide) (closesNothing_nat _)
      (show Finishes " 个变更函数" by decide)).closesNothing
  · obtain ⟨changed, hchanged, hf⟩ := List.mem_flatten.1 hf
    exact hfound changed hchanged f hf

/-- The files that are collected have plain names. -/
theorem collectFiles_plain (h : c.Plain invariant allowed) (settings : Settings) :
    Yields invariant allowed (fun files => ∀ file ∈ files, ClosesNothing file)
      (collectFiles c settings) := by
  refine Yields.bind (h.modifiedFiles _ _ _) fun modified hmodified => ?_
  refine Yields.after (h.words ?_) fun _ => Yields.pure fun file hfile => ?_
  · exact ((Finished.around (by decide) (closesNothing_nat _)
      (show Finishes " 个变更的 Clarity 文件（排除前 " by decide)).around (closesNothing_nat _)
      (show Finishes " 个）" by decide)).closesNothing
  · exact hmodified file (List.mem_of_mem_filter hfile)

/-! ### Jobs -/

/-- The jobs of a plain file are plain, and all notes on them can be rendered. -/
theorem planFile_plain (h : c.Plain invariant allowed) {file : String} {functions : List String}
    (hfile : ClosesNothing file) (hfunctions : ∀ name ∈ functions, ClosesNothing name)
    (flags : String) :
    Yields invariant allowed (fun jobs => ∀ job ∈ jobs, job.Plain)
      (planFile c flags file functions) := by
  refine Yields.after (h.artifact file hfile) fun artifact => ?_
  split
  · refine Yields.pure fun job hjob => ?_
    obtain ⟨name, hname, rfl⟩ := List.mem_map.1 hjob
    exact ⟨hfile, hfunctions name hname⟩
  · refine Yields.after (h.words ?_) fun _ => Yields.pure fun job hjob => by cases hjob
    exact ((Finished.around (by decide) hfile
      (show Finishes " 的 AST 产物，跳过该文件的 " by decide)).around (closesNothing_nat _)
      (show Finishes " 个函数" by decide)).closesNothing

/-- The groups of plain functions have plain files and names. -/
theorem plain_of_mem_groupByFile {changed : List ChangedFunction} {file : String}
    {names : List String} (hchanged : ∀ f ∈ changed, f.Plain)
    (h : (file, names) ∈ groupByFile changed) :
    ClosesNothing file ∧ ∀ name ∈ names, ClosesNothing name := by
  rw [groupByFile_eq] at h
  obtain ⟨file', hfile, heq⟩ := List.mem_map.1 h
  obtain ⟨rfl, rfl⟩ := Prod.mk.inj heq
  obtain ⟨f, hf, rfl⟩ := List.mem_map.1 (List.mem_eraseDups.1 hfile)
  refine ⟨(hchanged f hf).file, fun name hname => ?_⟩
  obtain ⟨g, hg, rfl⟩ := List.mem_map.1 hname
  exact (hchanged g (List.mem_of_mem_filter hg)).name

/-- The jobs for plain functions are plain, and all notes on them can be rendered. -/
theorem planJobs_plain (h : c.Plain invariant allowed) {changed : List ChangedFunction}
    (hchanged : ∀ f ∈ changed, f.Plain) (baseline overrides : String) :
    Yields invariant allowed (fun jobs => ∀ job ∈ jobs, job.Plain)
      (planJobs c baseline overrides changed) := by
  have hplan (group : String × List String) (hgroup : group ∈ groupByFile changed) :
      Yields invariant allowed (fun jobs => ∀ job ∈ jobs, job.Plain)
        (planFile c (resolveFlags baseline overrides) group.1 group.2) := by
    obtain ⟨hfile, hnames⟩ := plain_of_mem_groupByFile hchanged hgroup
    exact planFile_plain h hfile hnames _
  refine Yields.bind (Yields.mapM_all hplan) fun planned hplanned => ?_
  refine Yields.after (h.words ?_) fun _ => Yields.pure fun job hjob => ?_
  · exact (Finished.around (by decide) (closesNothing_nat _)
      (show Finishes " 个验证任务" by decide)).closesNothing
  · obtain ⟨jobs, hjobs, hjob⟩ := List.mem_flatten.1 hjob
    exact hplanned jobs hjobs job hjob

/-- A result for a plain function of a plain output is plain. -/
theorem plain_of_verdict {output file function : String} {result : VerificationResult}
    (houtput : PlainOutput output) (hfunction : ClosesNothing function)
    (h : verdict output file function = .ok result) : result.Plain := by
  rw [verdict] at h
  split at h
  · obtain rfl := Except.ok.inj h
    exact ⟨hfunction, fun failure hfailure => by cases hfailure⟩
  · split at h
    · cases hfailures : counterexamples output with
      | error long =>
        rw [hfailures] at h
        cases h
      | ok failures =>
        rw [hfailures] at h
        obtain rfl := Except.ok.inj h
        exact ⟨hfunction, houtput failures hfailures⟩
    · obtain rfl := Except.ok.inj h
      refine ⟨hfunction, fun failure hfailure => ?_⟩
      obtain rfl := List.mem_singleton.1 hfailure
      exact ⟨hfunction, show ClosesNothing "unknown-result" by decide⟩

/-- The note on a result closes nothing when the function's name does not. -/
theorem closesNothing_resultNote {result : VerificationResult}
    (h : ClosesNothing result.functionName) : ClosesNothing (resultNote result).message := by
  have hstatus : ClosesNothing
      (if result.verified then "通过" else s!"失败（{result.failures.length} 条记录）") := by
    split
    · decide
    · exact (Finished.around (by decide) (closesNothing_nat _)
        (show Finishes " 条记录）" by decide)).closesNothing
  exact (Finished.around (by decide) hstatus (show Finishes ": " by decide)).append h

/-- The result of a plain job is plain, and its line numbers can be printed. -/
theorem runJob_plain (h : c.Plain invariant allowed) (hlong : ∀ long, allowed (.longNumeral long))
    {job : VerificationJob} (hjob : job.Plain) :
    Yields invariant allowed (fun result => result.Plain ∧ result.LinesFit) (runJob c job) := by
  refine Yields.after (h.words ?_) fun _ => ?_
  · exact (Finished.around (by decide) hjob.functionName
      (show Finishes " @ " by decide)).append hjob.file
  refine Yields.bind (h.check _ _ _ _).attempt fun outcome houtcome => ?_
  cases outcome with
  | error fault =>
    refine Yields.after (h.note _ ?_) fun _ =>
      Yields.pure ⟨⟨hjob.functionName, fun failure hfailure => ?_⟩, ?_⟩
    · exact (Finished.around (by decide) hjob.functionName
        (show Finishes "): " by decide)).renders_escape _
    · obtain rfl := List.mem_singleton.1 hfailure
      exact ⟨hjob.functionName, show ClosesNothing "execution-error" by decide⟩
    · exact linesFit_of_judgement (show judgement job (.error fault) = .ok _ from rfl)
  | ok output =>
    rw [judge]
    split
    · exact Yields.throw (hlong _)
    · next result hresult =>
      have hplain : result.Plain := plain_of_verdict (houtcome.2 output rfl) hjob.functionName hresult
      exact Yields.after (h.words (closesNothing_resultNote hplain.functionName)) fun _ =>
        Yields.pure ⟨hplain, linesFit_of_verdict hresult⟩

/-- An outcome with plain functions and results. -/
structure Outcome.Plain (outcome : Outcome) : Prop where
  changed : ∀ f ∈ outcome.changed, f.Plain
  results : ∀ result ∈ outcome.results, result.Plain

/-- The name of a status closes nothing. -/
theorem closesNothing_statusName (status : Status) : ClosesNothing status.name := by
  cases status <;> decide

/-- What comes of plain changed functions is plain, and its summary can be printed. -/
theorem verifyChanged_plain (h : c.Plain invariant allowed)
    (hlong : ∀ long, allowed (.longNumeral long)) (settings : Settings)
    {changed : List ChangedFunction} (hchanged : ∀ f ∈ changed, f.Plain) :
    Yields invariant allowed (fun outcome => outcome.Plain) (verifyChanged c settings changed) := by
  refine Yields.bind (planJobs_plain h hchanged _ _) fun jobs hjobs => ?_
  refine Yields.bind (Yields.mapM_all fun job hjob => runJob_plain h hlong (hjobs job hjob))
    fun results hresults => ?_
  refine Yields.after (h.words ?_) fun _ => ?_
  · have hfront := (Finished.around (show Finished "验证完成: " by decide)
      (closesNothing_nat results.length) (show Finishes " 个函数，状态 " by decide)).around
        (closesNothing_statusName (Outcome.statusOf results)) (show Finishes "，" by decide)
    exact hfront.append (ClosesNothing.finish (closesNothing_nat _)
      (show Finishes " 条发现" by decide)).closesNothing
  · have hsummary := Summary.exists_text fun result hresult => (hresults result hresult).2
    exact Yields.after (Upholds.printing hsummary) fun _ =>
      Yields.pure ⟨hchanged, fun result hresult => (hresults result hresult).1⟩

/-- All notes of a run on plain files and revisions can be rendered, so it fails as its collaborators do,
and what it comes to is plain. -/
theorem run_plain (h : c.Plain invariant allowed) (hlong : ∀ long, allowed (.longNumeral long))
    {settings : Settings} {files : Option (List String)}
    (hbase : ClosesNothing settings.baseRef) (hhead : ClosesNothing settings.headRef)
    (hfiles : ∀ given ∈ files, ∀ file ∈ given, ClosesNothing file) :
    Yields invariant allowed (fun outcome => outcome.Plain) (run c settings files) := by
  rw [run_eq]
  refine Yields.after (h.words ?_) fun _ => ?_
  · exact (Finished.around (by decide) hbase (show Finishes " -> " by decide)).append hhead
  have hchosen : Yields invariant allowed (fun files => ∀ file ∈ files, ClosesNothing file)
      (chosenFiles c settings files) := by
    cases files with
    | none => exact collectFiles_plain h settings
    | some given => exact Yields.pure (hfiles given rfl)
  refine Yields.bind hchosen fun chosen hplain => ?_
  refine Yields.bind (changedFunctions_plain h hbase hhead hplain _) fun changed hchanged => ?_
  split
  · refine Yields.after (h.words (by decide)) fun _ => Yields.pure ⟨?_, ?_⟩
    · exact fun f hf => absurd hf List.not_mem_nil
    · exact fun result hresult => absurd hresult List.not_mem_nil
  · exact verifyChanged_plain h hlong settings hchanged

end Pipeline

end ClarityDelta
