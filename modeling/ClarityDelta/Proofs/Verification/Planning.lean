import ClarityDelta.Proofs.Pipeline.Batch
import ClarityDelta.Proofs.Verification.Grouping

/-!
# Planning from the answers

Planning asks for the artifact of each file with changes once and makes jobs of the answers, which may
depend on what was asked before. A journal is kept of all that is asked, answered and noted. `Journals`
says of an action that it is finished, with or without a journal, and how what it gives is related to
what it enters; it is proved for planning from its parts. From that `planJobs_plans` tells what is asked,
which jobs come of the answers, and which files are left out with a warning.
-/

namespace ClarityDelta.Pipeline

open Logging Verification

variable {σ α β γ : Type}

/-! ## Journals -/

/-- What happens while jobs are planned: something is asked and answered, or noted. -/
inductive Event where
  | exchanged (exchange : Exchange)
  | noted (message : Note)

namespace Event

/-- What is asked and answered. -/
def exchange? : Event → Option Exchange
  | exchanged exchange => some exchange
  | noted _ => none

/-- What is warned of. -/
def warning? : Event → Option Note
  | exchanged _ => none
  | noted message => if message.severity = .warning then some message else none

end Event

/-- An action whose outcome is entered at the end of the journal. -/
def journalize (action : Action σ α) (event : Except Fault α → Event) :
    Action (σ × List Event) α := fun (state, journal) =>
  match action state with
  | (outcome, state) => (outcome, (state, journal ++ [event outcome]))

/-- The collaborators, each request to whom is entered in the journal with its answer, and each
note. -/
def Collaborators.journaled (c : Collaborators σ) : Collaborators (σ × List Event) where
  note message := journalize (c.note message) fun _ => .noted message
  modifiedFiles base head directories := journalize (c.modifiedFiles base head directories)
    fun answer => .exchanged (.modifiedFiles base head directories answer)
  content revision path := journalize (c.content revision path)
    fun answer => .exchanged (.content revision path answer)
  artifact file := journalize (c.artifact file) fun answer => .exchanged (.artifact file answer)
  check file artifact function flags := journalize (c.check file artifact function flags)
    fun answer => .exchanged (.check file artifact function flags answer)

/-- With a journal beside its state the action does what the plain one does without, and is finished; it
only adds to the journal, and what it adds is related to what it gives. -/
def Journals (action : Action (σ × List Event) α) (plain : Action σ α)
    (related : α → List Event → Prop) : Prop :=
  ∀ s, ∃ a after added, plain s = (.ok a, after) ∧
    (∀ before, action (s, before) = (.ok a, (after, before ++ added))) ∧ related a added

namespace Journals

variable {action : Action (σ × List Event) α} {plain : Action σ α}
  {related : α → List Event → Prop}

/-- Less may be said of what is put into the journal. -/
theorem mono {weaker : α → List Event → Prop} (h : Journals action plain related)
    (hweaker : ∀ a added, related a added → weaker a added) : Journals action plain weaker := by
  intro s
  obtain ⟨a, after, added, hplain, haction, hrel⟩ := h s
  exact ⟨a, after, added, hplain, haction, hweaker a added hrel⟩

/-- Giving a result puts nothing into the journal. -/
theorem pure (a : α) :
    Journals (pure a) (pure a : Action σ α) fun b added => b = a ∧ added = [] :=
  fun s => ⟨a, s, [], rfl, fun before => by rw [List.append_nil]; rfl, rfl, rfl⟩

/-- One after the other, two actions enter first what the first one enters. -/
theorem bind {next : α → Action (σ × List Event) β} {plainNext : α → Action σ β}
    {relatedNext : α → β → List Event → Prop} (h : Journals action plain related)
    (hnext : ∀ a, Journals (next a) (plainNext a) (relatedNext a)) :
    Journals (action >>= next) (plain >>= plainNext) fun b added =>
      ∃ a first second, added = first ++ second ∧ related a first ∧ relatedNext a b second := by
  intro s
  obtain ⟨a, middle, first, hplain, haction, hrel⟩ := h s
  obtain ⟨b, after, second, hplain', haction', hrel'⟩ := hnext a middle
  refine ⟨b, after, first ++ second, ?_, fun before => ?_, a, first, second, rfl, hrel, hrel'⟩
  · rw [Action.bind_apply, hplain]
    exact hplain'
  · rw [Action.bind_apply, haction, ← List.append_assoc]
    exact haction' (before ++ first)

/-- Done for every item of a list, an action leaves one record after the other, if each time it leaves
a record of the item, of what it gives and of what it enters. -/
theorem mapM {δ : Type} {f : γ → Action (σ × List Event) α} {g : γ → Action σ α} {input : δ → γ}
    {output : δ → α} {entered : δ → List Event}
    (h : ∀ x, Journals (f x) (g x) fun a added =>
      ∃ d, input d = x ∧ a = output d ∧ added = entered d) (xs : List γ) :
    Journals (xs.mapM f) (xs.mapM g) fun ys added =>
      ∃ ds : List δ, ds.map input = xs ∧ ys = ds.map output ∧ added = ds.flatMap entered := by
  induction xs with
  | nil =>
    rw [List.mapM_nil, List.mapM_nil]
    refine (pure []).mono ?_
    rintro _ _ ⟨rfl, rfl⟩
    exact ⟨[], rfl, rfl, rfl⟩
  | cons x xs ih =>
    rw [List.mapM_cons, List.mapM_cons]
    refine ((h x).bind fun a => ih.bind fun ys => pure (a :: ys)).mono ?_
    rintro _ _ ⟨_, _, _, rfl, ⟨d, rfl, rfl, rfl⟩, _, _, _, rfl, ⟨ds, rfl, rfl, rfl⟩, rfl, rfl⟩
    exact ⟨d :: ds, rfl, rfl, by rw [List.append_nil, List.flatMap_cons]⟩

/-- A note that does not fail is entered. -/
theorem note {c : Collaborators σ} (hquiet : c.Quiet) (message : Note) :
    Journals (c.journaled.note message) (c.note message) fun _ added =>
      added = [.noted message] := by
  intro s
  refine ⟨(), (c.note message s).2, _, Prod.ext (hquiet message s) rfl, fun before => ?_, rfl⟩
  exact Prod.ext (hquiet message s) rfl

/-- An answer about an artifact is entered with the file that was asked for. -/
theorem artifact {c : Collaborators σ} (hanswers : ∀ file s, ∃ answer, (c.artifact file s).1 = .ok answer)
    (file : String) :
    Journals (c.journaled.artifact file) (c.artifact file) fun answer added =>
      added = [.exchanged (.artifact file (.ok answer))] := by
  intro s
  obtain ⟨answer, hanswer⟩ := hanswers file s
  refine ⟨answer, (c.artifact file s).2, _, Prod.ext hanswer rfl, fun before => ?_, rfl⟩
  rw [← hanswer]
  rfl

end Journals

/-! ## Planning -/

/-- Whoever is asked for the artifact of a file names one or says that there is none, whatever was asked
before. -/
def Collaborators.NamesArtifacts (c : Collaborators σ) : Prop :=
  ∀ file s, ∃ answer, (c.artifact file s).1 = .ok answer

namespace PlannedFile

/-- Whether the file is left out: no artifact was found, or one without a name. -/
def isLeftOut (plan : PlannedFile) : Bool :=
  (plan.answer.filter (!·.isEmpty)).isNone

/-- The warning that the file is left out. -/
def warning (plan : PlannedFile) : Note :=
  .warning s!"未找到 {plan.file} 的 AST 产物，跳过该文件的 {plan.functions.length} 个函数"

/-- What happens when the file is planned. -/
def events (plan : PlannedFile) : List Event :=
  .exchanged plan.exchange :: if plan.isLeftOut then [.noted plan.warning] else []

/-- A plan asks for one artifact. -/
theorem filterMap_exchange?_events (plan : PlannedFile) :
    plan.events.filterMap Event.exchange? = [plan.exchange] := by
  rw [events]
  split <;> simp [Event.exchange?]

/-- A plan warns once if its file is left out, and not otherwise. -/
theorem filterMap_warning?_events (plan : PlannedFile) :
    plan.events.filterMap Event.warning? = if plan.isLeftOut then [plan.warning] else [] := by
  have hwarning : Event.warning? (.noted plan.warning) = some plan.warning := rfl
  rw [events]
  split
  · rw [List.filterMap_cons_none rfl, List.filterMap_cons_some hwarning, List.filterMap_nil]
  · rfl

/-- There is one warning for each file that is left out, in order. -/
theorem filterMap_warning?_flatMap_events (plans : List PlannedFile) :
    (plans.flatMap (·.events)).filterMap Event.warning? =
      (plans.filter (·.isLeftOut)).map (·.warning) := by
  induction plans with
  | nil => rfl
  | cons plan plans ih =>
    rw [List.flatMap_cons, List.filterMap_append, filterMap_warning?_events, ih, List.filter_cons]
    split <;> rfl

/-- There is one plan for each file with changes, in order of their first occurrence. -/
theorem files_eq {changed : List ChangedFunction} {plans : List PlannedFile}
    (h : plans.map (fun plan => (plan.file, plan.functions)) = groupByFile changed) :
    plans.map (·.file) = (changed.map (·.file)).eraseDups := by
  have hfiles := congrArg (List.map Prod.fst) h
  rw [groupByFile_eq, List.map_map, List.map_map] at hfiles
  exact hfiles.trans (List.map_id' _)

/-- A plan has the changed functions of its file, in order. -/
theorem functions_eq {changed : List ChangedFunction} {plans : List PlannedFile}
    (h : plans.map (fun plan => (plan.file, plan.functions)) = groupByFile changed)
    {plan : PlannedFile} (hplan : plan ∈ plans) : plan.functions = namesIn changed plan.file := by
  have hgroup : (plan.file, plan.functions) ∈ groupByFile changed := by
    rw [← h]
    exact List.mem_map_of_mem hplan
  rw [groupByFile_eq] at hgroup
  obtain ⟨file, -, hpair⟩ := List.mem_map.mp hgroup
  obtain ⟨rfl, hfunctions⟩ := Prod.mk.inj hpair
  exact hfunctions.symm

/-- The jobs of a plan are for its file. -/
theorem file_of_mem_jobs {plan : PlannedFile} {flags : String} {job : VerificationJob}
    (h : job ∈ plan.jobs flags) : job.file = plan.file := by
  rw [PlannedFile.jobs_eq] at h
  split at h
  · obtain ⟨_, -, rfl⟩ := List.mem_map.mp h
    rfl
  · cases h

/-- No other file has jobs for a file that is planned once. -/
theorem filter_jobs {plans : List PlannedFile} (hnodup : (plans.map (·.file)).Nodup)
    (flags : String) {plan : PlannedFile} (hplan : plan ∈ plans) :
    (plans.flatMap (·.jobs flags)).filter (·.file = plan.file) = plan.jobs flags := by
  have hothers : ∀ others : List PlannedFile, plan.file ∉ others.map (·.file) →
      (others.flatMap (·.jobs flags)).filter (·.file = plan.file) = [] := by
    intro others hnot
    rw [List.filter_eq_nil_iff]
    intro job hjob hfile
    obtain ⟨other, hother, hjob⟩ := List.mem_flatMap.mp hjob
    rw [decide_eq_true_eq, file_of_mem_jobs hjob] at hfile
    exact hnot (hfile ▸ List.mem_map_of_mem hother)
  obtain ⟨front, behind, rfl⟩ := List.append_of_mem hplan
  rw [List.map_append, List.map_cons, List.nodup_middle] at hnodup
  obtain ⟨hnot, -⟩ := List.nodup_cons.mp hnodup
  rw [List.mem_append, not_or] at hnot
  have hown : (plan.jobs flags).filter (·.file = plan.file) = plan.jobs flags :=
    List.filter_eq_self.mpr fun job hjob => decide_eq_true (file_of_mem_jobs hjob)
  rw [List.flatMap_append, List.flatMap_cons, List.filter_append, List.filter_append,
    hothers front hnot.1, hothers behind hnot.2, hown, List.nil_append, List.append_nil]

end PlannedFile

/-- The journal of planning a file has the question for its artifact, and a warning if there is none. -/
theorem planFile_journals {c : Collaborators σ} (hquiet : c.Quiet) (hnames : c.NamesArtifacts)
    (flags : String) (group : String × List String) :
    Journals (planFile c.journaled flags group.1 group.2) (planFile c flags group.1 group.2)
      fun jobs added => ∃ plan : PlannedFile, (plan.file, plan.functions) = group ∧
        jobs = plan.jobs flags ∧ added = plan.events := by
  obtain ⟨file, functions⟩ := group
  refine ((Journals.artifact hnames file).bind fun answer => (?_ : Journals _ _ fun jobs added =>
    jobs = (PlannedFile.mk file functions answer).jobs flags ∧
      added = if (PlannedFile.mk file functions answer).isLeftOut then
        [.noted (PlannedFile.mk file functions answer).warning] else [])).mono ?_
  · rw [PlannedFile.jobs_eq]
    unfold PlannedFile.isLeftOut
    dsimp only
    cases answer.filter (!·.isEmpty) with
    | some artifact => exact Journals.pure _
    | none =>
      refine ((Journals.note hquiet _).bind fun _ => Journals.pure []).mono ?_
      rintro _ _ ⟨_, _, _, rfl, rfl, rfl, rfl⟩
      exact ⟨rfl, rfl⟩
  · rintro _ _ ⟨answer, _, _, rfl, rfl, rfl, rfl⟩
    exact ⟨⟨file, functions, answer⟩, rfl, rfl, rfl⟩

/-- The journal of planning has the events of one plan for each group, in order. -/
theorem planJobs_journals {c : Collaborators σ} (hquiet : c.Quiet) (hnames : c.NamesArtifacts)
    (baseline overrides : String) (changed : List ChangedFunction) :
    Journals (planJobs c.journaled baseline overrides changed)
      (planJobs c baseline overrides changed) fun jobs added =>
        ∃ plans : List PlannedFile,
          plans.map (fun plan => (plan.file, plan.functions)) = groupByFile changed ∧
          jobs = plans.flatMap (·.jobs (resolveFlags baseline overrides)) ∧
          added = plans.flatMap (·.events) ++ [.noted (.info s!"生成 {jobs.length} 个验证任务")] := by
  refine ((Journals.mapM (planFile_journals hquiet hnames (resolveFlags baseline overrides))
    (groupByFile changed)).bind fun parts => (Journals.note hquiet _).bind fun _ =>
      Journals.pure parts.flatten).mono ?_
  rintro _ _ ⟨_, _, _, rfl, ⟨plans, hgroups, rfl, rfl⟩, _, _, _, rfl, rfl, rfl, rfl⟩
  exact ⟨plans, hgroups, by rw [List.flatMap_def], rfl⟩

/-- What planning comes to when the given functions have changed: what is asked and answered for each
file, the jobs, and all that happens meanwhile. -/
structure Planned (flags : String) (changed : List ChangedFunction) (plans : List PlannedFile)
    (jobs : List VerificationJob) (events : List Event) : Prop where
  /-- Each file is there once, where it comes first. -/
  files_eq : plans.map (·.file) = (changed.map (·.file)).eraseDups
  /-- A file comes with the names of all its changed functions, in order. -/
  functions_eq : ∀ plan ∈ plans, plan.functions = namesIn changed plan.file
  /-- The artifacts of the files are asked for, and nothing else is asked. -/
  exchanges_eq : events.filterMap Event.exchange? = plans.map (·.exchange)
  /-- Each file whose answer names an artifact has a job for each of its functions, and there are no
  other jobs. -/
  jobs_eq : jobs = plans.flatMap (·.jobs flags)
  /-- The jobs of a file are those of the one time it was asked for. -/
  filter_jobs_eq : ∀ plan ∈ plans, jobs.filter (·.file = plan.file) = plan.jobs flags
  /-- Each other file is warned of once. -/
  warnings_eq : events.filterMap Event.warning? = (plans.filter (·.isLeftOut)).map (·.warning)
  /-- The files follow one another, and the number of jobs is noted last. -/
  events_eq : events = plans.flatMap (·.events) ++ [.noted (.info s!"生成 {jobs.length} 个验证任务")]

/-- When notes do not fail, and whatever is answered when artifacts are asked for, jobs are planned file
by file from the answers. -/
theorem planJobs_plans {c : Collaborators σ} (hquiet : c.Quiet) (hnames : c.NamesArtifacts)
    (baseline overrides : String) (changed : List ChangedFunction) (s : σ) :
    ∃ plans jobs events after,
      planJobs c baseline overrides changed s = (.ok jobs, after) ∧
      planJobs c.journaled baseline overrides changed (s, []) = (.ok jobs, (after, events)) ∧
      Planned (resolveFlags baseline overrides) changed plans jobs events := by
  obtain ⟨jobs, after, events, hplain, hjournaled, plans, hgroups, hjobs, rfl⟩ :=
    planJobs_journals hquiet hnames baseline overrides changed s
  have hrun := hjournaled []
  rw [List.nil_append] at hrun
  have hfiles := PlannedFile.files_eq hgroups
  refine ⟨plans, jobs, _, after, hplain, hrun, hfiles, ?functions, ?exchanges, hjobs, ?own,
    ?warnings, rfl⟩
  case functions => exact fun plan hplan => PlannedFile.functions_eq hgroups hplan
  case exchanges =>
    rw [List.filterMap_append, List.filterMap_flatMap, List.map_eq_flatMap]
    simp only [PlannedFile.filterMap_exchange?_events]
    exact List.append_nil _
  case own =>
    rw [hjobs]
    exact fun plan => PlannedFile.filter_jobs (hfiles ▸ nodup_eraseDups _) _
  case warnings =>
    rw [List.filterMap_append, PlannedFile.filterMap_warning?_flatMap_events]
    exact List.append_nil _

/-- Every third request for an artifact finds none, and the one before finds one without a name. -/
def everyThird : Collaborators Nat where
  note _ := pure ()
  modifiedFiles _ _ _ := pure []
  content _ _ := pure none
  artifact file asked :=
    (.ok (match asked % 3 with
      | 0 => some (file ++ "ast")
      | 1 => some ""
      | _ => none), asked + 1)
  check _ _ _ _ := pure ""

/-- A new function of a file. -/
def addedIn (file name : String) : ChangedFunction where
  name := name
  kind := .publicFunction
  file := file
  startLine := 1
  endLine := 1
  content := ""
  changeType := .added

/-- Changes in four files, one function of the first of which is changed twice. -/
def fourFiles : List ChangedFunction :=
  [addedIn "a.clar" "f", addedIn "b.clar" "g", addedIn "a.clar" "h", addedIn "c.clar" "f",
    addedIn "lib/d.clar" "g", addedIn "a.clar" "f"]

/-- The first and the last of the files have jobs. -/
theorem planJobs_plans_everyThird :
    everyThird.Quiet ∧ everyThird.NamesArtifacts ∧
      ∃ plans jobs events after,
        planJobs everyThird " --unwind 8 " "--verbose" fourFiles 0 = (.ok jobs, after) ∧
        planJobs everyThird.journaled " --unwind 8 " "--verbose" fourFiles (0, []) =
          (.ok jobs, (after, events)) ∧
        Planned (resolveFlags " --unwind 8 " "--verbose") fourFiles plans jobs events ∧
        jobs = [⟨"a.clar", "f", "a", "a.clarast", "--unwind 8 --verbose"⟩,
          ⟨"a.clar", "h", "a", "a.clarast", "--unwind 8 --verbose"⟩,
          ⟨"a.clar", "f", "a", "a.clarast", "--unwind 8 --verbose"⟩,
          ⟨"lib/d.clar", "g", "d", "lib/d.clarast", "--unwind 8 --verbose"⟩] := by
  have hquiet : everyThird.Quiet := fun _ _ => rfl
  have hnames : everyThird.NamesArtifacts := fun _ _ => ⟨_, rfl⟩
  obtain ⟨plans, jobs, events, after, hplain, hjournaled, hplanned⟩ :=
    planJobs_plans hquiet hnames " --unwind 8 " "--verbose" fourFiles 0
  refine ⟨hquiet, hnames, plans, jobs, events, after, hplain, hjournaled, hplanned, ?_⟩
  refine Except.ok.inj ((congrArg Prod.fst hplain).symm.trans ?_)
  decide +kernel

end ClarityDelta.Pipeline
