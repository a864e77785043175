import StrideRunner.Model.Commands.Run.System
import StrideRunner.Verification.Executor.Output
import StrideRunner.Verification.Executor.PartialOutput

/-! # A job next to others

A job touches the files of its executor only. What it ends with, what it has sent by then and
which files it leaves are those of `Job::main` alone. -/

namespace StrideRunner

open Library

variable {env : RunEnvironment} {iid : IId} {data : List Char} {fs fs' : FileSystem}
  {task task' : JobTask} {a : JobAction}

/-! ## Footprint -/

/-- The files of the job for an instance, whatever its text is. -/
def RunEnvironment.files (env : RunEnvironment) (iid : IId) : Set PathBuf :=
  (env.executor iid []).files

theorem RunEnvironment.disjoint_files {iid iid' : IId} (hne : iid ≠ iid') :
    ∀ path ∈ env.files iid, path ∉ env.files iid' :=
  @SolverExecutor.disjoint_files (env.executor iid []) (env.executor iid' []) rfl hne

theorem RunEnvironment.summaryFile_notMem_files :
    summaryFile env.logDir ∉ env.files iid :=
  @SolverExecutor.summaryFile_notMem_files (env.executor iid [])

namespace JobTask

/-- A call of `delete_files` is a step of the executor. -/
theorem exists_deleteCall_eq (env : RunEnvironment) (iid : IId) (data : List Char)
    (executor : ExecutorState) : ∃ label, (∀ error left, label ≠ .fail error left) ∧
      ∀ fs, deleteCall env iid data fs executor =
        executorStep env.profile (env.solver iid) (env.executor iid data) label (fs, executor) := by
  unfold deleteCall
  split
  · exact ⟨.deleteFiles, by simp, fun _ => rfl⟩
  · exact ⟨.proceed, by simp, fun _ => rfl⟩

/-- A step of a job leaves the files alone, or it is a step of its executor. -/
theorem jobStep_cases (env : RunEnvironment) (iid : IId) (a : JobAction) (task : JobTask) :
    (∀ fs, jobStep env iid a (fs, task) = none) ∨
      (∃ task', ∀ fs, jobStep env iid a (fs, task) = some (fs, task')) ∨
      ∃ data label executor, ∃ next : ExecutorState → JobTask, ∀ fs,
        jobStep env iid a (fs, task) =
          (executorStep env.profile (env.solver iid) (env.executor iid data) label
            (fs, executor)).map fun result => (result.1, next result.2) := by
  obtain ⟨phase, sent⟩ := task
  cases a with
  | proceed =>
      cases phase with
      | fetchingInstance => exact Or.inr (Or.inl ⟨_, fun _ => rfl⟩)
      | fetchingData info => exact Or.inr (Or.inl ⟨_, fun _ => rfl⟩)
      | running info data executor =>
          exact Or.inr (Or.inr ⟨data, .proceed, executor, _, fun _ => rfl⟩)
      | postProcessing info data executor result => exact Or.inr (Or.inl ⟨_, fun _ => rfl⟩)
      | deleting data executor state =>
          obtain ⟨label, _, hlabel⟩ := exists_deleteCall_eq env iid data executor
          refine Or.inr (Or.inr ⟨data, label, executor,
            fun next => afterDeletion env iid ⟨.deleting data executor state, sent⟩ data next state,
            fun fs => ?_⟩)
          rw [← hlabel]
          rfl
      | ended outcome => exact Or.inl fun _ => rfl
  | fail error left =>
      cases phase with
      | fetchingInstance => exact Or.inr (Or.inl ⟨_, fun _ => rfl⟩)
      | fetchingData info => exact Or.inr (Or.inl ⟨_, fun _ => rfl⟩)
      | running info data executor =>
          cases error with
          | io error =>
              exact Or.inr (Or.inr ⟨data, .fail error left, executor, _, fun _ => rfl⟩)
          | message text => exact Or.inl fun _ => rfl
      | postProcessing info data executor result =>
          by_cases hsent : Job.uploads env.opts result info.bestScore
          · exact Or.inr (Or.inl ⟨_, fun _ => if_pos hsent⟩)
          · exact Or.inl fun _ => if_neg hsent
      | deleting data executor state =>
          cases error with
          | io error =>
              exact Or.inr (Or.inr ⟨data, .fail error left, executor,
                fun next => afterDeletion env iid ⟨.deleting data executor state, sent⟩ data next
                  state, fun _ => rfl⟩)
          | message text => exact Or.inl fun _ => rfl
      | ended outcome => exact Or.inl fun _ => by cases error <;> rfl
  | unwind message =>
      cases phase with
      | postProcessing info data executor result =>
          by_cases hsent : Job.uploads env.opts result info.bestScore
          · exact Or.inr (Or.inl ⟨_, fun _ => if_pos hsent⟩)
          · exact Or.inl fun _ => if_neg hsent
      | _ => exact Or.inl fun _ => rfl

theorem jobStep_confined : Confined (env.files iid) (jobStep env iid) := by
  constructor
  · intro a fs task fs' task' h path hpath
    obtain hnone | ⟨_, hpure⟩ | ⟨data, label, executor, next, hcall⟩ := jobStep_cases env iid a task
    · rw [hnone] at h
      cases h
    · rw [hpure] at h
      cases h
      rfl
    · rw [hcall] at h
      obtain ⟨⟨σ, state⟩, hstep, hnext⟩ := Option.map_eq_some_iff.mp h
      cases hnext
      exact SolverExecutor.executorStep_frame hstep path hpath
  · intro a fs task fs' task' h τ hagree
    obtain hnone | ⟨_, hpure⟩ | ⟨data, label, executor, next, hcall⟩ := jobStep_cases env iid a task
    · rw [hnone] at h
      cases h
    · rw [hpure] at h ⊢
      cases h
      exact ⟨τ, rfl, hagree⟩
    · rw [hcall] at h ⊢
      obtain ⟨⟨σ, state⟩, hstep, hnext⟩ := Option.map_eq_some_iff.mp h
      cases hnext
      obtain ⟨τ', hτ', hagree'⟩ := SolverExecutor.executorStep_confined.congr hstep τ hagree
      exact ⟨τ', Option.map_eq_some_iff.mpr ⟨_, hτ', rfl⟩, hagree'⟩

end JobTask

/-! ## The job alone -/

namespace RunEnvironment

/-- `executor.run()` in an empty directory. -/
def runAlone (env : RunEnvironment) (iid : IId) (data : List Char) :
    Outcome ExecutorError SolverResult × FileSystem :=
  (env.executor iid data).run env.profile (env.solver iid) fun _ => none

/-- The effects of a job that is alone and whose uploads and deletions succeed. -/
def effects (env : RunEnvironment) (iid : IId) : Job.Effects where
  fetchInstance := env.fetchInstance iid
  fetchData := env.fetchData iid
  run := fun data => (env.runAlone iid data).1.mapErr ExecutorError.toAnyhow
  runtime := env.runtime iid
  upload := fun _ => .ok ()
  deleteFiles := .ok ()

end RunEnvironment

/-- The metadata of the instance, and its text as the solver gets it. -/
structure Fetched (env : RunEnvironment) (iid : IId) (info : InstanceModel)
    (data : List Char) : Prop where
  row : env.fetchInstance iid = .ok info
  input : ∃ text, env.fetchData iid info.dataDid = .ok text ∧ data = env.prepare text

/-- The executor, when it is alone, returns this result. -/
structure Judged (env : RunEnvironment) (iid : IId) (info : InstanceModel) (data : List Char)
    (result : SolverResult) : Prop extends Fetched env iid info data where
  verdict : (env.runAlone iid data).1 = .ok result

/-- What a job that has ended with `Ok` has sent and leaves in the log directory. -/
structure JobLeaves (env : RunEnvironment) (iid : IId) (fs : FileSystem)
    (sent : Option SolverResult) (jobResult : JobResult) (info : InstanceModel)
    (data : List Char) (result : SolverResult) : Prop where
  judged : Judged env iid info data result
  state : Job.toResultType result info = .ok jobResult.state
  runtime : jobResult.runtime = env.runtime iid
  sent : sent = if Job.uploads env.opts result info.bestScore then some result else none
  deleted : Job.deletesLogs env.opts jobResult.state → ∀ path ∈ env.files iid, fs path = none
  kept : ¬ Job.deletesLogs env.opts jobResult.state →
    AgreeOn (env.files iid) fs (env.runAlone iid data).2

/-- Only what the verifier has returned is sent, and only if the options call for it. -/
def SentOnly (env : RunEnvironment) (iid : IId) (sent : Option SolverResult) : Prop :=
  ∀ result, sent = some result →
    ∃ info data, Judged env iid info data result ∧ Job.uploads env.opts result info.bestScore

theorem sentOnly_none : SentOnly env iid none := by
  intro result hresult
  cases hresult

theorem Job.deleteLogs_eq (opts : RunOpts) (effects : Job.Effects) (state : JobResultState) :
    Job.deleteLogs opts effects state =
      if Job.deletesLogs opts state then effects.deleteFiles else .ok () := rfl

theorem Fetched.unique {info info' : InstanceModel} {data' : List Char}
    (h : Fetched env iid info data) (h' : Fetched env iid info' data') :
    info' = info ∧ data' = data := by
  obtain rfl : info' = info := Outcome.ok.inj (h'.row.symm.trans h.row)
  obtain ⟨text, htext, rfl⟩ := h.input
  obtain ⟨text', htext', rfl⟩ := h'.input
  obtain rfl : text' = text := Outcome.ok.inj (htext'.symm.trans htext)
  exact ⟨rfl, rfl⟩

/-- After the fetches `Job::main` runs the executor. -/
theorem Fetched.main_eq {info : InstanceModel} (h : Fetched env iid info data) :
    ∃ rest, Job.main env.opts (env.effects iid) =
      (env.runAlone iid data).1.mapErr ExecutorError.toAnyhow >>= rest := by
  obtain ⟨text, htext, rfl⟩ := h.input
  have hinfo : (env.effects iid).fetchInstance = .ok info := h.row
  have htext : (env.effects iid).fetchData info.dataDid = .ok text := htext
  unfold Job.main
  simp only [hinfo, htext, Outcome.ok_bind]
  exact ⟨_, rfl⟩

/-- After the run only the classification can fail. -/
theorem Judged.main_eq {info : InstanceModel} {result : SolverResult}
    (h : Judged env iid info data result) : Job.main env.opts (env.effects iid) =
      Job.toResultType result info >>= fun state => .ok ⟨state, env.runtime iid⟩ := by
  obtain ⟨text, htext, rfl⟩ := h.input
  have hinfo : (env.effects iid).fetchInstance = .ok info := h.row
  have htext : (env.effects iid).fetchData info.dataDid = .ok text := htext
  have hrun : (env.effects iid).run (env.prepare text) = .ok result :=
    congrArg (Outcome.mapErr ExecutorError.toAnyhow) h.verdict
  have hupload : Job.uploadResults env.opts (env.effects iid) result info.bestScore = .ok () := by
    unfold Job.uploadResults
    exact ite_self _
  have hdelete : ∀ state, Job.deleteLogs env.opts (env.effects iid) state = .ok () := by
    intro state
    rw [Job.deleteLogs_eq]
    exact ite_self _
  unfold Job.main
  simp only [hinfo, htext, Outcome.ok_bind]
  change (env.effects iid).run (env.prepare text) >>= _ = _
  simp only [hrun, hupload, hdelete, Outcome.ok_bind, Outcome.pure_eq]
  rfl

/-- A job that ends with `Ok` among others ends so alone. -/
theorem JobLeaves.main_eq {sent : Option SolverResult} {jobResult : JobResult}
    {info : InstanceModel} {data : List Char} {result : SolverResult}
    (h : JobLeaves env iid fs sent jobResult info data result) :
    Job.main env.opts (env.effects iid) = .ok jobResult := by
  rw [h.judged.main_eq, h.state, Outcome.ok_bind, ← h.runtime]

/-! ## The invariant of a job -/

section Executor

variable {profile : BuildProfile} {solver : Bytes → SolverRun} {self : SolverExecutor}
  {state state' : ExecutorState} {faultless : Prop} {base : FileSystem}

namespace SolverExecutor

/-- A step moves on, answers or finishes the deletion. -/
theorem executorStep_shape {label : ExecutorAction}
    (h : executorStep profile solver self label (fs, state) = some (fs', state')) :
    (∃ phase, state' = state.goto phase) ∨
      (0 < remaining 0 state.phase ∧ ∃ result, state' = state.answer result) ∨
      (remaining 0 state.phase = 0 ∧ ∃ deletion, state' = state.finish deletion) := by
  cases label with
  | proceed =>
      cases proceeds_of_proceedStep h with
      | openStdinMissing hphase _ => exact Or.inr (Or.inl ⟨by simp [hphase, remaining], _, rfl⟩)
      | verify _ hphase => exact Or.inr (Or.inl ⟨by simp [hphase, remaining], _, rfl⟩)
      | remove suffix next hphase _ =>
          have hzero := hphase.remaining_eq 0
          generalize state.phase = phase at hphase hzero
          cases hphase with
          | stdin => exact Or.inl ⟨_, rfl⟩
          | stdout => exact Or.inl ⟨_, rfl⟩
          | stderr => exact Or.inr (Or.inr ⟨hzero, _, rfl⟩)
      | removeMissing _ _ hphase _ => exact Or.inr (Or.inr ⟨hphase.remaining_eq 0, _, rfl⟩)
      | _ => exact Or.inl ⟨_, rfl⟩
  | fail error left =>
      obtain ⟨_, ⟨hpositive, context, rfl⟩ | ⟨hzero, rfl⟩⟩ := failStep_cases h
      · exact Or.inr (Or.inl ⟨hpositive 0, _, rfl⟩)
      · exact Or.inr (Or.inr ⟨hzero 0, _, rfl⟩)
  | deleteFiles =>
      obtain ⟨_, _, _, rfl⟩ := deleteStep_cases h
      exact Or.inl ⟨_, rfl⟩

/-- The step that gives the result is the last one of `run`. -/
theorem phase_of_result {label : ExecutorAction}
    (hinv : SoloInvariant profile solver self faultless base fs state)
    (h : executorStep profile solver self label (fs, state) = some (fs', state'))
    (hbefore : state.result = none) {result : Outcome ExecutorError SolverResult}
    (hafter : state'.result = some result) : state'.phase = .returned := by
  obtain ⟨phase, rfl⟩ | ⟨_, answer, rfl⟩ | ⟨hzero, deletion, rfl⟩ := executorStep_shape h
  · cases hbefore.symm.trans hafter
  · rfl
  · exact absurd hzero ((hinv.unreturned 0).mp hbefore).ne'

/-- Later steps do not change the result. -/
theorem result_of_step {label : ExecutorAction}
    (hinv : SoloInvariant profile solver self faultless base fs state)
    (h : executorStep profile solver self label (fs, state) = some (fs', state'))
    {result : Outcome ExecutorError SolverResult} (hbefore : state.result = some result) :
    state'.result = some result := by
  obtain ⟨phase, rfl⟩ | ⟨hpositive, answer, rfl⟩ | ⟨_, deletion, rfl⟩ := executorStep_shape h
  · exact hbefore
  · cases ((hinv.unreturned 0).mpr hpositive).symm.trans hbefore
  · exact hbefore

end SolverExecutor

end Executor

/-- The executor of the job, compared with a run in an empty directory. -/
abbrev JobExecutor (env : RunEnvironment) (iid : IId) (data : List Char) (fs : FileSystem)
    (executor : ExecutorState) : Prop :=
  SolverExecutor.SoloInvariant env.profile (env.solver iid) (env.executor iid data) False
    (fun _ => none) fs executor

/-- What is known of a job, of what it has sent and of its files. -/
def JobInvariant (env : RunEnvironment) (iid : IId) (fs : FileSystem) (task : JobTask) : Prop :=
  match task.phase with
  | .fetchingInstance => task.sent = none
  | .fetchingData info => task.sent = none ∧ env.fetchInstance iid = .ok info
  | .running info data executor => task.sent = none ∧ Fetched env iid info data ∧
      JobExecutor env iid data fs executor ∧ executor.result = none
  | .postProcessing info data executor result => task.sent = none ∧
      Judged env iid info data result ∧ JobExecutor env iid data fs executor ∧
      executor.result = some (.ok result) ∧ executor.phase = .returned
  | .deleting data executor state => ∃ info result, Judged env iid info data result ∧
      JobExecutor env iid data fs executor ∧ executor.result = some (.ok result) ∧
      Job.toResultType result info = .ok state ∧ Job.deletesLogs env.opts state ∧
      task.sent = if Job.uploads env.opts result info.bestScore then some result else none
  | .ended outcome => SentOnly env iid task.sent ∧ ∀ jobResult, outcome = .ok jobResult →
      ∃ info data result, JobLeaves env iid fs task.sent jobResult info data result

theorem jobInvariant_start : JobInvariant env iid fs JobTask.start := rfl

theorem Judged.of_executor {info : InstanceModel} {result : SolverResult}
    {executor : ExecutorState} (hfetched : Fetched env iid info data)
    (hinv : JobExecutor env iid data fs executor) (hresult : executor.result = some (.ok result)) :
    Judged env iid info data result :=
  ⟨hfetched, hinv.result _ hresult (Or.inl ⟨result, rfl⟩)⟩

theorem Judged.sentOnly {info : InstanceModel} {result : SolverResult}
    (h : Judged env iid info data result) : SentOnly env iid
      (if Job.uploads env.opts result info.bestScore then some result else none) := by
  intro sent hsent
  split at hsent
  · rename_i huploads
    cases hsent
    exact ⟨info, data, h, huploads⟩
  · cases hsent

/-- An error or a panic ends the job. -/
theorem jobInvariant_finish {outcome : Outcome AnyhowError JobResult}
    (hsent : SentOnly env iid task.sent) (hfailed : ∀ jobResult, outcome ≠ .ok jobResult) :
    JobInvariant env iid fs (task.finish outcome) :=
  ⟨hsent, fun jobResult hok => (hfailed jobResult hok).elim⟩

/-- The `?` operator ends the job, or the job goes on with the value. -/
theorem jobInvariant_andThen {α : Type} {x : Outcome AnyhowError α} {next : α → JobTask}
    (hsent : SentOnly env iid task.sent)
    (hnext : ∀ value, x = .ok value → JobInvariant env iid fs (next value)) :
    JobInvariant env iid fs (task.andThen x next) := by
  cases x with
  | ok value => exact hnext value rfl
  | err error => exact jobInvariant_finish hsent (by simp)
  | panic message => exact jobInvariant_finish hsent (by simp)

namespace JobTask

theorem sent_send {info : InstanceModel} {result : SolverResult} (hsent : task.sent = none) :
    (task.send env info result).sent =
      if Job.uploads env.opts result info.bestScore then some result else none := by
  unfold send
  split
  · rfl
  · exact hsent

theorem sentOnly_send {info : InstanceModel} {result : SolverResult}
    (h : Judged env iid info data result) (hsent : task.sent = none) :
    SentOnly env iid (task.send env info result).sent := by
  rw [sent_send hsent]
  exact h.sentOnly

theorem jobInvariant_afterCall {info : InstanceModel} {executor executor' : ExecutorState}
    {label : ExecutorAction} (hsent : task.sent = none) (hfetched : Fetched env iid info data)
    (hinv : JobExecutor env iid data fs executor) (hbefore : executor.result = none)
    (hstep : executorStep env.profile (env.solver iid) (env.executor iid data) label
      (fs, executor) = some (fs', executor')) :
    JobInvariant env iid fs' (task.afterCall info data executor') := by
  have hinv' : JobExecutor env iid data fs' executor' :=
    SolverExecutor.executorStep_soloInvariant (fun hfalse => hfalse.elim) hinv hstep
  unfold afterCall
  cases hresult : executor'.result with
  | none => exact ⟨hsent, hfetched, hinv', hresult⟩
  | some outcome =>
      have hphase := SolverExecutor.phase_of_result hinv hstep hbefore hresult
      apply jobInvariant_andThen (hsent ▸ sentOnly_none)
      intro result hok
      rw [Outcome.mapErr_eq_ok.mp hok] at hresult
      exact ⟨hsent, .of_executor hfetched hinv' hresult, hinv', hresult, hphase⟩

theorem jobInvariant_classify {info : InstanceModel} {executor : ExecutorState}
    {result : SolverResult} (hsent : task.sent = none) (hjudged : Judged env iid info data result)
    (hinv : JobExecutor env iid data fs executor) (hresult : executor.result = some (.ok result))
    (hphase : executor.phase = .returned) :
    JobInvariant env iid fs
      ((task.send env info result).classify env iid info data executor result) := by
  apply jobInvariant_andThen (sentOnly_send hjudged hsent)
  intro state hstate
  by_cases hdeletes : Job.deletesLogs env.opts state
  · rw [if_pos hdeletes]
    exact ⟨info, result, hjudged, hinv, hresult, hstate, hdeletes, sent_send hsent⟩
  · rw [if_neg hdeletes]
    refine ⟨sentOnly_send hjudged hsent, ?_⟩
    rintro _ ⟨⟩
    refine ⟨info, data, result, hjudged, hstate, rfl, sent_send hsent, ?_, ?_⟩
    · exact fun h => (hdeletes h).elim
    · intro _
      have hfiles := hinv.phase
      simp only [SolverExecutor.PhaseInvariant, hphase] at hfiles
      exact hfiles (Or.inl ⟨result, hresult⟩)

theorem jobInvariant_afterDeletion {info : InstanceModel} {result : SolverResult}
    {executor executor' : ExecutorState} {state : JobResultState} {label : ExecutorAction}
    (hjudged : Judged env iid info data result) (hinv : JobExecutor env iid data fs executor)
    (hresult : executor.result = some (.ok result))
    (hstate : Job.toResultType result info = .ok state)
    (hdeletes : Job.deletesLogs env.opts state)
    (hsent : task.sent = if Job.uploads env.opts result info.bestScore then some result else none)
    (hstep : executorStep env.profile (env.solver iid) (env.executor iid data) label
      (fs, executor) = some (fs', executor')) :
    JobInvariant env iid fs' (task.afterDeletion env iid data executor' state) := by
  have hinv' : JobExecutor env iid data fs' executor' :=
    SolverExecutor.executorStep_soloInvariant (fun hfalse => hfalse.elim) hinv hstep
  have hresult' := SolverExecutor.result_of_step hinv hstep hresult
  have hsentOnly : SentOnly env iid task.sent := hsent ▸ hjudged.sentOnly
  unfold afterDeletion
  cases hdeletion : executor'.deletion with
  | none => exact ⟨info, result, hjudged, hinv', hresult', hstate, hdeletes, hsent⟩
  | some deletion =>
      apply jobInvariant_andThen hsentOnly
      intro _ hok
      have hgone := (hinv'.deletion_spec hdeletion).1 (Outcome.mapErr_eq_ok.mp hok)
      refine ⟨hsentOnly, ?_⟩
      rintro _ ⟨⟩
      exact ⟨info, data, result, hjudged, hstate, rfl, hsent, fun _ => hgone,
        fun h => (h hdeletes).elim⟩

theorem jobInvariant_proceedStep (hinv : JobInvariant env iid fs task)
    (h : task.proceedStep env iid fs = some (fs', task')) : JobInvariant env iid fs' task' := by
  unfold JobInvariant at hinv
  unfold proceedStep at h
  cases hphase : task.phase with
  | fetchingInstance =>
      simp only [hphase] at hinv h
      cases h
      exact jobInvariant_andThen (hinv ▸ sentOnly_none) fun info hinfo => ⟨hinv, hinfo⟩
  | fetchingData info =>
      simp only [hphase] at hinv h
      obtain ⟨hsent, hinfo⟩ := hinv
      cases h
      refine jobInvariant_andThen (hsent ▸ sentOnly_none) fun text htext => ?_
      exact ⟨hsent, ⟨hinfo, text, htext, rfl⟩, SolverExecutor.soloInvariant_start, rfl⟩
  | running info data executor =>
      simp only [hphase] at hinv h
      obtain ⟨hsent, hfetched, hsolo, hresult⟩ := hinv
      obtain ⟨⟨σ, executor'⟩, hstep, hnext⟩ := Option.map_eq_some_iff.mp h
      have hcall : executorStep env.profile (env.solver iid) (env.executor iid data) .proceed
          (fs, executor) = some (σ, executor') := hstep
      cases hnext
      exact jobInvariant_afterCall hsent hfetched hsolo hresult hcall
  | postProcessing info data executor result =>
      simp only [hphase] at hinv h
      obtain ⟨hsent, hjudged, hsolo, hresult, hreturned⟩ := hinv
      cases h
      exact jobInvariant_classify hsent hjudged hsolo hresult hreturned
  | deleting data executor state =>
      simp only [hphase] at hinv h
      obtain ⟨info, result, hjudged, hsolo, hresult, hstate, hdeletes, hsent⟩ := hinv
      obtain ⟨⟨σ, executor'⟩, hstep, hnext⟩ := Option.map_eq_some_iff.mp h
      obtain ⟨label, _, hlabel⟩ := exists_deleteCall_eq env iid data executor
      rw [hlabel] at hstep
      cases hnext
      exact jobInvariant_afterDeletion hjudged hsolo hresult hstate hdeletes hsent hstep
  | ended outcome =>
      simp only [hphase] at h
      cases h

theorem jobInvariant_failStep {error : AnyhowError} {left : Option Bytes}
    (hinv : JobInvariant env iid fs task)
    (h : task.failStep env iid error left fs = some (fs', task')) :
    JobInvariant env iid fs' task' := by
  unfold JobInvariant at hinv
  unfold failStep at h
  cases hphase : task.phase with
  | fetchingInstance =>
      simp only [hphase] at hinv h
      cases h
      exact jobInvariant_finish (hinv ▸ sentOnly_none) (by simp)
  | fetchingData info =>
      simp only [hphase] at hinv h
      cases h
      exact jobInvariant_finish (hinv.1 ▸ sentOnly_none) (by simp)
  | running info data executor =>
      simp only [hphase] at hinv h
      obtain ⟨hsent, hfetched, hsolo, hresult⟩ := hinv
      cases error with
      | io error =>
          obtain ⟨⟨σ, executor'⟩, hstep, hnext⟩ := Option.map_eq_some_iff.mp h
          have hcall : executorStep env.profile (env.solver iid) (env.executor iid data)
              (.fail error left) (fs, executor) = some (σ, executor') := hstep
          cases hnext
          exact jobInvariant_afterCall hsent hfetched hsolo hresult hcall
      | message text => cases h
  | postProcessing info data executor result =>
      simp only [hphase] at hinv h
      split at h
      · cases h
        exact jobInvariant_finish (sentOnly_send hinv.2.1 hinv.1) (by simp)
      · cases h
  | deleting data executor state =>
      simp only [hphase] at hinv h
      obtain ⟨info, result, hjudged, hsolo, hresult, hstate, hdeletes, hsent⟩ := hinv
      cases error with
      | io error =>
          obtain ⟨⟨σ, executor'⟩, hstep, hnext⟩ := Option.map_eq_some_iff.mp h
          have hcall : executorStep env.profile (env.solver iid) (env.executor iid data)
              (.fail error left) (fs, executor) = some (σ, executor') := hstep
          cases hnext
          exact jobInvariant_afterDeletion hjudged hsolo hresult hstate hdeletes hsent hcall
      | message text => cases h
  | ended outcome =>
      simp only [hphase] at h
      cases h

theorem jobInvariant_unwindStep {message : String} (hinv : JobInvariant env iid fs task)
    (h : task.unwindStep env message fs = some (fs', task')) :
    JobInvariant env iid fs' task' := by
  unfold JobInvariant at hinv
  unfold unwindStep at h
  split at h
  · rename_i info data executor result hphase
    simp only [hphase] at hinv
    split at h
    · cases h
      exact jobInvariant_finish (sentOnly_send hinv.2.1 hinv.1) (by simp)
    · cases h
  · cases h

theorem jobInvariant_jobStep (hinv : JobInvariant env iid fs task)
    (h : jobStep env iid a (fs, task) = some (fs', task')) : JobInvariant env iid fs' task' := by
  cases a with
  | proceed => exact jobInvariant_proceedStep hinv h
  | fail error left => exact jobInvariant_failStep hinv h
  | unwind message => exact jobInvariant_unwindStep hinv h

/-- A job alone, whatever fails in it. -/
theorem jobInvariant_of_run {labels : List JobAction}
    (hrun : exec (jobStep env iid) labels (fs, .start) = some (fs', task')) :
    JobInvariant env iid fs' task' := by
  have hstep : ∀ (a : JobAction) (s t : FileSystem × JobTask), True → JobInvariant env iid s.1 s.2 →
      jobStep env iid a s = some t → JobInvariant env iid t.1 t.2 := by
    rintro a ⟨fs, task⟩ ⟨fs', task'⟩ _ hinv hstep
    exact jobInvariant_jobStep hinv hstep
  have hstart : JobInvariant env iid (fs, start).1 (fs, start).2 := jobInvariant_start
  exact exec_invariant _ hstep (fun _ _ => trivial) hrun hstart

end JobTask

end StrideRunner
