import StrideRunner.Verification.System.Invariant

/-! # A run with its jobs is sequential

Whatever the order of the steps, the jobs log what they would log one after the other, and they
leave and send the same. -/

namespace StrideRunner

open Pace Library

variable {env : RunEnvironment} {instances : List IId} {fs : FileSystem} {s : SystemState}
  {actions : List SystemAction}

namespace RunEnvironment

/-- The line of a job that is alone. -/
def line (env : RunEnvironment) (iid : IId) : Option SummaryLine :=
  match Job.main env.opts (env.effects iid) with
  | .ok result => some (logJobResult iid result)
  | _ => none

/-- The job alone ends with a result that makes `command_run` report an error. -/
def Fails (env : RunEnvironment) (iid : IId) : Prop :=
  ∃ result, Job.main env.opts (env.effects iid) = .ok result ∧ result.state.Fails env.opts

theorem line_of_main {iid : IId} {result : JobResult}
    (h : Job.main env.opts (env.effects iid) = .ok result) :
    env.line iid = some (logJobResult iid result) := by
  simp only [line, h]

end RunEnvironment

theorem JobLeaves.congr {iid : IId} {store alone : FileSystem} {sent : Option SolverResult}
    {jobResult : JobResult} {info : InstanceModel} {data : List Char} {result : SolverResult}
    (hagree : AgreeOn (env.files iid) store alone)
    (h : JobLeaves env iid alone sent jobResult info data result) :
    JobLeaves env iid store sent jobResult info data result := by
  refine ⟨h.judged, h.state, h.runtime, h.sent, ?_, ?_⟩
  · intro hdeletes path hpath
    rw [hagree path hpath]
    exact h.deleted hdeletes path hpath
  · intro hkeeps
    exact hagree.trans (h.kept hkeeps)

namespace SystemState

/-- A job whose task has ended with `Ok` has its files as it left them. -/
theorem exists_jobLeaves (hslots : 1 ≤ env.opts.parallelJobs) (hnodup : instances.Nodup)
    (hrun : exec (step env) actions (start env instances fs) = some s) {handle : ℕ} {iid : IId}
    {jobResult : JobResult}
    (htask : s.run.tasks[handle]? = some ⟨iid, .finished (.ok jobResult)⟩) :
    ∃ info data result, JobLeaves env iid s.shared.store (s.shared.locals handle).sent jobResult
      info data result := by
  have hiid := getElem?_instances (runInvariant hslots hrun) htask
  obtain ⟨alone, hagree, hinv⟩ := exists_job hslots hnodup hrun hiid
  have hphase := tasksFit_of_run hrun handle
  rw [htask] at hphase
  unfold JobInvariant at hinv
  simp only [Fits] at hphase
  simp only [hphase] at hinv
  obtain ⟨info, data, result, hleaves⟩ := hinv.2 jobResult rfl
  exact ⟨info, data, result, hleaves.congr hagree⟩

/-- A task that has ended with `Ok` has ended as it does alone. -/
theorem main_of_task (hslots : 1 ≤ env.opts.parallelJobs) (hnodup : instances.Nodup)
    (hrun : exec (step env) actions (start env instances fs) = some s) {handle : ℕ} {iid : IId}
    {jobResult : JobResult}
    (htask : s.run.tasks[handle]? = some ⟨iid, .finished (.ok jobResult)⟩) :
    Job.main env.opts (env.effects iid) = .ok jobResult := by
  obtain ⟨info, data, result, hleaves⟩ := exists_jobLeaves hslots hnodup hrun htask
  exact hleaves.main_eq

/-- A line that has been logged is that of the job alone. -/
theorem line_of_mem_summary (hslots : 1 ≤ env.opts.parallelJobs) (hnodup : instances.Nodup)
    (hrun : exec (step env) actions (start env instances fs) = some s) :
    ∀ line ∈ s.run.summary, env.line line.iid = some line := by
  intro line hline
  obtain ⟨polled, lost, hledger, _⟩ := runInvariant hslots hrun
  obtain ⟨handle, _, hlineOf⟩ := exists_of_forall₂_mem hledger.lines hline
  obtain ⟨iid, jobResult, htask, rfl⟩ := hlineOf
  have hiid : (logJobResult iid jobResult).iid = iid := rfl
  rw [hiid]
  exact RunEnvironment.line_of_main (main_of_task hslots hnodup hrun htask)

/-! ## Runs that are complete -/

/-- What is left when the loop has been left. -/
structure SequentialSpec (env : RunEnvironment) (instances : List IId) (fs : FileSystem)
    (s : SystemState) (result : Outcome AnyhowError Unit) : Prop where
  lines : ∀ iid ∈ instances, (env.line iid).isSome
  summary : s.run.summary.Perm (instances.filterMap env.line)
  result : (result = .ok () ∧ ∀ iid ∈ instances, ¬ env.Fails iid) ∨
    (result = .err RunState.someRunsFailed ∧ ∃ iid ∈ instances, env.Fails iid)
  summaryFile : s.shared.store (summaryFile env.logDir) =
    some (encodeUtf8 (summaryText env.asSecsF64 s.run.summary))
  jobs : ∀ (handle : ℕ) iid, instances[handle]? = some iid →
    ∃ jobResult info data verdict, JobLeaves env iid s.shared.store
      (s.shared.locals handle).sent jobResult info data verdict
  others : ∀ path, path ≠ StrideRunner.summaryFile env.logDir →
    (∀ iid ∈ instances, path ∉ env.files iid) → s.shared.store path = fs path

/-- After the loop has been left, everything is as if the jobs had been run one after the other,
provided that each job has left what it leaves alone. -/
theorem sequentialSpec_of_leaves (hslots : 1 ≤ env.opts.parallelJobs) (hne : instances ≠ [])
    (hrun : exec (step env) actions (start env instances fs) = some s)
    (hleaves : ∀ {handle : ℕ} {iid : IId} {jobResult : JobResult},
      s.run.tasks[handle]? = some ⟨iid, .finished (.ok jobResult)⟩ → ∃ info data result,
        JobLeaves env iid s.shared.store (s.shared.locals handle).sent jobResult info data result)
    (hreturned : s.run.point =
      .returned (if s.run.reportErrorOnExit then .err RunState.someRunsFailed else .ok ()))
    {polled : List ℕ} (hledger : RunState.Ledger env.opts instances s.run polled [])
    (hjobs : s.run.runningJobs = []) (hinstances : s.run.instances = []) :
    SequentialSpec env instances fs s
      (if s.run.reportErrorOnExit then .err RunState.someRunsFailed else .ok ()) := by
  obtain ⟨hlines, _, hended, hreport⟩ := hledger.complete hjobs hinstances
  have hstarted : s.run.tasks.map Task.iid = instances := by
    rw [← hledger.started, hinstances, List.append_nil]
  have htasks : ∀ task ∈ s.run.tasks, ∃ jobResult, task.state = .finished (.ok jobResult) ∧
      Job.main env.opts (env.effects task.iid) = .ok jobResult := by
    intro task htask
    obtain ⟨jobResult, hstate⟩ := hended task htask
    obtain ⟨handle, hhandle⟩ := List.mem_iff_getElem?.mp htask
    obtain ⟨iid, state⟩ := task
    cases hstate
    obtain ⟨info, data, result, hjob⟩ := hleaves hhandle
    exact ⟨jobResult, rfl, hjob.main_eq⟩
  refine ⟨?_, ?_, ?_, ?_, ?_, ?_⟩
  · intro iid hiid
    rw [← hstarted] at hiid
    obtain ⟨task, htask, rfl⟩ := List.mem_map.mp hiid
    obtain ⟨jobResult, _, hmain⟩ := htasks task htask
    rw [RunEnvironment.line_of_main hmain]
    rfl
  · have hsame : s.run.tasks.filterMap Task.line = instances.filterMap env.line := by
      rw [← hstarted, List.filterMap_map]
      apply List.filterMap_congr
      rintro ⟨iid, state⟩ htask
      obtain ⟨jobResult, rfl, hmain⟩ := htasks _ htask
      exact (RunEnvironment.line_of_main hmain).symm
    rwa [hsame] at hlines
  · have hfails : s.run.reportErrorOnExit = true ↔ ∃ iid ∈ instances, env.Fails iid := by
      rw [hreport, ← hstarted]
      constructor
      · rintro ⟨task, htask, jobResult, hstate, hfails⟩
        obtain ⟨jobResult', hstate', hmain⟩ := htasks task htask
        cases hstate.symm.trans hstate'
        exact ⟨task.iid, List.mem_map_of_mem htask, jobResult, hmain, hfails⟩
      · rintro ⟨iid, hiid, jobResult, hmain, hfails⟩
        obtain ⟨task, htask, rfl⟩ := List.mem_map.mp hiid
        obtain ⟨jobResult', hstate, hmain'⟩ := htasks task htask
        cases hmain.symm.trans hmain'
        exact ⟨task, htask, jobResult, hstate, hfails⟩
    cases hflag : s.run.reportErrorOnExit with
    | true => exact Or.inr ⟨rfl, hfails.mp hflag⟩
    | false =>
        refine Or.inl ⟨rfl, ?_⟩
        intro iid hiid hfail
        cases hflag.symm.trans (hfails.mpr ⟨iid, hiid, hfail⟩)
  · obtain ⟨rest, hfile, hrest⟩ := summaryKept_of_run hslots hne hrun
    have hpoint : s.run.point ≠ .returned (.err writeFailed) := by
      rw [hreturned]
      cases s.run.reportErrorOnExit <;> simp [RunState.someRunsFailed, writeFailed]
    rw [hfile, hrest hpoint, List.append_nil]
  · intro handle iid hiid
    rw [← hstarted, List.getElem?_map] at hiid
    obtain ⟨⟨iid', state⟩, htask, rfl⟩ := Option.map_eq_some_iff.mp hiid
    obtain ⟨jobResult, rfl, _⟩ := htasks _ (List.mem_of_getElem? htask)
    exact ⟨jobResult, hleaves htask⟩
  · intro path hsummary hfiles
    apply othersKept_of_run hrun path hsummary
    rwa [hstarted]

theorem sequentialSpec_of_left (hslots : 1 ≤ env.opts.parallelJobs) (hnodup : instances.Nodup)
    (hne : instances ≠ []) (hrun : exec (step env) actions (start env instances fs) = some s)
    (hreturned : s.run.point =
      .returned (if s.run.reportErrorOnExit then .err RunState.someRunsFailed else .ok ()))
    {polled : List ℕ} (hledger : RunState.Ledger env.opts instances s.run polled [])
    (hjobs : s.run.runningJobs = []) (hinstances : s.run.instances = []) :
    SequentialSpec env instances fs s
      (if s.run.reportErrorOnExit then .err RunState.someRunsFailed else .ok ()) :=
  sequentialSpec_of_leaves hslots hne hrun (exists_jobLeaves hslots hnodup hrun) hreturned hledger
    hjobs hinstances

/-- When `command_run` has returned and no poll has failed, the loop has been left. -/
theorem exists_ledger_of_returned (hslots : 1 ≤ env.opts.parallelJobs) (hne : instances ≠ [])
    (hrun : exec (step env) actions (start env instances fs) = some s)
    {result : Outcome AnyhowError Unit} (hreturned : s.run.point = .returned result)
    (hleft : result = .ok () ∨ RunState.NoJobFails s.run ∧ Written actions) :
    ∃ polled, RunState.Ledger env.opts instances s.run polled [] ∧ s.run.runningJobs = [] ∧
      s.run.instances = [] ∧
      result = if s.run.reportErrorOnExit then .err RunState.someRunsFailed else .ok () := by
  obtain ⟨polled, lost, hledger, hpoint⟩ := runInvariant hslots hrun
  simp only [RunState.AtPoint, hreturned] at hpoint
  cases hpoint with
  | refused hlost htasks hinstances hreport =>
      exact (hne (hledger.eq_nil_of_noTasks htasks hinstances).2).elim
  | writeFailed hlost hwrite =>
      obtain hok | ⟨_, hwritten⟩ := hleft
      · cases hok
      · exact (hwrite hwritten).elim
  | jobFailed hlost hended hfailed =>
      obtain hok | ⟨hnone, _⟩ := hleft
      · cases hok
      · obtain ⟨jobResult, hok⟩ := hnone.exists_ok hended
        exact (hfailed jobResult hok).elim
  | left hlost hjobs hinstances =>
      subst hlost
      exact ⟨polled, hledger, hjobs, hinstances, rfl⟩

/-- Two jobs on two slots, whose steps alternate: the first one succeeds and deletes its files. -/
def pairEnvironment : RunEnvironment where
  profile := .debug
  opts := ⟨2, false, false, true, false, none⟩
  logDir := ["logs"]
  fetchInstance := fun iid => .ok ⟨iid, ⟨5⟩, some 1⟩
  fetchData := fun _ _ => .ok "c one node\np ds 1 0".toList
  solver := fun iid _ =>
    if iid = ⟨1⟩ then ⟨[(.stdout, [49, 10]), (.stdout, [49, 10])], .beforeTimeout ⟨some 0⟩⟩
    else ⟨[], .timeout⟩
  runtime := fun iid => iid.id.toNat
  asSecsF64 := InstanceWriter.decimal

def pairInstances : List IId := [⟨1⟩, ⟨11⟩]

def pairActions : List SystemAction :=
  [.main none, .main none, .job 0 .proceed] ++ List.replicate 4 (.main none) ++
    (List.replicate 10 [.job 1 .proceed, .job 0 .proceed]).flatten ++
    List.replicate 5 (.job 0 .proceed) ++ List.replicate 8 (.main none)

theorem sentOnly_of_jobInvariant {iid : IId} {fs : FileSystem} {task : JobTask}
    (h : JobInvariant env iid fs task) : SentOnly env iid task.sent := by
  unfold JobInvariant at h
  cases hphase : task.phase with
  | fetchingInstance =>
      simp only [hphase] at h
      exact h ▸ sentOnly_none
  | fetchingData info =>
      simp only [hphase] at h
      exact h.1 ▸ sentOnly_none
  | running info data executor =>
      simp only [hphase] at h
      exact h.1 ▸ sentOnly_none
  | postProcessing info data executor result =>
      simp only [hphase] at h
      exact h.1 ▸ sentOnly_none
  | deleting data executor state =>
      simp only [hphase] at h
      obtain ⟨info, result, hjudged, _, _, _, _, hsent⟩ := h
      exact hsent ▸ hjudged.sentOnly
  | ended outcome =>
      simp only [hphase] at h
      exact h.1

end SystemState

end StrideRunner
