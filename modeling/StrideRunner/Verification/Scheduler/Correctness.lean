import StrideRunner.Library.Traversal
import StrideRunner.Verification.Scheduler.Invariant

/-! # What the scheduling loop guarantees

The invariant is read off at the loop head, during the polls and after `command_run` has
returned. -/

namespace StrideRunner

open Library

/-- The summary line of a task that has ended with a result. -/
def Task.line : Task → Option SummaryLine
  | ⟨iid, .finished (.ok result)⟩ => some (logJobResult iid result)
  | _ => none

def Task.isRunning (task : Task) : Bool :=
  task.state = .running

/-- The states that make `command_run` report an error. -/
def JobResultState.Fails (opts : RunOpts) (state : JobResultState) : Prop :=
  state = .infeasible ∨ state = .error ∨
    ∃ score bestKnown, state = .suboptimal score bestKnown ∧ opts.suboptimalIsError = true

theorem jobSuccess_eq_reportAsFailure_iff {opts : RunOpts} {state : JobResultState} :
    jobSuccess opts state = .reportAsFailure ↔ state.Fails opts := by
  cases state <;> simp [jobSuccess, JobResultState.Fails]

namespace RunState

variable {opts : RunOpts} {instances : List IId} {s t : RunState} {polled lost : List ℕ}

/-! ## Counting along the ledger -/

/-- Whatever is read off the tasks can be read off the three parts of the ledger. -/
theorem Ledger.perm_filterMap {β : Type} (h : Ledger opts instances s polled lost)
    (f : Task → Option β) :
    (polled.filterMap (fun i => s.tasks[i]?.bind f) ++
      lost.filterMap (fun i => s.tasks[i]?.bind f) ++
      s.held.filterMap (fun i => s.tasks[i]?.bind f)).Perm (s.tasks.filterMap f) := by
  rw [← filterMap_range_getElem? s.tasks f, ← List.filterMap_append, ← List.filterMap_append]
  exact h.partition.filterMap _

/-- What the tasks of the logged jobs say is what their lines say. -/
theorem Ledger.filterMap_polled {β : Type} (h : Ledger opts instances s polled lost)
    {f : Task → Option β} {g : SummaryLine → β}
    (hline : ∀ iid result,
      f ⟨iid, .finished (.ok result)⟩ = some (g (logJobResult iid result))) :
    polled.filterMap (fun i => s.tasks[i]?.bind f) = s.summary.map g := by
  have hlines := h.lines
  clear h
  generalize s.summary = summary at hlines
  induction hlines with
  | nil => rfl
  | cons hhead _ ih =>
      obtain ⟨iid, result, htask, rfl⟩ := hhead
      rw [List.filterMap_cons, htask, Option.bind_some, hline, ih]
      rfl

theorem Ledger.summary_eq (h : Ledger opts instances s polled lost) :
    s.summary = polled.filterMap fun i => s.tasks[i]?.bind Task.line := by
  rw [h.filterMap_polled (g := id) fun _ _ => rfl, List.map_id]

theorem Ledger.iids_polled (h : Ledger opts instances s polled lost) :
    polled.filterMap (fun i => s.tasks[i]?.bind fun task => some task.iid) =
      s.summary.map SummaryLine.iid :=
  h.filterMap_polled fun _ _ => rfl

/-- Without a task there is nothing to do and nothing to report. -/
theorem Ledger.eq_nil_of_noTasks (h : Ledger opts instances s polled lost) (htasks : s.tasks = [])
    (hinstances : s.instances = []) : s.summary = [] ∧ instances = [] := by
  constructor
  · simp [h.summary_eq, htasks]
  · simp [← h.started, htasks, hinstances]

theorem Ledger.iids_held (h : Ledger opts instances s polled lost) :
    s.held.filterMap (fun i => s.tasks[i]?.bind fun task => some task.iid) =
      (s.runningJobs.filter fun job => !job.isFinished).map JobContext.iid := by
  have hnamed := h.named
  clear h
  unfold held
  generalize s.runningJobs = jobs at hnamed
  induction jobs with
  | nil => rfl
  | cons job jobs ih =>
      obtain ⟨hjob, hjobs⟩ := List.forall_mem_cons.mp hnamed
      rw [List.filterMap_cons, List.filter_cons]
      cases hhandle : job.taskHandle with
      | none => simpa [JobContext.isFinished, hhandle] using ih hjobs
      | some handle =>
          obtain ⟨task, htask, hiid⟩ := Option.map_eq_some_iff.mp (hjob handle hhandle)
          simp [JobContext.isFinished, hhandle, htask, hiid, ih hjobs]

/-- With nothing lost, the iids of the summary, the running jobs and the remaining slice are
the instance list. -/
theorem Ledger.perm_instances (h : Ledger opts instances s polled []) :
    (s.summary.map SummaryLine.iid ++
      (s.runningJobs.filter fun job => !job.isFinished).map JobContext.iid ++
      s.instances).Perm instances := by
  have hperm := h.perm_filterMap fun task => some task.iid
  rw [h.iids_polled, h.iids_held, List.filterMap_nil, List.append_nil,
    List.filterMap_eq_map'] at hperm
  exact (hperm.append_right s.instances).trans (.of_eq h.started)

/-- A running task is held by a running job, so slots bound the running tasks as well. -/
theorem Ledger.running_le (h : Ledger opts instances s polled lost) :
    (s.tasks.filter Task.isRunning).length ≤ opts.parallelJobs := by
  have hperm := h.perm_filterMap fun task => if task.isRunning then some task else none
  have hended : ∀ i outcome, TaskEnded s.tasks i outcome →
      (s.tasks[i]?.bind fun task => if task.isRunning then some task else none) = none := by
    rintro i outcome ⟨iid, htask⟩
    simp [htask, Task.isRunning]
  have hpolled : polled.filterMap (fun i =>
      s.tasks[i]?.bind fun task => if task.isRunning then some task else none) = [] := by
    apply List.filterMap_eq_nil_iff.mpr
    intro i hi
    obtain ⟨result, hresult⟩ := h.exists_ended hi
    exact hended i _ hresult
  have hlost : lost.filterMap (fun i =>
      s.tasks[i]?.bind fun task => if task.isRunning then some task else none) = [] := by
    apply List.filterMap_eq_nil_iff.mpr
    intro i hi
    obtain ⟨outcome, houtcome⟩ := h.ended i hi
    exact hended i outcome houtcome
  have hheld : s.held.length ≤ s.runningJobs.length := List.length_filterMap_le _ _
  have hlen := hperm.length_eq
  rw [hpolled, hlost, List.nil_append, List.nil_append] at hlen
  have hfilter : s.tasks.filterMap (fun task => if task.isRunning then some task else none) =
      s.tasks.filter Task.isRunning := by
    rw [← List.filterMap_eq_filter]
    rfl
  rw [hfilter] at hlen
  calc (s.tasks.filter Task.isRunning).length ≤ s.held.length := by
        rw [← hlen]
        exact List.length_filterMap_le _ _
    _ ≤ s.runningJobs.length := hheld
    _ ≤ opts.parallelJobs := h.slots

/-! ## The loop and its end -/

/-- Every job task that has ended so far has ended with `Ok`. -/
def NoJobFails (s : RunState) : Prop :=
  ∀ task ∈ s.tasks, ∀ outcome, task.state = .finished outcome →
    ∃ result, outcome = .ok result

theorem NoJobFails.exists_ok (h : NoJobFails s) {handle : ℕ}
    {outcome : Outcome AnyhowError JobResult} (hended : TaskEnded s.tasks handle outcome) :
    ∃ result, outcome = .ok result := by
  obtain ⟨iid, htask⟩ := hended
  exact h _ (List.mem_of_getElem? htask) outcome rfl

/-- The job tasks end with `Ok` only. -/
def JobsSucceed (actions : List RunAction) : Prop :=
  ∀ handle outcome, .task handle outcome ∈ actions → ∃ result, outcome = .ok result

theorem NoJobFails.finishTask {handle : ℕ} {result : JobResult} (h : NoJobFails s)
    (hstep : s.finishTask handle (.ok result) = some t) : NoJobFails t := by
  obtain ⟨iid, _, rfl⟩ := finishTask_eq_some hstep
  intro task htask outcome hstate
  rcases List.mem_or_eq_of_mem_set htask with hold | rfl
  · exact h task hold outcome hstate
  · cases hstate
    exact ⟨result, rfl⟩

theorem NoJobFails.advance {written : Bool} (h : NoJobFails s)
    (hstep : s.advance opts written = some t) : NoJobFails t := by
  intro task htask outcome hstate
  obtain hsame | ⟨iid, hnew⟩ := tasks_advance hstep
  · exact h task (hsame ▸ htask) outcome hstate
  · rw [hnew, List.mem_append, List.mem_singleton] at htask
    rcases htask with hold | rfl
    · exact h task hold outcome hstate
    · cases hstate

/-- The outcomes found in a reached state are those the environment has supplied. -/
theorem noJobFails_iff_jobsSucceed {actions : List RunAction}
    (hrun : exec (runStep opts) actions (start opts instances) = some s) :
    NoJobFails s ↔ JobsSucceed actions := by
  constructor
  · intro hok handle outcome hmem
    obtain ⟨before, after, rfl⟩ := List.append_of_mem hmem
    obtain ⟨_, _, hrest⟩ := exec_append_eq_some.mp hrun
    obtain ⟨mid, hstep, hafter⟩ := exec_cons_eq_some.mp hrest
    have hended : TaskEnded mid.tasks handle outcome := by
      obtain ⟨iid, htask, rfl⟩ := finishTask_eq_some hstep
      exact ⟨iid, List.getElem?_set_self (List.getElem?_eq_some_iff.mp htask).1⟩
    exact hok.exists_ok (hended.keep (keepsEnded_of_run hafter))
  · intro hsucceed
    refine exec_invariant (fun a => ∀ handle outcome, a = .task handle outcome →
      ∃ result, outcome = .ok result) ?_ ?_ hrun (by simp [NoJobFails, start])
    · intro a s t hpermitted hs hstep
      cases a with
      | main written => exact hs.advance hstep
      | task handle outcome =>
          obtain ⟨result, rfl⟩ := hpermitted handle outcome rfl
          exact hs.finishTask hstep
    · rintro a ha handle outcome rfl
      exact hsucceed handle outcome ha

structure SchedulerSpec (opts : RunOpts) (instances : List IId) (s : RunState) : Prop where
  slots : s.runningJobs.length ≤ opts.parallelJobs
  runningTasks : (s.tasks.filter Task.isRunning).length ≤ opts.parallelJobs
  order : s.tasks.map Task.iid ++ s.instances = instances
  accounted : (∀ result, s.point ≠ .returned result) →
    (s.summary.map SummaryLine.iid ++
      (s.runningJobs.filter fun job => !job.isFinished).map JobContext.iid ++
      s.instances).Perm instances
  accountedAtHead : s.point = .loopHead →
    (s.summary.map SummaryLine.iid ++ s.runningJobs.map JobContext.iid ++
      s.instances).Perm instances
  handles : ∀ index job, s.point = .polling index → s.runningJobs[index]? = some job →
    job.taskHandle.isSome
  counters : s.display.total = s.summary.length

theorem Invariant.schedulerSpec {writable : Prop} (h : Invariant opts instances writable s) :
    SchedulerSpec opts instances s := by
  obtain ⟨polled, lost, hledger, hpoint⟩ := h
  unfold AtPoint at hpoint
  refine ⟨hledger.slots, hledger.running_le, hledger.started, ?_, ?_, ?_, hledger.counters⟩
  · intro hloop
    split at hpoint
    · exact (hpoint.1 ▸ hledger).perm_instances
    · exact (hpoint.1 ▸ hledger).perm_instances
    · exact (hpoint ▸ hledger).perm_instances
    · rename_i result hreturned
      exact (hloop result hreturned).elim
  · intro hhead
    simp only [hhead] at hpoint
    obtain ⟨rfl, hhandles⟩ := hpoint
    have hall : (s.runningJobs.filter fun job => !job.isFinished) = s.runningJobs := by
      rw [List.filter_eq_self]
      intro job hjob
      simpa [JobContext.isFinished, Option.isSome_iff_ne_none] using hhandles job hjob
    simpa only [hall] using hledger.perm_instances
  · intro index job hpolling hjob
    simp only [hpolling] at hpoint
    refine hpoint.2 job (List.mem_of_getElem? (i := 0) ?_)
    rwa [List.getElem?_drop]

/-- When the loop is left, every task has its line. -/
theorem Ledger.complete (h : Ledger opts instances s polled []) (hjobs : s.runningJobs = [])
    (hinstances : s.instances = []) :
    s.summary.Perm (s.tasks.filterMap Task.line) ∧
      (s.summary.map SummaryLine.iid).Perm instances ∧
      (∀ task ∈ s.tasks, ∃ result, task.state = .finished (.ok result)) ∧
      (s.reportErrorOnExit = true ↔ ∃ task ∈ s.tasks, ∃ result,
        task.state = .finished (.ok result) ∧ result.state.Fails opts) := by
  have hheld : s.held = [] := by simp [held, hjobs]
  have hpolled : ∀ i, i ∈ polled ↔ i < s.tasks.length := by
    intro i
    have hmem := h.partition.mem_iff (a := i)
    simpa [hheld] using hmem
  refine ⟨?_, ?_, ?_, ?_⟩
  · have hperm := h.perm_filterMap Task.line
    rwa [hheld, List.filterMap_nil, List.append_nil, List.append_nil,
      ← h.summary_eq] at hperm
  · have hperm := h.perm_instances
    simpa [hjobs, hinstances] using hperm
  · intro task htask
    obtain ⟨i, hi, rfl⟩ := List.getElem_of_mem htask
    obtain ⟨result, iid, hended⟩ := h.exists_ended ((hpolled i).mpr hi)
    refine ⟨result, ?_⟩
    rw [(List.getElem?_eq_some_iff.mp hended).2]
  · rw [h.reported]
    constructor
    · rintro ⟨i, hi, result, ⟨iid, hended⟩, hfails⟩
      exact ⟨_, List.mem_of_getElem? hended, result, rfl,
        jobSuccess_eq_reportAsFailure_iff.mp hfails⟩
    · rintro ⟨⟨iid, state⟩, htask, result, rfl, hfails⟩
      obtain ⟨i, hi, htask⟩ := List.getElem_of_mem htask
      refine ⟨i, (hpolled i).mpr hi, result, ⟨iid, ?_⟩,
        jobSuccess_eq_reportAsFailure_iff.mpr hfails⟩
      rw [List.getElem?_eq_getElem hi, htask]

/-- While all jobs succeed the invariant holds throughout, and the loop is left with one line
per entry unless the summary file fails. -/
theorem schedulerSpec_of_run (hslots : 1 ≤ opts.parallelJobs) {actions : List RunAction}
    (hrun : exec (runStep opts) actions (start opts instances) = some s)
    (hsucceed : JobsSucceed actions) :
    SchedulerSpec opts instances s ∧ ∀ result, s.point = .returned result →
      (.main false ∈ actions ∧ result = .err writeFailed) ∨
        (s.summary.Perm (s.tasks.filterMap Task.line) ∧
          (s.summary.map SummaryLine.iid).Perm instances ∧
          (result = .err someRunsFailed ↔ ∃ task ∈ s.tasks, ∃ jobResult,
            task.state = .finished (.ok jobResult) ∧ jobResult.state.Fails opts)) := by
  have hinv : Invariant opts instances (.main false ∉ actions) s :=
    invariant_of_run hslots (fun hmem hnot => hnot hmem) hrun
  have hok : NoJobFails s := (noJobFails_iff_jobsSucceed hrun).mpr hsucceed
  refine ⟨hinv.schedulerSpec, ?_⟩
  intro result hreturned
  obtain ⟨polled, lost, hledger, hpoint⟩ := hinv
  simp only [AtPoint, hreturned] at hpoint
  cases hpoint with
  | refused hlost htasks hinstances _ =>
      obtain ⟨hsummary, rfl⟩ := hledger.eq_nil_of_noTasks htasks hinstances
      refine Or.inr ⟨by simp [hsummary, htasks], by simp [hsummary], ?_⟩
      simp [htasks, noInstances, someRunsFailed]
  | left hlost hjobs hinstances =>
      subst hlost
      obtain ⟨hlines, hperm, _, hreport⟩ := hledger.complete hjobs hinstances
      refine Or.inr ⟨hlines, hperm, ?_⟩
      rw [← hreport]
      cases s.reportErrorOnExit <;> simp
  | writeFailed hlost hwrite => exact Or.inl ⟨not_not.mp hwrite, rfl⟩
  | jobFailed hlost hended hfailed =>
      obtain ⟨jobResult, hresult⟩ := hok.exists_ok hended
      exact (hfailed jobResult hresult).elim

/-- Two jobs on two slots: the second one starts while the first one is running. -/
def demoOpts : RunOpts := ⟨2, true, false, false, true, none⟩

def demoList : List IId := [⟨1⟩, ⟨2⟩]

def demoActions : List RunAction :=
  [.main true, .main true, .main true, .main true, .main true,
    .task 1 (.ok ⟨.suboptimal 8 7, 3⟩), .main true, .main true, .task 0 (.ok ⟨.incomplete, 5⟩),
    .main true, .main true, .main true, .main true, .main true, .main true, .main true]

/-! ## Failing jobs -/

/-- The promise made for the summary: one line per entry and no job left behind. -/
structure AllRecorded (instances : List IId) (s : RunState) : Prop where
  oneLineEach : (s.summary.map SummaryLine.iid).Perm instances
  noneRunning : ∀ task ∈ s.tasks, task.isRunning = false
  failuresRecorded : ∀ task ∈ s.tasks, ∀ outcome, task.state = .finished outcome →
    (∀ result, outcome ≠ .ok result) →
    ∃ line ∈ s.summary, line.iid = task.iid ∧ line.state = JobResultState.display .error

/-- With a writable summary, what `command_run` leaves behind is complete exactly when no job
has failed. -/
theorem allRecorded_iff_noJobFails (hslots : 1 ≤ opts.parallelJobs) {actions : List RunAction}
    (hwritable : .main false ∉ actions)
    (hrun : exec (runStep opts) actions (start opts instances) = some s)
    {result : Outcome AnyhowError Unit} (hreturned : s.point = .returned result) :
    AllRecorded instances s ↔ NoJobFails s := by
  have hinv : Invariant opts instances True s :=
    invariant_of_run hslots (fun hmem => (hwritable hmem).elim) hrun
  obtain ⟨polled, lost, hledger, hpoint⟩ := hinv
  simp only [AtPoint, hreturned] at hpoint
  cases hpoint with
  | refused hlost htasks hinstances _ =>
      obtain ⟨hsummary, rfl⟩ := hledger.eq_nil_of_noTasks htasks hinstances
      refine iff_of_true ⟨?_, ?_, ?_⟩ ?_
      · simp [hsummary]
      · simp [htasks]
      · simp [htasks]
      · simp [NoJobFails, htasks]
  | left hlost hjobs hinstances =>
      subst hlost
      obtain ⟨_, hperm, hended, _⟩ := hledger.complete hjobs hinstances
      refine iff_of_true ⟨hperm, ?_, ?_⟩ ?_
      · intro task htask
        obtain ⟨jobResult, hstate⟩ := hended task htask
        simp [Task.isRunning, hstate]
      · intro task htask outcome hstate hfailed
        obtain ⟨jobResult, hok⟩ := hended task htask
        rw [hok] at hstate
        cases hstate
        exact (hfailed jobResult rfl).elim
      · intro task htask outcome hstate
        obtain ⟨jobResult, hok⟩ := hended task htask
        rw [hok] at hstate
        cases hstate
        exact ⟨jobResult, rfl⟩
  | writeFailed hlost hwrite => exact (hwrite trivial).elim
  | jobFailed hlost hended hfailed =>
      subst hlost
      apply iff_of_false
      · intro hall
        have hlines := hall.oneLineEach.length_eq
        have hpartition := hledger.partition.length_eq
        have hpolled := hledger.lines.length_eq
        have hstarted := congrArg List.length hledger.started
        simp only [List.length_map, List.length_append, List.length_singleton,
          List.length_range] at hlines hpartition hstarted
        omega
      · intro hok
        obtain ⟨jobResult, hok⟩ := hok.exists_ok hended
        exact hfailed jobResult hok

end RunState

end StrideRunner
