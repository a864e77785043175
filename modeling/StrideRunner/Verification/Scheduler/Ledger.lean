import StrideRunner.Model.Commands.Run.Command
import Mathlib.Data.List.Forall2

/-! # The ledger of the scheduling loop

Every spawned task is in exactly one of three places: its line is in the summary, its handle is
held by a running job, or its handle was taken by a poll that made `command_run` return. -/

namespace StrideRunner

open Library

def ProgressDisplay.total (self : ProgressDisplay) : ℕ :=
  self.numOptimal + self.numSuboptimal + self.numInfeasible + self.numError +
    self.numTimeout + self.numIncomplete

theorem ProgressDisplay.total_finishJob (self : ProgressDisplay) (state : JobResultState) :
    (self.finishJob state).total = self.total + 1 := by
  cases state <;> simp only [finishJob, total] <;> omega

namespace RunState

variable {opts : RunOpts} {instances : List IId} {s t : RunState} {polled lost : List ℕ}

/-! ## Tasks -/

def TaskEnded (tasks : List Task) (handle : ℕ) (outcome : Outcome AnyhowError JobResult) : Prop :=
  ∃ iid, tasks[handle]? = some ⟨iid, .finished outcome⟩

/-- The summary line records the result of the task. -/
def IsLineOf (tasks : List Task) (handle : ℕ) (line : SummaryLine) : Prop :=
  ∃ iid result, tasks[handle]? = some ⟨iid, .finished (.ok result)⟩ ∧
    line = logJobResult iid result

/-- The task ended with a result that is reported as a failure. -/
def IsFailure (opts : RunOpts) (tasks : List Task) (handle : ℕ) : Prop :=
  ∃ result, TaskEnded tasks handle (.ok result) ∧
    jobSuccess opts result.state = .reportAsFailure

/-- Tasks that have ended are the same in both lists. -/
def KeepsEnded (tasks tasks' : List Task) : Prop :=
  ∀ handle outcome, TaskEnded tasks handle outcome → tasks'[handle]? = tasks[handle]?

theorem IsLineOf.keep {tasks tasks' : List Task} (hkeep : KeepsEnded tasks tasks') {handle : ℕ}
    {line : SummaryLine} (h : IsLineOf tasks handle line) : IsLineOf tasks' handle line := by
  obtain ⟨iid, result, htask, hline⟩ := h
  exact ⟨iid, result, (hkeep handle _ ⟨iid, htask⟩).trans htask, hline⟩

theorem TaskEnded.keep {tasks tasks' : List Task} (hkeep : KeepsEnded tasks tasks')
    {handle : ℕ} {outcome : Outcome AnyhowError JobResult} (h : TaskEnded tasks handle outcome) :
    TaskEnded tasks' handle outcome := by
  obtain ⟨iid, htask⟩ := h
  exact ⟨iid, (hkeep handle _ ⟨iid, htask⟩).trans htask⟩

theorem isFailure_congr {tasks tasks' : List Task} {handle : ℕ}
    (h : tasks'[handle]? = tasks[handle]?) :
    IsFailure opts tasks' handle ↔ IsFailure opts tasks handle := by
  simp only [IsFailure, TaskEnded, h]

/-! ## The ledger -/

/-- The tasks whose handles are held by running jobs. -/
def held (s : RunState) : List ℕ :=
  s.runningJobs.filterMap JobContext.taskHandle

/-- `polled` lists the logged tasks, `lost` the task whose poll failed. -/
structure Ledger (opts : RunOpts) (instances : List IId) (s : RunState)
    (polled lost : List ℕ) : Prop where
  slots : s.runningJobs.length ≤ opts.parallelJobs
  started : s.tasks.map Task.iid ++ s.instances = instances
  named : ∀ job ∈ s.runningJobs, ∀ handle ∈ job.taskHandle,
    (s.tasks[handle]?).map Task.iid = some job.iid
  partition : (polled ++ lost ++ s.held).Perm (List.range s.tasks.length)
  lines : List.Forall₂ (IsLineOf s.tasks) polled s.summary
  ended : ∀ handle ∈ lost, ∃ outcome, TaskEnded s.tasks handle outcome
  reported : s.reportErrorOnExit = true ↔ ∃ handle ∈ polled, IsFailure opts s.tasks handle
  counters : s.display.total = s.summary.length

/-- A logged task has ended. -/
theorem Ledger.exists_ended (h : Ledger opts instances s polled lost) {handle : ℕ}
    (hmem : handle ∈ polled) : ∃ result, TaskEnded s.tasks handle (.ok result) := by
  obtain ⟨i, hi, rfl⟩ := List.getElem_of_mem hmem
  have hlen := h.lines.length_eq
  obtain ⟨iid, result, htask, _⟩ := h.lines.get hi (by omega)
  exact ⟨result, iid, htask⟩

/-- A change of the tasks that keeps those that have ended keeps the books on them. -/
theorem Ledger.keep_tasks (h : Ledger opts instances s polled lost) {tasks : List Task}
    (hkeep : KeepsEnded s.tasks tasks) :
    List.Forall₂ (IsLineOf tasks) polled s.summary ∧
      (∀ handle ∈ lost, ∃ outcome, TaskEnded tasks handle outcome) ∧
      (s.reportErrorOnExit = true ↔ ∃ handle ∈ polled, IsFailure opts tasks handle) := by
  refine ⟨h.lines.imp fun _ _ hline => hline.keep hkeep, ?_, ?_⟩
  · intro handle hmem
    obtain ⟨outcome, hended⟩ := h.ended handle hmem
    exact ⟨outcome, hended.keep hkeep⟩
  · rw [h.reported]
    refine exists_congr fun handle => and_congr_right fun hmem => ?_
    obtain ⟨result, hended⟩ := h.exists_ended hmem
    exact (isFailure_congr (hkeep handle _ hended)).symm

/-! ## Effects of the operations on the ledger -/

theorem finishTask_eq_some {handle : ℕ} {outcome : Outcome AnyhowError JobResult}
    (h : s.finishTask handle outcome = some t) :
    ∃ iid, s.tasks[handle]? = some ⟨iid, .running⟩ ∧
      t = { s with tasks := s.tasks.set handle ⟨iid, .finished outcome⟩ } := by
  unfold finishTask at h
  split at h
  · rename_i iid htask
    exact ⟨iid, htask, (Option.some.inj h).symm⟩
  · cases h

theorem iid_set {tasks : List Task} {handle : ℕ} {iid : IId} {state state' : TaskState}
    (htask : tasks[handle]? = some ⟨iid, state⟩) (i : ℕ) :
    ((tasks.set handle ⟨iid, state'⟩)[i]?).map Task.iid = (tasks[i]?).map Task.iid := by
  by_cases hi : handle = i
  · subst hi
    rw [htask, List.getElem?_set_self (List.getElem?_eq_some_iff.mp htask).1]
    rfl
  · rw [List.getElem?_set_ne hi]

theorem Ledger.finishTask (h : Ledger opts instances s polled lost) {handle : ℕ}
    {outcome : Outcome AnyhowError JobResult} (hstep : s.finishTask handle outcome = some t) :
    Ledger opts instances t polled lost := by
  obtain ⟨iid, htask, rfl⟩ := finishTask_eq_some hstep
  have hkeep : KeepsEnded s.tasks (s.tasks.set handle ⟨iid, .finished outcome⟩) := by
    rintro i o ⟨iid', hi⟩
    refine List.getElem?_set_ne ?_
    rintro rfl
    cases htask.symm.trans hi
  obtain ⟨hlines, hended, hreported⟩ := h.keep_tasks hkeep
  refine ⟨h.slots, ?_, ?_, ?_, hlines, hended, hreported, h.counters⟩
  · have hmap : (s.tasks.set handle ⟨iid, .finished outcome⟩).map Task.iid =
        s.tasks.map Task.iid := by
      apply List.ext_getElem?
      intro i
      rw [List.getElem?_map, List.getElem?_map, iid_set htask]
    simp only [hmap, h.started]
  · intro job hjob i hi
    rw [iid_set htask]
    exact h.named job hjob i hi
  · simpa only [held, List.length_set] using h.partition

theorem spawn_cases (opts : RunOpts) (s : RunState) :
    s.spawn opts = s ∨ ∃ iid rest, s.runningJobs.length < opts.parallelJobs ∧
      s.instances = iid :: rest ∧
      s.spawn opts = { s with
        instances := rest
        runningJobs := s.runningJobs ++ [⟨iid, some s.tasks.length⟩]
        tasks := s.tasks ++ [⟨iid, .running⟩] } := by
  unfold spawn
  split
  · rename_i hslot
    split
    · rename_i iid rest hinstances
      exact Or.inr ⟨iid, rest, hslot, hinstances, rfl⟩
    · exact Or.inl rfl
  · exact Or.inl rfl

theorem Ledger.spawn (h : Ledger opts instances s polled lost) :
    Ledger opts instances (s.spawn opts) polled lost := by
  obtain hsame | ⟨iid, rest, hslot, hinstances, hspawn⟩ := spawn_cases opts s
  · rwa [hsame]
  · have hkeep : KeepsEnded s.tasks (s.tasks ++ [⟨iid, .running⟩]) := by
      rintro i o ⟨iid', hi⟩
      exact List.getElem?_append_left (List.getElem?_eq_some_iff.mp hi).1
    obtain ⟨hlines, hended, hreported⟩ := h.keep_tasks hkeep
    rw [hspawn]
    refine ⟨?_, ?_, ?_, ?_, hlines, hended, hreported, h.counters⟩
    · simpa using Nat.succ_le_of_lt hslot
    · simpa [hinstances] using h.started
    · intro job hjob handle hhandle
      rcases List.mem_append.mp hjob with hjob | hjob
      · have hnamed := h.named job hjob handle hhandle
        obtain ⟨task, htask, _⟩ := Option.map_eq_some_iff.mp hnamed
        rwa [List.getElem?_append_left (List.getElem?_eq_some_iff.mp htask).1]
      · rw [List.mem_singleton] at hjob
        subst hjob
        cases hhandle
        simp
    · have hperm := h.partition.append_right [s.tasks.length]
      simpa [held, List.range_succ] using hperm

/-- Taking the handle of a job removes exactly its task from the held ones. -/
theorem perm_held_takeHandle {jobs : List JobContext} {index handle : ℕ} {job : JobContext}
    (hjob : jobs[index]? = some job) (hhandle : job.taskHandle = some handle) :
    (handle :: (jobs.modify index fun job => { job with taskHandle := none }).filterMap
      JobContext.taskHandle).Perm (jobs.filterMap JobContext.taskHandle) := by
  induction jobs generalizing index with
  | nil => simp at hjob
  | cons first jobs ih =>
      cases index with
      | zero =>
          cases hjob
          simp [hhandle]
      | succ index =>
          rw [List.getElem?_cons_succ] at hjob
          rw [List.modify_succ_cons, List.filterMap_cons, List.filterMap_cons]
          cases first.taskHandle with
          | none => exact ih hjob
          | some other => exact (List.Perm.swap other handle _).trans ((ih hjob).cons other)

theorem mem_takeHandle {index handle : ℕ} {job : JobContext}
    (hjob : job ∈ (s.takeHandle index).runningJobs) (hhandle : handle ∈ job.taskHandle) :
    job ∈ s.runningJobs := by
  obtain ⟨i, hi⟩ := List.mem_iff_getElem?.mp hjob
  rw [takeHandle, List.getElem?_modify] at hi
  obtain ⟨old, hold, hnew⟩ := Option.map_eq_some_iff.mp hi
  split at hnew
  · subst hnew
    cases hhandle
  · exact List.mem_of_getElem? (hold.trans (congrArg some hnew))

/-- Between `take` and the log entry, the task of the polled job counts as lost. -/
theorem Ledger.takeHandle (h : Ledger opts instances s polled []) {index handle : ℕ}
    {job : JobContext} {outcome : Outcome AnyhowError JobResult}
    (hjob : s.runningJobs[index]? = some job) (hhandle : job.taskHandle = some handle)
    (hended : TaskEnded s.tasks handle outcome) :
    Ledger opts instances (s.takeHandle index) polled [handle] := by
  refine ⟨?_, h.started, ?_, ?_, h.lines, ?_, h.reported, h.counters⟩
  · simpa [RunState.takeHandle] using h.slots
  · intro job hjob i hi
    exact h.named job (mem_takeHandle hjob hi) i hi
  · have hperm := perm_held_takeHandle hjob hhandle
    have hpartition := h.partition
    rw [List.append_nil] at hpartition
    rw [List.append_assoc]
    exact (hperm.append_left polled).trans hpartition
  · intro i hi
    rw [List.mem_singleton] at hi
    exact ⟨outcome, hi ▸ hended⟩

/-- Logging moves the lost task to the logged ones. -/
theorem Ledger.log {handle : ℕ} (h : Ledger opts instances s polled [handle]) {iid : IId}
    {result : JobResult} (hended : s.tasks[handle]? = some ⟨iid, .finished (.ok result)⟩)
    (point : ProgramPoint) :
    Ledger opts instances
      { s with
        point
        display := s.display.finishJob result.state
        summary := s.summary ++ [logJobResult iid result]
        reportErrorOnExit :=
          s.reportErrorOnExit || jobSuccess opts result.state = .reportAsFailure }
      (polled ++ [handle]) [] := by
  refine ⟨h.slots, h.started, h.named, ?_, ?_, by simp, ?_, ?_⟩
  · rw [List.append_nil]
    exact h.partition
  · exact List.rel_append h.lines (.cons ⟨iid, result, hended, rfl⟩ .nil)
  · have hfailure : IsFailure opts s.tasks handle ↔
        jobSuccess opts result.state = .reportAsFailure := by
      constructor
      · rintro ⟨result', ⟨iid', hended'⟩, hfail⟩
        cases hended.symm.trans hended'
        exact hfail
      · intro hfail
        exact ⟨result, ⟨iid, hended⟩, hfail⟩
    have hreported := h.reported
    simp only [Bool.or_eq_true, decide_eq_true_iff, hreported, List.mem_append,
      List.mem_singleton, or_and_right, exists_or, exists_eq_left, hfailure]
  · simp only [ProgressDisplay.total_finishJob, h.counters, List.length_append,
      List.length_singleton]

theorem Ledger.set_point (h : Ledger opts instances s polled lost) (point : ProgramPoint) :
    Ledger opts instances { s with point } polled lost :=
  ⟨h.slots, h.started, h.named, h.partition, h.lines, h.ended, h.reported, h.counters⟩

theorem filterMap_taskHandle_filter (jobs : List JobContext) :
    (jobs.filter fun job => !job.isFinished).filterMap JobContext.taskHandle =
      jobs.filterMap JobContext.taskHandle := by
  rw [List.filterMap_filter]
  apply List.filterMap_congr
  intro job _
  cases hhandle : job.taskHandle <;> simp [JobContext.isFinished, hhandle]

/-- Only jobs without a handle are removed. -/
theorem Ledger.retain (h : Ledger opts instances s polled lost) (point : ProgramPoint) :
    Ledger opts instances
      { s with
        point
        runningJobs := s.runningJobs.filter fun job => !job.isFinished } polled lost := by
  refine ⟨(List.length_filter_le _ _).trans h.slots, h.started, ?_, ?_, h.lines, h.ended,
    h.reported, h.counters⟩
  · intro job hjob handle hhandle
    exact h.named job (List.mem_of_mem_filter hjob) handle hhandle
  · simpa only [held, filterMap_taskHandle_filter] using h.partition

theorem ledger_start (opts : RunOpts) (instances : List IId) :
    Ledger opts instances (start opts instances) [] [] := by
  refine ⟨Nat.zero_le _, rfl, by simp [start], ?_, .nil, by simp, by simp [start], rfl⟩
  simp [held, start]

/-! ## Tasks along a run -/

theorem tasks_poll (written : Bool) (index : ℕ) (job : JobContext) :
    (s.poll opts written index job).tasks = s.tasks := by
  unfold poll
  split
  · rfl
  · split
    · rename_i outcome _
      cases outcome with
      | ok result => cases written <;> rfl
      | err error => rfl
      | panic message => rfl
    · rfl

theorem tasks_advance {written : Bool} (hstep : s.advance opts written = some t) :
    t.tasks = s.tasks ∨ ∃ iid, t.tasks = s.tasks ++ [⟨iid, .running⟩] := by
  unfold advance at hstep
  split at hstep
  · split at hstep
    · cases hstep
      exact Or.inl rfl
    · cases hstep
      obtain hsame | ⟨iid, rest, _, _, hspawn⟩ := spawn_cases opts s
      · exact Or.inl (by rw [hsame])
      · exact Or.inr ⟨iid, by rw [hspawn]⟩
  · split at hstep
    · cases hstep
      exact Or.inl (tasks_poll _ _ _)
    · cases hstep
      exact Or.inl rfl
  · cases hstep
    exact Or.inl rfl
  · cases hstep

/-- Tasks are only added, and they keep how they ended. -/
theorem tasks_runStep {a : RunAction} (hstep : runStep opts a s = some t) :
    KeepsEnded s.tasks t.tasks ∧ s.tasks.length ≤ t.tasks.length := by
  cases a with
  | main written =>
      obtain hsame | ⟨iid, hnew⟩ := tasks_advance hstep
      · rw [hsame]
        exact ⟨fun _ _ _ => rfl, le_rfl⟩
      · rw [hnew]
        refine ⟨?_, by simp⟩
        rintro handle outcome ⟨iid', htask⟩
        exact List.getElem?_append_left (List.getElem?_eq_some_iff.mp htask).1
  | task handle outcome =>
      obtain ⟨iid, htask, rfl⟩ := finishTask_eq_some hstep
      refine ⟨?_, by simp⟩
      rintro other outcome' ⟨iid', hother⟩
      refine List.getElem?_set_ne ?_
      rintro rfl
      cases htask.symm.trans hother

theorem KeepsEnded.trans {tasks tasks' tasks'' : List Task} (h : KeepsEnded tasks tasks')
    (h' : KeepsEnded tasks' tasks'') : KeepsEnded tasks tasks'' := by
  intro handle outcome hended
  exact (h' handle outcome (hended.keep h)).trans (h handle outcome hended)

/-- What a task has ended with never changes. -/
theorem keepsEnded_of_run {actions : List RunAction}
    (hrun : exec (runStep opts) actions s = some t) : KeepsEnded s.tasks t.tasks :=
  exec_relation (R := fun s t => KeepsEnded s.tasks t.tasks) (fun _ _ _ _ => rfl)
    KeepsEnded.trans (fun _ _ _ hstep => (tasks_runStep hstep).1) hrun

end RunState

end StrideRunner
