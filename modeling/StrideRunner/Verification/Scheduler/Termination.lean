import StrideRunner.Verification.Scheduler.Correctness
import Mathlib.Order.OrderIsoNat

/-! # Termination of the scheduling loop

The loop waits for its tasks. If every task that is waited for ends some time, `command_run`
returns: each spawn uses up an entry of the list, and between two spawns the poll of ended
tasks uses up the handles. -/

namespace StrideRunner

open Library

namespace RunState

variable {opts : RunOpts} {instances : List IId} {s t : RunState}

def HasReturned (s : RunState) : Prop :=
  ∃ result, s.point = .returned result

def AllEnded (s : RunState) : Prop :=
  ∀ task ∈ s.tasks, task.isRunning = false

/-- A complete run: it goes on until `command_run` has returned, the summary file accepts every
line, and no task is waited for in vain. -/
structure FairRun (opts : RunOpts) (instances : List IId) (run : ℕ → RunState) : Prop where
  start_eq : run 0 = start opts instances
  step : ∀ n, (∃ a, a ≠ .main false ∧ runStep opts a (run n) = some (run (n + 1))) ∨
    HasReturned (run n) ∧ run (n + 1) = run n
  ends : ∀ n handle iid, (run n).tasks[handle]? = some ⟨iid, .running⟩ →
    ∃ m ≥ n, (∃ outcome, TaskEnded (run m).tasks handle outcome) ∨ HasReturned (run m)

/-! ## Between two spawns -/

/-- Handles weigh more than program points; within an iteration the points are passed in order,
and the first poll of an iteration takes a handle. -/
def remaining (s : RunState) : ℕ :=
  4 * s.held.length + match s.point with
    | .polling index => if index = 0 ∧ s.runningJobs ≠ [] then 0 else 3
    | .retaining => 2
    | .loopHead => 1
    | .returned _ => 0

theorem length_held_takeHandle {index handle : ℕ} {job : JobContext}
    (hjob : s.runningJobs[index]? = some job) (hhandle : job.taskHandle = some handle) :
    (s.takeHandle index).held.length + 1 = s.held.length :=
  (perm_held_takeHandle hjob hhandle).length_eq

theorem remaining_settle_ok (index : ℕ) (iid : IId) (result : JobResult) :
    (settle opts true s index iid (.ok result)).remaining = 4 * s.held.length + 3 := by
  simp [remaining, settle, held]

/-- At the loop head there is a job to poll, unless the move returns or spawns. -/
theorem remaining_spawn_lt (hslots : 1 ≤ opts.parallelJobs) (hat : s.point = .loopHead)
    (hwork : ¬ (s.instances.isEmpty && s.runningJobs.isEmpty) = true)
    (hlength : (s.spawn opts).tasks.length = s.tasks.length) :
    ({ s.spawn opts with point := .polling 0 } : RunState).remaining < s.remaining := by
  obtain hsame | ⟨iid, rest, _, _, hspawn⟩ := spawn_cases opts s
  · have hjobs : s.runningJobs ≠ [] := by
      intro hjobs
      cases hinstances : s.instances with
      | nil => simp [hjobs, hinstances] at hwork
      | cons iid rest =>
          have hslot : opts.parallelJobs > s.runningJobs.length := by simpa [hjobs]
          have hlen := congrArg (fun s => s.tasks.length) hsame
          simp [spawn, hslot, hinstances] at hlen
    simp [remaining, held, hsame, hat, hjobs]
  · simp [hspawn] at hlength

/-- A poll of an ended task takes its handle. -/
theorem remaining_poll_lt {index : ℕ} {job : JobContext} {polled : List ℕ}
    (hledger : Ledger opts instances s polled []) (hended : AllEnded s)
    (hjob : s.runningJobs[index]? = some job)
    (hsome : job.taskHandle.isSome) (hreturned : ¬ HasReturned (s.poll opts true index job)) :
    (s.poll opts true index job).remaining < s.remaining := by
  obtain ⟨handle, hhandle⟩ := Option.isSome_iff_exists.mp hsome
  have hnamed := hledger.named job (List.mem_of_getElem? hjob) handle hhandle
  obtain ⟨⟨iid, state⟩, htask, rfl⟩ := Option.map_eq_some_iff.mp hnamed
  have hnot := hended _ (List.mem_of_getElem? htask)
  have hlen := length_held_takeHandle hjob hhandle
  have hle : 4 * s.held.length ≤ s.remaining := Nat.le_add_right _ _
  cases state with
  | running => simp [Task.isRunning] at hnot
  | finished outcome =>
      simp only [poll, hhandle, htask] at hreturned ⊢
      cases outcome with
      | ok result =>
          rw [remaining_settle_ok]
          omega
      | err error => exact (hreturned ⟨_, rfl⟩).elim
      | panic message => exact (hreturned ⟨_, rfl⟩).elim

/-- Without a running task and without a spawn, a move of the main task that does not return
decreases `remaining`. -/
theorem remaining_advance_lt (hslots : 1 ≤ opts.parallelJobs)
    (hinv : Invariant opts instances True s) (hended : AllEnded s)
    (hstep : s.advance opts true = some t) (hlength : t.tasks.length = s.tasks.length)
    (hreturned : ¬ HasReturned t) : t.remaining < s.remaining := by
  obtain ⟨polled, lost, hledger, hpoint⟩ := hinv
  unfold AtPoint at hpoint
  unfold advance at hstep
  cases hat : s.point with
  | loopHead =>
      simp only [hat] at hstep
      split at hstep
      · cases hstep
        exact (hreturned ⟨_, rfl⟩).elim
      · rename_i hwork
        cases hstep
        exact remaining_spawn_lt hslots hat hwork hlength
  | polling index =>
      simp only [hat] at hpoint hstep
      obtain ⟨rfl, hhandles⟩ := hpoint
      cases hjob : s.runningJobs[index]? with
      | none =>
          simp only [hjob] at hstep
          cases hstep
          have hrank : ¬ (index = 0 ∧ s.runningJobs ≠ []) := by
            rintro ⟨rfl, hjobs⟩
            exact hjobs (List.getElem?_eq_none_iff.mp hjob |> List.eq_nil_of_length_eq_zero ∘
              Nat.le_zero.mp)
          simp [remaining, held, hat, hrank]
      | some job =>
          simp only [hjob] at hstep
          cases hstep
          have hmem : job ∈ s.runningJobs.drop index := by
            refine List.mem_of_getElem? (i := 0) ?_
            rwa [List.getElem?_drop]
          exact remaining_poll_lt hledger hended hjob (hhandles job hmem) hreturned
  | retaining =>
      simp only [hat] at hstep
      cases hstep
      simp [remaining, held, filterMap_taskHandle_filter, hat]
  | returned result => simp [hat] at hstep

/-! ## Ended tasks -/

/-- Once all tasks have ended, only the main task can move. -/
theorem advance_of_allEnded {a : RunAction} (hended : AllEnded s) (ha : a ≠ .main false)
    (hstep : runStep opts a s = some t) : s.advance opts true = some t := by
  cases a with
  | main written =>
      cases written with
      | true => exact hstep
      | false => exact (ha rfl).elim
  | task handle outcome =>
      obtain ⟨iid, htask, rfl⟩ := finishTask_eq_some hstep
      have hnot := hended _ (List.mem_of_getElem? htask)
      simp [Task.isRunning] at hnot

theorem allEnded_iff : AllEnded s ↔
    ∀ handle < s.tasks.length, ∃ outcome, TaskEnded s.tasks handle outcome := by
  constructor
  · intro h handle hlt
    have htask : s.tasks[handle]? = some s.tasks[handle] := List.getElem?_eq_getElem hlt
    have hnot := h _ (List.getElem_mem hlt)
    generalize s.tasks[handle] = task at htask hnot
    obtain ⟨iid, _ | outcome⟩ := task
    · simp [Task.isRunning] at hnot
    · exact ⟨outcome, iid, htask⟩
  · intro h task hmem
    obtain ⟨handle, hlt, rfl⟩ := List.getElem_of_mem hmem
    obtain ⟨outcome, iid, htask⟩ := h handle hlt
    rw [(List.getElem?_eq_some_iff.mp htask).2]
    rfl

/-! ## Termination -/

section Fair

variable {run : ℕ → RunState}

theorem tasks_of_steps (hstep : ∀ n, ∃ a, a ≠ .main false ∧
      runStep opts a (run n) = some (run (n + 1))) {n m : ℕ} (hle : n ≤ m) :
    KeepsEnded (run n).tasks (run m).tasks ∧ (run n).tasks.length ≤ (run m).tasks.length := by
  induction m, hle using Nat.le_induction with
  | base => exact ⟨fun _ _ _ => rfl, le_rfl⟩
  | succ m _ ih =>
      obtain ⟨a, _, ha⟩ := hstep m
      obtain ⟨hkeep, hlength⟩ := tasks_runStep ha
      refine ⟨?_, ih.2.trans hlength⟩
      intro handle outcome hended
      exact (hkeep handle outcome (hended.keep ih.1)).trans (ih.1 handle outcome hended)

/-- As long as nothing is spawned, every running task ends. -/
theorem exists_allEnded (hfair : FairRun opts instances run)
    (hnever : ∀ n, ¬ HasReturned (run n))
    (hstep : ∀ n, ∃ a, a ≠ .main false ∧ runStep opts a (run n) = some (run (n + 1))) {N : ℕ}
    (hlength : ∀ m ≥ N, (run m).tasks.length = (run N).tasks.length) :
    ∃ M ≥ N, AllEnded (run M) := by
  have hprefix : ∀ k ≤ (run N).tasks.length,
      ∃ M ≥ N, ∀ handle < k, ∃ outcome, TaskEnded (run M).tasks handle outcome := by
    intro k
    induction k with
    | zero => exact fun _ => ⟨N, le_rfl, by simp⟩
    | succ k ih =>
        intro hk
        obtain ⟨M, hM, hended⟩ := ih (by omega)
        have hlt : k < (run M).tasks.length := by
          rw [hlength M hM]
          omega
        have hlast : ∃ m ≥ M, ∃ outcome, TaskEnded (run m).tasks k outcome := by
          have htask : (run M).tasks[k]? = some (run M).tasks[k] := List.getElem?_eq_getElem hlt
          generalize (run M).tasks[k] = task at htask
          obtain ⟨iid, _ | outcome⟩ := task
          · obtain ⟨m, hm, hend | hreturned⟩ := hfair.ends M k iid htask
            · exact ⟨m, hm, hend⟩
            · exact (hnever m hreturned).elim
          · exact ⟨M, le_rfl, outcome, iid, htask⟩
        obtain ⟨m, hm, hlast⟩ := hlast
        refine ⟨m, hM.le.trans hm, ?_⟩
        intro handle hhandle
        rcases Nat.lt_succ_iff_lt_or_eq.mp hhandle with hlt | rfl
        · obtain ⟨outcome, houtcome⟩ := hended handle hlt
          exact ⟨outcome, houtcome.keep (tasks_of_steps hstep hm).1⟩
        · exact hlast
  obtain ⟨M, hM, hended⟩ := hprefix _ le_rfl
  refine ⟨M, hM, allEnded_iff.mpr ?_⟩
  rwa [hlength M hM]

/-- Every complete run returns. -/
theorem fairRun_returns (hslots : 1 ≤ opts.parallelJobs) (hfair : FairRun opts instances run) :
    ∃ n, HasReturned (run n) := by
  by_contra hnot
  have hnever : ∀ n, ¬ HasReturned (run n) := not_exists.mp hnot
  have hstep : ∀ n, ∃ a, a ≠ .main false ∧ runStep opts a (run n) = some (run (n + 1)) := by
    intro n
    rcases hfair.step n with h | ⟨hreturned, _⟩
    · exact h
    · exact (hnever n hreturned).elim
  have hinv : ∀ n, Invariant opts instances True (run n) := by
    intro n
    obtain ⟨actions, hpermitted, hrun⟩ := exists_exec_of_steps hstep n
    rw [hfair.start_eq] at hrun
    exact invariant_of_run hslots (fun hmem => (hpermitted _ hmem rfl).elim) hrun
  -- the number of tasks is bounded by the list, so it is constant from some state on
  have hbounded : BddAbove (Set.range fun n => (run n).tasks.length) := by
    refine ⟨instances.length, ?_⟩
    rintro _ ⟨n, rfl⟩
    obtain ⟨_, _, hledger, _⟩ := hinv n
    have hstarted := congrArg List.length hledger.started
    simp only [List.length_append, List.length_map] at hstarted
    dsimp only
    omega
  obtain ⟨N, hN⟩ := Nat.sSup_mem (Set.range_nonempty _) hbounded
  have hlength : ∀ m ≥ N, (run m).tasks.length = (run N).tasks.length := by
    intro m hm
    refine le_antisymm ?_ (tasks_of_steps hstep hm).2
    rw [show (run N).tasks.length = _ from hN]
    exact le_csSup hbounded ⟨m, rfl⟩
  obtain ⟨M, hM, hended⟩ := exists_allEnded hfair hnever hstep hlength
  have hall : ∀ j, AllEnded (run (M + j)) := by
    intro j
    rw [allEnded_iff] at hended ⊢
    intro handle hlt
    rw [hlength _ (hM.le.trans (Nat.le_add_right M j)), ← hlength M hM] at hlt
    obtain ⟨outcome, houtcome⟩ := hended handle hlt
    exact ⟨outcome, houtcome.keep (tasks_of_steps hstep (Nat.le_add_right M j)).1⟩
  refine not_strictAnti_of_wellFoundedLT (fun j => (run (M + j)).remaining)
    (strictAnti_nat_of_succ_lt ?_)
  intro j
  obtain ⟨a, ha, hmove⟩ := hstep (M + j)
  refine remaining_advance_lt hslots (hinv _) (hall j) (advance_of_allEnded (hall j) ha hmove)
    ?_ (hnever _)
  rw [hlength (M + (j + 1)) (by omega), hlength (M + j) (by omega)]

end Fair

/-- A complete run returns. While all jobs succeed the invariant holds throughout, and the loop is
left with one line per entry unless the summary file fails. -/
theorem commandRun_scheduler (hslots : 1 ≤ opts.parallelJobs) {actions : List RunAction}
    (hrun : exec (runStep opts) actions (start opts instances) = some s)
    (hsucceed : JobsSucceed actions) :
    (∀ run, FairRun opts instances run → ∃ n, HasReturned (run n)) ∧
      SchedulerSpec opts instances s ∧ ∀ result, s.point = .returned result →
        (.main false ∈ actions ∧ result = .err writeFailed) ∨
          (s.summary.Perm (s.tasks.filterMap Task.line) ∧
            (s.summary.map SummaryLine.iid).Perm instances ∧
            (result = .err someRunsFailed ↔ ∃ task ∈ s.tasks, ∃ jobResult,
              task.state = .finished (.ok jobResult) ∧ jobResult.state.Fails opts)) :=
  ⟨fun _ hfair => fairRun_returns hslots hfair, schedulerSpec_of_run hslots hrun hsucceed⟩

theorem commandRun_scheduler_demo :
    ∃ s, exec (runStep demoOpts) demoActions (start demoOpts demoList) = some s ∧
      (∀ run, FairRun demoOpts demoList run → ∃ n, HasReturned (run n)) ∧
      SchedulerSpec demoOpts demoList s ∧ ∀ result, s.point = .returned result →
        (.main false ∈ demoActions ∧ result = .err writeFailed) ∨
          (s.summary.Perm (s.tasks.filterMap Task.line) ∧
            (s.summary.map SummaryLine.iid).Perm demoList ∧
            (result = .err someRunsFailed ↔ ∃ task ∈ s.tasks, ∃ jobResult,
              task.state = .finished (.ok jobResult) ∧ jobResult.state.Fails demoOpts)) := by
  have hrun : exec (runStep demoOpts) demoActions (start demoOpts demoList) = some _ := rfl
  refine ⟨_, hrun, commandRun_scheduler (by decide) hrun ?_⟩
  intro handle outcome hmem
  simp only [demoActions, List.mem_cons, RunAction.task.injEq, reduceCtorEq, false_or, or_false,
    List.not_mem_nil] at hmem
  obtain ⟨_, rfl⟩ | ⟨_, rfl⟩ := hmem
  · exact ⟨_, rfl⟩
  · exact ⟨_, rfl⟩

/-- A complete run returns, and what it leaves behind is complete exactly when all its job tasks
end with `Ok`. -/
theorem commandRun_allRecorded_iff (hslots : 1 ≤ opts.parallelJobs) :
    (∀ run, FairRun opts instances run → ∃ n, HasReturned (run n)) ∧
      ∀ actions s, .main false ∉ actions →
        exec (runStep opts) actions (start opts instances) = some s → HasReturned s →
        (AllRecorded instances s ↔ JobsSucceed actions) := by
  refine ⟨fun run hfair => fairRun_returns hslots hfair, ?_⟩
  rintro actions s hwritable hrun ⟨result, hreturned⟩
  rw [allRecorded_iff_noJobFails hslots hwritable hrun hreturned]
  exact noJobFails_iff_jobsSucceed hrun

/-! ## Concrete runs -/

def singleActions : List RunAction :=
  [.main true, .task 0 (.ok ⟨.bestKnown 3, 7⟩), .main true, .main true, .main true, .main true]

def singleRun (n : ℕ) : RunState :=
  (exec (runStep demoOpts) (singleActions.take n) (start demoOpts [⟨1⟩])).getD
    (start demoOpts [⟨1⟩])

theorem singleRun_add (n : ℕ) : singleRun (n + 6) = singleRun 6 := by
  unfold singleRun
  rw [List.take_of_length_le (by simp [singleActions])]
  rfl

theorem fairRun_single : FairRun demoOpts [⟨1⟩] singleRun := by
  have hreturned : ∀ n, HasReturned (singleRun (n + 6)) := by
    intro n
    rw [singleRun_add]
    exact ⟨.ok (), rfl⟩
  refine ⟨rfl, ?_, ?_⟩
  · intro n
    match n with
    | 0 => exact Or.inl ⟨.main true, by decide, rfl⟩
    | 1 => exact Or.inl ⟨.task 0 (.ok ⟨.bestKnown 3, 7⟩), by decide, rfl⟩
    | 2 => exact Or.inl ⟨.main true, by decide, rfl⟩
    | 3 => exact Or.inl ⟨.main true, by decide, rfl⟩
    | 4 => exact Or.inl ⟨.main true, by decide, rfl⟩
    | 5 => exact Or.inl ⟨.main true, by decide, rfl⟩
    | n + 6 =>
        refine Or.inr ⟨hreturned n, ?_⟩
        exact (singleRun_add (n + 1)).trans (singleRun_add n).symm
  · intro n handle iid _
    exact ⟨n + 6, by omega, Or.inr (hreturned n)⟩

theorem commandRun_allRecorded_single :
    (∃ n, HasReturned (singleRun n)) ∧
      ∃ s, exec (runStep demoOpts) singleActions (start demoOpts [⟨1⟩]) = some s ∧
        HasReturned s ∧ (AllRecorded [⟨1⟩] s ↔ JobsSucceed singleActions) := by
  have hslots : 1 ≤ demoOpts.parallelJobs := by decide
  obtain ⟨hreturns, hiff⟩ := @commandRun_allRecorded_iff demoOpts [⟨1⟩] hslots
  refine ⟨hreturns singleRun fairRun_single, _, rfl, ⟨.ok (), rfl⟩, ?_⟩
  exact hiff singleActions _ (by decide) rfl ⟨.ok (), rfl⟩

def fetchFailed : AnyhowError := .message "error sending request"

/-- The fetch of the first job has failed while the second job runs. -/
def abandonedState : RunState :=
  { point := .returned (.err fetchFailed)
    instances := []
    runningJobs := [⟨⟨1⟩, none⟩, ⟨⟨2⟩, some 1⟩]
    tasks := [⟨⟨1⟩, .finished (.err fetchFailed)⟩, ⟨⟨2⟩, .running⟩]
    display := .new
    summary := []
    reportErrorOnExit := false }

/-- One failing job ends `command_run` at once: no line is written, and a job is still running. -/
theorem commandRun_abandons_running_job :
    exec (runStep demoOpts)
        [.main true, .main true, .main true, .main true, .main true, .task 0 (.err fetchFailed),
          .main true] (start demoOpts demoList) = some abandonedState ∧
      HasReturned abandonedState ∧ (∃ task ∈ abandonedState.tasks, task.isRunning = true) ∧
      ¬ AllRecorded demoList abandonedState := by
  refine ⟨by decide, ⟨_, rfl⟩, by decide, ?_⟩
  intro hall
  have hlength := hall.oneLineEach.length_eq
  simp [abandonedState, demoList] at hlength

end RunState

end StrideRunner
