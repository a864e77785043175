import StrideRunner.Verification.Scheduler.Ledger

/-! # The invariant of the scheduling loop

The ledger is combined with what is known at each program point. -/

namespace StrideRunner

open Library

namespace RunState

variable {opts : RunOpts} {instances : List IId} {writable : Prop} {s t : RunState}
  {polled lost : List ℕ}

/-! ## Program points -/

/-- The ways in which `command_run` returns. -/
inductive Exit (writable : Prop) (s : RunState) (lost : List ℕ) :
    Outcome AnyhowError Unit → Prop where
  | refused (hlost : lost = []) (htasks : s.tasks = []) (hinstances : s.instances = [])
      (hreport : s.reportErrorOnExit = false) : Exit writable s lost (.err noInstances)
  | left (hlost : lost = []) (hjobs : s.runningJobs = []) (hinstances : s.instances = []) :
      Exit writable s lost (if s.reportErrorOnExit then .err someRunsFailed else .ok ())
  | writeFailed {handle : ℕ} (hlost : lost = [handle]) (hwrite : ¬ writable) :
      Exit writable s lost (.err writeFailed)
  | jobFailed {handle : ℕ} {outcome : Outcome AnyhowError JobResult} {error : AnyhowError}
      (hlost : lost = [handle]) (hended : TaskEnded s.tasks handle outcome)
      (hfailed : ∀ result, outcome ≠ .ok result) : Exit writable s lost (.err error)

/-- While `poll` goes through the jobs, those not yet polled have their handles. -/
def AtPoint (writable : Prop) (s : RunState) (lost : List ℕ) : Prop :=
  match s.point with
  | .loopHead => lost = [] ∧ ∀ job ∈ s.runningJobs, job.taskHandle.isSome
  | .polling index => lost = [] ∧ ∀ job ∈ s.runningJobs.drop index, job.taskHandle.isSome
  | .retaining => lost = []
  | .returned result => Exit writable s lost result

def Invariant (opts : RunOpts) (instances : List IId) (writable : Prop) (s : RunState) : Prop :=
  ∃ polled lost, Ledger opts instances s polled lost ∧ AtPoint writable s lost

theorem invariant_start (writable : Prop) (hslots : 1 ≤ opts.parallelJobs) :
    Invariant opts instances writable (start opts instances) := by
  refine ⟨[], [], ledger_start opts instances, ?_⟩
  have hjobs : opts.parallelJobs ≠ 0 := by omega
  cases instances with
  | nil => exact .refused rfl rfl rfl rfl
  | cons iid rest => simp [AtPoint, start, hjobs]

/-! ## Steps -/

theorem Exit.finishTask {handle : ℕ} {outcome : Outcome AnyhowError JobResult}
    {result : Outcome AnyhowError Unit} (h : Exit writable s lost result)
    (hstep : s.finishTask handle outcome = some t) : Exit writable t lost result := by
  obtain ⟨iid, htask, rfl⟩ := finishTask_eq_some hstep
  cases h with
  | refused hlost htasks hinstances hreport => simp [htasks] at htask
  | left hlost hjobs hinstances => exact .left hlost hjobs hinstances
  | writeFailed hlost hwrite => exact .writeFailed hlost hwrite
  | jobFailed hlost hended hfailed =>
      obtain ⟨iid', hended⟩ := hended
      refine .jobFailed hlost ⟨iid', ?_⟩ hfailed
      refine (List.getElem?_set_ne ?_).trans hended
      rintro rfl
      cases htask.symm.trans hended

theorem invariant_finishTask {handle : ℕ} {outcome : Outcome AnyhowError JobResult}
    (h : Invariant opts instances writable s) (hstep : s.finishTask handle outcome = some t) :
    Invariant opts instances writable t := by
  obtain ⟨polled, lost, hledger, hpoint⟩ := h
  refine ⟨polled, lost, hledger.finishTask hstep, ?_⟩
  have hsame : t.point = s.point ∧ t.runningJobs = s.runningJobs := by
    obtain ⟨_, _, rfl⟩ := finishTask_eq_some hstep
    exact ⟨rfl, rfl⟩
  unfold AtPoint at hpoint ⊢
  rw [hsame.1, hsame.2]
  split at hpoint
  · exact hpoint
  · exact hpoint
  · exact hpoint
  · exact hpoint.finishTask hstep

theorem invariant_loopHead (h : Ledger opts instances s polled [])
    (hhandles : ∀ job ∈ s.runningJobs, job.taskHandle.isSome) :
    Invariant opts instances writable { s.spawn opts with point := .polling 0 } := by
  refine ⟨polled, [], h.spawn.set_point _, rfl, ?_⟩
  obtain hsame | ⟨iid, rest, _, _, hspawn⟩ := spawn_cases opts s
  · simpa only [hsame, List.drop_zero] using hhandles
  · rw [hspawn]
    intro job hjob
    rcases List.mem_append.mp hjob with hjob | hjob
    · exact hhandles job hjob
    · rw [List.mem_singleton] at hjob
      simp [hjob]

/-- One poll: the job is skipped, logged, or makes `command_run` return. -/
theorem invariant_poll {written : Bool} {index : ℕ} {job : JobContext}
    (hwritten : written = false → ¬ writable) (h : Ledger opts instances s polled [])
    (hjob : s.runningJobs[index]? = some job)
    (hhandles : ∀ job ∈ s.runningJobs.drop index, job.taskHandle.isSome) :
    Invariant opts instances writable (s.poll opts written index job) := by
  have hlt : index < s.runningJobs.length := (List.getElem?_eq_some_iff.mp hjob).1
  have hdrop : s.runningJobs.drop index = job :: s.runningJobs.drop (index + 1) := by
    rw [List.drop_eq_getElem_cons hlt, (List.getElem?_eq_some_iff.mp hjob).2]
  rw [hdrop, List.forall_mem_cons] at hhandles
  obtain ⟨hsome, hrest⟩ := hhandles
  obtain ⟨handle, hhandle⟩ := Option.isSome_iff_exists.mp hsome
  have hnamed := h.named job (List.mem_of_getElem? hjob) handle hhandle
  obtain ⟨⟨iid, state⟩, htask, rfl⟩ := Option.map_eq_some_iff.mp hnamed
  simp only [poll, hhandle, htask]
  cases state with
  | running => exact ⟨polled, [], h.set_point _, rfl, hrest⟩
  | finished outcome =>
      have hended : TaskEnded s.tasks handle outcome := ⟨_, htask⟩
      have htaken := h.takeHandle hjob hhandle hended
      cases outcome with
      | ok result =>
          cases written with
          | true =>
              have hsame : (s.takeHandle index).runningJobs.drop (index + 1) =
                  s.runningJobs.drop (index + 1) :=
                List.drop_modify_of_lt _ _ _ _ (Nat.lt_succ_self index)
              refine ⟨_, _, htaken.log htask (.polling (index + 1)), rfl, ?_⟩
              rwa [← hsame] at hrest
          | false =>
              refine ⟨_, _, htaken.set_point (.returned (.err StrideRunner.writeFailed)), ?_⟩
              exact .writeFailed rfl (hwritten rfl)
      | err error =>
          refine ⟨_, _, htaken.set_point (.returned (.err error)), ?_⟩
          exact .jobFailed rfl hended (by simp)
      | panic message =>
          refine ⟨_, _, htaken.set_point (.returned (.err (.message message))), ?_⟩
          exact .jobFailed rfl hended (by simp)

theorem invariant_retain (h : Ledger opts instances s polled []) :
    Invariant opts instances writable
      { s with
        point := .loopHead
        runningJobs := s.runningJobs.filter fun job => !job.isFinished } := by
  refine ⟨polled, [], h.retain .loopHead, rfl, ?_⟩
  intro job hjob
  have hkept := (List.mem_filter.mp hjob).2
  simpa [JobContext.isFinished, Option.isSome_iff_ne_none] using hkept

theorem invariant_advance {written : Bool} (hwritten : written = false → ¬ writable)
    (h : Invariant opts instances writable s) (hstep : s.advance opts written = some t) :
    Invariant opts instances writable t := by
  obtain ⟨polled, lost, hledger, hat⟩ := h
  unfold AtPoint at hat
  unfold advance at hstep
  cases hpoint : s.point with
  | loopHead =>
      simp only [hpoint] at hat hstep
      obtain ⟨rfl, hhandles⟩ := hat
      split at hstep
      · rename_i hempty
        cases hstep
        simp only [Bool.and_eq_true, List.isEmpty_iff] at hempty
        exact ⟨polled, [], hledger.set_point _, .left rfl hempty.2 hempty.1⟩
      · cases hstep
        exact invariant_loopHead hledger hhandles
  | polling index =>
      simp only [hpoint] at hat hstep
      obtain ⟨rfl, hhandles⟩ := hat
      split at hstep
      · rename_i job hjob
        cases hstep
        exact invariant_poll hwritten hledger hjob hhandles
      · cases hstep
        exact ⟨polled, [], hledger.set_point _, rfl⟩
  | retaining =>
      simp only [hpoint] at hat hstep
      subst hat
      cases hstep
      exact invariant_retain hledger
  | returned result => simp [hpoint] at hstep

/-- The invariant holds in every state that a run reaches. -/
theorem invariant_of_run (hslots : 1 ≤ opts.parallelJobs) {actions : List RunAction}
    (hwritable : .main false ∈ actions → ¬ writable)
    (hrun : exec (runStep opts) actions (start opts instances) = some s) :
    Invariant opts instances writable s := by
  refine exec_invariant (fun a => a = .main false → ¬ writable) ?_ ?_ hrun
    (invariant_start writable hslots)
  · intro a s t hpermitted hs hstep
    cases a with
    | main written =>
        refine invariant_advance ?_ hs hstep
        rintro rfl
        exact hpermitted rfl
    | task handle outcome => exact invariant_finishTask hs hstep
  · rintro a ha rfl
    exact hwritable ha

end RunState

end StrideRunner
