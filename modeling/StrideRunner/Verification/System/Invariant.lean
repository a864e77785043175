import StrideRunner.Verification.Lines
import StrideRunner.Verification.System.Projection

/-! # The invariant of a whole run

The tasks fit the jobs, the summary file holds the logged lines, and files that belong to no job
are as they were. -/

namespace StrideRunner

open Library

variable {env : RunEnvironment} {instances : List IId} {fs : FileSystem} {s t : SystemState}
  {actions : List SystemAction}

namespace RunState

variable {opts : RunOpts} {run run' : RunState} {written : Bool}

/-- A step of the main task logs the line that it attempts to write, unless the write fails. -/
theorem summary_advance (h : run.advance opts written = some run') :
    match SystemState.attempted run with
    | none => run'.summary = run.summary
    | some line => (written = true ∧ run'.summary = run.summary ++ [line]) ∨
        (written = false ∧ run'.summary = run.summary ∧
          run'.point = .returned (.err writeFailed)) := by
  unfold advance at h
  unfold SystemState.attempted
  cases hpoint : run.point with
  | loopHead =>
      simp only [hpoint] at h ⊢
      split at h
      · cases h
        rfl
      · cases h
        obtain hsame | ⟨iid, rest, _, _, hspawn⟩ := spawn_cases opts run
        · rw [hsame]
        · rw [hspawn]
  | retaining =>
      simp only [hpoint] at h ⊢
      cases h
      rfl
  | returned result =>
      simp only [hpoint] at h
      cases h
  | polling index =>
      simp only [hpoint] at h ⊢
      cases hjob : run.runningJobs[index]? with
      | none =>
          simp only [hjob] at h ⊢
          cases h
          rfl
      | some job =>
          obtain ⟨iid, handle⟩ := job
          simp only [hjob] at h ⊢
          cases h
          cases handle with
          | none => rfl
          | some handle =>
              simp only [poll]
              cases htask : run.tasks[handle]? with
              | none => rfl
              | some task =>
                  obtain ⟨iid', state⟩ := task
                  cases state with
                  | running => rfl
                  | finished outcome =>
                      cases outcome with
                      | ok result =>
                          cases written with
                          | true => exact Or.inl ⟨rfl, rfl⟩
                          | false => exact Or.inr ⟨rfl, rfl, rfl⟩
                      | err error => rfl
                      | panic message => rfl

/-- After the main task has returned it makes no step. -/
theorem point_ne_returned (h : run.advance opts written = some run')
    (result : Outcome AnyhowError Unit) : run.point ≠ .returned result := by
  intro hpoint
  simp [advance, hpoint] at h

end RunState

namespace SystemState

/-! ## Tasks and jobs -/

/-- The state of a task is that of its job. -/
def Fits : Option Task → JobTask → Prop
  | none, task => task = .start
  | some ⟨_, .running⟩, task => ∀ outcome, task.phase ≠ .ended outcome
  | some ⟨_, .finished outcome⟩, task => task.phase = .ended outcome

def TasksFit (s : SystemState) : Prop :=
  ∀ handle : ℕ, Fits s.run.tasks[handle]? (s.shared.locals handle)

theorem fits_running (iid : IId) : Fits (some ⟨iid, .running⟩) .start := by
  intro outcome houtcome
  cases houtcome

theorem tasksFit_step {a : SystemAction} (hfit : TasksFit s) (h : step env a s = some t) :
    TasksFit t := by
  intro i
  cases steps_of_step h with
  | main failure hadvance hstore hlocals =>
      rw [hlocals]
      obtain hsame | ⟨iid, hnew⟩ := RunState.tasks_advance hadvance
      · rw [hsame]
        exact hfit i
      · have hi := hfit i
        rw [hnew]
        rcases lt_trichotomy i s.run.tasks.length with hlt | rfl | hgt
        · rwa [List.getElem?_append_left hlt]
        · rw [List.getElem?_eq_none le_rfl] at hi
          rw [List.getElem?_concat_length, hi]
          exact fits_running iid
        · rw [List.getElem?_eq_none (by omega)] at hi
          rwa [List.getElem?_eq_none (by simp; omega)]
  | job handle a iid task htask hjob hlocals hends =>
      rw [hlocals]
      have hhandle : handle < s.run.tasks.length := (List.getElem?_eq_some_iff.mp htask).1
      obtain ⟨outcome, hphase, hfinish⟩ | ⟨hphase, hsame⟩ := jobEnds_cases hends
      · obtain ⟨iid', _, hrun⟩ := RunState.finishTask_eq_some hfinish
        rw [hrun]
        by_cases hi : i = handle
        · subst hi
          rw [Function.update_self, List.getElem?_set_self hhandle]
          exact hphase
        · rw [Function.update_of_ne hi, List.getElem?_set_ne (Ne.symm hi)]
          exact hfit i
      · rw [hsame]
        by_cases hi : i = handle
        · subst hi
          rw [Function.update_self, htask]
          exact hphase
        · rw [Function.update_of_ne hi]
          exact hfit i

/-! ## The summary file -/

/-- A write that fails leaves a part of its line, and it is the last one. -/
def SummaryKept (env : RunEnvironment) (s : SystemState) : Prop :=
  ∃ rest, s.shared.store (summaryFile env.logDir) =
      some (encodeUtf8 (summaryText env.asSecsF64 s.run.summary) ++ rest) ∧
    (s.run.point ≠ .returned (.err writeFailed) → rest = [])

theorem summaryText_append (asSecsF64 : ℕ → List Char) (summary : List SummaryLine)
    (line : SummaryLine) : summaryText asSecsF64 (summary ++ [line]) =
      summaryText asSecsF64 summary ++ line.text asSecsF64 := by
  rw [summaryText, summaryText, List.flatMap_append, List.flatMap_singleton, List.append_assoc]

theorem jobStep_summaryFile {iid : IId} {a : JobAction} {task task' : JobTask}
    {fs fs' : FileSystem} (h : jobStep env iid a (fs, task) = some (fs', task')) :
    fs' (summaryFile env.logDir) = fs (summaryFile env.logDir) :=
  JobTask.jobStep_confined.frame h _ RunEnvironment.summaryFile_notMem_files

theorem jobEnds_summary {run run' : RunState} {handle : ℕ} {task : JobTask}
    (h : jobEnds run handle task = some run') :
    run'.summary = run.summary ∧ run'.point = run.point ∧
      run'.tasks.map Task.iid = run.tasks.map Task.iid := by
  obtain ⟨outcome, _, hfinish⟩ | ⟨_, rfl⟩ := jobEnds_cases h
  · obtain ⟨iid, htask, rfl⟩ := RunState.finishTask_eq_some hfinish
    refine ⟨rfl, rfl, ?_⟩
    apply List.ext_getElem?
    intro i
    rw [List.getElem?_map, List.getElem?_map, RunState.iid_set htask]
  · exact ⟨rfl, rfl, rfl⟩

theorem summaryKept_step {a : SystemAction} (hkept : SummaryKept env s)
    (h : step env a s = some t) : SummaryKept env t := by
  obtain ⟨rest, hfile, hrest⟩ := hkept
  cases steps_of_step h with
  | job handle a iid task htask hjob hlocals hends =>
      obtain ⟨hsummary, hpoint, _⟩ := jobEnds_summary hends
      rw [SummaryKept, hsummary, hpoint, jobStep_summaryFile hjob]
      exact ⟨rest, hfile, hrest⟩
  | main failure hadvance hstore hlocals =>
      rw [hrest (RunState.point_ne_returned hadvance _), List.append_nil] at hfile
      have hsummary := RunState.summary_advance hadvance
      rw [SummaryKept, hstore]
      cases hline : attempted s.run with
      | none =>
          simp only [hline] at hsummary
          rw [hsummary]
          exact ⟨[], by rw [List.append_nil]; exact hfile, fun _ => rfl⟩
      | some line =>
          simp only [hline] at hsummary
          simp only [logLine, FileSystem.append, Function.update_self, hfile, Option.map_some]
          cases failure with
          | none =>
              obtain ⟨_, hsummary⟩ | ⟨hfailed, _⟩ := hsummary
              · refine ⟨[], ?_, fun _ => rfl⟩
                rw [hsummary, summaryText_append, encodeUtf8_append, List.append_nil]
                rfl
              · cases hfailed
          | some bytes =>
              obtain ⟨hwritten, _⟩ | ⟨_, hsummary, hpoint⟩ := hsummary
              · cases hwritten
              · rw [hsummary]
                exact ⟨_, rfl, fun hnot => (hnot hpoint).elim⟩

/-! ## The other files -/

/-- Only the summary and the files of jobs that have been started may change. -/
def OthersKept (env : RunEnvironment) (fs : FileSystem) (s : SystemState) : Prop :=
  ∀ path, path ≠ summaryFile env.logDir → (∀ iid ∈ s.run.tasks.map Task.iid, path ∉ env.files iid) →
    s.shared.store path = fs path

theorem othersKept_step {a : SystemAction} (hkept : OthersKept env fs s)
    (h : step env a s = some t) : OthersKept env fs t := by
  intro path hsummary hfiles
  cases steps_of_step h with
  | job handle a iid task htask hjob hlocals hends =>
      rw [(jobEnds_summary hends).2.2] at hfiles
      have hmem : iid ∈ s.run.tasks.map Task.iid :=
        List.mem_map_of_mem (f := Task.iid) (List.mem_of_getElem? htask)
      rw [JobTask.jobStep_confined.frame hjob path (hfiles iid hmem)]
      exact hkept path hsummary hfiles
  | main failure hadvance hstore hlocals =>
      have hbefore : ∀ iid ∈ s.run.tasks.map Task.iid, path ∉ env.files iid := by
        intro iid hiid
        apply hfiles iid
        obtain hsame | ⟨iid', hnew⟩ := RunState.tasks_advance hadvance
        · rwa [hsame]
        · rw [hnew, List.map_append]
          exact List.mem_append_left _ hiid
      rw [hstore, ← hkept path hsummary hbefore]
      cases attempted s.run with
      | none => rfl
      | some line => exact Function.update_of_ne hsummary ..

/-! ## Runs -/

theorem start_point (hslots : 1 ≤ env.opts.parallelJobs) (hne : instances ≠ []) :
    (RunState.start env.opts instances).point = .loopHead := by
  have hjobs : env.opts.parallelJobs ≠ 0 := by omega
  simp [RunState.start, hne, hjobs]

theorem tasksFit_of_run (hrun : exec (step env) actions (start env instances fs) = some s) :
    TasksFit s :=
  exec_invariant _ (fun _ _ _ _ hs hstep => tasksFit_step hs hstep) (fun _ _ => trivial) hrun
    fun _ => rfl

theorem othersKept_of_run (hrun : exec (step env) actions (start env instances fs) = some s) :
    OthersKept env fs s := by
  refine exec_invariant _ (fun _ _ _ _ hs hstep => othersKept_step hs hstep) (fun _ _ => trivial)
    hrun ?_
  intro path hsummary _
  simp only [start]
  split
  · exact Function.update_of_ne hsummary ..
  · rfl

theorem summaryKept_of_run (hslots : 1 ≤ env.opts.parallelJobs) (hne : instances ≠ [])
    (hrun : exec (step env) actions (start env instances fs) = some s) : SummaryKept env s := by
  refine exec_invariant _ (fun _ _ _ _ hs hstep => summaryKept_step hs hstep) (fun _ _ => trivial)
    hrun ?_
  refine ⟨[], ?_, fun _ => rfl⟩
  simp only [start, start_point hslots hne, if_true, FileSystem.write, Function.update_self,
    List.append_nil]
  rfl

end SystemState

end StrideRunner
