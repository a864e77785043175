import StrideRunner.Verification.System.Invariant

/-! # The order of the summary

Jobs are started in the order of the list, so a line can be ahead of its place by fewer places
than there are slots. With one slot the summary is in the order of the list. -/

namespace StrideRunner

open Library

namespace RunState

variable {opts : RunOpts} {instances : List IId} {s t : RunState} {polled : List ℕ}

/-- The line that is about to be written is that of a job whose task has ended. -/
theorem exists_of_attempted {line : SummaryLine} (h : SystemState.attempted s = some line) :
    ∃ index iid handle iid' result, s.point = .polling index ∧
      s.runningJobs[index]? = some ⟨iid, some handle⟩ ∧
      s.tasks[handle]? = some ⟨iid', .finished (.ok result)⟩ ∧ line = logJobResult iid result := by
  unfold SystemState.attempted at h
  split at h
  · rename_i index hpoint
    split at h
    · rename_i iid handle hjob
      split at h
      · rename_i iid' result htask
        exact ⟨index, iid, handle, iid', result, hpoint, hjob, htask, (Option.some.inj h).symm⟩
      · cases h
    · cases h
  · cases h

theorem getElem?_held {index handle : ℕ} {iid : IId}
    (hjob : s.runningJobs[index]? = some ⟨iid, some handle⟩) : handle ∈ s.held :=
  List.mem_filterMap.mpr ⟨_, List.mem_of_getElem? hjob, rfl⟩

theorem Ledger.length_tasks (h : Ledger opts instances s polled []) :
    s.tasks.length = s.summary.length + s.held.length := by
  have hpartition := h.partition.length_eq
  have hpolled := h.lines.length_eq
  simp only [List.length_append, List.length_nil, List.length_range] at hpartition
  omega

theorem Ledger.length_held_le (h : Ledger opts instances s polled []) :
    s.held.length ≤ opts.parallelJobs :=
  (List.length_filterMap_le _ _).trans h.slots

theorem Ledger.take_instances (h : Ledger opts instances s polled []) :
    instances.take s.tasks.length = s.tasks.map Task.iid := by
  rw [← h.started, List.take_append_of_le_length (by rw [List.length_map]), List.take_of_length_le]
  rw [List.length_map]

/-- A task that is held was started within the window of the slots. -/
theorem Ledger.exists_index (h : Ledger opts instances s polled []) {index handle : ℕ} {iid : IId}
    (hjob : s.runningJobs[index]? = some ⟨iid, some handle⟩) :
    handle < s.summary.length + opts.parallelJobs ∧ instances[handle]? = some iid := by
  have hnamed := h.named _ (List.mem_of_getElem? hjob) handle rfl
  obtain ⟨task, htask, hiid⟩ := Option.map_eq_some_iff.mp hnamed
  have hlt : handle < s.tasks.length := (List.getElem?_eq_some_iff.mp htask).1
  have hlength := h.length_tasks
  have hheld := h.length_held_le
  refine ⟨by omega, ?_⟩
  rw [← h.started, List.getElem?_append_left (by rwa [List.length_map]), List.getElem?_map, htask]
  exact congrArg some hiid

/-- With one slot the only job that is running is the next one of the list. -/
theorem Ledger.next_of_one_slot (h : Ledger opts instances s polled [])
    (hone : opts.parallelJobs = 1) {index handle : ℕ} {iid : IId}
    (hjob : s.runningJobs[index]? = some ⟨iid, some handle⟩)
    (horder : s.summary.map SummaryLine.iid = instances.take s.summary.length) :
    instances.take (s.summary.length + 1) = s.summary.map SummaryLine.iid ++ [iid] := by
  have hmem := getElem?_held hjob
  have hle := h.length_held_le
  have hheld : s.held = [handle] := by
    rw [hone] at hle
    obtain ⟨other, hother⟩ := List.length_eq_one_iff.mp
      (le_antisymm hle (List.length_pos_of_mem hmem))
    rw [hother, List.mem_singleton] at hmem
    rw [hother, hmem]
  have hlength : s.tasks.length = s.summary.length + 1 := by
    rw [h.length_tasks, hheld, List.length_singleton]
  obtain ⟨_, hiid⟩ := h.exists_index hjob
  have hperm := h.perm_filterMap fun task => some task.iid
  rw [h.iids_polled, h.iids_held, List.filterMap_nil, List.append_nil, List.filterMap_eq_map',
    ← h.take_instances, hlength] at hperm
  have hlt : s.summary.length < instances.length := by
    have hstarted := congrArg List.length h.started
    rw [List.length_append, List.length_map] at hstarted
    omega
  have hrunning : (s.runningJobs.filter fun job => !job.isFinished).map JobContext.iid = [iid] := by
    rw [← h.iids_held, hheld]
    have hnamed := h.named _ (List.mem_of_getElem? hjob) handle rfl
    obtain ⟨task, htask, rfl⟩ := Option.map_eq_some_iff.mp hnamed
    simp [htask]
  rw [hrunning, horder, ← List.take_append_getElem hlt] at hperm
  have hlast := (List.perm_append_left_iff _).mp hperm
  rw [horder, ← List.take_append_getElem hlt, List.singleton_perm_singleton.mp hlast]

/-! ## Runs -/

/-- The place of a line, and the order of all of them when there is one slot. -/
structure OrderSpec (opts : RunOpts) (instances : List IId) (s : RunState) : Prop where
  window : ∀ (p : ℕ) line, s.summary[p]? = some line →
    ∃ index, index < p + opts.parallelJobs ∧ instances[index]? = some line.iid
  oneSlot : opts.parallelJobs = 1 →
    s.summary.map SummaryLine.iid = instances.take s.summary.length

theorem OrderSpec.of_summary (h : OrderSpec opts instances s) (hsame : t.summary = s.summary) :
    OrderSpec opts instances t := by
  refine ⟨?_, ?_⟩
  · rw [hsame]
    exact h.window
  · rw [hsame]
    exact h.oneSlot

/-- Logging a line keeps the order. -/
theorem OrderSpec.log (h : OrderSpec opts instances s) (hledger : Ledger opts instances s polled [])
    {index handle : ℕ} {iid : IId} {result : JobResult}
    (hjob : s.runningJobs[index]? = some ⟨iid, some handle⟩)
    (hsummary : t.summary = s.summary ++ [logJobResult iid result]) :
    OrderSpec opts instances t := by
  refine ⟨?_, ?_⟩
  · intro p line hline
    rw [hsummary] at hline
    rcases lt_trichotomy p s.summary.length with hlt | rfl | hgt
    · rw [List.getElem?_append_left hlt] at hline
      exact h.window p line hline
    · rw [List.getElem?_concat_length] at hline
      cases hline
      exact ⟨handle, hledger.exists_index hjob⟩
    · rw [List.getElem?_eq_none (by simp; omega)] at hline
      cases hline
  · intro hone
    rw [hsummary, List.length_append, List.length_singleton, List.map_append,
      hledger.next_of_one_slot hone hjob (h.oneSlot hone)]
    rfl

theorem orderSpec_step {a : RunAction} (hinv : Invariant opts instances False s)
    (h : OrderSpec opts instances s) (hstep : runStep opts a s = some t) :
    OrderSpec opts instances t := by
  cases a with
  | task handle outcome =>
      obtain ⟨iid, _, rfl⟩ := finishTask_eq_some hstep
      exact h.of_summary rfl
  | main written =>
      have hsummary := summary_advance hstep
      cases hline : SystemState.attempted s with
      | none =>
          simp only [hline] at hsummary
          exact h.of_summary hsummary
      | some line =>
          simp only [hline] at hsummary
          obtain ⟨_, hsummary⟩ | ⟨_, hsummary, _⟩ := hsummary
          · obtain ⟨index, iid, handle, iid', result, hpoint, hjob, _, rfl⟩ :=
              exists_of_attempted hline
            obtain ⟨polled, lost, hledger, hat⟩ := hinv
            simp only [AtPoint, hpoint] at hat
            obtain ⟨rfl, _⟩ := hat
            exact h.log hledger hjob hsummary
          · exact h.of_summary hsummary

theorem orderSpec_of_run (hslots : 1 ≤ opts.parallelJobs) {actions : List RunAction}
    (hrun : exec (runStep opts) actions (start opts instances) = some s) :
    Invariant opts instances False s ∧ OrderSpec opts instances s := by
  have hstep : ∀ (a : RunAction) (s t : RunState), True →
      Invariant opts instances False s ∧ OrderSpec opts instances s → runStep opts a s = some t →
      Invariant opts instances False t ∧ OrderSpec opts instances t := by
    rintro a s t _ ⟨hinv, horder⟩ hstep
    refine ⟨?_, orderSpec_step hinv horder hstep⟩
    cases a with
    | main written => exact invariant_advance (fun _ => not_false) hinv hstep
    | task handle outcome => exact invariant_finishTask hinv hstep
  have hstart : OrderSpec opts instances (start opts instances) :=
    ⟨by simp [start], by simp [start]⟩
  exact exec_invariant _ hstep (fun _ _ => trivial) hrun ⟨invariant_start False hslots, hstart⟩

/-- In every reachable state each line is less than the number of slots ahead of its place. -/
theorem commandRun_ordered (hslots : 1 ≤ opts.parallelJobs) {actions : List RunAction}
    (hrun : exec (runStep opts) actions (start opts instances) = some s) :
    OrderSpec opts instances s :=
  (orderSpec_of_run hslots hrun).2

/-- The second job of two is logged first. -/
theorem commandRun_ordered_demo :
    ∃ s, exec (runStep demoOpts) demoActions (start demoOpts demoList) = some s ∧
      OrderSpec demoOpts demoList s := by
  have hrun : exec (runStep demoOpts) demoActions (start demoOpts demoList) = some _ := rfl
  exact ⟨_, hrun, commandRun_ordered (by decide) hrun⟩

end RunState

end StrideRunner
