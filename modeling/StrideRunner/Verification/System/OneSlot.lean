import StrideRunner.Verification.System.Correctness
import StrideRunner.Verification.System.Order

/-! # A run with one slot

With one slot the run is a plain loop over the list. The list may then name an instance more than
once: a job begins when all jobs before it have ended, and it writes its files anew. -/

namespace StrideRunner

open Library

/-! ## One task at a time -/

namespace RunState

variable {opts : RunOpts} {instances : List IId} {s t : RunState} {polled : List ℕ}

/-- Only the task that has been started last may be running. -/
def OneRunning (s : RunState) : Prop :=
  ∀ (handle : ℕ) iid, s.tasks[handle]? = some ⟨iid, .running⟩ → handle + 1 = s.tasks.length

end RunState

/-! ## The jobs one after the other -/

/-- The last place at which the list names the instance. -/
def IsLast (iids : List IId) (place : ℕ) (iid : IId) : Prop :=
  ∀ later, place < later → iids[later]? ≠ some iid

theorem IsLast.of_append {iids more : List IId} {place : ℕ} {iid : IId}
    (h : IsLast (iids ++ more) place iid) : IsLast iids place iid := by
  intro later hlater hiid
  refine h later hlater ?_
  rw [List.getElem?_append_left (List.getElem?_eq_some_iff.mp hiid).1]
  exact hiid

theorem exists_isLast {iids : List IId} {place : ℕ} {iid : IId} (h : iids[place]? = some iid) :
    ∃ last, iids[last]? = some iid ∧ IsLast iids last iid := by
  have hplace : place ≤ iids.length := (List.getElem?_eq_some_iff.mp h).1.le
  refine ⟨Nat.findGreatest (fun i => iids[i]? = some iid) iids.length, ?_, ?_⟩
  · exact Nat.findGreatest_spec (P := fun i => iids[i]? = some iid) hplace h
  · intro later hlater hiid
    have hle : later ≤ iids.length := (List.getElem?_eq_some_iff.mp hiid).1.le
    exact Nat.findGreatest_is_greatest hlater hle hiid

variable {env : RunEnvironment} {instances : List IId} {fs : FileSystem} {s t : SystemState}
  {actions : List SystemAction}

/-- Two jobs for the same instance leave the same files. -/
theorem JobLeaves.with_files {iid : IId} {store alone : FileSystem}
    {sent sent' : Option SolverResult} {jobResult jobResult' : JobResult}
    {info info' : InstanceModel} {data data' : List Char} {result result' : SolverResult}
    (h : JobLeaves env iid alone sent jobResult info data result)
    (h' : JobLeaves env iid store sent' jobResult' info' data' result') :
    JobLeaves env iid store sent jobResult info data result := by
  obtain ⟨rfl, rfl⟩ := h.judged.toFetched.unique h'.judged.toFetched
  obtain rfl : result' = result := Outcome.ok.inj (h'.judged.verdict.symm.trans h.judged.verdict)
  have hstate : jobResult'.state = jobResult.state := Outcome.ok.inj (h'.state.symm.trans h.state)
  exact ⟨h.judged, h.state, h.runtime, h.sent, hstate ▸ h'.deleted, hstate ▸ h'.kept⟩

namespace SystemState

/-- The job that is running is where it would be alone. A job that has ended has left what it leaves
alone, and its files are there unless a later job has had the same ones. -/
structure OneSlotInvariant (env : RunEnvironment) (s : SystemState) : Prop where
  oneRunning : s.run.OneRunning
  running : ∀ (handle : ℕ) iid, s.run.tasks[handle]? = some ⟨iid, .running⟩ →
    ∃ alone, AgreeOn (env.files iid) s.shared.store alone ∧
      JobInvariant env iid alone (s.shared.locals handle)
  ended : ∀ (handle : ℕ) iid jobResult,
    s.run.tasks[handle]? = some ⟨iid, .finished (.ok jobResult)⟩ → ∃ alone info data result,
      JobLeaves env iid alone (s.shared.locals handle).sent jobResult info data result ∧
        (IsLast (s.run.tasks.map Task.iid) handle iid →
          AgreeOn (env.files iid) s.shared.store alone)

/-- When all tasks have ended with `Ok`, each instance has its files. -/
theorem OneSlotInvariant.exists_jobLeaves (h : OneSlotInvariant env s)
    (hended : ∀ task ∈ s.run.tasks, ∃ jobResult, task.state = .finished (.ok jobResult))
    {handle : ℕ} {iid : IId} {jobResult : JobResult}
    (htask : s.run.tasks[handle]? = some ⟨iid, .finished (.ok jobResult)⟩) :
    ∃ info data result, JobLeaves env iid s.shared.store (s.shared.locals handle).sent jobResult
      info data result := by
  obtain ⟨alone, info, data, result, hleaves, _⟩ := h.ended handle iid jobResult htask
  have hplace : (s.run.tasks.map Task.iid)[handle]? = some iid := by
    rw [List.getElem?_map, htask]
    rfl
  obtain ⟨last, hlast, hislast⟩ := exists_isLast hplace
  rw [List.getElem?_map] at hlast
  obtain ⟨⟨iid', state⟩, htask', rfl⟩ := Option.map_eq_some_iff.mp hlast
  obtain ⟨jobResult', rfl⟩ := hended _ (List.mem_of_getElem? htask')
  obtain ⟨alone', _, _, _, hleaves', hfiles⟩ := h.ended last iid' jobResult' htask'
  exact ⟨info, data, result, hleaves.with_files (hleaves'.congr (hfiles hislast))⟩

end SystemState

end StrideRunner
