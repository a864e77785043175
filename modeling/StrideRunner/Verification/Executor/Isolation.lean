import StrideRunner.Verification.Executor.Refinement

/-! # Parallel solver runs do not interfere

The executors of one log directory have different instance ids, so their files are disjoint and
none of them is the summary. Each run returns what it returns alone. -/

namespace StrideRunner

open Library

variable {ι : Type} [DecidableEq ι]

/-- Steps of the executors in any order, and writes from outside. -/
abbrev ParallelRun (ι : Type) :=
  List (InterleavedAction ι PathBuf (Option Bytes) ExecutorAction)

abbrev parallelStep (profile : BuildProfile) (solver : ι → Bytes → SolverRun)
    (executor : ι → SolverExecutor) :=
  interleave fun i => executorStep profile (solver i) (executor i)

/-- No system call of this executor fails for reasons of its own. -/
def Unfailing (i : ι) (actions : ParallelRun ι) : Prop :=
  ∀ error left, .process i (.fail error left) ∉ actions

/-- What holds after any interleaving. `alone` compares with the same steps of one executor
without the others, the other results with `run`; `stepKeeps` is about any step on the way. -/
structure IsolationSpec (profile : BuildProfile) (solver : ι → Bytes → SolverRun)
    (executor : ι → SolverExecutor) (store : FileSystem) (actions : ParallelRun ι)
    (t : SharedState ι PathBuf (Option Bytes) ExecutorState) : Prop where
  disjoint : ∀ i j, i ≠ j → ∀ path ∈ (executor i).files, path ∉ (executor j).files
  alone : ∀ i, ∃ fs, exec (executorStep profile (solver i) (executor i)) (ownLabels i actions)
    (store, .start) = some (fs, t.locals i) ∧ AgreeOn (executor i).files t.store fs
  result : ∀ i value fs, (t.locals i).result = some (.ok value) →
    ((executor i).run profile (solver i) fs).1 = .ok value
  resultUnfailing : ∀ i result fs, Unfailing i actions → (t.locals i).result = some result →
    ((executor i).run profile (solver i) fs).1 = result
  returns : ∀ i, (solver i (executor i).stdin).output.length + 7 ≤ (ownLabels i actions).length →
    (t.locals i).result.isSome
  enabled : ∀ i, (t.locals i).result = none →
    (parallelStep profile solver executor (.process i .proceed) t).isSome
  filesKept : ∀ i value fs, (t.locals i).phase = .returned →
    (t.locals i).result = some (.ok value) →
    AgreeOn (executor i).files t.store ((executor i).run profile (solver i) fs).2
  filesDeleted : ∀ i, (t.locals i).deletion = some (.ok ()) →
    ∀ path ∈ (executor i).files, t.store path = none
  deletionUnfailing : ∀ i deletion, Unfailing i actions →
    (t.locals i).deletion = some deletion → deletion = .ok ()
  deletionStarts : ∀ i value, (t.locals i).phase = .returned →
    (t.locals i).result = some (.ok value) →
    (parallelStep profile solver executor (.process i .deleteFiles) t).isSome
  deletionEnabled : ∀ i, .process i .deleteFiles ∈ actions → (t.locals i).deletion = none →
    (parallelStep profile solver executor (.process i .proceed) t).isSome
  deletionReturns : ∀ before i after, actions = before ++ .process i .deleteFiles :: after →
    3 ≤ (ownLabels i after).length → (t.locals i).deletion.isSome
  stepKeeps : ∀ before i a after mid next, actions = before ++ .process i a :: after →
    exec (parallelStep profile solver executor) before ⟨store, fun _ => .start⟩ = some mid →
    parallelStep profile solver executor (.process i a) mid = some next →
    ∀ path ∉ (executor i).files, next.store path = mid.store path

theorem mem_ownLabels {i : ι} {a : ExecutorAction} {actions : ParallelRun ι} :
    a ∈ ownLabels i actions ↔ .process i a ∈ actions := by
  unfold ownLabels
  rw [List.mem_filterMap]
  constructor
  · rintro ⟨action, hmem, haction⟩
    cases action with
    | process j b =>
        simp only [Option.ite_none_right_eq_some, Option.some.injEq] at haction
        obtain ⟨rfl, rfl⟩ := haction
        exact hmem
    | outside key value => cases haction
  · intro hmem
    exact ⟨_, hmem, by simp⟩

variable {profile : BuildProfile} {solver : ι → Bytes → SolverRun}
  {executor : ι → SolverExecutor} {dir : PathBuf} {store : FileSystem} {actions : ParallelRun ι}
  {t : SharedState ι PathBuf (Option Bytes) ExecutorState}

theorem interleaved_solo (hdir : ∀ i, (executor i).workingDir = dir)
    (hids : ∀ i j, i ≠ j → (executor i).instanceId ≠ (executor j).instanceId)
    (houtside : ∀ path content, .outside path content ∈ actions → path = summaryFile dir)
    (hrun : exec (parallelStep profile solver executor) actions ⟨store, fun _ => .start⟩ =
      some t) (i : ι) :
    ∃ fs, exec (executorStep profile (solver i) (executor i)) (ownLabels i actions)
      (store, .start) = some (fs, t.locals i) ∧ AgreeOn (executor i).files t.store fs := by
  have hdisjoint : ∀ i j, i ≠ j → ∀ path ∈ (executor i).files, path ∉ (executor j).files :=
    fun i j h => SolverExecutor.disjoint_files ((hdir i).trans (hdir j).symm) (hids i j h)
  refine exec_alone_of_interleaved (fun i => SolverExecutor.executorStep_confined) hdisjoint i ?_
    hrun (fun _ _ => rfl)
  intro path content hmem hown
  rw [houtside path content hmem, ← hdir i] at hown
  exact SolverExecutor.summaryFile_notMem_files hown

/-- What the executor has done since it has been told to delete its files. -/
theorem exists_deleting {before after : ParallelRun ι} {i : ι} {fs : FileSystem}
    {state : ExecutorState}
    (halone : exec (executorStep profile (solver i) (executor i))
      (ownLabels i (before ++ .process i .deleteFiles :: after)) (store, .start) =
        some (fs, state)) :
    ∃ mid deleting, SolverExecutor.Deleting deleting ∧
      exec (executorStep profile (solver i) (executor i)) (ownLabels i after) (mid, deleting) =
        some (fs, state) := by
  have hlabels : ownLabels i (before ++ .process i .deleteFiles :: after) =
      ownLabels i before ++ .deleteFiles :: ownLabels i after := by
    simp [ownLabels]
  rw [hlabels] at halone
  obtain ⟨first, _, hrest⟩ := exec_append_eq_some.mp halone
  obtain ⟨⟨mid, deleting⟩, hdelete, hafter⟩ := exec_cons_eq_some.mp hrest
  exact ⟨mid, deleting, SolverExecutor.deleting_of_deleteStep hdelete, hafter⟩

/-- Isolation of the executors of one directory. -/
theorem parallel_runs_isolated (hdir : ∀ i, (executor i).workingDir = dir)
    (hids : ∀ i j, i ≠ j → (executor i).instanceId ≠ (executor j).instanceId)
    (houtside : ∀ path content, .outside path content ∈ actions → path = summaryFile dir)
    (hrun : exec (parallelStep profile solver executor) actions ⟨store, fun _ => .start⟩ =
      some t) :
    IsolationSpec profile solver executor store actions t := by
  have halone := interleaved_solo hdir hids houtside hrun
  have hsolo : ∀ i (base : FileSystem), ∃ fs, AgreeOn (executor i).files t.store fs ∧
      SolverExecutor.SoloInvariant profile (solver i) (executor i) (Unfailing i actions) base fs
        (t.locals i) := by
    intro i base
    obtain ⟨fs, hfs, hagree⟩ := halone i
    refine ⟨fs, hagree, SolverExecutor.soloInvariant_of_run ?_ hfs⟩
    intro hunfailing error left hmem
    exact hunfailing error left (mem_ownLabels.mp hmem)
  refine ⟨?_, halone, ?_, ?_, ?_, ?_, ?_, ?_, ?_, ?_, ?_, ?_, ?_⟩
  · intro i j hne
    exact SolverExecutor.disjoint_files ((hdir i).trans (hdir j).symm) (hids i j hne)
  · intro i value base hresult
    obtain ⟨fs, _, hinv⟩ := hsolo i base
    exact hinv.result _ hresult (Or.inl ⟨value, rfl⟩)
  · intro i result base hunfailing hresult
    obtain ⟨fs, _, hinv⟩ := hsolo i base
    exact hinv.result _ hresult (Or.inr hunfailing)
  · intro i hlength
    obtain ⟨fs, hfs, _⟩ := halone i
    exact SolverExecutor.result_isSome_of_run hfs hlength
  · intro i hnone
    obtain ⟨fs, _, hinv⟩ := hsolo i store
    have hstep := @SolverExecutor.proceedStep_isSome profile (solver i) (executor i) t.store _
      ((hinv.unreturned 0).mp hnone)
    rw [← Option.isSome_map] at hstep
    exact hstep
  · intro i value base hphase hresult
    obtain ⟨fs, hagree, hinv⟩ := hsolo i base
    have hfiles := hinv.phase
    simp only [SolverExecutor.PhaseInvariant, hphase] at hfiles
    exact hagree.trans (hfiles (Or.inl ⟨value, hresult⟩))
  · intro i hdeletion path hpath
    obtain ⟨fs, hagree, hinv⟩ := hsolo i store
    rw [hagree path hpath]
    exact (hinv.deletion_spec hdeletion).1 rfl path hpath
  · intro i deletion hunfailing hdeletion
    obtain ⟨fs, _, hinv⟩ := hsolo i store
    exact (hinv.deletion_spec hdeletion).2 hunfailing
  · intro i value hphase hresult
    have hstep := @SolverExecutor.deleteStep_isSome (executor i) t.store _ value hphase hresult
    rw [← Option.isSome_map] at hstep
    exact hstep
  · intro i hmem hpending
    obtain ⟨before, after, rfl⟩ := List.append_of_mem hmem
    obtain ⟨fs, hfs, _⟩ := halone i
    obtain ⟨mid, deleting, hdeleting, hafter⟩ := exists_deleting hfs
    have hstep := @SolverExecutor.proceedStep_isSome_of_deleting profile (solver i) (executor i)
      t.store _ (SolverExecutor.deleting_of_run hdeleting hafter) hpending
    rw [← Option.isSome_map] at hstep
    exact hstep
  · rintro before i after rfl hlength
    obtain ⟨fs, hfs, _⟩ := halone i
    obtain ⟨mid, deleting, hdeleting, hafter⟩ := exists_deleting hfs
    exact SolverExecutor.deletion_isSome_of_run hdeleting hafter hlength
  · rintro before i a after mid next rfl hbefore hstep path hpath
    obtain ⟨⟨σ', l'⟩, hnext, rfl⟩ := Option.map_eq_some_iff.mp hstep
    exact SolverExecutor.executorStep_frame hnext path hpath

/-- Two executors, of which one deletes its files while the other one is at work. -/
def pairExecutor (i : Bool) : SolverExecutor :=
  ⟨["logs"], if i then ⟨1⟩ else ⟨11⟩, "p ds 1 0\n".toList⟩

def pairSolver (_ : Bool) (_ : Bytes) : SolverRun :=
  ⟨[(.stdout, [49, 10]), (.stderr, [46]), (.stdout, [49, 10])], .beforeTimeout ⟨some 0⟩⟩

def pairActions : ParallelRun Bool :=
  [.process true .proceed, .process false .proceed, .process true .proceed,
    .process true .proceed, .process false .proceed, .outside ["logs", "summary.csv"] (some []),
    .process true .proceed, .process true .proceed, .process false .proceed,
    .process true .proceed, .process true .proceed, .process true .proceed,
    .process true .proceed, .process true .proceed, .process true .deleteFiles,
    .process false .proceed, .process true .proceed, .process true .proceed,
    .process true .proceed, .process false .proceed]

theorem parallel_runs_isolated_pair :
    ∃ t, exec (parallelStep .debug pairSolver pairExecutor) pairActions
        ⟨fun _ => none, fun _ => .start⟩ = some t ∧
      IsolationSpec .debug pairSolver pairExecutor (fun _ => none) pairActions t := by
  have hrun : (exec (parallelStep .debug pairSolver pairExecutor) pairActions
      ⟨fun _ => none, fun _ => .start⟩).isSome := by decide +kernel
  obtain ⟨t, ht⟩ := Option.isSome_iff_exists.mp hrun
  refine ⟨t, ht, parallel_runs_isolated (fun _ => rfl) ?_ ?_ ht⟩
  · decide
  · intro path content hmem
    simp only [pairActions, List.mem_cons, reduceCtorEq, InterleavedAction.outside.injEq,
      List.not_mem_nil, false_or, or_false] at hmem
    exact hmem.1

end StrideRunner
