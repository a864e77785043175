import StrideRunner.Library.Simulation
import StrideRunner.Verification.Scheduler.Correctness
import StrideRunner.Verification.System.Job

/-! # The two views of a run

Without the files a run is one of the scheduling loop; without the main task it is one of jobs
that share a file system. -/

namespace StrideRunner

open Library

namespace SystemState

variable {env : RunEnvironment} {instances : List IId} {fs : FileSystem} {s t : SystemState}
  {actions : List SystemAction}

/-! ## Steps -/

/-- The two kinds of steps, in terms of the parts of the state. -/
inductive Steps (env : RunEnvironment) (s t : SystemState) : SystemAction → Prop where
  | main (failure : Option ℕ)
      (hadvance : s.run.advance env.opts failure.isNone = some t.run)
      (hstore : t.shared.store = logLine env failure s.shared.store (attempted s.run))
      (hlocals : t.shared.locals = s.shared.locals) : Steps env s t (.main failure)
  | job (handle : ℕ) (a : JobAction) (iid : IId) (task : JobTask)
      (htask : s.run.tasks[handle]? = some ⟨iid, .running⟩)
      (hjob : jobStep env iid a (s.shared.store, s.shared.locals handle) =
        some (t.shared.store, task))
      (hlocals : t.shared.locals = Function.update s.shared.locals handle task)
      (hends : jobEnds s.run handle task = some t.run) : Steps env s t (.job handle a)

theorem steps_of_step {a : SystemAction} (h : step env a s = some t) : Steps env s t a := by
  cases a with
  | main failure =>
      obtain ⟨run, hadvance, rfl⟩ := Option.map_eq_some_iff.mp h
      exact .main failure hadvance rfl rfl
  | job handle a =>
      simp only [step] at h
      split at h
      · rename_i iid htask
        obtain ⟨⟨store, task⟩, hjob, h⟩ := Option.bind_eq_some_iff.mp h
        obtain ⟨run, hends, rfl⟩ := Option.map_eq_some_iff.mp h
        exact .job handle a iid task htask hjob rfl hends
      · cases h

theorem jobEnds_cases {run run' : RunState} {handle : ℕ} {task : JobTask}
    (h : jobEnds run handle task = some run') :
    (∃ outcome, task.phase = .ended outcome ∧ run.finishTask handle outcome = some run') ∨
      (∀ outcome, task.phase ≠ .ended outcome) ∧ run' = run := by
  unfold jobEnds at h
  split at h
  · rename_i outcome hphase
    exact Or.inl ⟨outcome, hphase, h⟩
  · rename_i hphase
    cases h
    exact Or.inr ⟨hphase, rfl⟩

/-! ## The scheduling loop -/

/-- How an action looks to the scheduling loop. -/
def ShowsRun : SystemAction → RunAction → Prop
  | .main failure, action => action = .main failure.isNone
  | .job handle _, action => ∃ outcome, action = .task handle outcome

theorem projects_run : Projects (step env) (runStep env.opts) (fun _ => True) run ShowsRun := by
  intro a s t _ h
  cases steps_of_step h with
  | main failure hadvance hstore hlocals => exact Or.inr ⟨_, rfl, hadvance⟩
  | job handle a iid task htask hjob hlocals hends =>
      obtain ⟨outcome, _, hfinish⟩ | ⟨_, hsame⟩ := jobEnds_cases hends
      · exact Or.inr ⟨.task handle outcome, ⟨outcome, rfl⟩, hfinish⟩
      · exact Or.inl hsame

/-- No write of the summary fails. -/
def Written (actions : List SystemAction) : Prop :=
  ∀ bytes, .main (some bytes) ∉ actions

theorem exists_run (hrun : exec (step env) actions (start env instances fs) = some s) :
    ∃ labels, exec (runStep env.opts) labels (RunState.start env.opts instances) = some s.run ∧
      (Written actions → .main false ∉ labels) := by
  obtain ⟨labels, hlabels, hshown⟩ :=
    (@projects_run env).exec (fun _ _ _ _ _ => trivial) trivial hrun
  refine ⟨labels, hlabels, ?_⟩
  intro hwritten hmem
  obtain ⟨a, ha, hshows⟩ := hshown _ hmem
  cases a with
  | main failure =>
      cases failure with
      | none => cases hshows
      | some bytes => exact hwritten bytes ha
  | job handle a =>
      obtain ⟨outcome, houtcome⟩ := hshows
      cases houtcome

theorem runInvariant (hslots : 1 ≤ env.opts.parallelJobs)
    (hrun : exec (step env) actions (start env instances fs) = some s) :
    RunState.Invariant env.opts instances (Written actions) s.run := by
  obtain ⟨labels, hlabels, hwritten⟩ := exists_run hrun
  exact RunState.invariant_of_run hslots (fun hmem hw => hwritten hw hmem) hlabels

theorem runInvariant_step {a : SystemAction}
    (hinv : RunState.Invariant env.opts instances False s.run) (h : step env a s = some t) :
    RunState.Invariant env.opts instances False t.run := by
  cases steps_of_step h with
  | main failure hadvance hstore hlocals =>
      exact RunState.invariant_advance (fun _ => not_false) hinv hadvance
  | job handle a iid task htask hjob hlocals hends =>
      obtain ⟨outcome, _, hfinish⟩ | ⟨_, hsame⟩ := jobEnds_cases hends
      · exact RunState.invariant_finishTask hinv hfinish
      · exact hsame ▸ hinv

/-- The task at a position is that of the instance at this position. -/
theorem getElem?_instances {writable : Prop}
    (h : RunState.Invariant env.opts instances writable s.run) {handle : ℕ} {task : Task}
    (htask : s.run.tasks[handle]? = some task) : instances[handle]? = some task.iid := by
  obtain ⟨_, _, hledger, _⟩ := h
  rw [← hledger.started, List.getElem?_append_left, List.getElem?_map, htask]
  · rfl
  · rw [List.length_map]
    exact (List.getElem?_eq_some_iff.mp htask).1

/-! ## The jobs -/

/-- The job at a position of the list. -/
def jobProcess (env : RunEnvironment) (instances : List IId) (handle : ℕ) :
    Process PathBuf (Option Bytes) JobTask JobAction :=
  fun a s => instances[handle]?.bind fun iid => jobStep env iid a s

def jobFiles (env : RunEnvironment) (instances : List IId) (handle : ℕ) : Set PathBuf :=
  {path | ∃ iid, instances[handle]? = some iid ∧ path ∈ env.files iid}

theorem jobProcess_of_some {handle : ℕ} {iid : IId} (h : instances[handle]? = some iid) :
    jobProcess env instances handle = jobStep env iid := by
  funext a s
  simp [jobProcess, h]

theorem jobFiles_of_some {handle : ℕ} {iid : IId} (h : instances[handle]? = some iid) :
    jobFiles env instances handle = env.files iid := by
  ext path
  simp [jobFiles, h]

theorem jobProcess_confined (handle : ℕ) :
    Confined (jobFiles env instances handle) (jobProcess env instances handle) := by
  cases hiid : instances[handle]? with
  | some iid =>
      rw [jobProcess_of_some hiid, jobFiles_of_some hiid]
      exact JobTask.jobStep_confined
  | none =>
      constructor
      · intro a σ l σ' l' h
        simp [jobProcess, hiid] at h
      · intro a σ l σ' l' h
        simp [jobProcess, hiid] at h

theorem jobFiles_disjoint (hnodup : instances.Nodup) (i j : ℕ) (hne : i ≠ j) :
    ∀ path ∈ jobFiles env instances i, path ∉ jobFiles env instances j := by
  rintro path ⟨iid, hi, hpath⟩ ⟨iid', hj, hpath'⟩
  have hids : iid ≠ iid' := by
    rintro rfl
    exact hne ((List.getElem?_inj (List.getElem?_eq_some_iff.mp hi).1 hnodup).mp
      (hi.trans hj.symm))
  exact RunEnvironment.disjoint_files hids path hpath hpath'

/-- How an action looks to the jobs. -/
def ShowsShared (env : RunEnvironment) :
    SystemAction → InterleavedAction ℕ PathBuf (Option Bytes) JobAction → Prop
  | .main _, action => ∃ content, action = .outside (summaryFile env.logDir) content
  | .job handle a, action => action = .process handle a

theorem logLine_eq_update (env : RunEnvironment) (failure : Option ℕ) (fs : FileSystem)
    (line : SummaryLine) : ∃ content,
      logLine env failure fs (some line) =
        Function.update fs (summaryFile env.logDir) content :=
  ⟨_, rfl⟩

theorem projects_shared : Projects (step env) (interleave (jobProcess env instances))
    (fun s => RunState.Invariant env.opts instances False s.run) shared (ShowsShared env) := by
  intro a s t hinv h
  obtain ⟨run, store, locals⟩ := s
  obtain ⟨run', store', locals'⟩ := t
  cases steps_of_step h with
  | main failure hadvance hstore hlocals =>
      cases hlocals
      dsimp only at hstore ⊢
      cases hline : attempted run with
      | none =>
          rw [hline] at hstore
          cases hstore
          exact Or.inl rfl
      | some line =>
          obtain ⟨content, hcontent⟩ := logLine_eq_update env failure store line
          rw [hline, hcontent] at hstore
          cases hstore
          exact Or.inr ⟨_, ⟨content, rfl⟩, rfl⟩
  | job handle a iid task htask hjob hlocals hends =>
      have hiid := getElem?_instances hinv htask
      refine Or.inr ⟨_, rfl, ?_⟩
      rw [← jobProcess_of_some hiid] at hjob
      dsimp only at hjob hlocals ⊢
      rw [hlocals]
      exact Option.map_eq_some_iff.mpr ⟨_, hjob, rfl⟩

/-- The jobs of a run, and writes of the summary. -/
theorem exists_shared (hslots : 1 ≤ env.opts.parallelJobs)
    (hrun : exec (step env) actions (start env instances fs) = some s) :
    ∃ labels, exec (interleave (jobProcess env instances)) labels
        (start env instances fs).shared = some s.shared ∧
      (∀ path content, .outside path content ∈ labels → path = summaryFile env.logDir) ∧
      ∀ handle a, .process handle a ∈ labels → .job handle a ∈ actions := by
  have hstart : RunState.Invariant env.opts instances False (start env instances fs).run :=
    RunState.invariant_start False hslots
  obtain ⟨labels, hlabels, hshown⟩ := (@projects_shared env instances).exec
    (fun _ _ _ hinv h => runInvariant_step hinv h) hstart hrun
  refine ⟨labels, hlabels, ?_, ?_⟩
  · intro path content hmem
    obtain ⟨a, _, hshows⟩ := hshown _ hmem
    cases a with
    | main failure =>
        obtain ⟨content', hcontent⟩ := hshows
        cases hcontent
        rfl
    | job handle a => cases hshows
  · intro handle a hmem
    obtain ⟨action, haction, hshows⟩ := hshown _ hmem
    cases action with
    | main failure =>
        obtain ⟨content, hcontent⟩ := hshows
        cases hcontent
    | job handle' a' =>
        cases hshows
        exact haction

/-- Each job has made a run of its own on files that are the same. -/
theorem exists_alone (hslots : 1 ≤ env.opts.parallelJobs) (hnodup : instances.Nodup)
    (hrun : exec (step env) actions (start env instances fs) = some s) {handle : ℕ} {iid : IId}
    (hiid : instances[handle]? = some iid) :
    ∃ labels before alone, AgreeOn (env.files iid) s.shared.store alone ∧
      exec (jobStep env iid) labels (before, .start) = some (alone, s.shared.locals handle) ∧
      ∀ a ∈ labels, .job handle a ∈ actions := by
  obtain ⟨labels, hlabels, houtside, hown⟩ := exists_shared hslots hrun
  obtain ⟨alone, halone, hagree⟩ := exec_alone_of_interleaved jobProcess_confined
    (jobFiles_disjoint hnodup) handle (fun path content hmem => by
      rw [houtside path content hmem]
      rintro ⟨iid', _, hpath⟩
      exact RunEnvironment.summaryFile_notMem_files hpath) hlabels (fun _ _ => rfl)
  rw [jobProcess_of_some hiid] at halone
  rw [jobFiles_of_some hiid] at hagree
  exact ⟨_, _, alone, hagree, halone, fun a ha => hown handle a (mem_of_mem_ownLabels ha)⟩

/-- Each job is where it would be alone, with the same files. -/
theorem exists_job (hslots : 1 ≤ env.opts.parallelJobs) (hnodup : instances.Nodup)
    (hrun : exec (step env) actions (start env instances fs) = some s) {handle : ℕ} {iid : IId}
    (hiid : instances[handle]? = some iid) :
    ∃ alone, AgreeOn (env.files iid) s.shared.store alone ∧
      JobInvariant env iid alone (s.shared.locals handle) := by
  obtain ⟨labels, before, alone, hagree, halone, _⟩ := exists_alone hslots hnodup hrun hiid
  exact ⟨alone, hagree, JobTask.jobInvariant_of_run halone⟩

end SystemState

end StrideRunner
