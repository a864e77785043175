import StrideRunner.Model.Commands.Run.Cached
import StrideRunner.Verification.Cache.Agreement
import StrideRunner.Verification.System.Correctness

/-! # A run with its cache is a run without

A row is never replaced, so the text that a job has got is still in the database when the run ends.
Hence the jobs cannot tell the cache, and the server behind it, from a table that is there from the
start. -/

namespace StrideRunner

open Library InstanceDataDB

/-- The texts are those of the table. -/
def RunEnvironment.withTable (env : RunEnvironment) (table : InstanceData) : RunEnvironment :=
  { env with
    fetchData := fun _ did => do
      let stored ← InstanceDataDB.fetchDataFromDb none table did
      match stored with
      | some text => return text
      | none => .err (.message "no row") }

variable {env : RunEnvironment} {table final : InstanceData}

theorem fetchData_withTable {iid : IId} {did : DId} {text : List Char}
    (h : final.lookup did = some (encodeUtf8 text)) :
    (env.withTable final).fetchData iid did = .ok text := by
  simp [RunEnvironment.withTable, InstanceDataDB.fetchDataFromDb, h]

namespace CachedState

variable {s t : CachedState}

/-! ## Steps of the system -/

/-- A job that does not wait for its text does not look for it. -/
theorem jobStep_withTable {iid : IId} {fs : FileSystem} {task : JobTask}
    (h : ∀ info, task.phase ≠ .fetchingData info) (a : JobAction) :
    jobStep (env.withTable final) iid a (fs, task) = jobStep env iid a (fs, task) := by
  obtain ⟨phase, sent⟩ := task
  cases a with
  | proceed =>
      cases phase with
      | fetchingData info => exact (h info rfl).elim
      | fetchingInstance => rfl
      | running info data executor => rfl
      | postProcessing info data executor result => rfl
      | deleting data executor state => rfl
      | ended outcome => rfl
  | fail error left => rfl
  | unwind message => rfl

theorem step_withTable {s : SystemState} {action : SystemAction} (h : fetches s action = false) :
    SystemState.step (env.withTable final) action s = SystemState.step env action s := by
  cases action with
  | main failure => rfl
  | job handle a =>
      have hphase : ∀ info, (s.shared.locals handle).phase ≠ .fetchingData info := by
        intro info hinfo
        simp [fetches, hinfo] at h
      simp only [SystemState.step, jobStep_withTable hphase]

/-! ## Steps of a fetch -/

theorem call_of {ι : Type} (call : ι) (action : FetchAction) :
    (action.of call).call = some call := by
  cases action <;> rfl

theorem fetchDataFromDb_ne_panic {fault : Fault} {table : InstanceData} {did : DId}
    (message : String) : InstanceDataDB.fetchDataFromDb fault table did ≠ .panic message := by
  unfold InstanceDataDB.fetchDataFromDb
  split
  · simp
  · split
    · simp
    · split <;> simp

/-- A fetch does not unwind. -/
theorem phase_ne_panic {did : ℕ → DId} {handle : ℕ} {action : FetchAction}
    {cache next : CacheState ℕ} (h : cacheStep did (action.of handle) cache = some next)
    (message : String) : next.phase handle ≠ .returned (.panic message) := by
  cases action with
  | lookup fault =>
      simp only [FetchAction.of, cacheStep] at h
      split at h
      · cases h
        unfold CacheState.lookupStep
        split
        · simp
        · simp
        · simp
        · rename_i message' hpanic
          exact (fetchDataFromDb_ne_panic message' hpanic).elim
      · cases h
  | download answer =>
      simp only [FetchAction.of, cacheStep] at h
      split at h
      · cases answer with
        | ok text =>
            cases h
            simp
        | error error =>
            cases h
            simp
      · cases h
  | insert fault =>
      simp only [FetchAction.of, cacheStep] at h
      split at h
      · rename_i fromServer hphase
        cases h
        obtain ⟨table', hresult, _⟩ | ⟨error, hresult⟩ :=
          insertIntoDb_cases fault cache.table (did handle) fromServer
        · simp [CacheState.insertStep, hresult]
        · simp [CacheState.insertStep, hresult]
      · cases h

/-- The job goes on as if the text had been there, or it fails as any fetch may fail. -/
theorem exists_step_of_fetchStep {handle : ℕ} {action : FetchAction}
    (hextends : UniqueTable.Extends t.cache.table final)
    (h : s.fetchStep env handle action = some t) :
    UniqueTable.Extends s.cache.table t.cache.table ∧ (t.system = s.system ∨
      ∃ b, SystemState.step (env.withTable final) b s.system = some t.system) := by
  unfold fetchStep at h
  split at h
  · rename_i iid info htask hphase
    obtain ⟨cache, hcache, h⟩ := Option.bind_eq_some_iff.mp h
    obtain ⟨system, hsettle, rfl⟩ := Option.map_eq_some_iff.mp h
    have hfetch := CacheState.fetchStep_of_step (call_of handle action) hcache
    refine ⟨hfetch.table_extends, ?_⟩
    unfold settleFetch at hsettle
    split at hsettle
    · rename_i outcome hreturned
      simp only [hphase] at hsettle
      right
      cases outcome with
      | ok text =>
          have hstored := hextends _ _ (hfetch.stored text hreturned)
          refine ⟨.job handle .proceed, ?_⟩
          simp only [SystemState.step, htask, jobStep, JobTask.proceedStep, hphase,
            fetchData_withTable hstored, Option.bind_some]
          exact hsettle
      | err error =>
          refine ⟨.job handle (.fail error none), ?_⟩
          simp only [SystemState.step, htask, jobStep, JobTask.failStep, hphase, Option.bind_some]
          exact hsettle
      | panic message => exact (phase_ne_panic hcache message hreturned).elim
    · left
      cases hsettle
      rfl
  · cases h

/-! ## Runs -/

theorem exists_step_of_step {a : CachedAction} (hextends : UniqueTable.Extends t.cache.table final)
    (h : step env a s = some t) :
    UniqueTable.Extends s.cache.table t.cache.table ∧ (t.system = s.system ∨
      ∃ b, SystemState.step (env.withTable final) b s.system = some t.system) := by
  cases a with
  | system action =>
      simp only [step] at h
      split at h
      · cases h
      · rename_i hfetches
        obtain ⟨system, hsystem, rfl⟩ := Option.map_eq_some_iff.mp h
        refine ⟨UniqueTable.Extends.refl _, Or.inr ⟨action, ?_⟩⟩
        rw [step_withTable (by simpa using hfetches), hsystem]
  | fetch handle action => exact exists_step_of_fetchStep hextends h
  | insertIntoDb did data fault =>
      cases h
      exact ⟨insertIntoDb_extends fault s.cache.table did data, Or.inl rfl⟩
  | addFromDbFile rows fault =>
      cases h
      exact ⟨addFromDbFile_extends fault false s.cache.table rows, Or.inl rfl⟩

/-- Whatever the server answers and other processes write, a run with the cache is a run in which
the texts are the final ones from the start. -/
theorem exists_plainRun {instances : List IId} {fs : FileSystem} {actions : List CachedAction}
    (hrun : exec (step env) actions (start env instances fs table) = some s) :
    UniqueTable.Extends table s.cache.table ∧
      ∃ actions, exec (SystemState.step (env.withTable s.cache.table)) actions
        (SystemState.start (env.withTable s.cache.table) instances fs) = some s.system := by
  have hstep : ∀ a mid next, UniqueTable.Extends next.cache.table s.cache.table →
      step env a mid = some next → next.system = mid.system ∨
        ∃ b, SystemState.step (env.withTable s.cache.table) b mid.system = some next.system :=
    fun a mid next hextends h => (exists_step_of_step hextends h).2
  have hback : ∀ a mid next, step env a mid = some next →
      UniqueTable.Extends next.cache.table s.cache.table →
      UniqueTable.Extends mid.cache.table s.cache.table :=
    fun a mid next h hextends => (exists_step_of_step hextends h).1.trans hextends
  obtain ⟨hrows, labels, hlabels⟩ :=
    exec_of_backward hstep hback (UniqueTable.Extends.refl _) hrun
  exact ⟨hrows, labels, hlabels⟩

/-- What the cache guarantees to a run, from its final content. -/
structure CachedSpec (env : RunEnvironment) (instances : List IId) (fs : FileSystem)
    (table : InstanceData) (s : CachedState) : Prop where
  rowsKept : UniqueTable.Extends table s.cache.table
  refines : ∃ actions, exec (SystemState.step (env.withTable s.cache.table)) actions
    (SystemState.start (env.withTable s.cache.table) instances fs) = some s.system
  logged : ∀ line ∈ s.system.run.summary,
    (env.withTable s.cache.table).line line.iid = some line

/-- Each logged line is that of a job alone with its final text. -/
theorem cachedRun_refines {instances : List IId} {fs : FileSystem} {actions : List CachedAction}
    (hslots : 1 ≤ env.opts.parallelJobs) (hnodup : instances.Nodup)
    (hrun : exec (step env) actions (start env instances fs table) = some s) :
    CachedSpec env instances fs table s := by
  obtain ⟨hrows, labels, hplain⟩ := exists_plainRun hrun
  exact ⟨hrows, ⟨labels, hplain⟩, SystemState.line_of_mem_summary hslots hnodup hplain⟩

/-- Both jobs miss the same data id, and the server gives them different texts. -/
def missActions : List CachedAction :=
  (List.replicate 7 (.system (.main none)) ++
    [.system (.job 0 .proceed), .system (.job 1 .proceed),
      .fetch 0 (.lookup none), .fetch 1 (.lookup none),
      .fetch 1 (.download (.ok "p ds 2 0".toList)),
      .fetch 0 (.download (.ok "c one node\np ds 1 0".toList)),
      .fetch 0 (.insert none), .fetch 1 (.insert none)]) ++
    List.replicate 14 (.system (.job 0 .proceed)) ++ List.replicate 4 (.system (.main none))

theorem cachedRun_refines_pair :
    ∃ s, exec (step SystemState.pairEnvironment) missActions
        (start SystemState.pairEnvironment SystemState.pairInstances (fun _ => none) ∅) = some s ∧
      CachedSpec SystemState.pairEnvironment SystemState.pairInstances (fun _ => none) ∅ s := by
  have hrun : (exec (step SystemState.pairEnvironment) missActions
      (start SystemState.pairEnvironment SystemState.pairInstances (fun _ => none) ∅)).isSome := by
    decide +kernel
  obtain ⟨s, hs⟩ := Option.isSome_iff_exists.mp hrun
  exact ⟨s, hs, cachedRun_refines (by decide) (by decide) hs⟩

end CachedState

end StrideRunner
