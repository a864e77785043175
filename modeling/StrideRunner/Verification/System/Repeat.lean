import StrideRunner.Model.Commands.Run.Whole
import StrideRunner.Verification.Executor.Relocation
import StrideRunner.Verification.Export
import StrideRunner.Verification.System.Correctness

/-! # Repeating a run

A list that has been exported can be run again and again. Two complete runs of it agree on all
verdicts, whatever their directories, their numbers of slots and the orders of their steps are. -/

namespace StrideRunner

open Library

/-- The columns of a line that do not depend on the time. -/
def SummaryLine.verdict (line : SummaryLine) : IId × String × Option ℕ × Option ℕ :=
  (line.iid, line.state, line.score, line.bestScoreKnown)

theorem verdict_logJobResult {iid : IId} {result result' : JobResult}
    (h : result'.state = result.state) :
    (logJobResult iid result').verdict = (logJobResult iid result).verdict := by
  simp only [SummaryLine.verdict, logJobResult, h]

/-- The same data, and a solver that answers the same. -/
structure SameJobs (env env' : RunEnvironment) : Prop where
  profile : env'.profile = env.profile
  stripComments : env'.opts.stripComments = env.opts.stripComments
  fetchInstance : env'.fetchInstance = env.fetchInstance
  fetchData : env'.fetchData = env.fetchData
  solver : env'.solver = env.solver

variable {env env' : RunEnvironment} {iid : IId} {data : List Char} {info : InstanceModel}
  {result : SolverResult}

/-! ## One job in two runs -/

namespace SameJobs

theorem runAlone (h : SameJobs env env') (iid : IId) (data : List Char) :
    (env'.runAlone iid data).1 = (env.runAlone iid data).1 ∧
      SolverExecutor.SameFiles (env.executor iid data) (env'.executor iid data)
        (env.runAlone iid data).2 (env'.runAlone iid data).2 := by
  unfold RunEnvironment.runAlone
  rw [h.profile, h.solver]
  exact SolverExecutor.run_relocated rfl

theorem fetched (h : SameJobs env env') (hfetched : Fetched env iid info data) :
    Fetched env' iid info data := by
  obtain ⟨text, htext, rfl⟩ := hfetched.input
  refine ⟨by rw [h.fetchInstance]; exact hfetched.row, text, by rw [h.fetchData]; exact htext, ?_⟩
  unfold RunEnvironment.prepare
  rw [h.stripComments]

theorem judged (h : SameJobs env env') (hjudged : Judged env iid info data result) :
    Judged env' iid info data result :=
  ⟨h.fetched hjudged.toFetched, (h.runAlone iid data).1.trans hjudged.verdict⟩

end SameJobs

/-- The two runs have to treat the logs of a job alike. -/
def SameCleanup (env env' : RunEnvironment) : Prop :=
  env'.opts.keepLogsOnSuccess = env.opts.keepLogsOnSuccess ∧
    env'.opts.suboptimalIsError = env.opts.suboptimalIsError

/-- The two runs have to send the same results. -/
def SameUploads (env env' : RunEnvironment) : Prop :=
  env'.opts.noUpload = env.opts.noUpload ∧
    env'.opts.solverUuid.isNone = env.opts.solverUuid.isNone

/-- What a job leaves in the one run and in the other. -/
structure SameEnd (env env' : RunEnvironment) (iid : IId) (fs fs' : FileSystem)
    (sent sent' : Option SolverResult) : Prop where
  sent : SameUploads env env' → sent' = sent
  logs : SameCleanup env env' →
    SolverExecutor.SameFiles (env.executor iid []) (env'.executor iid []) fs fs'

theorem JobLeaves.same {fs fs' : FileSystem} {sent sent' : Option SolverResult}
    {jobResult jobResult' : JobResult} {info' : InstanceModel} {data' : List Char}
    {result' : SolverResult} (hsame : SameJobs env env')
    (h : JobLeaves env iid fs sent jobResult info data result)
    (h' : JobLeaves env' iid fs' sent' jobResult' info' data' result') :
    jobResult'.state = jobResult.state ∧ SameEnd env env' iid fs fs' sent sent' := by
  have hjudged := hsame.judged h.judged
  obtain ⟨rfl, rfl⟩ := hjudged.toFetched.unique h'.judged.toFetched
  obtain rfl : result' = result := Outcome.ok.inj (h'.judged.verdict.symm.trans hjudged.verdict)
  have hstate : jobResult'.state = jobResult.state := Outcome.ok.inj (h'.state.symm.trans h.state)
  refine ⟨hstate, ?_, ?_⟩
  · rintro ⟨hupload, huuid⟩
    rw [h.sent, h'.sent]
    unfold Job.uploads
    rw [hupload, huuid]
  · rintro ⟨hkeep, hsuboptimal⟩
    have hdeletes : Job.deletesLogs env'.opts jobResult'.state =
        Job.deletesLogs env.opts jobResult.state := by
      unfold Job.deletesLogs
      rw [hkeep, hsuboptimal, hstate]
    intro suffix hsuffix
    have hfile : (env.executor iid []).filename suffix ∈ env.files iid :=
      SolverExecutor.filename_mem_files hsuffix
    have hfile' : (env'.executor iid []).filename suffix ∈ env'.files iid :=
      SolverExecutor.filename_mem_files hsuffix
    by_cases hgone : Job.deletesLogs env.opts jobResult.state
    · rw [h.deleted hgone _ hfile, h'.deleted (by rwa [hdeletes]) _ hfile']
    · rw [h.kept hgone _ hfile, h'.kept (by rwa [hdeletes]) _ hfile']
      exact (hsame.runAlone iid _).2 suffix hsuffix

theorem fails_congr {state : JobResultState}
    (h : env'.opts.suboptimalIsError = env.opts.suboptimalIsError) :
    state.Fails env'.opts ↔ state.Fails env.opts := by
  unfold JobResultState.Fails
  rw [h]

/-! ## Complete runs -/

/-- `command_run` on the list in a file, up to the end of its loop. -/
structure CompleteRun (path : PathBuf) (file : Option Bytes) (env : RunEnvironment)
    (s : SystemState) (result : Outcome AnyhowError Unit) : Prop where
  slots : 1 ≤ env.opts.parallelJobs
  run : ∃ sources opts first actions, sources.fs path = file ∧ opts.instances = some path ∧
    opts.sqlWhere = none ∧
    SystemState.commandRun env sources opts = .ok first ∧
    exec (SystemState.step env) actions first = some s ∧
    (result = .ok () ∨ RunState.NoJobFails s.run ∧ SystemState.Written actions)
  returned : s.run.point = .returned result

/-- What is known after a complete run of a list. -/
structure RunOf (list : List IId) (env : RunEnvironment) (s : SystemState)
    (result : Outcome AnyhowError Unit) : Prop where
  tasks : s.run.tasks.map Task.iid = list
  iids : (s.run.summary.map SummaryLine.iid).Perm list
  sequential : ∃ fs, SystemState.SequentialSpec env list fs s result

/-- Only a list that is not empty is exported. -/
theorem RunContext.eq_of_exportIidOnly {sources : InstanceSources} {opts : InstanceOpts}
    {path : PathBuf} {fs : FileSystem} {exported : List IId}
    (hexport : exportIidOnly sources opts path = .ok fs)
    (hexported : buildInstanceList sources opts = .ok exported) :
    fs = writeInstanceList sources.fs path exported ∧ exported ≠ [] := by
  unfold exportIidOnly at hexport
  rw [hexported, Outcome.ok_bind] at hexport
  split at hexport
  · cases hexport
  · rename_i hnonempty
    exact ⟨(Outcome.ok.inj hexport).symm, by simpa using hnonempty⟩

section

variable {path : PathBuf} {exported : List IId} {s s' : SystemState}
  {result result' : Outcome AnyhowError Unit} {list list' : List IId}

/-- The run takes all of an exported list, in an order of its own. -/
theorem CompleteRun.exists_runOf
    (h : CompleteRun path (some (encodeUtf8 (RunContext.instanceListText exported))) env s result)
    (hnodup : exported.Nodup) (hne : exported ≠ []) :
    ∃ list, list.Perm exported ∧ RunOf list env s result := by
  obtain ⟨sources, opts, first, actions, hfile, hinstances, hwhere, hfirst, hrun, hleft⟩ := h.run
  obtain ⟨list, hlist, hstart⟩ := Outcome.bind_eq_ok.mp hfirst
  obtain rfl : SystemState.start env list sources.fs = first := Outcome.ok.inj hstart
  have hentries := RunContext.textHasEntries_instanceListText exported
  have hread : RunContext.readInstanceList sources.fs path = .ok exported := by
    refine RunContext.readInstanceList_eq_ok_iff.mpr ⟨_, hfile, ?_⟩
    rw [bufReadLines_encodeUtf8]
    exact hentries
  have hperm : list.Perm exported := by
    rw [RunContext.buildInstanceList_file_iff hinstances hwhere hread] at hlist
    obtain ⟨_, rfl⟩ := hlist
    exact RunContext.arrange_perm sources opts exported
  have hlist_nodup : list.Nodup := hperm.nodup_iff.mpr hnodup
  have hlist_ne : list ≠ [] := fun hnil => hne (List.perm_nil.mp (hnil ▸ hperm).symm)
  obtain ⟨polled, hledger, hjobs, hrest, rfl⟩ :=
    SystemState.exists_ledger_of_returned h.slots hlist_ne hrun h.returned hleft
  have htasks : s.run.tasks.map Task.iid = list := by
    rw [← hledger.started, hrest, List.append_nil]
  exact ⟨list, hperm, htasks, (hledger.complete hjobs hrest).2.1, sources.fs,
    SystemState.sequentialSpec_of_left h.slots hlist_nodup hlist_ne hrun h.returned hledger hjobs
      hrest⟩

/-! ## Two complete runs -/

theorem RunOf.exists_jobLeaves (h : RunOf list env s result) {handle : ℕ}
    (hiid : list[handle]? = some iid) : ∃ jobResult info data verdict,
      JobLeaves env iid s.shared.store (s.shared.locals handle).sent jobResult info data
        verdict := by
  obtain ⟨fs, hspec⟩ := h.sequential
  exact hspec.jobs handle iid hiid

/-- The jobs for an instance in the two runs. -/
theorem RunOf.same_job (hsame : SameJobs env env') (h : RunOf list env s result)
    (h' : RunOf list' env' s' result') (hmem : iid ∈ list) (hmem' : iid ∈ list') :
    ∃ jobResult jobResult', Job.main env.opts (env.effects iid) = .ok jobResult ∧
      Job.main env'.opts (env'.effects iid) = .ok jobResult' ∧
      jobResult'.state = jobResult.state := by
  obtain ⟨handle, hhandle⟩ := List.mem_iff_getElem?.mp hmem
  obtain ⟨handle', hhandle'⟩ := List.mem_iff_getElem?.mp hmem'
  obtain ⟨jobResult, _, _, _, hleaves⟩ := h.exists_jobLeaves hhandle
  obtain ⟨jobResult', _, _, _, hleaves'⟩ := h'.exists_jobLeaves hhandle'
  exact ⟨jobResult, jobResult', hleaves.main_eq, hleaves'.main_eq, (hleaves.same hsame hleaves').1⟩

theorem RunOf.verdicts (h : RunOf list env s result) :
    (s.run.summary.map SummaryLine.verdict).Perm
      (list.filterMap fun iid => (env.line iid).map SummaryLine.verdict) := by
  obtain ⟨fs, hspec⟩ := h.sequential
  have hperm := hspec.summary.map SummaryLine.verdict
  rwa [List.map_filterMap] at hperm

theorem RunOf.verdicts_perm (hsame : SameJobs env env') (h : RunOf list env s result)
    (h' : RunOf list' env' s' result') (hperm : list'.Perm list) :
    (s'.run.summary.map SummaryLine.verdict).Perm (s.run.summary.map SummaryLine.verdict) := by
  have hlines : (list'.filterMap fun iid => (env'.line iid).map SummaryLine.verdict) =
      list'.filterMap fun iid => (env.line iid).map SummaryLine.verdict := by
    apply List.filterMap_congr
    intro iid hmem'
    obtain ⟨jobResult, jobResult', hmain, hmain', hstate⟩ :=
      h.same_job hsame h' (hperm.subset hmem') hmem'
    rw [RunEnvironment.line_of_main hmain, RunEnvironment.line_of_main hmain', Option.map_some,
      Option.map_some, verdict_logJobResult hstate]
  have hverdicts' := h'.verdicts
  rw [hlines] at hverdicts'
  exact hverdicts'.trans ((hperm.filterMap _).trans h.verdicts.symm)

theorem RunOf.fails_iff (hsame : SameJobs env env') (h : RunOf list env s result)
    (h' : RunOf list' env' s' result') (hperm : list'.Perm list)
    (hsuboptimal : env'.opts.suboptimalIsError = env.opts.suboptimalIsError) :
    (∃ iid ∈ list', env'.Fails iid) ↔ ∃ iid ∈ list, env.Fails iid := by
  constructor
  · rintro ⟨iid, hmem', jobResult', hmain', hfails⟩
    obtain ⟨job, job', hmain, hmain'', hstate⟩ := h.same_job hsame h' (hperm.subset hmem') hmem'
    cases hmain'.symm.trans hmain''
    rw [hstate] at hfails
    exact ⟨iid, hperm.subset hmem', job, hmain, (fails_congr hsuboptimal).mp hfails⟩
  · rintro ⟨iid, hmem, jobResult, hmain, hfails⟩
    have hmem' := hperm.symm.subset hmem
    obtain ⟨job, job', hmain'', hmain', hstate⟩ := h.same_job hsame h' hmem hmem'
    cases hmain.symm.trans hmain''
    rw [← hstate] at hfails
    exact ⟨iid, hmem', job', hmain', (fails_congr hsuboptimal).mpr hfails⟩

theorem RunOf.result_eq (hsame : SameJobs env env') (h : RunOf list env s result)
    (h' : RunOf list' env' s' result') (hperm : list'.Perm list)
    (hsuboptimal : env'.opts.suboptimalIsError = env.opts.suboptimalIsError) :
    result' = result := by
  have hfails := h.fails_iff hsame h' hperm hsuboptimal
  obtain ⟨fs, hspec⟩ := h.sequential
  obtain ⟨fs', hspec'⟩ := h'.sequential
  obtain ⟨rfl, hnone⟩ | ⟨rfl, hsome⟩ := hspec.result
  · obtain ⟨rfl, _⟩ | ⟨_, hsome'⟩ := hspec'.result
    · rfl
    · obtain ⟨iid, hmem, hfail⟩ := hfails.mp hsome'
      exact (hnone iid hmem hfail).elim
  · obtain ⟨_, hnone'⟩ | ⟨rfl, _⟩ := hspec'.result
    · obtain ⟨iid, hmem, hfail⟩ := hfails.mpr hsome
      exact (hnone' iid hmem hfail).elim
    · rfl

/-- Two complete runs of one exported list. -/
structure RepeatSpec (exported : List IId) (env env' : RunEnvironment) (s s' : SystemState)
    (result result' : Outcome AnyhowError Unit) : Prop where
  iids : (s.run.summary.map SummaryLine.iid).Perm exported
  verdicts : (s'.run.summary.map SummaryLine.verdict).Perm
    (s.run.summary.map SummaryLine.verdict)
  result : env'.opts.suboptimalIsError = env.opts.suboptimalIsError → result' = result
  jobs : ∀ handle handle' iid, (s.run.tasks[handle]?).map Task.iid = some iid →
    (s'.run.tasks[handle']?).map Task.iid = some iid →
    SameEnd env env' iid s.shared.store s'.shared.store (s.shared.locals handle).sent
      (s'.shared.locals handle').sent

end

namespace SystemState

/-- A selection that has been exported gives the same verdicts in each complete run of it. -/
theorem commandRun_repeatable {sources : InstanceSources} {opts : InstanceOpts} {path : PathBuf}
    {fs : FileSystem} {exported : List IId} (hexport : RunContext.exportIidOnly sources opts path =
      .ok fs) (hexported : RunContext.buildInstanceList sources opts = .ok exported)
    (hnodup : exported.Nodup) (hsame : SameJobs env env') {s s' : SystemState}
    {result result' : Outcome AnyhowError Unit}
    (h : CompleteRun path (fs path) env s result)
    (h' : CompleteRun path (fs path) env' s' result') :
    RepeatSpec exported env env' s s' result result' := by
  obtain ⟨rfl, hne⟩ := RunContext.eq_of_exportIidOnly hexport hexported
  have hfile : RunContext.writeInstanceList sources.fs path exported path =
      some (encodeUtf8 (RunContext.instanceListText exported)) := by
    simp [RunContext.writeInstanceList, FileSystem.write]
  rw [hfile] at h h'
  obtain ⟨list, hperm, hlist⟩ := h.exists_runOf hnodup hne
  obtain ⟨list', hperm', hlist'⟩ := h'.exists_runOf hnodup hne
  have hlists : list'.Perm list := hperm'.trans hperm.symm
  refine ⟨hlist.iids.trans hperm, hlist.verdicts_perm hsame hlist' hlists,
    hlist.result_eq hsame hlist' hlists, ?_⟩
  intro handle handle' iid hhandle hhandle'
  rw [← List.getElem?_map, hlist.tasks] at hhandle
  rw [← List.getElem?_map, hlist'.tasks] at hhandle'
  obtain ⟨_, _, _, _, hleaves⟩ := hlist.exists_jobLeaves hhandle
  obtain ⟨_, _, _, _, hleaves'⟩ := hlist'.exists_jobLeaves hhandle'
  exact (hleaves.same hsame hleaves').2

/-- A table with the two instances. -/
def pairSources (fs : FileSystem) (shuffle : Reordering IId) : InstanceSources :=
  ⟨fs, ⟨[11, 1], by decide⟩, .refl, none, .refl, shuffle⟩

/-- The exported list, and nothing else. -/
def pairFile : FileSystem :=
  RunContext.writeInstanceList (fun _ => none) ["pair.list"] pairInstances

/-- The second run is elsewhere, has one slot and a shuffled list, and keeps its logs. -/
def againEnvironment : RunEnvironment :=
  { pairEnvironment with
    opts := ⟨1, true, true, true, true, none⟩
    logDir := ["again"]
    runtime := fun _ => 5 }

def againActions : List SystemAction :=
  [.main none] ++ List.replicate 10 (.job 0 .proceed) ++ List.replicate 4 (.main none) ++
    List.replicate 12 (.job 1 .proceed) ++ List.replicate 4 (.main none)

theorem exists_completeRun (env : RunEnvironment) (sources : InstanceSources) (sort : Bool)
    (path : PathBuf) (instances : List IId) (actions : List SystemAction)
    (hslots : 1 ≤ env.opts.parallelJobs)
    (hlist : RunContext.buildInstanceList sources ⟨some path, none, sort⟩ = .ok instances)
    (hrun : (exec (step env) actions (start env instances sources.fs)).map (fun s => s.run.point) =
      some (.returned (.ok ()))) :
    ∃ s, CompleteRun path (sources.fs path) env s (.ok ()) := by
  obtain ⟨s, hs, hreturned⟩ := Option.map_eq_some_iff.mp hrun
  refine ⟨s, hslots, ⟨sources, ⟨some path, none, sort⟩, _, actions, rfl, rfl, rfl, ?_, hs,
    Or.inl rfl⟩, hreturned⟩
  rw [commandRun, hlist]
  rfl

theorem commandRun_repeatable_pair :
    ∃ s s', CompleteRun ["pair.list"] (pairFile ["pair.list"]) pairEnvironment s (.ok ()) ∧
      CompleteRun ["pair.list"] (pairFile ["pair.list"]) againEnvironment s' (.ok ()) ∧
      RepeatSpec pairInstances pairEnvironment againEnvironment s s' (.ok ()) (.ok ()) := by
  have hexported : RunContext.buildInstanceList (pairSources (fun _ => none) .refl)
      ⟨none, some ⟨fun _ => true, .refl, none⟩, true⟩ = .ok pairInstances := by decide +kernel
  have hexport : RunContext.exportIidOnly (pairSources (fun _ => none) .refl)
      ⟨none, some ⟨fun _ => true, .refl, none⟩, true⟩ ["pair.list"] = .ok pairFile := by
    rw [RunContext.exportIidOnly, hexported]
    rfl
  obtain ⟨s, hs⟩ := exists_completeRun pairEnvironment (pairSources pairFile .refl) true
    ["pair.list"] pairInstances pairActions (by decide) (by decide +kernel) (by decide +kernel)
  obtain ⟨s', hs'⟩ := exists_completeRun againEnvironment
    (pairSources pairFile ⟨List.reverse, List.reverse_perm⟩) false ["pair.list"] [⟨11⟩, ⟨1⟩]
    againActions (by decide) (by decide +kernel) (by decide +kernel)
  have hsame : SameJobs pairEnvironment againEnvironment := ⟨rfl, rfl, rfl, rfl, rfl⟩
  exact ⟨s, s', hs, hs', commandRun_repeatable hexport hexported (by decide) hsame hs hs'⟩

end SystemState

end StrideRunner
