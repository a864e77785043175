import StrideRunner.Verification.Pace.StripComments
import StrideRunner.Verification.Score
import StrideRunner.Verification.System.Correctness

/-! # Importing what a run has left

The output of a solver that a run has found valid, if it is kept, is a solution that the import
command accepts, also if the solver was given the instance without its comments. -/

namespace StrideRunner

open Pace Library

namespace Import

variable {profile : BuildProfile} {info : InstanceRow} {text : List Char} {file : Bytes}
  {edges : List Edge}

/-- The checks of the verifier are those of the command, if the record has the right number. -/
theorem checked_of_verifySolution {executor : SolverExecutor} {fs : FileSystem} {ids : List ℕ}
    (hread : readInstance profile (encodeUtf8 text) = .ok (info.nodes.toNat, edges))
    (hstdin : fs (executor.filename PATH_STDIN) = some (encodeUtf8 text))
    (hstdout : fs (executor.filename PATH_STDOUT) = some file)
    (h : executor.verifySolution profile fs = .ok (.valid ids)) :
    ∃ solution reader edges', Checked profile info text file solution reader edges' ∧
      solution.take1indexedSolution profile = .ok ids := by
  obtain ⟨reader, edges', solution, hreader, hedges, hsolution, hvalid, hids⟩ :=
    SolverExecutor.exists_of_valid hstdin hstdout h
  have hcount : reader.numberOfNodes = info.nodes.toNat := by
    simp only [readInstance, hreader, hedges, Outcome.ofExcept_ok, Outcome.ok_bind,
      Outcome.pure_eq, Outcome.ok.injEq, Prod.mk.injEq] at hread
    exact hread.1
  rw [hcount] at hsolution hvalid
  exact ⟨solution, reader, edges', ⟨hsolution, hreader, hedges, hvalid⟩, hids⟩

/-- Nothing but the checks can stop the command in front of its message. -/
structure Reaches (effects : ImportEffects) (info : InstanceRow) (text : List Char)
    (file : Bytes) : Prop extends Delivers effects info text file where
  openMetaDb : effects.openMetaDb = .ok ()
  serverConn : effects.serverConn = .ok ()
  openInstanceDb : effects.openInstanceDb = .ok ()

/-- What the command says and sends about a solution with these ids. -/
structure FeasibleSpec (iid : IId) (bestScore : Option ℕ) (ids : List ℕ)
    (events : List ImportEvent) : Prop where
  feasible : events.head? = some (.feasible iid ids.length)
  upload_iff : ∀ uploaded, .upload uploaded ∈ events ↔
    uploaded = ids ∧ isScoreGoodEnoughForUpload ids.length bestScore

theorem feasibleSpec_of_checked {effects : ImportEffects} {iid : IId} {solution : Solution}
    {reader : PaceReader} {ids : List ℕ} (hreaches : Reaches effects info text file)
    (h : Checked profile info text file solution reader edges)
    (hids : solution.take1indexedSolution profile = .ok ids) :
    ids.length < U32_SIZE ∧
      FeasibleSpec iid info.bestScore ids (commandImportSolution profile effects iid).2 := by
  have hcheck : checkSolution profile effects iid = .ok (info, solution) :=
    checkSolution_of_checked hreaches.toDelivers hreaches.openMetaDb hreaches.serverConn
      hreaches.openInstanceDb h
  obtain ⟨hlength, hdata⟩ := length_lt_of_checkSolution hcheck
  cases hids.symm.trans hdata
  refine ⟨by rwa [List.length_map], by simp [commandImportSolution, hcheck], ?_⟩
  intro uploaded
  rw [isScoreGoodEnoughForUpload_iff, List.length_map]
  by_cases hnear : IsNearBest solution.solution.length info.bestScore
  · constructor
    · intro hmem
      simp only [commandImportSolution, hcheck] at hmem
      rcases List.mem_cons.mp hmem with heq | hmem
      · cases heq
      · exact ⟨upload_eq_of_mem hdata hmem, hnear⟩
    · rintro ⟨rfl, _⟩
      exact upload_mem_of_isNearBest hcheck hnear
  · obtain ⟨best, _, hcommand⟩ := commandImportSolution_of_not_isNearBest hcheck hnear
    rw [hcommand]
    simp [hnear]

end Import

namespace SystemState

variable {env : RunEnvironment} {instances : List IId} {fs : FileSystem} {s : SystemState}
  {actions : List SystemAction}

/-- A job with a score has a valid result. -/
theorem exists_valid_of_score {iid : IId} {jobResult : JobResult} {score : ℕ}
    {info : InstanceModel} {result : SolverResult}
    (hstate : Job.toResultType result info = .ok jobResult.state)
    (hscore : (logJobResult iid jobResult).score = some score) :
    ∃ ids, result = .valid ids ∧ score = ids.length % U32_SIZE := by
  obtain ⟨state, runtime⟩ := jobResult
  cases result with
  | valid ids =>
      refine ⟨ids, rfl, ?_⟩
      simp only [Job.toResultType] at hstate
      split at hstate
      · cases hstate
        exact (Option.some.inj hscore).symm
      · cases hbest : info.bestScore with
        | none => simp [hbest] at hstate
        | some best =>
            simp only [hbest] at hstate
            cases hstate
            exact (Option.some.inj hscore).symm
  | validCached => cases hstate
  | infeasible =>
      cases hstate
      cases hscore
  | syntaxError =>
      cases hstate
      cases hscore
  | timeout =>
      cases hstate
      cases hscore
  | incompleteOutput =>
      cases hstate
      cases hscore

/-- The verdict on the text that was fed is the verdict on the text as it is stored. -/
theorem verifySolution_of_prepared {executor : SolverExecutor} {files : FileSystem}
    {text : List Char} {n : ℕ} {edges : List Edge}
    (hread : readInstance env.profile (encodeUtf8 text) = .ok (n, edges))
    (hstdin : files (executor.filename PATH_STDIN) = some (encodeUtf8 (env.prepare text))) :
    executor.verifySolution env.profile
        (files.write (executor.filename PATH_STDIN) (encodeUtf8 text)) =
      executor.verifySolution env.profile files := by
  obtain ⟨reader, hreader, h⟩ := Outcome.bind_eq_ok.mp hread
  obtain ⟨edges', hedges, _⟩ := Outcome.bind_eq_ok.mp h
  rw [Import.ofExcept_eq_ok] at hreader
  have hne : executor.filename PATH_STDOUT ≠ executor.filename PATH_STDIN :=
    SolverExecutor.filename_ne (by decide)
  unfold RunEnvironment.prepare at hstdin
  split at hstdin
  · have hstrip := PaceReader.stripComments_spec hreader hedges
    exact (hstrip.same_verdict executor _ files (Function.update_self ..) hstdin
      (Function.update_of_ne hne ..).symm).symm
  · rw [FileSystem.write, ← hstdin, Function.update_eq_self]

/-- What a job with a valid result has left is a solution that can be imported, with the score of
its line and the nodes of its request. -/
theorem commandRun_reimports (hslots : 1 ≤ env.opts.parallelJobs) (hnodup : instances.Nodup)
    (hrun : exec (step env) actions (start env instances fs) = some s) {handle : ℕ} {iid : IId}
    {jobResult : JobResult} {score : ℕ}
    (htask : s.run.tasks[handle]? = some ⟨iid, .finished (.ok jobResult)⟩)
    (hkept : ¬ Job.deletesLogs env.opts jobResult.state)
    (hscore : (logJobResult iid jobResult).score = some score)
    {effects : ImportEffects} {row : InstanceRow} {text : List Char} {file : Bytes}
    {edges : List Edge}
    (hrow : env.fetchInstance iid = .ok row.toInstanceModel)
    (htext : env.fetchData iid row.dataDid = .ok text)
    (hread : readInstance env.profile (encodeUtf8 text) = .ok (row.nodes.toNat, edges))
    (hfile : s.shared.store ((env.executor iid []).filename PATH_STDOUT) = some file)
    (hreaches : Import.Reaches effects row text file) :
    ∃ ids, (s.shared.locals handle).sent = (if Job.uploads env.opts (.valid ids) row.bestScore then
        some (.valid ids) else none) ∧ score = ids.length ∧
      Import.FeasibleSpec iid row.bestScore ids
        (commandImportSolution env.profile effects iid).2 := by
  obtain ⟨info, data, result, hleaves⟩ := exists_jobLeaves hslots hnodup hrun htask
  obtain ⟨text', htext', rfl⟩ := hleaves.judged.input
  cases hrow.symm.trans hleaves.judged.row
  cases htext.symm.trans htext'
  obtain ⟨ids, rfl, rfl⟩ := exists_valid_of_score hleaves.state hscore
  have hverify := SolverExecutor.verifySolution_of_run hleaves.judged.verdict
  have hagree := hleaves.kept hkept
  rw [RunEnvironment.runAlone, SolverExecutor.run_eq] at hagree
  have hstdout := hagree _ SolverExecutor.stdout_mem_files
  rw [← verifySolution_of_prepared hread (SolverExecutor.written_stdin _)] at hverify
  have hne : (env.executor iid (env.prepare text)).filename PATH_STDOUT ≠
      (env.executor iid (env.prepare text)).filename PATH_STDIN :=
    SolverExecutor.filename_ne (by decide)
  obtain ⟨solution, reader, edges', hchecked, hids⟩ := Import.checked_of_verifySolution hread
    (Function.update_self ..) ((Function.update_of_ne hne ..).trans (hstdout.symm.trans hfile))
    hverify
  obtain ⟨hlength, hfeasible⟩ := Import.feasibleSpec_of_checked hreaches hchecked hids
  exact ⟨ids, hleaves.sent, Nat.mod_eq_of_lt hlength, hfeasible⟩

/-- A run with the option `-k`, in the middle of its first job's ending. -/
def keepEnvironment : RunEnvironment :=
  { pairEnvironment with opts := { pairEnvironment.opts with keepLogsOnSuccess := true } }

def keepActions : List SystemAction :=
  .main none :: List.replicate 12 (.job 0 .proceed)

def oneNodeRecord : InstanceRow := ⟨⟨⟨1⟩, ⟨5⟩, some 1⟩, 1⟩

def oneNodeText : List Char := "c one node\np ds 1 0".toList

def importOneNode : ImportEffects :=
  ⟨.ok (), .ok oneNodeRecord, .ok (), .ok [49, 10, 49, 10], .ok (), fun _ => .ok oneNodeText,
    fun _ => .ok ()⟩

theorem commandRun_reimports_pair :
    ∃ s, exec (step keepEnvironment) keepActions
        (start keepEnvironment pairInstances fun _ => none) = some s ∧
      ∃ ids, (s.shared.locals 0).sent =
          (if Job.uploads keepEnvironment.opts (.valid ids) (some 1) then some (.valid ids)
          else none) ∧
        1 = ids.length ∧ Import.FeasibleSpec ⟨1⟩ (some 1) ids
          (commandImportSolution keepEnvironment.profile importOneNode ⟨1⟩).2 := by
  have hrun : (exec (step keepEnvironment) keepActions
      (start keepEnvironment pairInstances fun _ => none)).map (fun s =>
        (s.run.tasks[0]?, s.shared.store ((keepEnvironment.executor ⟨1⟩ []).filename PATH_STDOUT))) =
      some (some ⟨⟨1⟩, .finished (.ok ⟨.bestKnown 1, 1⟩)⟩, some [49, 10, 49, 10]) := by
    decide +kernel
  obtain ⟨s, hs, hstate⟩ := Option.map_eq_some_iff.mp hrun
  obtain ⟨htask, hfile⟩ := Prod.mk.inj hstate
  have hreaches : Import.Reaches importOneNode oneNodeRecord oneNodeText [49, 10, 49, 10] :=
    ⟨⟨rfl, rfl, rfl⟩, rfl, rfl, rfl⟩
  have hread : readInstance keepEnvironment.profile (encodeUtf8 oneNodeText) =
      .ok (oneNodeRecord.nodes.toNat, []) := by decide +kernel
  exact ⟨s, hs, commandRun_reimports (by decide) (by decide) hs htask (by decide) rfl rfl rfl hread
    hfile hreaches⟩

end SystemState

end StrideRunner
