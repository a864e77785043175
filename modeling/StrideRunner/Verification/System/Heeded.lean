import StrideRunner.Verification.Environment
import StrideRunner.Verification.System.TimeLimit

/-! # Solvers that heed their environment

A solver reads the two limits in its environment. If it ends in time whatever they are, then every
line of the summary is the verdict on what it has printed. -/

namespace StrideRunner

open Library TimedExecutor

/-- The solver ends successfully: by itself before the timeout, or within the grace period after
SIGTERM. -/
structure Heeds (timeline : Timeline) (timeout grace : ℕ) : Prop where
  own : ∀ exit, timeline.own = some exit → exit.value.success = true
  answers : (∃ exit, timeline.own = some exit ∧ exit.time < timeout) ∨
    ∀ time, ∃ exit, timeline.onSigterm time = some exit ∧ exit.time < grace ∧
      exit.value.success = true

namespace TimedExecutor

variable {self : TimedExecutor} {schedule : Schedule} {timeline : Timeline}

/-- Nothing but the solver's own end and its reaction to SIGTERM counts. -/
theorem exitAfterSigterm_cases (schedule : Schedule) (timeline : Timeline) (time : ℕ) :
    (∃ own, timeline.own = some own ∧ schedule.delay .spawn + own.time ≤ time ∧
      exitAfterSigterm schedule timeline time =
        some (Timed.shift (schedule.delay .spawn) own)) ∨
      exitAfterSigterm schedule timeline time =
        (timeline.onSigterm time).map (Timed.shift time) := by
  cases hown : timeline.own with
  | none => exact Or.inr (by simp [exitAfterSigterm, ownExit, hown])
  | some own =>
      by_cases htime : schedule.delay .spawn + own.time ≤ time
      · refine Or.inl ⟨own, rfl, htime, ?_⟩
        simp [exitAfterSigterm, ownExit, hown, Timed.shift, htime]
      · exact Or.inr (by simp [exitAfterSigterm, ownExit, hown, Timed.shift, htime])

/-- Once the timeout has passed, the solver reacts to SIGTERM. -/
theorem reacts_of_timedOut (h : Heeds timeline self.timeout self.grace)
    (hlate : TimedOut self schedule timeline) (time : ℕ) :
    ∃ exit, timeline.onSigterm time = some exit ∧ exit.time < self.grace ∧
      exit.value.success = true := by
  obtain ⟨own, hown, htime⟩ | hreacts := h.answers
  · have hdeadline := hlate (Timed.shift (schedule.delay .spawn) own) (by rw [ownExit, hown]; rfl)
    simp only [deadline, waitStart, Timed.shift] at hdeadline
    omega
  · exact hreacts time

/-- What the wait in the grace period sees. -/
theorem exists_exit_of_timedOut (h : Heeds timeline self.timeout self.grace)
    (hgrace : self.grace ≠ 0) (hlate : TimedOut self schedule timeline) :
    ∃ exit, exitAfterSigterm schedule timeline (self.sigtermTime schedule) = some exit ∧
      exit.time < self.graceDeadline schedule ∧ exit.value.success = true := by
  unfold graceDeadline
  obtain ⟨own, hown, htime, hexit⟩ | hexit :=
    exitAfterSigterm_cases schedule timeline (self.sigtermTime schedule)
  · refine ⟨_, hexit, ?_, h.own own hown⟩
    simp only [Timed.shift]
    omega
  · obtain ⟨reaction, hreaction, htime, hsuccess⟩ :=
      reacts_of_timedOut h hlate (self.sigtermTime schedule)
    rw [hreaction] at hexit
    refine ⟨_, hexit, ?_, hsuccess⟩
    simp only [Timed.shift]
    omega

/-- The answer after a success is the verdict on the output. -/
theorem verifySolution_of_judge {executor : SolverExecutor} {profile : BuildProfile}
    {fs : FileSystem} {code : ChildExitCode} {answer : SolverResult} (hcode : certifies code = true)
    (h : executor.judge profile code fs = .ok answer) :
    executor.verifySolution profile fs = .ok answer := by
  cases code with
  | beforeTimeout status => exact (if_pos hcode).symm.trans h
  | withinGrace status => exact (if_pos hcode).symm.trans h
  | timeout => cases hcode

/-- A solver that ends in time is not cut off, however the machine delays it. -/
theorem certifies_of_heeds {code : ChildExitCode} {state : ProcessState}
    (h : Heeds timeline self.timeout self.grace) (hgrace : self.grace ≠ 0)
    (hended : Ended self schedule timeline (.ok code) state) : certifies code = true := by
  cases hended with
  | beforeTimeout hexit _ _ _ =>
      obtain ⟨own, hown, rfl⟩ := Option.map_eq_some_iff.mp hexit
      exact h.own own hown
  | withinGrace hlate _ hexit _ _ _ =>
      obtain ⟨exit, hexit', _, hsuccess⟩ := exists_exit_of_timedOut h hgrace hlate
      cases hexit.symm.trans hexit'
      exact hsuccess
  | killed hlate hpassed _ _ =>
      obtain ⟨exit, hexit, htime, _⟩ := exists_exit_of_timedOut h hgrace hlate
      exact absurd (hpassed hgrace exit hexit) (Nat.not_le.mpr htime)

end TimedExecutor

/-! ## Runs -/

namespace RunClock

variable {clock : RunClock} {env : RunEnvironment} {iid : IId} {data : List Char}

theorem Follows.ended (h : clock.Follows env iid data) :
    ∃ state, Ended (clock.executor env iid data) (clock.schedule iid)
      (clock.timeline iid (encodeUtf8 data)) (.ok (env.solver iid (encodeUtf8 data)).code)
        state := by
  refine ⟨(clock.wait env iid data).2, ?_⟩
  rw [← h.code]
  exact wait_ended (clock.executor env iid data) (clock.schedule iid) _

/-- The executor of a solver that ends in time verifies the output. -/
theorem Follows.verdict (h : clock.Follows env iid data)
    (hheeds : Heeds (clock.timeline iid (encodeUtf8 data)) clock.timeoutDuration
      clock.graceDuration) (hgrace : 0 < clock.grace) {result : SolverResult}
    (hresult : (env.runAlone iid data).1 = .ok result) :
    (env.executor iid data).verifySolution env.profile (env.runAlone iid data).2 = .ok result := by
  obtain ⟨state, hended⟩ := h.ended
  have hcertifies := certifies_of_heeds hheeds (Nat.mul_ne_zero hgrace.ne' (by decide)) hended
  rw [RunEnvironment.runAlone, SolverExecutor.run_eq] at hresult ⊢
  exact verifySolution_of_judge hcertifies (Outcome.mapErr_eq_ok.mp hresult)

end RunClock

namespace SystemState

/-- The clock shows solvers that are given the settings of the run in their environment, together
with the record of the instance, and that heed the limits that they read there. -/
structure HeedfulClock (clock : RunClock) (settings : SolverSettings)
    (inherited : String → Option Bytes) (record : IId → InstanceRecord)
    (solver : (String → Option Bytes) → Bytes → Timeline) : Prop where
  environment : settings.noEnv = false
  timeout : settings.timeout.toNat = clock.timeout
  grace : settings.grace.toNat = clock.grace
  timeline : ∀ iid input,
    clock.timeline iid input = solver (Job.solverEnv inherited settings (record iid)) input
  heeds : ∀ (seen : String → Option Bytes) input timeout grace, 0 < grace →
    seen "STRIDE_TIMEOUT_SEC" = some (Job.number timeout) →
    seen "STRIDE_GRACE_SEC" = some (Job.number grace) →
    Heeds (solver seen input) (timeout * 1000000000) (grace * 1000000000)

theorem HeedfulClock.heeds_timeline {clock : RunClock} {settings : SolverSettings}
    {inherited : String → Option Bytes} {record : IId → InstanceRecord}
    {solver : (String → Option Bytes) → Bytes → Timeline}
    (h : HeedfulClock clock settings inherited record solver) (hgrace : 0 < clock.grace)
    (iid : IId) (input : Bytes) :
    Heeds (clock.timeline iid input) clock.timeoutDuration clock.graceDuration := by
  rw [h.timeline]
  refine h.heeds _ _ _ _ hgrace ?_ ?_
  · rw [← h.timeout]
    exact Job.solverEnv_of_mem h.environment (by simp [Job.entries, Job.settingsEntries])
  · rw [← h.grace]
    exact Job.solverEnv_of_mem h.environment (by simp [Job.entries, Job.settingsEntries])

variable {env : RunEnvironment} {instances : List IId} {fs : FileSystem} {s : SystemState}
  {actions : List SystemAction}

/-- The line says what the verifier makes of the output of the solver. -/
structure VerdictLine (env : RunEnvironment) (line : SummaryLine) : Prop where
  verdict : ∃ info data result jobResult, Fetched env line.iid info data ∧
    (env.executor line.iid data).verifySolution env.profile (env.runAlone line.iid data).2 =
      .ok result ∧
    Job.toResultType result info = .ok jobResult.state ∧ line = logJobResult line.iid jobResult
  notTimeout : line.state ≠ "timeout"

theorem commandRun_heeded (hslots : 1 ≤ env.opts.parallelJobs) (hnodup : instances.Nodup)
    (hrun : exec (step env) actions (start env instances fs) = some s) {clock : RunClock}
    (hclock : ∀ line ∈ s.run.summary, ∀ info data, Fetched env line.iid info data →
      clock.Follows env line.iid data) (hgrace : 0 < clock.grace) {settings : SolverSettings}
    {inherited : String → Option Bytes} {record : IId → InstanceRecord}
    {solver : (String → Option Bytes) → Bytes → Timeline}
    (hheeds : HeedfulClock clock settings inherited record solver) :
    ∀ line ∈ s.run.summary, VerdictLine env line := by
  intro line hline
  obtain ⟨info, data, result, jobResult, hjudged, hstate, _, hlog⟩ :=
    exists_judged_of_line hslots hnodup hrun hline
  have hfollows := hclock _ hline info data hjudged.toFetched
  have hverdict := hfollows.verdict (hheeds.heeds_timeline hgrace line.iid _) hgrace
    hjudged.verdict
  refine ⟨⟨info, data, result, jobResult, hjudged.toFetched, hverdict, hstate, hlog⟩, ?_⟩
  intro htimeout
  rw [hlog] at htimeout
  have hresult := (Job.display_of_toResultType hstate).1.mp htimeout
  exact SolverExecutor.verifySolution_ne_timeout (hresult ▸ hverdict)

/-- One and the same solver: on the first instance it ends by itself after half a second, on the
others at SIGTERM. -/
def politeSolver (seen : String → Option Bytes) (_ : Bytes) : Timeline :=
  ⟨if seen "STRIDE_IID" = some (Job.number 1) then some ⟨500000000, ⟨some 0⟩⟩ else none,
    fun _ => some ⟨0, ⟨some 0⟩⟩, fun _ => 0⟩

def politeSettings : SolverSettings := ⟨false, 1, 1, ⟨.replicate 16 0⟩, none⟩

def politeRecord (iid : IId) : InstanceRecord :=
  { iid, dataDid := ⟨5⟩, bestScore := some 1, nodes := 1, edges := 0, diameter := none
    treewidth := none, planar := some true, bipartite := none }

def politeClock : RunClock where
  timeout := 1
  grace := 1
  schedule := fun _ => ⟨fun _ => 0, fun _ => false, fun _ => none, none⟩
  timeline := fun iid => politeSolver (Job.solverEnv (fun _ => none) politeSettings
    (politeRecord iid))

def politeEnvironment : RunEnvironment :=
  { pairEnvironment with
    solver := fun iid _ =>
      ⟨[(.stdout, [49, 10]), (.stdout, [49, 10])],
        if iid = ⟨1⟩ then .beforeTimeout ⟨some 0⟩ else .withinGrace ⟨some 0⟩⟩
    runtime := fun iid => if iid = ⟨1⟩ then 500000000 else 1000000000 }

def politeActions : List SystemAction :=
  [.main none, .main none, .job 0 .proceed] ++ List.replicate 4 (.main none) ++
    (List.replicate 15 [.job 1 .proceed, .job 0 .proceed]).flatten ++ [.job 1 .proceed] ++
    List.replicate 8 (.main none)

theorem politeClock_heeds : HeedfulClock politeClock politeSettings (fun _ => none) politeRecord
    politeSolver := by
  refine ⟨rfl, rfl, rfl, fun _ _ => rfl, ?_⟩
  intro seen input timeout grace hgrace _ _
  refine ⟨?_, Or.inr fun _ => ⟨_, rfl, by simpa using hgrace, rfl⟩⟩
  intro exit hexit
  unfold politeSolver at hexit
  dsimp only at hexit
  split at hexit
  · cases hexit
    rfl
  · cases hexit

/-- The solver knows its instance from the environment. -/
theorem politeClock_timeline (iid : IId) (input : Bytes) :
    politeClock.timeline iid input =
      ⟨if iid = ⟨1⟩ then some ⟨500000000, ⟨some 0⟩⟩ else none, fun _ => some ⟨0, ⟨some 0⟩⟩,
        fun _ => 0⟩ := by
  have hseen : Job.solverEnv (fun _ => none) politeSettings (politeRecord iid) "STRIDE_IID" =
      some (Job.number iid.id.toNat) :=
    Job.solverEnv_of_mem rfl (by simp [Job.entries, Job.instanceEntries, politeRecord])
  have hiff : Job.number iid.id.toNat = Job.number 1 ↔ iid = ⟨1⟩ :=
    Job.number_iid_injective.eq_iff (b := ⟨1⟩)
  simp only [politeClock, politeSolver, hseen, Option.some.injEq, hiff]

theorem politeClock_follows (iid : IId) (data : List Char) :
    politeClock.Follows politeEnvironment iid data := by
  have hin : withTimeout 0 1000000000 false
      (some (⟨500000000, .ok ⟨some 0⟩⟩ : Timed (Except IoError ExitStatus))) =
        some ⟨500000000, .ok ⟨some 0⟩⟩ := rfl
  have hgrace : withTimeout 1000000000 1000000000 false
      (some (⟨1000000000, .ok ⟨some 0⟩⟩ : Timed (Except IoError ExitStatus))) =
        some ⟨1000000000, .ok ⟨some 0⟩⟩ := rfl
  have hnever : ∀ start duration tie, withTimeout start duration tie
      (none : Option (Timed (Except IoError ExitStatus))) = none := fun _ _ _ => rfl
  have hwait : ∃ state, politeClock.wait politeEnvironment iid data =
      (.ok (politeEnvironment.solver iid (encodeUtf8 data)).code, state) ∧
        state.now = politeEnvironment.runtime iid := by
    unfold RunClock.wait timeoutWaitForChildToComplete waitGrace
    rw [politeClock_timeline]
    by_cases hfirst : iid = ⟨1⟩ <;>
      simp [RunClock.executor, RunClock.timeoutDuration, RunClock.graceDuration, politeClock,
        politeEnvironment, pairEnvironment, hfirst, hin, hgrace, hnever, spawned, Timed.shift,
        ProcessState.timeoutWait, ProcessState.waitFuture, ProcessState.waitResult,
        ProcessState.finishWait, ProcessState.sigterm, ProcessState.log, ProcessState.pass,
        ProcessState.hasEnded]
  obtain ⟨state, hwait, hnow⟩ := hwait
  refine ⟨congrArg Prod.fst hwait, ?_⟩
  rw [RunClock.runtime_eq hwait, hnow]
  rfl

theorem commandRun_heeded_polite :
    ∃ s, exec (step politeEnvironment) politeActions
        (start politeEnvironment pairInstances fun _ => none) = some s ∧
      s.run.summary.length = 2 ∧ ∀ line ∈ s.run.summary, VerdictLine politeEnvironment line := by
  have hrun : (exec (step politeEnvironment) politeActions
      (start politeEnvironment pairInstances fun _ => none)).map (fun s => s.run.summary.length) =
        some 2 := by decide +kernel
  obtain ⟨s, hs, hlength⟩ := Option.map_eq_some_iff.mp hrun
  exact ⟨s, hs, hlength, commandRun_heeded (by decide) (by decide) hs
    (fun line _ _ data _ => politeClock_follows line.iid data) Nat.one_pos politeClock_heeds⟩

end SystemState

end StrideRunner
