import StrideRunner.Model.Commands.Run.Timed
import StrideRunner.Verification.Executor.Elapsed
import StrideRunner.Verification.System.Correctness

/-! # The time limits in the summary

Every line of the summary fits the clock: its time is within the limits, and its state tells which
of them the solver has reached. -/

namespace StrideRunner

open Library TimedExecutor

namespace RunClock

/-- The job for an instance agrees with the clock: the wait yields the exit code of its solver, and
`runtime()` is what the clock shows. -/
structure Follows (clock : RunClock) (env : RunEnvironment) (iid : IId) (data : List Char) :
    Prop where
  code : (clock.wait env iid data).1 = .ok (env.solver iid (encodeUtf8 data)).code
  runtime : clock.runtime env iid data (env.runAlone iid data).2 = some (env.runtime iid)

variable {clock : RunClock} {env : RunEnvironment} {iid : IId} {data : List Char}

theorem runtime_eq {fs : FileSystem} {code : ChildExitCode} {state : ProcessState}
    (hwait : clock.wait env iid data = (.ok code, state)) :
    clock.runtime env iid data fs = some (state.now + (clock.schedule iid).delay .elapsed) := by
  unfold wait at hwait
  simp only [runtime, TimedExecutor.run, hwait]
  rfl

/-- The executor of the job returns what it returns by the clock. -/
theorem Follows.elapsedSpec (h : clock.Follows env iid data) {answer : SolverResult}
    (hanswer : (env.runAlone iid data).1 = .ok answer) :
    ElapsedSpec (clock.executor env iid data) (clock.schedule iid)
      (clock.timeline iid (encodeUtf8 data)) answer (env.runtime iid) := by
  rcases hwait : clock.wait env iid data with ⟨outcome, state⟩
  have hcode : outcome = .ok (env.solver iid (encodeUtf8 data)).code := by
    rw [← h.code, hwait]
  subst hcode
  have hruntime := h.runtime
  rw [runtime_eq hwait] at hruntime
  rw [← Option.some.inj hruntime]
  rw [RunEnvironment.runAlone, SolverExecutor.run_eq] at hanswer
  exact elapsedSpec_of_wait hwait (Outcome.mapErr_eq_ok.mp hanswer)

end RunClock

/-! ## The lines -/

/-- The state column tells which answers of the executor are behind it. -/
theorem Job.display_of_toResultType {result : SolverResult} {info : InstanceModel}
    {state : JobResultState} (h : Job.toResultType result info = .ok state) :
    (state.display = "timeout" ↔ result = .timeout) ∧
      (state.display = "error" ↔ result = .syntaxError) := by
  cases result with
  | valid data =>
      have hscored : ∃ score, state = .bestKnown score ∨
          ∃ best, state = .suboptimal score best := by
        unfold Job.toResultType at h
        dsimp only at h
        split at h
        · cases h
          exact ⟨_, Or.inl rfl⟩
        · split at h
          · cases h
            exact ⟨_, Or.inr ⟨_, rfl⟩⟩
          · cases h
      obtain ⟨score, rfl | ⟨best, rfl⟩⟩ := hscored <;> simp [JobResultState.display]
  | validCached => cases h
  | infeasible => cases h; simp [JobResultState.display]
  | syntaxError => cases h; simp [JobResultState.display]
  | timeout => cases h; simp [JobResultState.display]
  | incompleteOutput => cases h; simp [JobResultState.display]

/-- A line of the summary and the clock. -/
structure LimitSpec (executor : TimedExecutor) (schedule : Schedule) (timeline : Timeline)
    (line : SummaryLine) : Prop where
  latest : line.timeSec ≤ executor.latest schedule timeline
  punctual : (∀ point, schedule.delay point = 0) → (∀ time, timeline.onSigkill time = 0) →
    line.timeSec ≤ executor.timeout + executor.grace
  timeout : line.state = "timeout" →
    executor.timeout ≤ line.timeSec ∧ RunsOut executor schedule timeline
  error : line.state = "error" →
    Succeeds executor schedule timeline ∨ FailsEarly executor schedule timeline
  judged : line.state ≠ "timeout" → line.state ≠ "error" → Succeeds executor schedule timeline

theorem limitSpec_of_elapsedSpec {executor : TimedExecutor} {schedule : Schedule}
    {timeline : Timeline} {iid : IId} {jobResult : JobResult} {result : SolverResult}
    {info : InstanceModel} (hstate : Job.toResultType result info = .ok jobResult.state)
    (h : ElapsedSpec executor schedule timeline result jobResult.runtime) :
    LimitSpec executor schedule timeline (logJobResult iid jobResult) := by
  obtain ⟨htimeout, herror⟩ := Job.display_of_toResultType hstate
  have hline : (logJobResult iid jobResult).state = jobResult.state.display := rfl
  refine ⟨h.latest, ?_, ?_, ?_, ?_⟩
  · intro hdelay hkill
    rw [← latest_of_punctual hdelay hkill]
    exact h.latest
  · intro hdisplay
    obtain ⟨hdeadline, hout⟩ := h.timeout (htimeout.mp (hline ▸ hdisplay))
    exact ⟨(Nat.le_add_left _ _).trans hdeadline, hout⟩
  · intro hdisplay
    exact h.syntaxError (herror.mp (hline ▸ hdisplay))
  · intro hnot hnot'
    rw [hline] at hnot hnot'
    exact h.judged (mt htimeout.mpr hnot) (mt herror.mpr hnot')

namespace SystemState

variable {env : RunEnvironment} {instances : List IId} {fs : FileSystem} {s : SystemState}
  {actions : List SystemAction}

/-- The job behind a line. -/
theorem exists_judged_of_line (hslots : 1 ≤ env.opts.parallelJobs) (hnodup : instances.Nodup)
    (hrun : exec (step env) actions (start env instances fs) = some s) {line : SummaryLine}
    (hline : line ∈ s.run.summary) :
    ∃ info data result jobResult, Judged env line.iid info data result ∧
      Job.toResultType result info = .ok jobResult.state ∧
      jobResult.runtime = env.runtime line.iid ∧ line = logJobResult line.iid jobResult := by
  obtain ⟨polled, lost, hledger, _⟩ := runInvariant hslots hrun
  obtain ⟨handle, _, hlineOf⟩ := exists_of_forall₂_mem hledger.lines hline
  obtain ⟨iid, jobResult, htask, rfl⟩ := hlineOf
  obtain ⟨info, data, result, hleaves⟩ := exists_jobLeaves hslots hnodup hrun htask
  exact ⟨info, data, result, jobResult, hleaves.judged, hleaves.state, hleaves.runtime, rfl⟩

/-- If the jobs behind the lines agree with the clock, then so do the lines. -/
theorem commandRun_inTime (hslots : 1 ≤ env.opts.parallelJobs) (hnodup : instances.Nodup)
    (hrun : exec (step env) actions (start env instances fs) = some s) {clock : RunClock}
    (hclock : ∀ line ∈ s.run.summary, ∀ info data, Fetched env line.iid info data →
      clock.Follows env line.iid data) :
    ∀ line ∈ s.run.summary, ∃ info data, Fetched env line.iid info data ∧
      LimitSpec (clock.executor env line.iid data) (clock.schedule line.iid)
        (clock.timeline line.iid (encodeUtf8 data)) line := by
  intro line hline
  obtain ⟨info, data, result, jobResult, hjudged, hstate, hruntime, hlog⟩ :=
    exists_judged_of_line hslots hnodup hrun hline
  have hfollows := hclock _ hline info data hjudged.toFetched
  have helapsed := hfollows.elapsedSpec hjudged.verdict
  rw [← hruntime] at helapsed
  refine ⟨info, data, hjudged.toFetched, ?_⟩
  rw [hlog]
  exact limitSpec_of_elapsedSpec hstate helapsed

/-- A second for the solver and another one for its end. The first solver needs half of the first
one, and the others have to be killed. -/
def pairClock : RunClock where
  timeout := 1
  grace := 1
  schedule := fun _ => ⟨fun _ => 0, fun _ => false, fun _ => none, none⟩
  timeline := fun iid _ =>
    ⟨if iid = ⟨1⟩ then some ⟨500000000, ⟨some 0⟩⟩ else none, fun _ => none, fun _ => 0⟩

def clockedEnvironment : RunEnvironment :=
  { pairEnvironment with runtime := fun iid => if iid = ⟨1⟩ then 500000000 else 2000000000 }

theorem pairClock_wait (iid : IId) (data : List Char) :
    ∃ state, pairClock.wait clockedEnvironment iid data =
        (.ok (clockedEnvironment.solver iid (encodeUtf8 data)).code, state) ∧
      state.now = clockedEnvironment.runtime iid := by
  have hin : withTimeout 0 1000000000 false
      (some (⟨500000000, .ok ⟨some 0⟩⟩ : Timed (Except IoError ExitStatus))) =
        some ⟨500000000, .ok ⟨some 0⟩⟩ := rfl
  have hnever : ∀ start duration tie, withTimeout start duration tie
      (none : Option (Timed (Except IoError ExitStatus))) = none := fun _ _ _ => rfl
  unfold RunClock.wait timeoutWaitForChildToComplete waitGrace killChild
  by_cases hfirst : iid = ⟨1⟩ <;>
    simp [RunClock.executor, RunClock.timeoutDuration, RunClock.graceDuration, pairClock,
      clockedEnvironment, pairEnvironment, hfirst, hin, hnever, spawned, Timed.shift,
      ProcessState.timeoutWait, ProcessState.waitFuture, ProcessState.waitResult,
      ProcessState.finishWait, ProcessState.sigterm, ProcessState.log, ProcessState.kill,
      ProcessState.killedExit, ProcessState.pass, ProcessState.hasEnded]

theorem pairClock_follows (iid : IId) (data : List Char) :
    pairClock.Follows clockedEnvironment iid data := by
  obtain ⟨state, hwait, hnow⟩ := pairClock_wait iid data
  refine ⟨congrArg Prod.fst hwait, ?_⟩
  rw [RunClock.runtime_eq hwait, hnow]
  rfl

theorem commandRun_inTime_pair :
    ∃ s, exec (step clockedEnvironment) pairActions
        (start clockedEnvironment pairInstances fun _ => none) = some s ∧
      s.run.summary.length = 2 ∧
      ∀ line ∈ s.run.summary, ∃ info data, Fetched clockedEnvironment line.iid info data ∧
        LimitSpec (pairClock.executor clockedEnvironment line.iid data)
          (pairClock.schedule line.iid) (pairClock.timeline line.iid (encodeUtf8 data)) line := by
  have hrun : (exec (step clockedEnvironment) pairActions
      (start clockedEnvironment pairInstances fun _ => none)).map (fun s => s.run.summary.length) =
        some 2 := by decide +kernel
  obtain ⟨s, hs, hlength⟩ := Option.map_eq_some_iff.mp hrun
  exact ⟨s, hs, hlength, commandRun_inTime (by decide) (by decide) hs fun line _ _ data _ =>
    pairClock_follows line.iid data⟩

end SystemState

end StrideRunner
