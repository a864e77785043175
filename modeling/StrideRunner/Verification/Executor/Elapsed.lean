import StrideRunner.Verification.Executor.Timeout

/-! # How long a run takes

The runtime of a solver lies between the limits, and it tells which of them the solver has
reached. -/

namespace StrideRunner

open Library

namespace ProcessState

variable {state : ProcessState} {schedule : Schedule} {timeline : Timeline}

theorem killedExit_time_le (state : ProcessState) (timeline : Timeline) :
    (state.killedExit timeline).time ≤ state.now + timeline.onSigkill state.now := by
  unfold killedExit
  cases state.exit with
  | none => exact le_rfl
  | some exit =>
      by_cases hended : exit.time ≤ state.now
      · simp only [hended, if_true]
        exact hended.trans (Nat.le_add_right _ _)
      · simp only [hended, if_false]
        exact le_rfl

/-- SIGKILL is not put off. -/
theorem now_of_kill {killed : ProcessState} (h : state.kill schedule timeline = (.ok (), killed)) :
    state.now ≤ killed.now ∧
      killed.now ≤ state.now + timeline.onSigkill state.now + schedule.delay .killResult := by
  have hexit := killedExit_time_le state timeline
  unfold kill at h
  cases hreaped : state.reaped with
  | true => simp [hreaped] at h
  | false =>
      cases hfault : schedule.killFault with
      | some error => simp [hreaped, hfault] at h
      | none =>
          simp only [hreaped, hfault, Bool.false_eq_true, if_false] at h
          rcases waitResult_cases (state.killedExit timeline) (schedule.waitFault .kill) with
            hresult | ⟨error, _, _, hresult⟩
          · rw [hresult] at h
            cases h
            simp only [finishWait, log]
            omega
          · rw [hresult] at h
            cases h

end ProcessState

/-! ## The answer without a clock -/

namespace SolverExecutor

open TimedExecutor

variable {profile : BuildProfile} {self : SolverExecutor} {fs : FileSystem} {code : ChildExitCode}
  {answer : SolverResult}

/-- The verifier does not know about time. -/
theorem verifySolution_ne_timeout : self.verifySolution profile fs ≠ .ok .timeout := by
  intro h
  unfold verifySolution at h
  obtain ⟨instanceFile, _, h⟩ := Outcome.bind_eq_ok.mp h
  obtain ⟨reader, _, h⟩ := Outcome.bind_eq_ok.mp h
  obtain ⟨edges, _, h⟩ := Outcome.bind_eq_ok.mp h
  obtain ⟨solutionFile, _, h⟩ := Outcome.bind_eq_ok.mp h
  split at h
  · split at h
    · cases h
    · split at h <;> cases h
  · obtain ⟨valid, _, h⟩ := Outcome.bind_eq_ok.mp h
    split at h
    · obtain ⟨data, _, h⟩ := Outcome.bind_eq_ok.mp h
      cases h
    · cases h

theorem judge_ne_timeout (hcode : certifies code = true)
    (h : self.judge profile code fs = .ok .timeout) : False := by
  cases code with
  | beforeTimeout status => exact verifySolution_ne_timeout ((if_pos hcode).symm.trans h)
  | withinGrace status => exact verifySolution_ne_timeout ((if_pos hcode).symm.trans h)
  | timeout => cases hcode

theorem judge_of_not_certifies (hcode : certifies code = false)
    (h : self.judge profile code fs = .ok answer) : answer = refusal code := by
  cases code with
  | beforeTimeout status =>
      exact Outcome.ok.inj (h.symm.trans (if_neg (Bool.eq_false_iff.mp hcode)))
  | withinGrace status => exact Outcome.ok.inj (h.symm.trans (if_neg (Bool.eq_false_iff.mp hcode)))
  | timeout => exact Outcome.ok.inj h.symm

end SolverExecutor

namespace TimedExecutor

variable {self : TimedExecutor} {schedule : Schedule} {timeline : Timeline}
  {code : ChildExitCode} {state : ProcessState}

/-! ## The time of the answer -/

/-- The time at which a killed solver has been reaped. -/
def reapTime (self : TimedExecutor) (schedule : Schedule) (timeline : Timeline) : ℕ :=
  self.sigkillTime schedule + timeline.onSigkill (self.sigkillTime schedule) +
    schedule.delay .killResult

/-- No run takes longer. -/
def latest (self : TimedExecutor) (schedule : Schedule) (timeline : Timeline) : ℕ :=
  self.reapTime schedule timeline + schedule.delay .elapsed

theorem sigtermTime_le_sigkillTime : self.sigtermTime schedule ≤ self.sigkillTime schedule := by
  unfold sigkillTime graceDeadline
  split <;> omega

/-- With no delays at all only the limits count. -/
theorem latest_of_punctual (hdelay : ∀ point, schedule.delay point = 0)
    (hkill : ∀ time, timeline.onSigkill time = 0) :
    self.latest schedule timeline = self.timeout + self.grace := by
  simp only [latest, reapTime, sigkillTime, graceDeadline, sigtermTime, deadline, waitStart, hdelay,
    hkill]
  split <;> omega

theorem now_of_killChild {before : ProcessState}
    (hnow : before.now + schedule.delay .sigkill = self.sigkillTime schedule)
    (h : killChild schedule timeline before = (.ok code, state)) :
    self.sigkillTime schedule ≤ state.now ∧ state.now ≤ self.reapTime schedule timeline := by
  unfold killChild at h
  rcases hkill : (before.pass (schedule.delay .sigkill)).kill schedule timeline with
    ⟨outcome, killed⟩
  rw [hkill] at h
  cases outcome with
  | ok _ =>
      cases h
      have htime := ProcessState.now_of_kill hkill
      simp only [ProcessState.pass, hnow] at htime
      exact htime
  | err error => cases h
  | panic message => cases h

theorem now_of_waitGrace
    (h : self.waitGrace schedule timeline (self.terminated schedule timeline) = (.ok code, state)) :
    self.sigtermTime schedule ≤ state.now ∧ state.now ≤ self.reapTime schedule timeline := by
  have hle : self.sigtermTime schedule ≤ self.sigkillTime schedule := sigtermTime_le_sigkillTime
  unfold waitGrace at h
  by_cases hgrace : self.grace = 0
  · rw [if_neg (not_not.mpr hgrace)] at h
    have hnow : self.sigtermTime schedule + schedule.delay .sigkill =
        self.sigkillTime schedule := by
      simp [sigkillTime, hgrace]
    have htime := now_of_killChild hnow h
    exact ⟨hle.trans htime.1, htime.2⟩
  · rw [if_pos hgrace] at h
    rcases ProcessState.timeoutWait_cases
        ((self.terminated schedule timeline).pass (schedule.delay .graceWait)) schedule .grace
        self.grace (schedule.delay .graceResult) with
      ⟨exit, _, htime, hwait⟩ | ⟨_, error, now, hwait⟩ | ⟨_, hwait⟩
    · rw [hwait] at h
      cases h
      simp only [ProcessState.pass, terminated] at htime ⊢
      simp only [reapTime, sigkillTime, hgrace, if_false, graceDeadline]
      omega
    · rw [hwait] at h
      cases h
    · rw [hwait] at h
      have hnow : (((self.terminated schedule timeline).pass (schedule.delay .graceWait)).pass
          (self.grace + schedule.delay .graceResult)).now + schedule.delay .sigkill =
            self.sigkillTime schedule := by
        simp only [ProcessState.pass, terminated, sigkillTime, hgrace, if_false, graceDeadline]
        omega
      have htime := now_of_killChild hnow h
      exact ⟨hle.trans htime.1, htime.2⟩

theorem sigterm_eq_terminated (self : TimedExecutor) (schedule : Schedule) (timeline : Timeline) :
    (((spawned schedule timeline).pass (self.timeout + schedule.delay .firstResult)).pass
      (schedule.delay .sigterm)).sigterm timeline = self.terminated schedule timeline := by
  have hnow : (spawned schedule timeline).now + (self.timeout + schedule.delay .firstResult) +
      schedule.delay .sigterm = self.sigtermTime schedule := by
    simp only [spawned, sigtermTime, deadline, waitStart]
    omega
  simp only [ProcessState.pass, ProcessState.sigterm, ProcessState.hasEnded, ProcessState.log, hnow]
  rfl

/-- The wait is over in time, and only a child that ends before the timeout is seen before. -/
theorem now_of_wait
    (h : self.timeoutWaitForChildToComplete schedule timeline (spawned schedule timeline) =
      (.ok code, state)) :
    state.now ≤ self.reapTime schedule timeline ∧
      ((∃ status, code = .beforeTimeout status) ∨ self.deadline schedule ≤ state.now) := by
  have hle : self.sigtermTime schedule ≤ self.sigkillTime schedule := sigtermTime_le_sigkillTime
  have hterm := sigterm_eq_terminated self schedule timeline
  unfold timeoutWaitForChildToComplete at h
  rcases ProcessState.timeoutWait_cases (spawned schedule timeline) schedule .timeout self.timeout
      (schedule.delay .firstResult) with
    ⟨exit, _, htime, hwait⟩ | ⟨_, error, now, hwait⟩ | ⟨_, hwait⟩
  · rw [hwait] at h
    cases h
    refine ⟨?_, Or.inl ⟨_, rfl⟩⟩
    simp only [spawned] at htime ⊢
    simp only [reapTime, sigtermTime, deadline, waitStart] at hle ⊢
    omega
  · rw [hwait] at h
    cases h
  · rw [hwait] at h
    dsimp only at h
    rw [if_neg (by simp [ProcessState.pass, spawned]), hterm] at h
    have htime := now_of_waitGrace h
    refine ⟨htime.2, Or.inr (le_trans ?_ htime.1)⟩
    unfold sigtermTime
    omega

/-! ## What the answer tells about the time -/

/-- The solver has ended successfully, by itself or in the grace period. -/
inductive Succeeds (self : TimedExecutor) (schedule : Schedule) (timeline : Timeline) : Prop
  | early {exit} (hexit : ownExit schedule timeline = some exit)
      (htime : exit.time ≤ self.deadline schedule) (hstatus : exit.value.success = true)
  | inGrace {exit} (hlate : TimedOut self schedule timeline) (hgrace : self.grace ≠ 0)
      (hexit : exitAfterSigterm schedule timeline (self.sigtermTime schedule) = some exit)
      (htime : exit.time ≤ self.graceDeadline schedule) (hstatus : exit.value.success = true)

/-- The solver has failed before the timeout. -/
def FailsEarly (self : TimedExecutor) (schedule : Schedule) (timeline : Timeline) : Prop :=
  ∃ exit, ownExit schedule timeline = some exit ∧ exit.time ≤ self.deadline schedule ∧
    exit.value.success = false

/-- The solver has reached the timeout, and no end in the grace period was a success. -/
structure RunsOut (executor : TimedExecutor) (schedule : Schedule) (timeline : Timeline) :
    Prop where
  late : TimedOut executor schedule timeline
  unsuccessful : executor.grace ≠ 0 → ∀ exit,
    exitAfterSigterm schedule timeline (executor.sigtermTime schedule) = some exit →
    exit.time < executor.graceDeadline schedule → exit.value.success = false

theorem succeeds_of_ended (h : Ended self schedule timeline (.ok code) state)
    (hcode : certifies code = true) : Succeeds self schedule timeline := by
  cases h with
  | beforeTimeout hexit htime _ _ => exact .early hexit htime hcode
  | withinGrace hlate hgrace hexit htime _ _ => exact .inGrace hlate hgrace hexit htime hcode
  | killed _ _ _ _ => cases hcode

theorem runsOut_of_ended (h : Ended self schedule timeline (.ok code) state)
    (hcode : certifies code = false) (hrefusal : refusal code = .timeout) :
    RunsOut self schedule timeline := by
  cases h with
  | beforeTimeout _ _ _ _ => cases hrefusal
  | @withinGrace exit _ hlate hgrace hexit htime _ _ =>
      refine ⟨hlate, ?_⟩
      intro _ exit' hexit' _
      cases hexit.symm.trans hexit'
      exact hcode
  | killed hlate hpassed _ _ =>
      refine ⟨hlate, ?_⟩
      intro hgrace exit hexit htime
      exact absurd (hpassed hgrace exit hexit) (Nat.not_le.mpr htime)

theorem failsEarly_of_ended (h : Ended self schedule timeline (.ok code) state)
    (hcode : certifies code = false) (hrefusal : refusal code = .syntaxError) :
    FailsEarly self schedule timeline := by
  cases h with
  | beforeTimeout hexit htime _ _ => exact ⟨_, hexit, htime, hcode⟩
  | withinGrace _ _ _ _ _ _ => cases hrefusal
  | killed _ _ _ _ => cases hrefusal

/-- What an answer and the runtime tell about each other. -/
structure ElapsedSpec (executor : TimedExecutor) (schedule : Schedule) (timeline : Timeline)
    (answer : SolverResult) (runtime : ℕ) : Prop where
  latest : runtime ≤ executor.latest schedule timeline
  timeout : answer = .timeout →
    executor.deadline schedule ≤ runtime ∧ RunsOut executor schedule timeline
  syntaxError : answer = .syntaxError →
    Succeeds executor schedule timeline ∨ FailsEarly executor schedule timeline
  judged : answer ≠ .timeout → answer ≠ .syntaxError → Succeeds executor schedule timeline

theorem elapsedSpec_of_wait {profile : BuildProfile} {fs : FileSystem} {answer : SolverResult}
    (hwait : self.timeoutWaitForChildToComplete schedule timeline (spawned schedule timeline) =
      (.ok code, state))
    (hanswer : self.toSolverExecutor.judge profile code fs = .ok answer) :
    ElapsedSpec self schedule timeline answer (state.now + schedule.delay .elapsed) := by
  obtain ⟨hlatest, hnow⟩ := now_of_wait hwait
  have hended := wait_ended self schedule timeline
  rw [hwait] at hended
  have hbound : state.now + schedule.delay .elapsed ≤ self.latest schedule timeline :=
    Nat.add_le_add_right hlatest _
  cases hcode : certifies code with
  | true =>
      have hsucceeds := succeeds_of_ended hended hcode
      refine ⟨hbound, ?_, fun _ => Or.inl hsucceeds, fun _ _ => hsucceeds⟩
      intro htimeout
      subst htimeout
      exact (SolverExecutor.judge_ne_timeout hcode hanswer).elim
  | false =>
      have hrefusal : answer = refusal code := SolverExecutor.judge_of_not_certifies hcode hanswer
      subst hrefusal
      refine ⟨hbound, ?_, fun h => Or.inr (failsEarly_of_ended hended hcode h), ?_⟩
      · intro htimeout
        refine ⟨?_, runsOut_of_ended hended hcode htimeout⟩
        obtain ⟨status, rfl⟩ | hnow := hnow
        · cases htimeout
        · exact hnow.trans (Nat.le_add_right _ _)
      · intro htimeout herror
        cases code with
        | beforeTimeout status => exact (herror rfl).elim
        | withinGrace status => exact (htimeout rfl).elim
        | timeout => exact (htimeout rfl).elim

end TimedExecutor

end StrideRunner
