import StrideRunner.Model.Utils.SolverTimeout
import StrideRunner.Verification.Executor.Refinement

/-! # The timeout protocol

How the wait for a solver can end, as a list of rules; the order of the signals and the verdict are
read off the rules. -/

namespace StrideRunner

open Library

/-! ## One wait -/

namespace ProcessState

variable {state : ProcessState} {schedule : Schedule} {call : WaitCall} {duration delay : ℕ}

/-- The result of a wait that is not cut off. -/
theorem waitResult_cases (exit : Timed ExitStatus) (fault : Option (Timed IoError)) :
    waitResult exit fault = ⟨exit.time, .ok exit.value⟩ ∨
      ∃ error, fault = some error ∧ error.time < exit.time ∧
        waitResult exit fault = ⟨error.time, .error error.value⟩ := by
  cases fault with
  | none => exact Or.inl rfl
  | some error =>
      by_cases htime : exit.time ≤ error.time
      · exact Or.inl (if_pos htime)
      · exact Or.inr ⟨error, rfl, Nat.lt_of_not_le htime, if_neg htime⟩

/-- A bounded wait ends with the child's end, with an error, or at its deadline. -/
theorem timeoutWait_cases (state : ProcessState) (schedule : Schedule) (call : WaitCall)
    (duration delay : ℕ) :
    (∃ exit, state.exit = some exit ∧ exit.time ≤ state.now + duration ∧
      state.timeoutWait schedule call duration delay = (some (.ok exit.value),
        { state with now := max state.now exit.time + delay, reaped := true })) ∨
    (schedule.waitFault call ≠ none ∧ ∃ error now,
      state.timeoutWait schedule call duration delay =
        (some (.error error), { state with now := now })) ∨
    ((∀ exit, state.exit = some exit →
        state.now < exit.time ∧ state.now + duration ≤ exit.time) ∧
      state.timeoutWait schedule call duration delay = (none, state.pass (duration + delay))) := by
  cases hwait : withTimeout state.now duration (schedule.tie call)
      (state.waitFuture (schedule.waitFault call)) with
  | none =>
      refine Or.inr (Or.inr ⟨?_, by simp [timeoutWait, hwait]⟩)
      intro exit hexit
      have hfuture : state.waitFuture (schedule.waitFault call) =
          some (waitResult exit (schedule.waitFault call)) := by simp [waitFuture, hexit]
      have hlate := le_time_of_withTimeout_eq_none hwait hfuture
      rcases waitResult_cases exit (schedule.waitFault call) with hresult | ⟨_, _, hlt, hresult⟩
      · simpa [hresult] using hlate
      · rw [hresult] at hlate
        dsimp only at hlate
        omega
  | some result =>
      have hfuture := eq_some_of_withTimeout hwait
      have htime := time_le_of_withTimeout hwait
      have heq : state.timeoutWait schedule call duration delay =
          (some result.value, state.finishWait delay result) := by simp [timeoutWait, hwait]
      rcases Option.eq_none_or_eq_some state.exit with hexit | ⟨exit, hexit⟩
      · right
        left
        simp only [waitFuture, hexit, Option.map_eq_some_iff] at hfuture
        obtain ⟨error, hfault, rfl⟩ := hfuture
        exact ⟨by simp [hfault], error.value, _, heq⟩
      · simp only [waitFuture, hexit, Option.some.injEq] at hfuture
        rcases waitResult_cases exit (schedule.waitFault call) with
          hresult | ⟨error, hfault, _, hresult⟩
        · left
          rw [hresult] at hfuture
          subst hfuture
          exact ⟨exit, hexit, htime, heq⟩
        · right
          left
          rw [hresult] at hfuture
          subst hfuture
          exact ⟨by simp [hfault], error.value, _, heq⟩

/-- SIGKILL ends the child, and the wait behind it reaps the child unless a call fails. -/
theorem kill_cases (schedule : Schedule) (timeline : Timeline) (hreaped : state.reaped = false) :
    (∃ killed : ProcessState, state.kill schedule timeline = (.ok (), killed) ∧
      (∃ exit, killed.exit = some exit ∧ exit.time ≤ killed.now) ∧ killed.reaped = true ∧
      killed.events = state.events ++ [⟨state.now, .sigkill⟩]) ∨
    (schedule.killFault ≠ none ∧
      ∃ error, state.kill schedule timeline = (.err error, state)) ∨
    (schedule.waitFault .kill ≠ none ∧ ∃ error failed,
      state.kill schedule timeline = (.err error, failed) ∧
      failed.events = state.events ++ [⟨state.now, .sigkill⟩]) := by
  simp only [kill, hreaped, Bool.false_eq_true, if_false]
  cases schedule.killFault with
  | some error => exact Or.inr (Or.inl ⟨by simp, error, rfl⟩)
  | none =>
      dsimp only
      rcases waitResult_cases (state.killedExit timeline) (schedule.waitFault .kill) with
        hresult | ⟨error, hwait, _, hresult⟩
      · left
        rw [hresult]
        refine ⟨_, rfl, ⟨_, rfl, ?_⟩, rfl, rfl⟩
        simp only [finishWait]
        omega
      · right
        right
        rw [hresult]
        exact ⟨by simp [hwait], error.value, _, rfl, rfl⟩

end ProcessState

/-! ## The whole wait -/

namespace TimedExecutor

variable {self : TimedExecutor} {schedule : Schedule} {timeline : Timeline}

def waitStart (schedule : Schedule) : ℕ := schedule.delay .spawn + schedule.delay .firstWait

def deadline (self : TimedExecutor) (schedule : Schedule) : ℕ := waitStart schedule + self.timeout

/-- How the solver ends without a signal. -/
def ownExit (schedule : Schedule) (timeline : Timeline) : Option (Timed ExitStatus) :=
  timeline.own.map (Timed.shift (schedule.delay .spawn))

/-- How the solver ends when SIGTERM is sent at `time`. -/
def exitAfterSigterm (schedule : Schedule) (timeline : Timeline) (time : ℕ) :
    Option (Timed ExitStatus) :=
  if (ownExit schedule timeline).any fun exit => exit.time ≤ time then ownExit schedule timeline
  else (timeline.onSigterm time).map (Timed.shift time)

def sigtermTime (self : TimedExecutor) (schedule : Schedule) : ℕ :=
  self.deadline schedule + schedule.delay .firstResult + schedule.delay .sigterm

def graceDeadline (self : TimedExecutor) (schedule : Schedule) : ℕ :=
  self.sigtermTime schedule + schedule.delay .graceWait + self.grace

/-- Without a grace period SIGKILL follows SIGTERM at once. -/
def sigkillTime (self : TimedExecutor) (schedule : Schedule) : ℕ :=
  (if self.grace = 0 then self.sigtermTime schedule
    else self.graceDeadline schedule + schedule.delay .graceResult) + schedule.delay .sigkill

/-- The child has ended and has been reaped. -/
structure Finished (state : ProcessState) (exit : Timed ExitStatus) : Prop where
  exit_eq : state.exit = some exit
  time_le : exit.time ≤ state.now
  reaped : state.reaped = true

/-- The timeout has passed, and the solver has not ended before. -/
def TimedOut (self : TimedExecutor) (schedule : Schedule) (timeline : Timeline) : Prop :=
  ∀ exit, ownExit schedule timeline = some exit → self.deadline schedule ≤ exit.time

/-- The grace period, if there is one, has passed, and the solver has not ended before. -/
def GracePassed (self : TimedExecutor) (schedule : Schedule) (timeline : Timeline) : Prop :=
  self.grace ≠ 0 → ∀ exit, exitAfterSigterm schedule timeline (self.sigtermTime schedule) =
    some exit → self.graceDeadline schedule ≤ exit.time

/-- Every call of `wait`, and `kill`, succeeds. -/
structure Faultless (schedule : Schedule) : Prop where
  wait : ∀ call, schedule.waitFault call = none
  kill : schedule.killFault = none

/-- The solver does not end by itself up to the timeout. -/
def Outlives (self : TimedExecutor) (schedule : Schedule) (timeline : Timeline) : Prop :=
  ∀ exit, ownExit schedule timeline = some exit → self.deadline schedule < exit.time

/-- After SIGTERM it does not end up to the end of the grace period either, if there is one. -/
def OutlivesGrace (self : TimedExecutor) (schedule : Schedule) (timeline : Timeline) : Prop :=
  self.grace ≠ 0 → ∀ exit, exitAfterSigterm schedule timeline (self.sigtermTime schedule) =
    some exit → self.graceDeadline schedule < exit.time

/-- The solver ends successfully before one of the deadlines. -/
def SucceedsInTime (self : TimedExecutor) (schedule : Schedule) (timeline : Timeline) : Prop :=
  (∃ exit, ownExit schedule timeline = some exit ∧ exit.time < self.deadline schedule ∧
    exit.value.success = true) ∨
  (self.Outlives schedule timeline ∧ self.grace ≠ 0 ∧ ∃ exit,
    exitAfterSigterm schedule timeline (self.sigtermTime schedule) = some exit ∧
    exit.time < self.graceDeadline schedule ∧ exit.value.success = true)

/-- The ways in which the wait ends, with the signals that have been sent. -/
inductive Ended (self : TimedExecutor) (schedule : Schedule) (timeline : Timeline) :
    Outcome IoError ChildExitCode → ProcessState → Prop
  | beforeTimeout {exit state} (hexit : ownExit schedule timeline = some exit)
      (htime : exit.time ≤ self.deadline schedule) (hfinished : Finished state exit)
      (hevents : state.events = []) :
      Ended self schedule timeline (.ok (.beforeTimeout exit.value)) state
  | waitFailed {error state} (hfault : schedule.waitFault .timeout ≠ none)
      (hevents : state.events = []) : Ended self schedule timeline (.err error) state
  | withinGrace {exit state} (hlate : TimedOut self schedule timeline) (hgrace : self.grace ≠ 0)
      (hexit : exitAfterSigterm schedule timeline (self.sigtermTime schedule) = some exit)
      (htime : exit.time ≤ self.graceDeadline schedule) (hfinished : Finished state exit)
      (hevents : state.events = [⟨self.sigtermTime schedule, .sigterm⟩]) :
      Ended self schedule timeline (.ok (.withinGrace exit.value)) state
  | graceFailed {error state} (hlate : TimedOut self schedule timeline)
      (hfault : schedule.waitFault .grace ≠ none)
      (hevents : state.events = [⟨self.sigtermTime schedule, .sigterm⟩]) :
      Ended self schedule timeline (.err error) state
  | killed {exit state} (hlate : TimedOut self schedule timeline)
      (hpassed : GracePassed self schedule timeline) (hfinished : Finished state exit)
      (hevents : state.events = [⟨self.sigtermTime schedule, .sigterm⟩,
        ⟨self.sigkillTime schedule, .sigkill⟩]) :
      Ended self schedule timeline (.ok .timeout) state
  | killFailed {error state} (hlate : TimedOut self schedule timeline)
      (hpassed : GracePassed self schedule timeline) (hfault : schedule.killFault ≠ none)
      (hevents : state.events = [⟨self.sigtermTime schedule, .sigterm⟩]) :
      Ended self schedule timeline (.err error) state
  | reapFailed {error state} (hlate : TimedOut self schedule timeline)
      (hpassed : GracePassed self schedule timeline) (hfault : schedule.waitFault .kill ≠ none)
      (hevents : state.events = [⟨self.sigtermTime schedule, .sigterm⟩,
        ⟨self.sigkillTime schedule, .sigkill⟩]) :
      Ended self schedule timeline (.err error) state

/-- The state in which SIGTERM has just been sent. -/
def terminated (self : TimedExecutor) (schedule : Schedule) (timeline : Timeline) : ProcessState :=
  ⟨self.sigtermTime schedule,
    exitAfterSigterm schedule timeline (self.sigtermTime schedule), false,
    [⟨self.sigtermTime schedule, .sigterm⟩]⟩

theorem killChild_ended {state : ProcessState} (hlate : TimedOut self schedule timeline)
    (hpassed : GracePassed self schedule timeline) (hreaped : state.reaped = false)
    (hnow : state.now + schedule.delay .sigkill = self.sigkillTime schedule)
    (hevents : state.events = [⟨self.sigtermTime schedule, .sigterm⟩]) :
    Ended self schedule timeline (killChild schedule timeline state).1
      (killChild schedule timeline state).2 := by
  have hpass : (state.pass (schedule.delay .sigkill)).reaped = false := hreaped
  have htime : (state.pass (schedule.delay .sigkill)).now = self.sigkillTime schedule := hnow
  have hlog : (state.pass (schedule.delay .sigkill)).events =
      [⟨self.sigtermTime schedule, .sigterm⟩] := hevents
  unfold killChild
  rcases ProcessState.kill_cases schedule timeline hpass with
    ⟨killed, hkill, ⟨exit, hexit, hle⟩, hdone, hend⟩ | ⟨hfault, error, hkill⟩ |
      ⟨hfault, error, failed, hkill, hend⟩
  · rw [hlog, htime] at hend
    rw [hkill]
    exact .killed hlate hpassed ⟨hexit, hle, hdone⟩ hend
  · rw [hkill]
    exact .killFailed hlate hpassed hfault hlog
  · rw [hlog, htime] at hend
    rw [hkill]
    exact .reapFailed hlate hpassed hfault hend

theorem waitGrace_ended (hlate : TimedOut self schedule timeline) :
    Ended self schedule timeline
      (self.waitGrace schedule timeline (self.terminated schedule timeline)).1
      (self.waitGrace schedule timeline (self.terminated schedule timeline)).2 := by
  unfold waitGrace
  by_cases hgrace : self.grace = 0
  · rw [if_neg (not_not.mpr hgrace)]
    have hnow : self.sigtermTime schedule + schedule.delay .sigkill =
        self.sigkillTime schedule := by
      simp [sigkillTime, hgrace]
    exact killChild_ended hlate (fun h => (h hgrace).elim) rfl hnow rfl
  · rw [if_pos hgrace]
    rcases ProcessState.timeoutWait_cases
        ((self.terminated schedule timeline).pass (schedule.delay .graceWait)) schedule .grace
        self.grace (schedule.delay .graceResult) with
      ⟨exit, hexit, htime, hwait⟩ | ⟨hfault, error, now, hwait⟩ | ⟨hpassed, hwait⟩
    · rw [hwait]
      exact .withinGrace hlate hgrace hexit htime
        ⟨hexit, (le_max_right _ _).trans (Nat.le_add_right _ _), rfl⟩ rfl
    · rw [hwait]
      exact .graceFailed hlate hfault rfl
    · rw [hwait]
      apply killChild_ended hlate (fun _ exit hexit => (hpassed exit hexit).2) rfl ?_ rfl
      simp only [ProcessState.pass, terminated, sigkillTime, hgrace, if_false, graceDeadline]
      omega

/-- Each wait ends in one of the ways above. -/
theorem wait_ended (self : TimedExecutor) (schedule : Schedule) (timeline : Timeline) :
    Ended self schedule timeline
      (self.timeoutWaitForChildToComplete schedule timeline (spawned schedule timeline)).1
      (self.timeoutWaitForChildToComplete schedule timeline (spawned schedule timeline)).2 := by
  unfold timeoutWaitForChildToComplete
  rcases ProcessState.timeoutWait_cases (spawned schedule timeline) schedule .timeout self.timeout
      (schedule.delay .firstResult) with
    ⟨exit, hexit, htime, hwait⟩ | ⟨hfault, error, now, hwait⟩ | ⟨hlate, hwait⟩
  · rw [hwait]
    exact .beforeTimeout hexit htime
      ⟨hexit, (le_max_right _ _).trans (Nat.le_add_right _ _), rfl⟩ rfl
  · rw [hwait]
    exact .waitFailed hfault rfl
  · have hnow : (spawned schedule timeline).now + (self.timeout + schedule.delay .firstResult) +
        schedule.delay .sigterm = self.sigtermTime schedule := by
      simp only [spawned, sigtermTime, deadline, waitStart]
      omega
    have hterm : (((spawned schedule timeline).pass (self.timeout + schedule.delay .firstResult)).pass
        (schedule.delay .sigterm)).sigterm timeline = self.terminated schedule timeline := by
      simp only [ProcessState.pass, ProcessState.sigterm, ProcessState.hasEnded, ProcessState.log,
        hnow]
      rfl
    have hended : Ended self schedule timeline _ _ :=
      waitGrace_ended fun exit hexit => (hlate exit hexit).2
    rw [← hterm] at hended
    rw [hwait]
    exact hended

/-! ## The verdict -/

section

variable (profile : BuildProfile) (executor : TimedExecutor) (schedule : Schedule)
  (timeline : Timeline) (fs : FileSystem)

/-- The result of `run`, once the solver has been spawned. -/
def result : Outcome ExecutorError SolverResult :=
  (run profile executor schedule (.ok timeline) fs).1

def final : ProcessState := (run profile executor schedule (.ok timeline) fs).2.2

/-- If `run` answers at all, then with `answer`, and it does if the call of `wait` succeeds. -/
structure Answers (call : WaitCall) (answer : SolverResult) : Prop where
  of_no_fault : schedule.waitFault call = none →
    result profile executor schedule timeline fs = .ok answer
  unique : ∀ other, result profile executor schedule timeline fs = .ok other → other = answer

/-- The solver has ended successfully before the timeout or in the grace period. -/
def EndedInTime : Prop :=
  ∃ exit, Finished (final profile executor schedule timeline fs) exit ∧ exit.value.success = true ∧
    ((ownExit schedule timeline = some exit ∧ exit.time ≤ executor.deadline schedule) ∨
      ∃ sent, ⟨sent, .sigterm⟩ ∈ (final profile executor schedule timeline fs).events ∧
        exitAfterSigterm schedule timeline sent = some exit ∧
        exit.time ≤ sent + schedule.delay .graceWait + executor.grace)

/-- When the signals are sent, their order, and what they mean for the verdict. -/
structure TimeoutSpec : Prop where
  sigterm_sent : schedule.waitFault .timeout = none → executor.Outlives schedule timeline →
    ⟨executor.sigtermTime schedule, .sigterm⟩ ∈ (final profile executor schedule timeline fs).events
  sigkill_sent : (∀ call ≠ .kill, schedule.waitFault call = none) → schedule.killFault = none →
    executor.Outlives schedule timeline → executor.OutlivesGrace schedule timeline →
    ⟨executor.sigkillTime schedule, .sigkill⟩ ∈ (final profile executor schedule timeline fs).events
  timed_out : Faultless schedule → executor.Outlives schedule timeline →
    (executor.grace ≠ 0 → ∀ exit,
      exitAfterSigterm schedule timeline (executor.sigtermTime schedule) = some exit →
      exit.time ≤ executor.graceDeadline schedule → exit.value.success = false) →
    result profile executor schedule timeline fs = .ok .timeout
  verified : Faultless schedule → executor.SucceedsInTime schedule timeline →
    result profile executor schedule timeline fs =
      (executor.toSolverExecutor.verifySolution profile fs).mapErr fun error => ⟨none, error⟩
  sigterm_late : ∀ sent, ⟨sent, .sigterm⟩ ∈ (final profile executor schedule timeline fs).events →
    executor.deadline schedule ≤ sent ∧
      ∀ exit, ownExit schedule timeline = some exit → executor.deadline schedule ≤ exit.time
  sigkill_late : ∀ killed,
    ⟨killed, .sigkill⟩ ∈ (final profile executor schedule timeline fs).events →
    ∃ sent, ⟨sent, .sigterm⟩ ∈ (final profile executor schedule timeline fs).events ∧
      sent + executor.grace ≤ killed ∧
      (executor.grace = 0 → killed = sent + schedule.delay .sigkill) ∧
      (executor.grace ≠ 0 → ∀ exit, exitAfterSigterm schedule timeline sent = some exit →
        sent + executor.grace ≤ exit.time)
  stdout_read : ∀ read, ⟨read, .readStdout⟩ ∈ (final profile executor schedule timeline fs).events →
    EndedInTime profile executor schedule timeline fs
  certified : ∀ answer, result profile executor schedule timeline fs = .ok answer →
    answer ≠ .syntaxError → answer ≠ .timeout → EndedInTime profile executor schedule timeline fs
  failed_early : ∀ exit, ownExit schedule timeline = some exit →
    exit.time < executor.deadline schedule → exit.value.success = false →
    Answers profile executor schedule timeline fs .timeout .syntaxError
  failed_in_grace : ∀ sent exit,
    ⟨sent, .sigterm⟩ ∈ (final profile executor schedule timeline fs).events → executor.grace ≠ 0 →
    exitAfterSigterm schedule timeline sent = some exit →
    exit.time < sent + schedule.delay .graceWait + executor.grace → exit.value.success = false →
    Answers profile executor schedule timeline fs .grace .timeout
  killed : ∀ killed, ⟨killed, .sigkill⟩ ∈ (final profile executor schedule timeline fs).events →
    Answers profile executor schedule timeline fs .kill .timeout
  finished : ∀ answer, result profile executor schedule timeline fs = .ok answer →
    (∃ exit, Finished (final profile executor schedule timeline fs) exit) ∧
      (run profile executor schedule (.ok timeline) fs).2.1.runtime.isSome
  not_spawned : ∀ error answer, (run profile executor schedule (.error error) fs).1 ≠ .ok answer

end

variable {profile : BuildProfile} {fs : FileSystem} {code : ChildExitCode} {state : ProcessState}

/-- The exit codes after which the solver's output is read. -/
def certifies : ChildExitCode → Bool
  | .beforeTimeout status => status.success
  | .withinGrace status => status.success
  | .timeout => false

/-- The answer after any other exit code. -/
def refusal : ChildExitCode → SolverResult
  | .beforeTimeout _ => .syntaxError
  | .withinGrace _ => .timeout
  | .timeout => .timeout

theorem certify_of_certifies (h : certifies code = true) :
    self.certify profile code fs state =
      ((self.toSolverExecutor.verifySolution profile fs).mapErr fun error => ⟨none, error⟩,
        state.log .readStdout) := by
  cases code with
  | beforeTimeout status => exact if_pos h
  | withinGrace status => exact if_pos h
  | timeout => cases h

theorem certify_of_not_certifies (h : certifies code = false) :
    self.certify profile code fs state = (.ok (refusal code), state) := by
  cases code with
  | beforeTimeout status => exact if_neg (Bool.eq_false_iff.mp h)
  | withinGrace status => exact if_neg (Bool.eq_false_iff.mp h)
  | timeout => rfl

/-- How `run` goes on after the wait. -/
theorem run_cases (profile : BuildProfile) (self : TimedExecutor) (schedule : Schedule)
    (timeline : Timeline) (fs : FileSystem) :
    (∃ error state, Ended self schedule timeline (.err error) state ∧
      result profile self schedule timeline fs = .err ⟨none, error⟩ ∧
      final profile self schedule timeline fs = state) ∨
    ∃ code state, Ended self schedule timeline (.ok code) state ∧
      (run profile self schedule (.ok timeline) fs).2.1.runtime.isSome ∧
      (result profile self schedule timeline fs, final profile self schedule timeline fs) =
        self.certify profile code fs (state.pass (schedule.delay .elapsed)) := by
  have hended := wait_ended self schedule timeline
  rcases hwait : self.timeoutWaitForChildToComplete schedule timeline (spawned schedule timeline)
    with ⟨code, state⟩
  rw [hwait] at hended
  cases code with
  | ok code =>
      right
      refine ⟨code, state, hended, ?_, ?_⟩
      · simp [run, hwait]
      · simp only [result, final, run, hwait]
        rfl
  | err error => exact Or.inl ⟨error, state, hended, by simp [result, run, hwait],
      by simp [final, run, hwait]⟩
  | panic message => cases hended

theorem finished_of_ended (h : Ended self schedule timeline (.ok code) state) :
    ∃ exit, Finished state exit := by
  cases h with
  | beforeTimeout _ _ hfinished _ => exact ⟨_, hfinished⟩
  | withinGrace _ _ _ _ hfinished _ => exact ⟨_, hfinished⟩
  | killed _ _ hfinished _ => exact ⟨_, hfinished⟩

theorem Ended.sigterm {code : Outcome IoError ChildExitCode} {sent : ℕ}
    (h : Ended self schedule timeline code state) (hsent : ⟨sent, .sigterm⟩ ∈ state.events) :
    sent = self.sigtermTime schedule ∧ TimedOut self schedule timeline := by
  cases h with
  | beforeTimeout _ _ _ hevents => simp [hevents] at hsent
  | waitFailed _ hevents => simp [hevents] at hsent
  | withinGrace hlate _ _ _ _ hevents => exact ⟨by simpa [hevents] using hsent, hlate⟩
  | graceFailed hlate _ hevents => exact ⟨by simpa [hevents] using hsent, hlate⟩
  | killed hlate _ _ hevents => exact ⟨by simpa [hevents] using hsent, hlate⟩
  | killFailed hlate _ _ hevents => exact ⟨by simpa [hevents] using hsent, hlate⟩
  | reapFailed hlate _ _ hevents => exact ⟨by simpa [hevents] using hsent, hlate⟩

/-- SIGKILL is sent in two of the cases only, and the child is reaped or `wait` fails. -/
theorem Ended.sigkill {code : Outcome IoError ChildExitCode} {killed : ℕ}
    (h : Ended self schedule timeline code state) (hkilled : ⟨killed, .sigkill⟩ ∈ state.events) :
    killed = self.sigkillTime schedule ∧ GracePassed self schedule timeline ∧
      ⟨self.sigtermTime schedule, .sigterm⟩ ∈ state.events ∧
      (code = .ok .timeout ∨ ∃ error, code = .err error ∧ schedule.waitFault .kill ≠ none) := by
  cases h with
  | beforeTimeout _ _ _ hevents => simp [hevents] at hkilled
  | waitFailed _ hevents => simp [hevents] at hkilled
  | withinGrace _ _ _ _ _ hevents => simp [hevents] at hkilled
  | graceFailed _ _ hevents => simp [hevents] at hkilled
  | killFailed _ _ _ hevents => simp [hevents] at hkilled
  | killed _ hpassed _ hevents =>
      exact ⟨by simpa [hevents] using hkilled, hpassed, by simp [hevents], Or.inl rfl⟩
  | reapFailed _ hpassed hfault hevents =>
      exact ⟨by simpa [hevents] using hkilled, hpassed, by simp [hevents],
        Or.inr ⟨_, rfl, hfault⟩⟩

/-- The final state of a run whose wait has ended with `code`. -/
structure RunSpec (profile : BuildProfile) (executor : TimedExecutor) (schedule : Schedule)
    (timeline : Timeline) (fs : FileSystem) (code : Outcome IoError ChildExitCode)
    (state : ProcessState) : Prop where
  ended : Ended executor schedule timeline code state
  signals : ∀ time event, event ≠ .readStdout →
    (⟨time, event⟩ ∈ (final profile executor schedule timeline fs).events ↔
      ⟨time, event⟩ ∈ state.events)
  of_err : ∀ error, code = .err error →
    result profile executor schedule timeline fs = .err ⟨none, error⟩ ∧
      (final profile executor schedule timeline fs).events = state.events
  of_ok : ∀ exitCode, code = .ok exitCode →
    (run profile executor schedule (.ok timeline) fs).2.1.runtime.isSome ∧
      ∀ exit, Finished state exit → Finished (final profile executor schedule timeline fs) exit
  refused : ∀ exitCode, code = .ok exitCode → certifies exitCode = false →
    result profile executor schedule timeline fs = .ok (refusal exitCode) ∧
      (final profile executor schedule timeline fs).events = state.events
  verified : ∀ exitCode, code = .ok exitCode → certifies exitCode = true →
    result profile executor schedule timeline fs =
      (executor.toSolverExecutor.verifySolution profile fs).mapErr fun error => ⟨none, error⟩

theorem Finished.of_certify {exit : Timed ExitStatus} (h : Finished state exit) :
    Finished (self.certify profile code fs (state.pass (schedule.delay .elapsed))).2 exit := by
  have hpass : Finished (state.pass (schedule.delay .elapsed)) exit :=
    ⟨h.exit_eq, h.time_le.trans (Nat.le_add_right _ _), h.reaped⟩
  cases hcode : certifies code with
  | true =>
      rw [certify_of_certifies hcode]
      exact ⟨hpass.exit_eq, hpass.time_le, hpass.reaped⟩
  | false =>
      rw [certify_of_not_certifies hcode]
      exact hpass

theorem exists_runSpec (profile : BuildProfile) (self : TimedExecutor) (schedule : Schedule)
    (timeline : Timeline) (fs : FileSystem) :
    ∃ code state, RunSpec profile self schedule timeline fs code state := by
  rcases run_cases profile self schedule timeline fs with
    ⟨error, state, hended, hresult, hfinal⟩ | ⟨code, state, hended, hruntime, hcertify⟩
  · refine ⟨.err error, state, hended, ?_, ?_, ?_, ?_, ?_⟩
    · intro time event _
      rw [hfinal]
    · rintro _ ⟨⟩
      exact ⟨hresult, by rw [hfinal]⟩
    · rintro _ ⟨⟩
    · rintro _ ⟨⟩
    · rintro _ ⟨⟩
  · have hfinal : final profile self schedule timeline fs =
        (self.certify profile code fs (state.pass (schedule.delay .elapsed))).2 :=
      congrArg Prod.snd hcertify
    refine ⟨.ok code, state, hended, ?_, ?_, ?_, ?_, ?_⟩
    · intro time event hevent
      rw [hfinal]
      cases hcode : certifies code with
      | true => simp [certify_of_certifies hcode, ProcessState.log, ProcessState.pass, hevent]
      | false => simp [certify_of_not_certifies hcode, ProcessState.pass]
    · rintro _ ⟨⟩
    · rintro _ ⟨⟩
      exact ⟨hruntime, fun exit h => hfinal ▸ h.of_certify⟩
    · rintro _ ⟨⟩ hcode
      rw [certify_of_not_certifies hcode] at hcertify
      exact ⟨congrArg Prod.fst hcertify, by rw [hfinal, certify_of_not_certifies hcode]; rfl⟩
    · rintro _ ⟨⟩ hcode
      rw [certify_of_certifies hcode] at hcertify
      exact congrArg Prod.fst hcertify

theorem Ended.readStdout_notMem {code : Outcome IoError ChildExitCode} {read : ℕ}
    (h : Ended self schedule timeline code state) : ⟨read, .readStdout⟩ ∉ state.events := by
  cases h with
  | beforeTimeout _ _ _ hevents => simp [hevents]
  | waitFailed _ hevents => simp [hevents]
  | withinGrace _ _ _ _ _ hevents => simp [hevents]
  | graceFailed _ _ hevents => simp [hevents]
  | killed _ _ _ hevents => simp [hevents]
  | killFailed _ _ _ hevents => simp [hevents]
  | reapFailed _ _ _ hevents => simp [hevents]

namespace RunSpec

theorem endedInTime (h : RunSpec profile self schedule timeline fs (.ok code) state)
    (hcode : certifies code = true) : EndedInTime profile self schedule timeline fs := by
  have hfinal := (h.of_ok code rfl).2
  cases h.ended with
  | @beforeTimeout exit _ hexit htime hfinished hevents =>
      exact ⟨exit, hfinal exit hfinished, hcode, Or.inl ⟨hexit, htime⟩⟩
  | @withinGrace exit _ hlate hgrace hexit htime hfinished hevents =>
      refine ⟨exit, hfinal exit hfinished, hcode,
        Or.inr ⟨self.sigtermTime schedule, ?_, hexit, htime⟩⟩
      apply (h.signals _ _ (by simp)).mpr
      simp [hevents]
  | killed hlate hpassed hfinished hevents => cases hcode

variable {outcome : Outcome IoError ChildExitCode}

theorem sigterm (h : RunSpec profile self schedule timeline fs outcome state) {sent : ℕ}
    (hsent : ⟨sent, .sigterm⟩ ∈ (final profile self schedule timeline fs).events) :
    sent = self.sigtermTime schedule ∧ TimedOut self schedule timeline :=
  h.ended.sigterm ((h.signals _ _ (by simp)).mp hsent)

theorem sigkill (h : RunSpec profile self schedule timeline fs outcome state) {killed : ℕ}
    (hkilled : ⟨killed, .sigkill⟩ ∈ (final profile self schedule timeline fs).events) :
    killed = self.sigkillTime schedule ∧ GracePassed self schedule timeline ∧
      ⟨self.sigtermTime schedule, .sigterm⟩ ∈ (final profile self schedule timeline fs).events ∧
      (outcome = .ok .timeout ∨ ∃ error, outcome = .err error ∧ schedule.waitFault .kill ≠ none) := by
  obtain ⟨htime, hpassed, hsent, hend⟩ := h.ended.sigkill ((h.signals _ _ (by simp)).mp hkilled)
  exact ⟨htime, hpassed, (h.signals _ _ (by simp)).mpr hsent, hend⟩

theorem answers_of_ok (h : RunSpec profile self schedule timeline fs (.ok code) state)
    (hcode : certifies code = false) (call : WaitCall) :
    Answers profile self schedule timeline fs call (refusal code) := by
  obtain ⟨hresult, _⟩ := h.refused code rfl hcode
  exact ⟨fun _ => hresult, fun other hother => (Outcome.ok.inj (hresult.symm.trans hother)).symm⟩

theorem answers_of_err {error : IoError} {call : WaitCall} {answer : SolverResult}
    (h : RunSpec profile self schedule timeline fs (.err error) state)
    (hfault : schedule.waitFault call ≠ none) :
    Answers profile self schedule timeline fs call answer := by
  obtain ⟨hresult, _⟩ := h.of_err error rfl
  refine ⟨fun hnone => (hfault hnone).elim, ?_⟩
  intro other hother
  cases hresult.symm.trans hother

theorem stdout_read (h : RunSpec profile self schedule timeline fs outcome state) {read : ℕ}
    (hread : ⟨read, .readStdout⟩ ∈ (final profile self schedule timeline fs).events) :
    EndedInTime profile self schedule timeline fs := by
  cases outcome with
  | ok code =>
      cases hcode : certifies code with
      | true => exact h.endedInTime hcode
      | false =>
          rw [(h.refused code rfl hcode).2] at hread
          exact (h.ended.readStdout_notMem hread).elim
  | err error =>
      rw [(h.of_err error rfl).2] at hread
      exact (h.ended.readStdout_notMem hread).elim
  | panic message => cases h.ended

theorem certified (h : RunSpec profile self schedule timeline fs outcome state)
    {answer : SolverResult} (hanswer : result profile self schedule timeline fs = .ok answer)
    (hother : answer ≠ .syntaxError) (htimeout : answer ≠ .timeout) :
    EndedInTime profile self schedule timeline fs := by
  cases outcome with
  | ok code =>
      cases hcode : certifies code with
      | true => exact h.endedInTime hcode
      | false =>
          have heq : answer = refusal code := (h.answers_of_ok hcode .timeout).unique _ hanswer
          cases code with
          | beforeTimeout status => exact (hother heq).elim
          | withinGrace status => exact (htimeout heq).elim
          | timeout => exact (htimeout heq).elim
  | err error => cases (h.of_err error rfl).1.symm.trans hanswer
  | panic message => cases h.ended

theorem failed_early (h : RunSpec profile self schedule timeline fs outcome state)
    {exit : Timed ExitStatus} (hexit : ownExit schedule timeline = some exit)
    (htime : exit.time < self.deadline schedule) (hstatus : exit.value.success = false) :
    Answers profile self schedule timeline fs .timeout .syntaxError := by
  have hearly : ¬ TimedOut self schedule timeline := fun hlate =>
    absurd (hlate exit hexit) (Nat.not_le.mpr htime)
  cases h.ended with
  | @beforeTimeout exit' _ hexit' _ _ _ =>
      cases hexit.symm.trans hexit'
      exact h.answers_of_ok hstatus .timeout
  | waitFailed hfault _ => exact h.answers_of_err hfault
  | withinGrace hlate _ _ _ _ _ => exact (hearly hlate).elim
  | graceFailed hlate _ _ => exact (hearly hlate).elim
  | killed hlate _ _ _ => exact (hearly hlate).elim
  | killFailed hlate _ _ _ => exact (hearly hlate).elim
  | reapFailed hlate _ _ _ => exact (hearly hlate).elim

theorem failed_in_grace (h : RunSpec profile self schedule timeline fs outcome state) {sent : ℕ}
    {exit : Timed ExitStatus}
    (hsent : ⟨sent, .sigterm⟩ ∈ (final profile self schedule timeline fs).events)
    (hgrace : self.grace ≠ 0) (hexit : exitAfterSigterm schedule timeline sent = some exit)
    (htime : exit.time < sent + schedule.delay .graceWait + self.grace)
    (hstatus : exit.value.success = false) :
    Answers profile self schedule timeline fs .grace .timeout := by
  obtain ⟨rfl, _⟩ := h.sigterm hsent
  have hmem := (h.signals _ _ (by simp)).mp hsent
  have hin : ¬ GracePassed self schedule timeline := fun hpassed =>
    absurd (hpassed hgrace exit hexit) (Nat.not_le.mpr htime)
  cases h.ended with
  | beforeTimeout _ _ _ hevents => simp [hevents] at hmem
  | waitFailed _ hevents => simp [hevents] at hmem
  | @withinGrace exit' _ _ _ hexit' _ _ _ =>
      cases hexit.symm.trans hexit'
      exact h.answers_of_ok hstatus .grace
  | graceFailed _ hfault _ => exact h.answers_of_err hfault
  | killed _ hpassed _ _ => exact (hin hpassed).elim
  | killFailed _ hpassed _ _ => exact (hin hpassed).elim
  | reapFailed _ hpassed _ _ => exact (hin hpassed).elim

/-- A solver that does not end by itself is sent SIGTERM. -/
theorem sigterm_sent (h : RunSpec profile self schedule timeline fs outcome state)
    (hfault : schedule.waitFault .timeout = none) (houtlives : self.Outlives schedule timeline) :
    ⟨self.sigtermTime schedule, .sigterm⟩ ∈ (final profile self schedule timeline fs).events := by
  apply (h.signals _ _ (by simp)).mpr
  cases h.ended with
  | @beforeTimeout exit _ hexit htime _ _ =>
      exact absurd htime (Nat.not_le.mpr (houtlives exit hexit))
  | waitFailed hfailed _ => exact (hfailed hfault).elim
  | withinGrace _ _ _ _ _ hevents => simp [hevents]
  | graceFailed _ _ hevents => simp [hevents]
  | killed _ _ _ hevents => simp [hevents]
  | killFailed _ _ _ hevents => simp [hevents]
  | reapFailed _ _ _ hevents => simp [hevents]

/-- A solver that does not react to SIGTERM is sent SIGKILL. -/
theorem sigkill_sent (h : RunSpec profile self schedule timeline fs outcome state)
    (hwait : ∀ call ≠ .kill, schedule.waitFault call = none) (hkill : schedule.killFault = none)
    (houtlives : self.Outlives schedule timeline) (hgrace : self.OutlivesGrace schedule timeline) :
    ⟨self.sigkillTime schedule, .sigkill⟩ ∈ (final profile self schedule timeline fs).events := by
  apply (h.signals _ _ (by simp)).mpr
  cases h.ended with
  | @beforeTimeout exit _ hexit htime _ _ =>
      exact absurd htime (Nat.not_le.mpr (houtlives exit hexit))
  | waitFailed hfailed _ => exact (hfailed (hwait .timeout (by decide))).elim
  | @withinGrace exit _ _ hnonzero hexit htime _ _ =>
      exact absurd htime (Nat.not_le.mpr (hgrace hnonzero exit hexit))
  | graceFailed _ hfailed _ => exact (hfailed (hwait .grace (by decide))).elim
  | killed _ _ _ hevents => simp [hevents]
  | killFailed _ _ hfailed _ => exact (hfailed hkill).elim
  | reapFailed _ _ _ hevents => simp [hevents]

/-- A solver that outlives its limits, or fails in the grace period, has timed out. -/
theorem timed_out (h : RunSpec profile self schedule timeline fs outcome state)
    (hfaultless : Faultless schedule) (houtlives : self.Outlives schedule timeline)
    (hunsuccessful : self.grace ≠ 0 → ∀ exit,
      exitAfterSigterm schedule timeline (self.sigtermTime schedule) = some exit →
      exit.time ≤ self.graceDeadline schedule → exit.value.success = false) :
    result profile self schedule timeline fs = .ok .timeout := by
  cases h.ended with
  | @beforeTimeout exit _ hexit htime _ _ =>
      exact absurd htime (Nat.not_le.mpr (houtlives exit hexit))
  | waitFailed hfailed _ => exact (hfailed (hfaultless.wait .timeout)).elim
  | @withinGrace exit _ _ hnonzero hexit htime _ _ =>
      exact (h.answers_of_ok (hunsuccessful hnonzero exit hexit htime) .grace).of_no_fault
        (hfaultless.wait .grace)
  | graceFailed _ hfailed _ => exact (hfailed (hfaultless.wait .grace)).elim
  | killed _ _ _ _ => exact (h.answers_of_ok rfl .kill).of_no_fault (hfaultless.wait .kill)
  | killFailed _ _ hfailed _ => exact (hfailed hfaultless.kill).elim
  | reapFailed _ _ hfailed _ => exact (hfailed (hfaultless.wait .kill)).elim

/-- The output of a solver that succeeds in time is verified. -/
theorem verified_in_time (h : RunSpec profile self schedule timeline fs outcome state)
    (hfaultless : Faultless schedule) (hsucceeds : self.SucceedsInTime schedule timeline) :
    result profile self schedule timeline fs =
      (self.toSolverExecutor.verifySolution profile fs).mapErr fun error => ⟨none, error⟩ := by
  obtain ⟨exit, hexit, htime, hstatus⟩ | ⟨houtlives, hgrace, exit, hexit, htime, hstatus⟩ :=
    hsucceeds
  · have hearly : ¬ TimedOut self schedule timeline := fun hlate =>
      absurd (hlate exit hexit) (Nat.not_le.mpr htime)
    cases h.ended with
    | @beforeTimeout exit' _ hexit' _ _ _ =>
        cases hexit.symm.trans hexit'
        exact h.verified _ rfl hstatus
    | waitFailed hfailed _ => exact (hfailed (hfaultless.wait .timeout)).elim
    | withinGrace hlate _ _ _ _ _ => exact (hearly hlate).elim
    | graceFailed hlate _ _ => exact (hearly hlate).elim
    | killed hlate _ _ _ => exact (hearly hlate).elim
    | killFailed hlate _ _ _ => exact (hearly hlate).elim
    | reapFailed hlate _ _ _ => exact (hearly hlate).elim
  · have hin : ¬ GracePassed self schedule timeline := fun hpassed =>
      absurd (hpassed hgrace exit hexit) (Nat.not_le.mpr htime)
    cases h.ended with
    | @beforeTimeout exit' _ hexit' hearly _ _ =>
        exact absurd hearly (Nat.not_le.mpr (houtlives exit' hexit'))
    | waitFailed hfailed _ => exact (hfailed (hfaultless.wait .timeout)).elim
    | @withinGrace exit' _ _ _ hexit' _ _ _ =>
        cases hexit.symm.trans hexit'
        exact h.verified _ rfl hstatus
    | graceFailed _ hfailed _ => exact (hfailed (hfaultless.wait .grace)).elim
    | killed _ hpassed _ _ => exact (hin hpassed).elim
    | killFailed _ hpassed _ _ => exact (hin hpassed).elim
    | reapFailed _ hpassed _ _ => exact (hin hpassed).elim

end RunSpec

/-- The protocol, for every timeline of the solver, every schedule and every output. -/
theorem timeoutSpec (profile : BuildProfile) (self : TimedExecutor) (schedule : Schedule)
    (timeline : Timeline) (fs : FileSystem) :
    TimeoutSpec profile self schedule timeline fs := by
  obtain ⟨outcome, state, h⟩ := exists_runSpec profile self schedule timeline fs
  constructor
  · exact fun hfault houtlives => h.sigterm_sent hfault houtlives
  · exact fun hwait hkill houtlives hgrace => h.sigkill_sent hwait hkill houtlives hgrace
  · exact fun hfaultless houtlives hfails => h.timed_out hfaultless houtlives hfails
  · exact fun hfaultless hsucceeds => h.verified_in_time hfaultless hsucceeds
  · intro sent hsent
    obtain ⟨rfl, hlate⟩ := h.sigterm hsent
    refine ⟨?_, hlate⟩
    unfold sigtermTime
    omega
  · intro killed hkilled
    obtain ⟨rfl, hpassed, hsent, _⟩ := h.sigkill hkilled
    refine ⟨_, hsent, ?_, ?_, ?_⟩
    · unfold sigkillTime graceDeadline
      split <;> omega
    · intro hgrace
      simp [sigkillTime, hgrace]
    · intro hgrace exit hexit
      have hle := hpassed hgrace exit hexit
      unfold graceDeadline at hle
      omega
  · exact fun read hread => h.stdout_read hread
  · exact fun answer hanswer hother htimeout => h.certified hanswer hother htimeout
  · exact fun exit hexit htime hstatus => h.failed_early hexit htime hstatus
  · exact fun sent exit hsent hgrace hexit htime hstatus =>
      h.failed_in_grace hsent hgrace hexit htime hstatus
  · intro killed hkilled
    obtain ⟨_, _, _, rfl | ⟨error, rfl, hfault⟩⟩ := h.sigkill hkilled
    · exact h.answers_of_ok rfl .kill
    · exact h.answers_of_err hfault
  · intro answer hanswer
    cases outcome with
    | ok code =>
        obtain ⟨hruntime, hfinal⟩ := h.of_ok code rfl
        obtain ⟨exit, hfinished⟩ := finished_of_ended h.ended
        exact ⟨⟨exit, hfinal exit hfinished⟩, hruntime⟩
    | err error => cases (h.of_err error rfl).1.symm.trans hanswer
    | panic message => cases h.ended
  · rintro error answer ⟨⟩

/-! ## The run without time -/

theorem certify_fst (profile : BuildProfile) (self : TimedExecutor) (code : ChildExitCode)
    (fs : FileSystem) (state : ProcessState) :
    (self.certify profile code fs state).1 =
      (self.toSolverExecutor.judge profile code fs).mapErr fun error => ⟨none, error⟩ := by
  cases code with
  | beforeTimeout status => cases h : status.success <;> simp [certify, SolverExecutor.judge, h,
      Outcome.mapErr]
  | withinGrace status => cases h : status.success <;> simp [certify, SolverExecutor.judge, h,
      Outcome.mapErr]
  | timeout => rfl

/-- With the exit code that the wait yields, the run without a clock gives the same result. -/
theorem result_eq_run {solver : Bytes → SolverRun} {base : FileSystem}
    (hcode : (self.timeoutWaitForChildToComplete schedule timeline
      (spawned schedule timeline)).1 = .ok (solver self.toSolverExecutor.stdin).code) :
    result profile self schedule timeline (self.toSolverExecutor.run profile solver base).2 =
      (self.toSolverExecutor.run profile solver base).1 := by
  rcases hwait : self.timeoutWaitForChildToComplete schedule timeline (spawned schedule timeline)
    with ⟨outcome, state⟩
  rw [hwait] at hcode
  dsimp only at hcode
  subst hcode
  rw [SolverExecutor.run_eq]
  simp only [result, run, hwait]
  exact certify_fst profile _ _ _ _

end TimedExecutor

end StrideRunner
