import StrideRunner.Library.Deadline
import StrideRunner.Model.Utils.SolverExecutor

/-! # Waiting for the solver

The solver process is described by the times at which it ends: by itself, after SIGTERM and after
SIGKILL. Times are in nanoseconds since the start of the run. -/

namespace StrideRunner

open Library

/-- Where the program may be delayed. -/
inductive DelayPoint where
  | spawn
  | firstWait
  | firstResult
  | sigterm
  | graceWait
  | graceResult
  | sigkill
  | killResult
  | elapsed
  deriving DecidableEq, Repr

/-- The calls of `Child::wait`, the last one in `Child::kill`. -/
inductive WaitCall where
  | timeout
  | grace
  | kill
  deriving DecidableEq, Repr

/-- What the operating system and the runtime decide: delays, ties and failing calls. -/
structure Schedule where
  delay : DelayPoint → ℕ
  tie : WaitCall → Bool
  waitFault : WaitCall → Option (Timed IoError)
  killFault : Option IoError

/-- The behaviour of the solver. `onSigterm` and `onSigkill` are given the time of the signal and
give the time until the end; a solver that ignores SIGTERM goes on until its own end. -/
structure Timeline where
  own : Option (Timed ExitStatus)
  onSigterm : ℕ → Option (Timed ExitStatus)
  onSigkill : ℕ → ℕ

inductive ProcessEvent where
  | sigterm
  | sigkill
  | readStdout
  deriving DecidableEq, Repr

/-- The clock, the end of the child as things stand, whether the child has been reaped, and what
has been done so far. -/
structure ProcessState where
  now : ℕ
  exit : Option (Timed ExitStatus)
  reaped : Bool
  events : List (Timed ProcessEvent)
  deriving DecidableEq, Repr

def Timed.shift {α : Type} (start : ℕ) (t : Timed α) : Timed α := ⟨start + t.time, t.value⟩

namespace ProcessState

def pass (state : ProcessState) (delay : ℕ) : ProcessState :=
  { state with now := state.now + delay }

def log (state : ProcessState) (event : ProcessEvent) : ProcessState :=
  { state with events := state.events ++ [⟨state.now, event⟩] }

/-- The child has ended; until it is reaped it can still be signalled, without effect. -/
def hasEnded (state : ProcessState) : Bool :=
  state.exit.any fun exit => exit.time ≤ state.now

/-- `libc::kill(pid, SIGTERM)`; the result is ignored. -/
def sigterm (state : ProcessState) (timeline : Timeline) : ProcessState :=
  let reaction := (timeline.onSigterm state.now).map (Timed.shift state.now)
  { state with exit := if state.hasEnded then state.exit else reaction }.log .sigterm

/-- How the child ends when SIGKILL is sent now; it has no exit code then. -/
def killedExit (state : ProcessState) (timeline : Timeline) : Timed ExitStatus :=
  let killed := ⟨state.now + timeline.onSigkill state.now, ⟨none⟩⟩
  match state.exit with
  | some exit => if exit.time ≤ state.now then exit else killed
  | none => killed

/-- `Child::wait` completes when the child ends, unless it fails before. -/
def waitResult (exit : Timed ExitStatus) (fault : Option (Timed IoError)) :
    Timed (Except IoError ExitStatus) :=
  match fault with
  | none => ⟨exit.time, .ok exit.value⟩
  | some error =>
      if exit.time ≤ error.time then ⟨exit.time, .ok exit.value⟩
      else ⟨error.time, .error error.value⟩

def waitFuture (state : ProcessState) (fault : Option (Timed IoError)) :
    Option (Timed (Except IoError ExitStatus)) :=
  match state.exit with
  | some exit => some (waitResult exit fault)
  | none => fault.map fun error => ⟨error.time, .error error.value⟩

/-- After a wait: a status means that the child has been reaped. -/
def finishWait (state : ProcessState) (delay : ℕ) (result : Timed (Except IoError ExitStatus)) :
    ProcessState :=
  { state with
    now := max state.now result.time + delay
    reaped := match result.value with | .ok _ => true | .error _ => state.reaped }

/-- `timeout(duration, child.wait())`. -/
def timeoutWait (state : ProcessState) (schedule : Schedule) (call : WaitCall) (duration : ℕ)
    (delay : ℕ) : Option (Except IoError ExitStatus) × ProcessState :=
  match withTimeout state.now duration (schedule.tie call)
      (state.waitFuture (schedule.waitFault call)) with
  | some result => (some result.value, state.finishWait delay result)
  | none => (none, state.pass (duration + delay))

def alreadyExited : IoError :=
  ⟨.invalidInput, "invalid argument: can't kill an exited process"⟩

/-- `Child::kill` sends SIGKILL and waits. -/
def kill (state : ProcessState) (schedule : Schedule) (timeline : Timeline) :
    Outcome IoError Unit × ProcessState :=
  if state.reaped then (.err alreadyExited, state)
  else match schedule.killFault with
    | some error => (.err error, state)
    | none =>
        let exit := state.killedExit timeline
        let state := { state with exit := some exit }.log .sigkill
        let result := waitResult exit (schedule.waitFault .kill)
        let state := state.finishWait (schedule.delay .killResult) result
        match result.value with
        | .ok _ => (.ok (), state)
        | .error error => (.err error, state)

end ProcessState

/-- The executor with the fields that concern time. -/
structure TimedExecutor extends SolverExecutor where
  timeout : ℕ
  grace : ℕ
  runtime : Option ℕ

namespace TimedExecutor

def killChild (schedule : Schedule) (timeline : Timeline) (state : ProcessState) :
    Outcome IoError ChildExitCode × ProcessState :=
  match (state.pass (schedule.delay .sigkill)).kill schedule timeline with
  | (.ok (), state) => (.ok .timeout, state)
  | (.err error, state) => (.err error, state)
  | (.panic message, state) => (.panic message, state)

/-- The grace period, which is left out if it is zero. -/
def waitGrace (self : TimedExecutor) (schedule : Schedule) (timeline : Timeline)
    (state : ProcessState) : Outcome IoError ChildExitCode × ProcessState :=
  if self.grace ≠ 0 then
    match (state.pass (schedule.delay .graceWait)).timeoutWait schedule .grace self.grace
        (schedule.delay .graceResult) with
    | (some (.ok status), state) => (.ok (.withinGrace status), state)
    | (some (.error error), state) => (.err error, state)
    | (none, state) => killChild schedule timeline state
  else killChild schedule timeline state

def timeoutWaitForChildToComplete (self : TimedExecutor) (schedule : Schedule)
    (timeline : Timeline) (state : ProcessState) : Outcome IoError ChildExitCode × ProcessState :=
  match state.timeoutWait schedule .timeout self.timeout (schedule.delay .firstResult) with
  | (some (.ok status), state) => (.ok (.beforeTimeout status), state)
  | (some (.error error), state) => (.err error, state)
  | (none, state) =>
      -- `child.id()` is `None` for a child that has been reaped
      if state.reaped then self.waitGrace schedule timeline state
      else
        self.waitGrace schedule timeline
          ((state.pass (schedule.delay .sigterm)).sigterm timeline)

/-- The child as `spawn_child` leaves it. -/
def spawned (schedule : Schedule) (timeline : Timeline) : ProcessState :=
  let now := schedule.delay .spawn
  ⟨now + schedule.delay .firstWait, timeline.own.map (Timed.shift now), false, []⟩

/-- What `run` does with the result of the wait; `fs` holds what the solver has written. -/
def certify (profile : BuildProfile) (self : TimedExecutor) (code : ChildExitCode)
    (fs : FileSystem) (state : ProcessState) : Outcome ExecutorError SolverResult × ProcessState :=
  let verify := (((self.toSolverExecutor.verifySolution profile fs).mapErr fun error =>
    ⟨none, error⟩ : Outcome ExecutorError SolverResult), state.log .readStdout)
  match code with
  | .beforeTimeout status => if status.success then verify else (.ok .syntaxError, state)
  | .withinGrace status => if status.success then verify else (.ok .timeout, state)
  | .timeout => (.ok .timeout, state)

/-- `run`; `spawn` is what writing the instance and starting the solver come to. -/
def run (profile : BuildProfile) (self : TimedExecutor) (schedule : Schedule)
    (spawn : Except ExecutorError Timeline) (fs : FileSystem) :
    Outcome ExecutorError SolverResult × TimedExecutor × ProcessState :=
  match spawn with
  | .error error => (.err error, self, ⟨0, none, false, []⟩)
  | .ok timeline =>
      match self.timeoutWaitForChildToComplete schedule timeline (spawned schedule timeline) with
      | (.err error, state) => (.err ⟨none, error⟩, self, state)
      | (.panic message, state) => (.panic message, self, state)
      | (.ok code, state) =>
          let state := state.pass (schedule.delay .elapsed)
          let self := { self with runtime := some state.now }
          let (result, state) := self.certify profile code fs state
          (result, self, state)

end TimedExecutor

end StrideRunner
