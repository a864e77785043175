import StrideRunner.Model.Commands.Run.System
import StrideRunner.Model.Utils.SolverTimeout

/-! # A run with a clock

The steps of a run have no times. A clock says how long each job waits for its solver and how the
solver behaves meanwhile, and with that how the solver ends and what `runtime()` is. -/

namespace StrideRunner

/-- The two limits are given in seconds. The behaviour of a solver depends on its input. -/
structure RunClock where
  timeout : ℕ
  grace : ℕ
  schedule : IId → Schedule
  timeline : IId → Bytes → Timeline

namespace RunClock

def timeoutDuration (clock : RunClock) : ℕ := clock.timeout * 1000000000

def graceDuration (clock : RunClock) : ℕ := clock.grace * 1000000000

/-- The executor that a job builds, with its limits. -/
def executor (clock : RunClock) (env : RunEnvironment) (iid : IId) (data : List Char) :
    TimedExecutor :=
  { env.executor iid data with
    timeout := clock.timeoutDuration
    grace := clock.graceDuration
    runtime := none }

/-- The wait for the solver of a job. -/
def wait (clock : RunClock) (env : RunEnvironment) (iid : IId) (data : List Char) :
    Outcome IoError ChildExitCode × ProcessState :=
  let timeline := clock.timeline iid (encodeUtf8 data)
  (clock.executor env iid data).timeoutWaitForChildToComplete (clock.schedule iid) timeline
    (TimedExecutor.spawned (clock.schedule iid) timeline)

/-- `executor.runtime()` after the run; `fs` holds what the solver has written. -/
def runtime (clock : RunClock) (env : RunEnvironment) (iid : IId) (data : List Char)
    (fs : FileSystem) : Option ℕ :=
  ((clock.executor env iid data).run env.profile (clock.schedule iid)
    (.ok (clock.timeline iid (encodeUtf8 data))) fs).2.1.runtime

end RunClock

end StrideRunner
