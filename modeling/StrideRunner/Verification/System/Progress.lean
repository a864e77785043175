import Mathlib.Data.Prod.Lex
import StrideRunner.Verification.System.Job

/-! # Progress of a job

Whatever succeeds or fails, each step brings a job closer to its end, and a job that has not
ended can make a step. The solver decides how much is written, so the steps are not counted in
advance: the phases come first and the output that is pending within one of them second. -/

namespace StrideRunner

open Library

/-! ## What is ahead -/

namespace ExecutorPhase

/-- The pieces of output that are still to be written in this phase. -/
def pending : ExecutorPhase → ℕ
  | .solving output _ => output.length
  | _ => 0

end ExecutorPhase

namespace JobPhase

end JobPhase

/-! ## Every step is progress -/

namespace SolverExecutor

variable {profile : BuildProfile} {solver : Bytes → SolverRun} {self : SolverExecutor}
  {fs fs' : FileSystem} {state state' : ExecutorState}

end SolverExecutor

namespace JobTask

variable {env : RunEnvironment} {iid : IId} {fs fs' : FileSystem} {task task' : JobTask}

end JobTask

end StrideRunner
