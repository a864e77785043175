import StrideRunner.Model.Commands.Register
import StrideRunner.Model.Utils.SolutionUpload

/-! # The options of a run

What is left out on the command line is taken from `config.json`, which every process has loaded
before it looks at its arguments. -/

namespace StrideRunner

/-- The number of 128 bits of a UUID. -/
def Uuid.toU128 (uuid : Uuid) : ℕ :=
  uuid.bytes.toList.foldl (fun n byte => 256 * n + byte.toNat) 0

/-- The arguments of `run` that the jobs depend on. -/
structure RunArgs where
  parallelJobs : Option ℕ
  suboptimalIsError : Bool
  keepLogsOnSuccess : Bool
  stripComments : Bool
  noUpload : Bool
  solverUuid : Option Uuid
  deriving DecidableEq, Repr

/-- The options as `main` passes them to `command_run`. -/
def RunArgs.opts (args : RunArgs) (settings : Settings) : RunOpts :=
  { parallelJobs := args.parallelJobs.getD settings.parallelJobs.toNat
    suboptimalIsError := args.suboptimalIsError
    keepLogsOnSuccess := args.keepLogsOnSuccess
    stripComments := args.stripComments
    noUpload := args.noUpload
    solverUuid := (args.solverUuid.or settings.solverUuid).map Uuid.toU128 }

end StrideRunner
