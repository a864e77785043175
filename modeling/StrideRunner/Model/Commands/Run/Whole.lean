import StrideRunner.Model.Commands.Run.Export
import StrideRunner.Model.Commands.Run.System

/-! # `command_run` from its options to its loop -/

namespace StrideRunner.SystemState

/-- The list is built in the file system in which the run starts. -/
def commandRun (env : RunEnvironment) (sources : InstanceSources) (opts : InstanceOpts) :
    Outcome AnyhowError SystemState := do
  let instances ← RunContext.buildInstanceList sources opts
  return start env instances sources.fs

end StrideRunner.SystemState
