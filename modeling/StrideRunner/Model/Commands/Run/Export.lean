import StrideRunner.Model.Commands.Run.Command
import StrideRunner.Model.Commands.Run.Context
import StrideRunner.Model.Pace.InstanceWriter

/-! # Exporting the list of instances

No write fails. -/

namespace StrideRunner.RunContext

open Pace InstanceWriter

def instanceListText (instances : List IId) : List Char :=
  "c ".toList ++ decimal instances.length ++ " Instances for STRIDE runner\n".toList ++
    instances.flatMap fun iid => decimal iid.id.toNat ++ ['\n']

def writeInstanceList (fs : FileSystem) (path : PathBuf) (instances : List IId) : FileSystem :=
  fs.write path (encodeUtf8 (instanceListText instances))

/-- `command_run` with the option `-e`, which runs nothing. -/
def exportIidOnly (sources : InstanceSources) (opts : InstanceOpts) (path : PathBuf) :
    Outcome AnyhowError FileSystem := do
  let instances ← buildInstanceList sources opts
  if instances.isEmpty then .err RunState.noInstances
  else return writeInstanceList sources.fs path instances

end StrideRunner.RunContext
