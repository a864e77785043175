import StrideRunner.Library.Transition
import StrideRunner.Model.Utils.Settings

/-! # Registering a solver

Each command of the runner starts by reading `config.json`; `register` replaces the solver UUID in
it. The processes run one after the other, and each may fail or be killed between two writes. -/

namespace StrideRunner

/-- The commands, as far as they differ in their use of the settings. -/
inductive RunnerCommand where
  | register (deleteOldUuid : Bool)
  | other
  deriving DecidableEq, Repr

/-- The line that `save_uuid_to_backup` appends. -/
def backupLine (now : Bytes) (uuid : Uuid) : Bytes :=
  now ++ (ascii " Reregister. The old UUID was " ++ (uuid.display ++ [10]))

/-- What the running process does next; `rest` is what it has still to write. -/
inductive RunnerPhase where
  | idle
  | checkConfig (command : RunnerCommand)
  | createTemplate (command : RunnerCommand)
  | writeTemplate (command : RunnerCommand) (rest : Bytes)
  | load (command : RunnerCommand)
  | register (deleteOldUuid : Bool) (settings : Settings)
  | openBackup (settings : Settings) (uuid : Uuid)
  | appendBackup (settings : Settings) (rest : Bytes)
  | createConfig (settings : Settings)
  | writeConfig (rest : Bytes)
  deriving DecidableEq, Repr

/-- `config.json` and `solver_uuid_backup.log`, where they exist, and the running process. -/
structure RunnerState where
  config : Option Bytes
  backup : Option Bytes
  phase : RunnerPhase
  deriving DecidableEq, Repr

/-- What the program does not determine: the machine, the clock, the new UUID, and how many bytes
one call of `write` takes. -/
structure Chance where
  numCpus : UInt64
  now : Bytes
  newUuid : Uuid
  chunk : ℕ
  deriving DecidableEq, Repr

inductive RunnerAction where
  | start (command : RunnerCommand)
  | proceed (chance : Chance)
  -- a failure that is returned as an error, or the end of the process for any other reason
  | stop
  deriving DecidableEq, Repr

namespace RunnerState

def goto (s : RunnerState) (phase : RunnerPhase) : RunnerState := { s with phase }

/-- `command_register` up to its first access to a file. -/
def registerStep (chance : Chance) (deleteOldUuid : Bool) (settings : Settings)
    (s : RunnerState) : RunnerState :=
  match settings.solverUuid with
  | some uuid => if deleteOldUuid then s.goto (.openBackup settings uuid) else s.goto .idle
  | none => s.goto (.createConfig { settings with solverUuid := some chance.newUuid })

def loadStep (fromReader : Bytes → Option Settings) (command : RunnerCommand) (s : RunnerState) :
    RunnerState :=
  match s.config.bind fromReader, command with
  | some settings, .register deleteOldUuid => s.goto (.register deleteOldUuid settings)
  | some _, .other => s.goto .idle
  | none, _ => s.goto .idle

def proceedStep (fromReader : Bytes → Option Settings) (chance : Chance) (s : RunnerState) :
    Option RunnerState :=
  match s.phase with
  | .idle => none
  | .checkConfig command =>
      if s.config.isSome then some (s.goto (.load command))
      else some (s.goto (.createTemplate command))
  | .createTemplate command =>
      let template := Settings.default chance.numCpus
      some { s with config := some [], phase := .writeTemplate command template.toWriterPretty }
  | .writeTemplate command [] => some (s.goto (.load command))
  | .writeTemplate command rest =>
      some { s with
        config := s.config.map (· ++ rest.take chance.chunk)
        phase := .writeTemplate command (rest.drop chance.chunk) }
  | .load command => some (s.loadStep fromReader command)
  | .register deleteOldUuid settings => some (s.registerStep chance deleteOldUuid settings)
  | .openBackup settings uuid =>
      some { s with
        backup := some (s.backup.getD [])
        phase := .appendBackup settings (backupLine chance.now uuid) }
  | .appendBackup settings [] =>
      some (s.goto (.createConfig { settings with solverUuid := some chance.newUuid }))
  | .appendBackup settings rest =>
      some { s with
        backup := s.backup.map (· ++ rest.take chance.chunk)
        phase := .appendBackup settings (rest.drop chance.chunk) }
  | .createConfig settings =>
      some { s with config := some [], phase := .writeConfig settings.toWriterPretty }
  | .writeConfig [] => some (s.goto .idle)
  | .writeConfig rest =>
      some { s with
        config := s.config.map (· ++ rest.take chance.chunk)
        phase := .writeConfig (rest.drop chance.chunk) }

end RunnerState

def runnerStep (fromReader : Bytes → Option Settings) :
    RunnerAction → RunnerState → Option RunnerState
  | .start command, s => if s.phase = .idle then some (s.goto (.checkConfig command)) else none
  | .proceed chance, s => s.proceedStep fromReader chance
  | .stop, s => if s.phase = .idle then none else some (s.goto .idle)

end StrideRunner
