import StrideRunner.Model.Commands.Run.Cached
import StrideRunner.Model.Pace.InstanceWriter
import StrideRunner.Model.Utils.ServerConnection
import StrideRunner.Model.Utils.Settings

/-! # Exporting instances and solutions

Any number of export commands work at the same time, on one database and one file system. A command
looks whether its destination exists before it creates the file, not in one step. -/

namespace StrideRunner

structure ExportInstanceOpts where
  instanceId : IId
  output : Option PathBuf
  force : Bool
  deriving DecidableEq, Repr

structure ExportSolutionOpts where
  force : Bool
  instanceId : IId
  output : PathBuf
  solver : Uuid
  run : Uuid
  deriving DecidableEq, Repr

/-- The root is a component of its own. -/
def displayPath : PathBuf → String
  | "/" :: components => "/" ++ "/".intercalate components
  | components => "/".intercalate components

def fileExists (destination : PathBuf) : AnyhowError :=
  .message ("File already exists: " ++ displayPath destination ++
    "; change output path or use -f/--force to overwrite")

/-- The root stands for a file that is named after the instance, nothing for the standard output. -/
def ExportInstanceOpts.destination (opts : ExportInstanceOpts) : Option PathBuf :=
  opts.output.map fun path =>
    if path = ["/"] then [toString opts.instanceId.id.toNat ++ ".gr"] else path

def ExportSolutionOpts.searchPath (opts : ExportSolutionOpts) : Bytes :=
  ascii "api/solutions/download?iid=" ++
    encodeUtf8 (Pace.InstanceWriter.decimal opts.instanceId.id.toNat) ++
    ascii "&solver=" ++ opts.solver.display ++ ascii "&run=" ++ opts.run.display

inductive ExportCommand where
  | exportInstance (opts : ExportInstanceOpts)
  | exportSolution (opts : ExportSolutionOpts)
  deriving DecidableEq, Repr

namespace ExportCommand

def instanceId : ExportCommand → IId
  | .exportInstance opts => opts.instanceId
  | .exportSolution opts => opts.instanceId

def destination : ExportCommand → Option PathBuf
  | .exportInstance opts => opts.destination
  | .exportSolution opts => some opts.output

def force : ExportCommand → Bool
  | .exportInstance opts => opts.force
  | .exportSolution opts => opts.force

end ExportCommand

/-- The commands, and what they find. A server may answer each of them differently. -/
structure ExportEnvironment (ι : Type) where
  command : ι → ExportCommand
  dataDid : IId → DId
  server : ι → Bytes → Bytes
  isDir : PathBuf → Bool

namespace ExportEnvironment

variable {ι : Type}

def did (env : ExportEnvironment ι) (call : ι) : DId := env.dataDid (env.command call).instanceId

/-- Whether a command stops because of what is at its destination: one asks `is_file`, the other one
`exists`. -/
def refuses (env : ExportEnvironment ι) (call : ι) (files : PathBuf → Option DbFile)
    (destination : PathBuf) : Bool :=
  match env.command call with
  | .exportInstance opts => !opts.force && (files destination).isSome
  | .exportSolution opts =>
      !opts.force && ((files destination).isSome || env.isDir destination)

end ExportEnvironment

/-- Where a command is. Both commands write a text to a file in the same way, from another phase of
a download on. -/
inductive ExportPhase where
  | fetching
  | printing (data : Bytes)
  | checking (dump : Bytes) (next : DownloadPhase)
  | writing (dump : Bytes) (phase : DownloadPhase)
  | returned (result : Outcome AnyhowError Unit)

structure ExportState (ι : Type) where
  files : PathBuf → Option DbFile
  stdout : ι → Bytes
  cache : CacheState ι
  phase : ι → ExportPhase

inductive ExportAction where
  | fetch (action : FetchAction)
  | proceed
  | write (action : DownloadAction)
  | fail (error : AnyhowError) (written : Bytes)

inductive ExportSystemAction (ι : Type) where
  | command (call : ι) (action : ExportAction)
  | insertIntoDb (did : DId) (data : List Char) (fault : Fault)
  | addFromDbFile (rows : List (DId × Bytes)) (fault : InstanceDataDB.MergeFault)
  | changeFile (path : PathBuf) (file : Option DbFile)

/-- The phase after the instance has been fetched. -/
def ExportInstanceOpts.fetched (opts : ExportInstanceOpts) (data : Bytes) : ExportPhase :=
  match opts.destination with
  | none => .printing data
  | some _ => .checking data (.create [data])

/-- The phase after a step of the writing. -/
def ExportPhase.written (dump : Bytes) : DownloadPhase → ExportPhase
  | .finished => .returned (.ok ())
  | .failed error => .returned (.err error)
  | phase => .writing dump phase

namespace ExportState

variable {ι : Type} [DecidableEq ι]

omit [DecidableEq ι] in
def start (env : ExportEnvironment ι) (files : PathBuf → Option DbFile) (table : InstanceData) :
    ExportState ι :=
  { files
    stdout := fun _ => []
    cache := CacheState.start table
    phase := fun call =>
      match env.command call with
      | .exportInstance _ => .fetching
      | .exportSolution opts => .checking (env.server call opts.searchPath) .request }

def goto (s : ExportState ι) (call : ι) (phase : ExportPhase) : ExportState ι :=
  { s with phase := Function.update s.phase call phase }

/-- `write_all` to the standard output. -/
def printed (s : ExportState ι) (call : ι) (written : Bytes) (result : Outcome AnyhowError Unit) :
    ExportState ι :=
  { s.goto call (.returned result) with stdout := Function.update s.stdout call written }

def stored (s : ExportState ι) (call : ι) (destination : PathBuf) (file : Option DbFile)
    (phase : ExportPhase) : ExportState ι :=
  { s.goto call phase with files := Function.update s.files destination file }

def proceedStep (env : ExportEnvironment ι) (call : ι) (s : ExportState ι) :
    Option (ExportState ι) :=
  match s.phase call, env.command call with
  | .fetching, .exportInstance opts =>
      match s.cache.phase call with
      | .returned (.ok data) => some (s.goto call (opts.fetched (encodeUtf8 data)))
      | .returned (.err error) => some (s.goto call (.returned (.err error)))
      | .returned (.panic message) => some (s.goto call (.returned (.panic message)))
      | _ => none
  | .printing data, _ => some (s.printed call data (.ok ()))
  | .checking dump next, command =>
      command.destination.map fun destination =>
        if env.refuses call s.files destination then
          s.goto call (.returned (.err (fileExists destination)))
        else s.goto call (.writing dump next)
  | _, _ => none

def writeStep (env : ExportEnvironment ι) (call : ι) (action : DownloadAction)
    (s : ExportState ι) : Option (ExportState ι) :=
  match s.phase call, (env.command call).destination with
  | .writing dump phase, some destination =>
      match action, env.isDir destination with
      -- a directory cannot be opened for writing
      | .create, true => none
      | _, _ =>
          (downloadStep dump action phase (s.files destination)).map fun (phase, file) =>
            s.stored call destination file (.written dump phase)
  | _, _ => none

/-- A failure that is not one of a statement or of a file: opening the databases, looking for the
data id, writing to the standard output. -/
def failStep (call : ι) (error : AnyhowError) (written : Bytes) (s : ExportState ι) :
    Option (ExportState ι) :=
  match s.phase call with
  | .fetching =>
      match s.cache.phase call with
      | .lookup => some (s.goto call (.returned (.err error)))
      | _ => none
  | .checking _ _ => some (s.goto call (.returned (.err error)))
  | .printing data => if written <+: data then some (s.printed call written (.err error)) else none
  | _ => none

def commandStep (env : ExportEnvironment ι) (call : ι) (s : ExportState ι) :
    ExportAction → Option (ExportState ι)
  | .fetch action =>
      match s.phase call with
      | .fetching => (cacheStep env.did (action.of call) s.cache).map fun cache => { s with cache }
      | _ => none
  | .proceed => s.proceedStep env call
  | .write action => s.writeStep env call action
  | .fail error written => s.failStep call error written

/-- A step of a command, or of another process. -/
def step (env : ExportEnvironment ι) :
    ExportSystemAction ι → ExportState ι → Option (ExportState ι)
  | .command call action, s => s.commandStep env call action
  | .insertIntoDb did data fault, s =>
      some { s with cache.table := (InstanceDataDB.insertIntoDb fault s.cache.table did data).2 }
  | .addFromDbFile rows fault, s =>
      let merged := (InstanceDataDB.addFromDbFile fault false s.cache.table rows).2.2
      some { s with cache.table := merged }
  | .changeFile path file, s => some { s with files := Function.update s.files path file }

end ExportState

end StrideRunner
