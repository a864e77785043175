import StrideRunner.Model.Utils.ServerConnection

/-! # The command `update`

The download of the metadata is a task of its own, so its steps interleave with those of the main
task, which updates the instance data. -/

namespace StrideRunner

structure UpdateOpts where
  allInstances : Bool
  updateInstanceData : Bool
  replaceAll : Bool
  deriving DecidableEq, Repr

/-- The flags that `main` passes on. -/
def UpdateOpts.implied (opts : UpdateOpts) : UpdateOpts :=
  { opts with
    updateInstanceData := opts.updateInstanceData || (opts.replaceAll || opts.allInstances) }

abbrev DB_META : String := "db_meta.db"
abbrev DB_PARTIAL_INSTANCES : String := "db_partial.db"
abbrev DB_FULL_INSTANCES : String := "db_full.db"

/-- The name under which the instance data is announced, and stored for a merge. -/
def UpdateOpts.instancesName (opts : UpdateOpts) : String :=
  if opts.allInstances then DB_FULL_INSTANCES else DB_PARTIAL_INSTANCES

/-- The dumps on the server while the command runs. -/
abbrev Server := String → Bytes

/-- Where the instance data is stored; a direct download may have deleted the file before. -/
inductive DownloadTarget where
  | direct (deleted : Bool)
  | temporary (name : String)

/-- The position of the main task. -/
inductive UpdatePoint where
  | start
  | checkInstances
  | prepare
  | download (target : DownloadTarget) (phase : DownloadPhase)
  | openTarget
  | merge
  | awaitMetadata
  | unwind (error : AnyhowError)
  | returned (outcome : Outcome AnyhowError Unit)

/-- `metadata` and `instances` are the two databases, `temporary` the file that is to be merged. -/
structure UpdateState where
  metadata : Option DbFile
  instances : Option DbFile
  temporary : Option DbFile
  metadataTask : DownloadPhase
  point : UpdatePoint

inductive UpdateAction where
  | main
  | merge (fault : InstanceDataDB.MergeFault)
  | instances (action : DownloadAction)
  | metadata (action : DownloadAction)
  | fail (error : AnyhowError)

namespace UpdateState

def begin (metadata instances : Option DbFile) : UpdateState :=
  ⟨metadata, instances, none, .request, .start⟩

/-- `update_instance_data_db` up to its download. -/
def prepareStep (opts : UpdateOpts) (s : UpdateState) : UpdateState :=
  let targetExists := s.instances.isSome
  if opts.replaceAll || !targetExists then
    { s with instances := none, point := .download (.direct targetExists) .request }
  else { s with point := .download (.temporary opts.instancesName) .request }

/-- The main task goes on. -/
def mainStep (opts : UpdateOpts) (s : UpdateState) : Option UpdateState :=
  match s.point with
  | .start => some { s with point := .checkInstances }
  | .checkInstances =>
      if s.instances.isNone || opts.updateInstanceData then some { s with point := .prepare }
      else some { s with point := .awaitMetadata }
  | .prepare => some (s.prepareStep opts)
  | .download (.direct _) .finished => some { s with point := .awaitMetadata }
  | .download (.temporary _) .finished => some { s with point := .openTarget }
  | .download _ (.failed error) => some { s with point := .unwind error }
  | .openTarget =>
      match s.instances with
      | some _ => some { s with point := .merge }
      | none => some { s with instances := some (.committed ∅), point := .merge }
  | .awaitMetadata =>
      match s.metadataTask with
      | .finished => some { s with point := .returned (.ok ()) }
      | .failed error => some { s with point := .unwind error }
      | _ => none
  | .unwind error => some { s with temporary := none, point := .returned (.err error) }
  | _ => none

/-- `add_from_db_file`; the temporary directory is deleted when it has returned. -/
def mergeStep (sqlite : Bytes → DbContent) (fault : InstanceDataDB.MergeFault)
    (s : UpdateState) : Option UpdateState :=
  match s.point, s.instances, s.temporary with
  | .merge, some target, some download =>
      let result := InstanceDataDB.addFromFile sqlite fault target download
      let s := { s with instances := some result.2, temporary := none }
      match result.1 with
      | .ok () => some { s with point := .awaitMetadata }
      | .err error => some { s with point := .unwind error }
      | .panic message => some { s with point := .returned (.panic message) }
  | _, _, _ => none

/-- Whatever `--all-instances` says, it is the partial dump that is downloaded. -/
def instancesStep (server : Server) (action : DownloadAction) (s : UpdateState) :
    Option UpdateState :=
  match s.point with
  | .download (.direct deleted) phase =>
      (downloadStep (server DB_PARTIAL_INSTANCES) action phase s.instances).map fun next =>
        { s with instances := next.2, point := .download (.direct deleted) next.1 }
  | .download (.temporary name) phase =>
      (downloadStep (server DB_PARTIAL_INSTANCES) action phase s.temporary).map fun next =>
        { s with temporary := next.2, point := .download (.temporary name) next.1 }
  | _ => none

/-- The task is spawned with the first step. When the command returns an error its handle is
dropped, which detaches it: it goes on until `main` ends the process. -/
def metadataStep (server : Server) (action : DownloadAction) (s : UpdateState) :
    Option UpdateState :=
  match s.point with
  | .start => none
  | _ =>
      (downloadStep (server DB_META) action s.metadataTask s.metadata).map fun next =>
        { s with metadata := next.2, metadataTask := next.1 }

/-- Operations of the main task that fail without an effect on the files. -/
def failStep (error : AnyhowError) (s : UpdateState) : Option UpdateState :=
  match s.point with
  | .start => some { s with point := .unwind error }
  | .prepare => some { s with point := .unwind error }
  | .openTarget => some { s with point := .unwind error }
  | _ => none

end UpdateState

def updateStep (sqlite : Bytes → DbContent) (server : Server) (opts : UpdateOpts) :
    UpdateAction → UpdateState → Option UpdateState
  | .main, s => s.mainStep opts
  | .merge fault, s => s.mergeStep sqlite fault
  | .instances action, s => s.instancesStep server action
  | .metadata action, s => s.metadataStep server action
  | .fail error, s => s.failStep error

end StrideRunner
