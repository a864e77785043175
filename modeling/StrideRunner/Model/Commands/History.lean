import StrideRunner.Model.Commands.Update

/-! # Commands one after the other

`run`, `export-instance` and `import-solution` open both databases, in different orders, and store
the instances that they fetch. Each command may end before any of its steps. -/

namespace StrideRunner

open Library

/-- The databases in `.stride`. -/
structure StrideDirectory where
  metadata : Option DbFile
  instances : Option DbFile

def StrideDirectory.fresh : StrideDirectory := ⟨none, none⟩

inductive SessionCommand where
  | run
  | exportInstance
  | importSolution
  deriving DecidableEq, Repr

/-- The second step of `connect_or_create_db` is `createTable`. -/
inductive SessionOp where
  | openInstances
  | createTable
  | openMetadata
  | fetchData
  deriving DecidableEq, Repr

/-- What a command does with the databases. -/
def SessionCommand.script : SessionCommand → List SessionOp
  | .run => [.openInstances, .openMetadata, .fetchData]
  | .exportInstance => [.openInstances, .openMetadata, .fetchData]
  | .importSolution => [.openMetadata, .openInstances, .fetchData]

structure Session where
  directory : StrideDirectory
  script : List SessionOp

/-- `store` is the insert of a fetched instance, of which a command may do any number. -/
inductive SessionAction where
  | proceed
  | store (did : DId) (data : List Char)
  deriving DecidableEq, Repr

/-- `insert_into_db` on the file; a failing statement leaves it as it was. -/
def InstanceDataDB.storeInFile (sqlite : Bytes → DbContent) (file : DbFile) (did : DId)
    (data : List Char) : DbFile :=
  match file.content sqlite with
  | .table rows =>
      match insertIntoDb none rows did data with
      | (.ok (), rows) => .committed rows
      | _ => file
  | _ => file

/-- A command ends where the metadata is missing, and anywhere else when it takes no more steps. -/
def sessionStep (sqlite : Bytes → DbContent) :
    SessionAction → Session → Option Session
  | .proceed, ⟨directory, .openInstances :: script⟩ =>
      match directory.instances with
      | some _ => some ⟨directory, script⟩
      | none => some ⟨{ directory with instances := some (.bytes []) }, .createTable :: script⟩
  | .proceed, ⟨directory, .createTable :: script⟩ =>
      some ⟨{ directory with instances := some (.committed ∅) }, script⟩
  | .proceed, ⟨directory, .openMetadata :: script⟩ =>
      match directory.metadata with
      | some _ => some ⟨directory, script⟩
      | none => some ⟨directory, []⟩
  | .store did data, ⟨directory, [.fetchData]⟩ =>
      some ⟨{ directory with instances := directory.instances.map fun file =>
        InstanceDataDB.storeInFile sqlite file did data }, [.fetchData]⟩
  | _, _ => none

/-- A command together with the steps it takes. -/
inductive CommandRun where
  | session (command : SessionCommand) (actions : List SessionAction)
  | update (server : Server) (opts : UpdateOpts) (actions : List UpdateAction)

def UpdateState.directory (s : UpdateState) : StrideDirectory := ⟨s.metadata, s.instances⟩

def commandStep (sqlite : Bytes → DbContent) :
    CommandRun → StrideDirectory → Option StrideDirectory
  | .session command actions, directory =>
      (exec (sessionStep sqlite) actions ⟨directory, command.script⟩).map (·.directory)
  | .update server opts actions, directory =>
      (exec (updateStep sqlite server opts.implied) actions
        (.begin directory.metadata directory.instances)).map (·.directory)

end StrideRunner
