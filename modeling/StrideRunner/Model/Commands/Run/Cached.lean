import StrideRunner.Model.Commands.Run.System
import StrideRunner.Model.Utils.InstanceDataDB

/-! # A run with its cache

The jobs fetch the texts of their instances through one `InstanceDataDB`. Its database may be
written by other commands during the run, and the server need not answer twice in the same way. -/

namespace StrideRunner

open Library

/-- A step of `fetch_data_with_did`. -/
inductive FetchAction where
  | lookup (fault : Fault)
  | download (answer : Except AnyhowError (List Char))
  | insert (fault : Fault)

def FetchAction.of {ι : Type} (call : ι) : FetchAction → CacheAction ι
  | .lookup fault => .lookup call fault
  | .download answer => .download call answer
  | .insert fault => .insert call fault

/-- The call of a job has the handle of the job. -/
structure CachedState where
  system : SystemState
  cache : CacheState ℕ

inductive CachedAction where
  | system (action : SystemAction)
  | fetch (handle : ℕ) (action : FetchAction)
  | insertIntoDb (did : DId) (data : List Char) (fault : Fault)
  | addFromDbFile (rows : List (DId × Bytes)) (fault : InstanceDataDB.MergeFault)

namespace CachedState

def start (env : RunEnvironment) (instances : List IId) (fs : FileSystem) (table : InstanceData) :
    CachedState :=
  ⟨SystemState.start env instances fs, CacheState.start table⟩

/-- The step of a job that waits for the text of its instance. -/
def fetches (s : SystemState) : SystemAction → Bool
  | .main _ => false
  | .job handle _ =>
      match (s.shared.locals handle).phase with
      | .fetchingData _ => true
      | _ => false

/-- A call that has returned lets its job go on. -/
def settleFetch (env : RunEnvironment) (s : SystemState) (handle : ℕ) :
    FetchPhase → Option SystemState
  | .returned outcome =>
      let waiting := s.shared.locals handle
      match waiting.phase with
      | .fetchingData info =>
          let task := waiting.andThen outcome fun data =>
            waiting.goto (.running info (env.prepare data) .start)
          (SystemState.jobEnds s.run handle task).map fun run =>
            { run, shared := { s.shared with locals := Function.update s.shared.locals handle task } }
      | _ => none
  | _ => some s

def fetchStep (env : RunEnvironment) (handle : ℕ) (action : FetchAction) (s : CachedState) :
    Option CachedState :=
  match s.system.run.tasks[handle]?, (s.system.shared.locals handle).phase with
  | some ⟨_, .running⟩, .fetchingData info =>
      (cacheStep (fun _ => info.dataDid) (action.of handle) s.cache).bind fun cache =>
        (settleFetch env s.system handle (cache.phase handle)).map fun system => ⟨system, cache⟩
  | _, _ => none

def step (env : RunEnvironment) : CachedAction → CachedState → Option CachedState
  | .system action, s =>
      if fetches s.system action then none
      else (SystemState.step env action s.system).map fun system => { s with system }
  | .fetch handle action, s => s.fetchStep env handle action
  | .insertIntoDb did data fault, s =>
      some { s with cache.table := (InstanceDataDB.insertIntoDb fault s.cache.table did data).2 }
  | .addFromDbFile rows fault, s =>
      -- another process merges over a connection of its own
      let merged := (InstanceDataDB.addFromDbFile fault false s.cache.table rows).2.2
      some { s with cache.table := merged }

end CachedState

end StrideRunner
