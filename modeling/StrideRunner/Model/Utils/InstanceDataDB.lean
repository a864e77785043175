import StrideRunner.Library.Transition
import StrideRunner.Library.WriteOnce
import StrideRunner.Model.Commands.Run.Job
import Mathlib.Logic.Function.Basic

/-! # The cache of instance texts

All calls on one `InstanceDataDB` share a connection behind a mutex. A statement runs under the
lock, the download does not, so the steps of concurrent calls interleave. -/

namespace StrideRunner

open Library

/-- The rows of `InstanceData`; `did` is the primary key. -/
abbrev InstanceData := UniqueTable DId Bytes

/-- A statement may fail for reasons outside of the program. -/
abbrev Fault := Option AnyhowError

namespace InstanceDataDB

def notUtf8 : AnyhowError := .message "invalid utf-8 sequence"

def uniqueViolation : AnyhowError := .message "Inserting data for did"

/-- `fetch_data_from_db`: the text of the row, if there is one. -/
def fetchDataFromDb (fault : Fault) (table : InstanceData) (did : DId) :
    Outcome AnyhowError (Option (List Char)) :=
  match fault with
  | some error => .err error
  | none =>
      match table.lookup did with
      | none => .ok none
      | some data =>
          match decodeUtf8 data with
          | some text => .ok (some text)
          | none => .err notUtf8

/-- `insert_into_db` is a plain `INSERT`, which the primary key may reject. -/
def insertIntoDb (fault : Fault) (table : InstanceData) (did : DId) (data : List Char) :
    Outcome AnyhowError Unit × InstanceData :=
  match fault with
  | some error => (.err error, table)
  | none =>
      match UniqueTable.insertNew did (encodeUtf8 data) table with
      | some table => (.ok (), table)
      | none => (.err uniqueViolation, table)

/-- Where `add_from_db_file` fails, if it does. -/
inductive MergeFault where
  | none
  | attach (error : AnyhowError)
  | insert (error : AnyhowError)
  | detach (error : AnyhowError)
  deriving DecidableEq, Repr

def inUse : AnyhowError := .message "database download is already in use"

/-- `add_from_db_file` under the lock. The flag tells whether `download` is attached; a failing
statement leaves it attached. -/
def addFromDbFile (fault : MergeFault) (attached : Bool) (table : InstanceData)
    (rows : List (DId × Bytes)) : Outcome AnyhowError Unit × Bool × InstanceData :=
  if attached then (.err inUse, true, table)
  else match fault with
    | .attach error => (.err error, false, table)
    | .insert error => (.err error, true, table)
    | .detach error => (.err error, true, UniqueTable.merge table rows)
    | .none => (.ok (), false, UniqueTable.merge table rows)

end InstanceDataDB

/-! ## Concurrent calls -/

/-- How far a call of `fetch_data_with_did` has come. -/
inductive FetchPhase where
  | lookup
  | download
  | insert (fromServer : List Char)
  | returned (outcome : Outcome AnyhowError (List Char))
  deriving DecidableEq, Repr

/-- The calls are indexed by an arbitrary type; a call that has not begun is at its lookup. -/
structure CacheState (ι : Type) where
  table : InstanceData
  attached : Bool
  phase : ι → FetchPhase

inductive CacheAction (ι : Type) where
  | lookup (call : ι) (fault : Fault)
  | download (call : ι) (answer : Except AnyhowError (List Char))
  | insert (call : ι) (fault : Fault)
  | insertIntoDb (did : DId) (data : List Char) (fault : Fault)
  | addFromDbFile (rows : List (DId × Bytes)) (fault : InstanceDataDB.MergeFault)

namespace CacheState

variable {ι : Type} [DecidableEq ι]

def setPhase (s : CacheState ι) (call : ι) (phase : FetchPhase) : CacheState ι :=
  { s with phase := Function.update s.phase call phase }

def start (table : InstanceData) : CacheState ι := ⟨table, false, fun _ => .lookup⟩

/-- The locked lookup of `fetch_data_with_did`. -/
def lookupStep (fault : Fault) (s : CacheState ι) (call : ι) (did : DId) : CacheState ι :=
  match InstanceDataDB.fetchDataFromDb fault s.table did with
  | .ok (some data) => s.setPhase call (.returned (.ok data))
  | .ok none => s.setPhase call .download
  | .err error => s.setPhase call (.returned (.err error))
  | .panic message => s.setPhase call (.returned (.panic message))

/-- The locked insert; the call returns what it has downloaded. -/
def insertStep (fault : Fault) (s : CacheState ι) (call : ι) (did : DId)
    (fromServer : List Char) : CacheState ι :=
  match InstanceDataDB.insertIntoDb fault s.table did fromServer with
  | (.ok (), table) => { s with table }.setPhase call (.returned (.ok fromServer))
  | (.err error, table) => { s with table }.setPhase call (.returned (.err error))
  | (.panic message, table) => { s with table }.setPhase call (.returned (.panic message))

end CacheState

/-- One step of one of the calls, which look for `did call`, or a whole other operation. -/
def cacheStep {ι : Type} [DecidableEq ι] (did : ι → DId) :
    CacheAction ι → CacheState ι → Option (CacheState ι)
  | .lookup call fault, s =>
      match s.phase call with
      | .lookup => some (s.lookupStep fault call (did call))
      | _ => none
  | .download call answer, s =>
      match s.phase call with
      | .download =>
          match answer with
          | .ok text => some (s.setPhase call (.insert text))
          | .error error => some (s.setPhase call (.returned (.err error)))
      | _ => none
  | .insert call fault, s =>
      match s.phase call with
      | .insert fromServer => some (s.insertStep fault call (did call) fromServer)
      | _ => none
  | .insertIntoDb did data fault, s =>
      some { s with table := (InstanceDataDB.insertIntoDb fault s.table did data).2 }
  | .addFromDbFile rows fault, s =>
      let result := InstanceDataDB.addFromDbFile fault s.attached s.table rows
      some { s with attached := result.2.1, table := result.2.2 }

end StrideRunner
