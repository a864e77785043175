import StrideRunner.Model.Commands.Run.Job

/-! # Importing a solution

The command reads a solution with the number of nodes of the metadata, and checks it against the
edges of the stored instance. Databases, files and the server are parameters. -/

namespace StrideRunner

open Pace

/-- The columns of the metadata table that the command uses. -/
structure InstanceRow extends InstanceModel where
  nodes : UInt32
  deriving DecidableEq, Repr

structure ImportEffects where
  openMetaDb : Outcome AnyhowError Unit
  fetchInstance : Outcome AnyhowError InstanceRow
  serverConn : Outcome AnyhowError Unit
  -- a file or the standard input
  openSolution : Outcome AnyhowError Bytes
  openInstanceDb : Outcome AnyhowError Unit
  fetchData : DId → Outcome AnyhowError (List Char)
  upload : SolverResult → Outcome AnyhowError Unit

/-- An error below the context that the command may give it. -/
structure ImportError where
  context : Option String
  source : AnyhowError
  deriving DecidableEq, Repr

/-- What the command prints and sends. -/
inductive ImportEvent where
  | feasible (iid : IId) (cardinality : ℕ)
  | notGoodEnough (bestScore : ℕ)
  | upload (data : List ℕ)
  | uploadComplete
  deriving DecidableEq, Repr

namespace Import

def plain {α : Type} (result : Outcome AnyhowError α) : Outcome ImportError α :=
  result.mapErr fun error => ⟨none, error⟩

def withContext {α : Type} (context : String) (result : Outcome IoError α) :
    Outcome ImportError α :=
  result.mapErr fun error => ⟨some context, .io error⟩

def notValid (iid : IId) : ImportError :=
  ⟨none, .message ("Solution is not valid for instance IId(" ++ toString iid.id.toNat ++ ")")⟩

/-- The command up to the message that the solution is feasible. -/
def checkSolution (profile : BuildProfile) (effects : ImportEffects) (iid : IId) :
    Outcome ImportError (InstanceRow × Solution) := do
  plain effects.openMetaDb
  let info ← plain effects.fetchInstance
  plain effects.serverConn
  let file ← plain effects.openSolution
  let solution ← withContext "Reading solution"
    (Outcome.ofExcept (Solution.read file (some info.nodes.toNat)))
  plain effects.openInstanceDb
  let data ← plain (effects.fetchData info.dataDid)
  let reader ← withContext "Creating reader for instance data"
    (Outcome.ofExcept (PaceReader.tryNew (encodeUtf8 data)))
  -- `reader.number_of_nodes()` is only logged
  let edges ← withContext "Reading instance data" (reader.collectEdges profile)
  let isValid ← withContext "Verifying solution"
    (solution.validDomsetForInstance info.nodes.toNat edges)
  if isValid then return (info, solution) else .err (notValid iid)

/-- The decision about the upload, and the upload. -/
def uploadSolution (profile : BuildProfile) (effects : ImportEffects) (info : InstanceRow)
    (solution : Solution) : Outcome ImportError Unit × List ImportEvent :=
  if ¬ isScoreGoodEnoughForUpload (solution.solution.length % U32_SIZE) info.bestScore then
    match info.bestScore with
    | some bestScore => (.ok (), [.notGoodEnough bestScore])
    | none => (.panic "called `Option::unwrap()` on a `None` value", [])
  else match solution.take1indexedSolution profile with
    | .err error => (.err ⟨none, .io error⟩, [])
    | .panic message => (.panic message, [])
    | .ok data =>
        match plain (effects.upload (.valid data)) with
        | .ok () => (.ok (), [.upload data, .uploadComplete])
        | .err error => (.err error, [.upload data])
        | .panic message => (.panic message, [.upload data])

end Import

open Import

def commandImportSolution (profile : BuildProfile) (effects : ImportEffects) (iid : IId) :
    Outcome ImportError Unit × List ImportEvent :=
  match checkSolution profile effects iid with
  | .err error => (.err error, [])
  | .panic message => (.panic message, [])
  | .ok (info, solution) =>
      let (result, events) := uploadSolution profile effects info solution
      (result, .feasible iid solution.solution.length :: events)

end StrideRunner
