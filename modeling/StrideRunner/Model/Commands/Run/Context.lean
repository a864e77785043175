import StrideRunner.Model.Utils.MetaDataDB
import Mathlib.Data.Finset.Sort

/-! # The list of instances of a run

The list comes from a file, from a query, or from both. Hash sets are finite sets with an arbitrary
order of iteration. -/

namespace StrideRunner

open Library

/-- The derived order on the ids. -/
instance : LinearOrder IId :=
  LinearOrder.lift' (fun iid => iid.id.toNat) fun iid iid' h => by
    cases iid
    cases iid'
    exact congrArg IId.mk (UInt32.toNat_inj.mp h)

/-- The options that choose the instances. -/
structure InstanceOpts where
  instances : Option PathBuf
  sqlWhere : Option DangerousRawClause
  sortInstances : Bool

/-- What the list depends on besides the options: the files, the metadata, and orders that the
program does not determine. -/
structure InstanceSources where
  fs : FileSystem
  db : MetaDataDB
  allOrder : Reordering ℤ
  allFault : Fault
  hashOrder : Reordering IId
  shuffle : Reordering IId

namespace RunContext

/-- The loop of `read_instance_list`. Blank lines and comments are recognised after trimming. -/
def parseInstanceLines : List Line → Outcome AnyhowError (List IId)
  | [] => .ok []
  | .error error :: _ => .err (.io error)
  | .ok orgLine :: rest =>
      if trim orgLine = [] ∨ (trim orgLine).head? = some 'c' then parseInstanceLines rest
      else match parseUnsigned U32_SIZE (trim orgLine) with
        | .error kind => .err (.message kind.message)
        | .ok id => do
            let instances ← parseInstanceLines rest
            return ⟨.ofNat id⟩ :: instances

def readInstanceList (fs : FileSystem) (path : PathBuf) : Outcome AnyhowError (List IId) := do
  let file ← (fs.read path).mapErr .io
  parseInstanceLines (bufReadLines file)

def unknownInstances (difference : List IId) : AnyhowError :=
  .message ("List contains " ++ toString difference.length ++
    " instance ids not found in metadata.db; try run `stride-runner update`. " ++
    "At least following IDs were not found " ++
    ", ".intercalate ((difference.take 20).map fun iid => toString iid.id.toNat))

def checkThatInstancesExist (sources : InstanceSources) (instances : List IId) :
    Outcome AnyhowError Unit := do
  -- the condition `1=1`
  let everything : DangerousRawClause := ⟨fun _ => true, sources.allOrder, sources.allFault⟩
  let allKnown ← sources.db.fetchInstanceIidsFromDb everything
  if instances.toFinset ⊆ allKnown.toFinset then .ok ()
  else .err (unknownInstances (instances.toFinset \ allKnown.toFinset).sort)

def instancesFromFile (sources : InstanceSources) :
    Option PathBuf → Outcome AnyhowError (Option (List IId))
  | some path => do
      let instances ← readInstanceList sources.fs path
      checkThatInstancesExist sources instances
      return some instances
  | none => return none

def instancesFromDb (sources : InstanceSources) :
    Option DangerousRawClause → Outcome AnyhowError (Option (List IId))
  | some clause => do
      let instances ← sources.db.fetchInstanceIidsFromDb clause
      return some instances
  | none => return none

/-- Only the intersection goes through hash sets. -/
def combineInstances (sources : InstanceSources) :
    Option (List IId) → Option (List IId) → Outcome AnyhowError (List IId)
  | some file, some db => .ok (sources.hashOrder.run (file.toFinset ∩ db.toFinset).sort)
  | some file, none => .ok file
  | none, some db => .ok db
  | none, none => .panic "internal error: entered unreachable code"

def mustProve : AnyhowError := .message "Must prove --instances and/or --sql-where"

def buildInstanceList (sources : InstanceSources) (opts : InstanceOpts) :
    Outcome AnyhowError (List IId) :=
  if opts.instances.isNone ∧ opts.sqlWhere.isNone then .err mustProve
  else do
    let fromFile ← instancesFromFile sources opts.instances
    let fromDb ← instancesFromDb sources opts.sqlWhere
    let instances ← combineInstances sources fromFile fromDb
    if opts.sortInstances then return instances.insertionSort (· ≤ ·)
    else return sources.shuffle.run instances

end RunContext

end StrideRunner
