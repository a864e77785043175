import StrideRunner.Library.Overlay
import StrideRunner.Model.Commands.Import
import StrideRunner.Model.Utils.Settings

/-! # The environment of the solver

A job tells its solver about the instance and about the run in environment variables. -/

namespace StrideRunner

open Library Pace.InstanceWriter

/-- A whole row of the metadata table. -/
structure InstanceRecord extends InstanceRow where
  edges : UInt32
  diameter : Option UInt32
  treewidth : Option UInt32
  planar : Option Bool
  bipartite : Option Bool
  deriving DecidableEq, Repr

/-- The options and the id of a run as far as its solvers get to know them. -/
structure SolverSettings where
  noEnv : Bool
  timeout : UInt64
  grace : UInt64
  runUuid : Uuid
  solverUuid : Option Uuid
  deriving DecidableEq, Repr

namespace Job

/-- `to_string` of an unsigned integer. -/
def number (n : ℕ) : Bytes := encodeUtf8 (decimal n)

/-- `to_string` of a truth value. -/
def truth : Bool → Bytes
  | true => ascii "true"
  | false => ascii "false"

/-- The columns in the order in which they are pushed; a column without a value is not. -/
def instanceEntries (inst : InstanceRecord) : List (String × Option Bytes) :=
  [("STRIDE_IID", some (number inst.iid.id.toNat)),
    ("STRIDE_NODES", some (number inst.nodes.toNat)),
    ("STRIDE_EDGES", some (number inst.edges.toNat)),
    ("STRIDE_BEST_SCORE", inst.bestScore.map number),
    ("STRIDE_DIAMETER", inst.diameter.map fun n => number n.toNat),
    ("STRIDE_TREEWIDTH", inst.treewidth.map fun n => number n.toNat),
    ("STRIDE_PLANAR", inst.planar.map truth),
    ("STRIDE_BIPARTITE", inst.bipartite.map truth)]

def instanceToEnv (inst : InstanceRecord) : List (String × Bytes) := bound (instanceEntries inst)

def settingsEntries (settings : SolverSettings) : List (String × Option Bytes) :=
  [("STRIDE_TIMEOUT_SEC", some (number settings.timeout.toNat)),
    ("STRIDE_GRACE_SEC", some (number settings.grace.toNat)),
    ("STRIDE_RUN_UUID", some settings.runUuid.display),
    ("STRIDE_SOLVER_UUID", settings.solverUuid.map Uuid.display)]

def prepareEnvVariables (settings : SolverSettings) (info : InstanceRecord) :
    List (String × Bytes) :=
  if settings.noEnv then [] else instanceToEnv info ++ bound (settingsEntries settings)

/-- What the solver sees: the child of a process inherits the variables that are not set. -/
def solverEnv (inherited : String → Option Bytes) (settings : SolverSettings)
    (info : InstanceRecord) : String → Option Bytes :=
  overlay inherited (prepareEnvVariables settings info)

end Job

end StrideRunner
