import StrideRunner.Model.Commands.Run.System
import StrideRunner.Model.Utils.Settings

/-! # The request that uploads a result

The body is written by `serde_json` without white space. Durations are printed as `f64`, which is
a parameter. -/

namespace StrideRunner

open Pace.InstanceWriter

/-- How JSON shows a duration in seconds: a number, so neither `null` nor with a comma. -/
structure JsonSeconds where
  print : ℕ → Bytes
  notMem_comma : ∀ time, 44 ∉ print time
  ne_null : ∀ time, print time ≠ ascii "null"

def jsonNat (n : ℕ) : Bytes := encodeUtf8 (decimal n)

/-- A UUID from a number of 128 bits. -/
def Uuid.fromU128 (n : ℕ) : Uuid :=
  ⟨.ofFn fun i => .ofNat (n / 256 ^ (15 - i.val))⟩

/-- A UUID as a JSON string. -/
def jsonQuoted (uuid : Uuid) : Bytes := [34] ++ (uuid.display ++ [34])

namespace SolverResult

/-- The variants in lower case. -/
def status : SolverResult → String
  | .valid _ => "valid"
  | .validCached => "validcached"
  | .infeasible => "infeasible"
  | .syntaxError => "syntaxerror"
  | .timeout => "timeout"
  | .incompleteOutput => "incompleteoutput"

/-- What follows the tag. -/
def jsonFields : SolverResult → Bytes
  | .valid data =>
      ascii ",\"data\":[" ++ (((data.map jsonNat).intersperse [44]).flatten ++ [93]) ++ [125]
  | _ => [125]

/-- An internally tagged enumeration: the tag comes first. -/
def json (self : SolverResult) : Bytes :=
  ascii "\x7b\"status\":\"" ++ (ascii self.status ++ 34 :: self.jsonFields)

end SolverResult

structure SolutionUploadRequest where
  instanceId : IId
  runUuid : Uuid
  solverUuid : Option Uuid
  secondsComputed : Option ℕ
  result : SolverResult
  dryRun : Bool
  deriving DecidableEq, Repr

namespace SolutionUploadRequest

def seconds (format : JsonSeconds) : Option ℕ → Bytes
  | some time => format.print time
  | none => ascii "null"

/-- The fields in their order; two of them may be left out. -/
def body (format : JsonSeconds) (self : SolutionUploadRequest) : Bytes :=
  ascii "\x7b\"instance_id\":" ++ (jsonNat self.instanceId.id.toNat ++ [44]) ++
    (ascii "\"run_uuid\":" ++ (jsonQuoted self.runUuid ++ [44])) ++
    (self.solverUuid.elim [] (fun uuid => ascii "\"solver_uuid\":" ++ (jsonQuoted uuid ++ [44])) ++
      ascii "\"seconds_computed\":") ++
    (seconds format self.secondsComputed ++ [44]) ++
    (ascii "\"result\":" ++ self.result.json) ++
    ((if self.dryRun then ascii ",\"dry_run\":true" else []) ++ [125])

end SolutionUploadRequest

/-- The request of `upload_results`. -/
def Job.uploadRequest (env : RunEnvironment) (runUuid : Uuid) (iid : IId) (result : SolverResult) :
    SolutionUploadRequest :=
  { instanceId := iid
    runUuid
    solverUuid := env.opts.solverUuid.map Uuid.fromU128
    secondsComputed := some (env.runtime iid)
    result
    dryRun := false }

end StrideRunner
