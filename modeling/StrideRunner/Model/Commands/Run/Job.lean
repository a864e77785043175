import StrideRunner.Model.Utils.SolverExecutor

/-! # A job: fetching, running, uploading and classifying

The effects of a job (the two databases, the solver, the server) are parameters; what the job
makes of their results is not. -/

namespace StrideRunner

/-- `anyhow::Error`: an I/O error or a message. -/
inductive AnyhowError where
  | io (error : IoError)
  | message (text : String)
  deriving DecidableEq, Repr

/-- The columns of the metadata table that decide about a job. -/
structure InstanceModel where
  iid : IId
  dataDid : DId
  bestScore : Option ℕ
  deriving DecidableEq, Repr

structure RunOpts where
  parallelJobs : ℕ
  suboptimalIsError : Bool
  keepLogsOnSuccess : Bool
  stripComments : Bool
  noUpload : Bool
  solverUuid : Option ℕ
  deriving DecidableEq, Repr

/-! ## Classification -/

inductive JobResultState where
  | bestKnown (score : ℕ)
  | suboptimal (score bestKnown : ℕ)
  | infeasible
  | incomplete
  | error
  | timeout
  deriving DecidableEq, Repr

namespace JobResultState

/-- The `Display` instance, which is the state column of the summary. -/
def display : JobResultState → String
  | .bestKnown _ => "best"
  | .suboptimal _ _ => "suboptimal"
  | .infeasible => "infeasible"
  | .incomplete => "incomplete"
  | .error => "error"
  | .timeout => "timeout"

def isOptimal : JobResultState → Bool
  | .bestKnown _ => true
  | _ => false

def isSuboptimal : JobResultState → Bool
  | .suboptimal _ _ => true
  | _ => false

end JobResultState

/-- `runtime` is a `Duration` in nanoseconds. -/
structure JobResult where
  state : JobResultState
  runtime : ℕ
  deriving DecidableEq, Repr

/-- The comparison is on `isize`. -/
def isScoreGoodEnoughForUpload (solutionScore : ℕ) (bestScore : Option ℕ) : Bool :=
  match bestScore with
  | some bestScore => ((solutionScore : ℤ) - bestScore - 5) * 10 < bestScore
  | none => true

namespace Job

def toResultType (result : SolverResult) (info : InstanceModel) :
    Outcome AnyhowError JobResultState :=
  match result with
  | .valid data =>
      let largerThanBest : ℤ := info.bestScore.elim 0 fun x => (data.length : ℤ) - x
      if largerThanBest ≤ 0 then .ok (.bestKnown (data.length % U32_SIZE))
      else match info.bestScore with
        | some best => .ok (.suboptimal (data.length % U32_SIZE) best)
        | none => .panic "called `Option::unwrap()` on a `None` value"
  | .validCached => .panic "internal error: entered unreachable code"
  | .infeasible => .ok .infeasible
  | .syntaxError => .ok .error
  | .timeout => .ok .timeout
  | .incompleteOutput => .ok .incomplete

/-- The decision of `upload_results` whether to send a request. -/
def uploads (opts : RunOpts) (result : SolverResult) (bestScore : Option ℕ) : Bool :=
  if opts.noUpload then false
  else if opts.solverUuid.isNone then
    match result with
    | .valid data => isScoreGoodEnoughForUpload (data.length % U32_SIZE) bestScore
    | _ => false
  else true

/-- `str::lines` without the lines that start with `c`, joined by line feeds. -/
def stripComments (data : List Char) : List Char :=
  let kept := (lines '\r' '\n' data).filter fun line => line.head? ≠ some 'c'
  (kept.intersperse ['\n']).flatten

/-- What `main` calls: the databases, the executor and the server. -/
structure Effects where
  fetchInstance : Outcome AnyhowError InstanceModel
  fetchData : DId → Outcome AnyhowError (List Char)
  run : List Char → Outcome AnyhowError SolverResult
  runtime : ℕ
  upload : SolverResult → Outcome AnyhowError Unit
  deleteFiles : Outcome AnyhowError Unit

def uploadResults (opts : RunOpts) (effects : Effects) (result : SolverResult)
    (bestScore : Option ℕ) : Outcome AnyhowError Unit :=
  if uploads opts result bestScore then effects.upload result else .ok ()

/-- The logs of a successful job are deleted unless they are to be kept. -/
def deleteLogs (opts : RunOpts) (effects : Effects) (state : JobResultState) :
    Outcome AnyhowError Unit :=
  let successful := state.isOptimal || (state.isSuboptimal && !opts.suboptimalIsError)
  if !opts.keepLogsOnSuccess && successful then effects.deleteFiles else .ok ()

def main (opts : RunOpts) (effects : Effects) : Outcome AnyhowError JobResult := do
  let info ← effects.fetchInstance
  let data ← effects.fetchData info.dataDid
  let data := if opts.stripComments then stripComments data else data
  let result ← effects.run data
  uploadResults opts effects result info.bestScore
  let state ← toResultType result info
  deleteLogs opts effects state
  return ⟨state, effects.runtime⟩

end Job

end StrideRunner
