import StrideRunner.Library.Interleaving
import StrideRunner.Model.Utils.RunSummaryLogger

/-! # A whole run: the main task, the jobs and the log directory

`Job::main` is taken apart into the steps between which other tasks can act. The files of the
jobs and the summary are in one file system. -/

namespace StrideRunner

open Library

/-- What a run finds outside of its log directory. The metadata, the texts of the instances and
the solver are the same throughout the run; `asSecsF64` prints durations. -/
structure RunEnvironment where
  profile : BuildProfile
  opts : RunOpts
  logDir : PathBuf
  fetchInstance : IId → Outcome AnyhowError InstanceModel
  fetchData : IId → DId → Outcome AnyhowError (List Char)
  solver : IId → Bytes → SolverRun
  runtime : IId → ℕ
  asSecsF64 : ℕ → List Char

namespace RunEnvironment

/-- The executor that a job builds around the text of its instance. -/
def executor (env : RunEnvironment) (iid : IId) (data : List Char) : SolverExecutor :=
  ⟨env.logDir, iid, data⟩

/-- The text that is fed to the solver. -/
def prepare (env : RunEnvironment) (data : List Char) : List Char :=
  if env.opts.stripComments then Job.stripComments data else data

end RunEnvironment

/-- An error with a context shows the context. -/
def ExecutorError.toAnyhow : ExecutorError → AnyhowError
  | ⟨none, source⟩ => .io source
  | ⟨some context, _⟩ => .message context

namespace Job

/-- The logs of a successful job are deleted unless they are to be kept. -/
def deletesLogs (opts : RunOpts) (state : JobResultState) : Bool :=
  !opts.keepLogsOnSuccess &&
    (state.isOptimal || (state.isSuboptimal && !opts.suboptimalIsError))

end Job

/-! ## A job, step by step -/

/-- Where a job is in `Job::main`. While the executor is at work its own state is part of it. -/
inductive JobPhase where
  | fetchingInstance
  | fetchingData (info : InstanceModel)
  | running (info : InstanceModel) (data : List Char) (executor : ExecutorState)
  | postProcessing (info : InstanceModel) (data : List Char) (executor : ExecutorState)
      (result : SolverResult)
  | deleting (data : List Char) (executor : ExecutorState) (state : JobResultState)
  | ended (outcome : Outcome AnyhowError JobResult)

/-- `sent` is the result in the request that the job has sent to the server. -/
structure JobTask where
  phase : JobPhase
  sent : Option SolverResult

/-- The next step succeeds as far as its surroundings allow, or fails for another reason; `left`
is what a failed write leaves in the file. The upload may also panic. -/
inductive JobAction where
  | proceed
  | fail (error : AnyhowError) (left : Option Bytes)
  | unwind (message : String)
  deriving Repr

namespace JobTask

def start : JobTask := ⟨.fetchingInstance, none⟩

def goto (task : JobTask) (phase : JobPhase) : JobTask :=
  { task with phase }

def finish (task : JobTask) (outcome : Outcome AnyhowError JobResult) : JobTask :=
  { task with phase := .ended outcome }

/-- The `?` operator in `Job::main`. -/
def andThen {α : Type} (task : JobTask) (x : Outcome AnyhowError α) (next : α → JobTask) :
    JobTask :=
  match x with
  | .ok value => next value
  | .err error => task.finish (.err error)
  | .panic message => task.finish (.panic message)

/-- After a system call of `executor.run()`. -/
def afterCall (task : JobTask) (info : InstanceModel) (data : List Char)
    (executor : ExecutorState) : JobTask :=
  match executor.result with
  | none => task.goto (.running info data executor)
  | some result => task.andThen (result.mapErr ExecutorError.toAnyhow) fun result =>
      task.goto (.postProcessing info data executor result)

/-- After the upload. -/
def classify (env : RunEnvironment) (iid : IId) (task : JobTask) (info : InstanceModel)
    (data : List Char) (executor : ExecutorState) (result : SolverResult) : JobTask :=
  task.andThen (Job.toResultType result info) fun state =>
    if Job.deletesLogs env.opts state then task.goto (.deleting data executor state)
    else task.finish (.ok ⟨state, env.runtime iid⟩)

/-- After a system call of `executor.delete_files()`. -/
def afterDeletion (env : RunEnvironment) (iid : IId) (task : JobTask) (data : List Char)
    (executor : ExecutorState) (state : JobResultState) : JobTask :=
  match executor.deletion with
  | none => task.goto (.deleting data executor state)
  | some deletion => task.andThen (deletion.mapErr ExecutorError.toAnyhow) fun _ =>
      task.finish (.ok ⟨state, env.runtime iid⟩)

/-- The request, if there is one, has been sent. -/
def send (env : RunEnvironment) (task : JobTask) (info : InstanceModel) (result : SolverResult) :
    JobTask :=
  if Job.uploads env.opts result info.bestScore then { task with sent := some result } else task

/-- `delete_files` begins by asking whether the stdin file exists. -/
def deleteCall (env : RunEnvironment) (iid : IId) (data : List Char) (fs : FileSystem)
    (executor : ExecutorState) : Option (FileSystem × ExecutorState) :=
  match executor.phase with
  | .returned => (env.executor iid data).deleteStep fs executor
  | _ => (env.executor iid data).proceedStep env.profile (env.solver iid) fs executor

def proceedStep (env : RunEnvironment) (iid : IId) (fs : FileSystem) (task : JobTask) :
    Option (FileSystem × JobTask) :=
  match task.phase with
  | .fetchingInstance =>
      some (fs, task.andThen (env.fetchInstance iid) fun info => task.goto (.fetchingData info))
  | .fetchingData info =>
      some (fs, task.andThen (env.fetchData iid info.dataDid) fun data =>
        task.goto (.running info (env.prepare data) .start))
  | .running info data executor =>
      ((env.executor iid data).proceedStep env.profile (env.solver iid) fs executor).map
        fun next => (next.1, task.afterCall info data next.2)
  | .postProcessing info data executor result =>
      some (fs, (task.send env info result).classify env iid info data executor result)
  | .deleting data executor state =>
      (deleteCall env iid data fs executor).map
        fun next => (next.1, task.afterDeletion env iid data next.2 state)
  | .ended _ => none

def failStep (env : RunEnvironment) (iid : IId) (error : AnyhowError) (left : Option Bytes)
    (fs : FileSystem) (task : JobTask) : Option (FileSystem × JobTask) :=
  match task.phase, error with
  | .fetchingInstance, error => some (fs, task.finish (.err error))
  | .fetchingData _, error => some (fs, task.finish (.err error))
  | .running info data executor, .io error =>
      ((env.executor iid data).failStep error left fs executor).map
        fun next => (next.1, task.afterCall info data next.2)
  | .postProcessing info _ _ result, error =>
      if Job.uploads env.opts result info.bestScore then
        some (fs, (task.send env info result).finish (.err error))
      else none
  | .deleting data executor state, .io error =>
      ((env.executor iid data).failStep error left fs executor).map
        fun next => (next.1, task.afterDeletion env iid data next.2 state)
  | .running .., .message _ => none
  | .deleting .., .message _ => none
  | .ended _, _ => none

/-- The `expect` on the response of the server. -/
def unwindStep (env : RunEnvironment) (message : String) (fs : FileSystem) (task : JobTask) :
    Option (FileSystem × JobTask) :=
  match task.phase with
  | .postProcessing info _ _ result =>
      if Job.uploads env.opts result info.bestScore then
        some (fs, (task.send env info result).finish (.panic message))
      else none
  | _ => none

end JobTask

def jobStep (env : RunEnvironment) (iid : IId) :
    JobAction → FileSystem × JobTask → Option (FileSystem × JobTask)
  | .proceed, (fs, task) => task.proceedStep env iid fs
  | .fail error left, (fs, task) => task.failStep env iid error left fs
  | .unwind message, (fs, task) => task.unwindStep env message fs

/-! ## The main task and the jobs -/

/-- The jobs are told apart by the positions of their tasks. -/
structure SystemState where
  run : RunState
  shared : SharedState ℕ PathBuf (Option Bytes) JobTask

/-- A step of the main task, where a failing write of the summary stops after some bytes, or a
step of a job. -/
inductive SystemAction where
  | main (failure : Option ℕ)
  | job (handle : ℕ) (action : JobAction)
  deriving Repr

namespace SystemState

/-- The line that the next step of the main task writes, if any. -/
def attempted (s : RunState) : Option SummaryLine :=
  match s.point with
  | .polling index =>
      match s.runningJobs[index]? with
      | some ⟨iid, some handle⟩ =>
          match s.tasks[handle]? with
          | some ⟨_, .finished (.ok result)⟩ => some (logJobResult iid result)
          | _ => none
      | _ => none
  | _ => none

/-- What a write of the summary does to its file. -/
def logLine (env : RunEnvironment) (failure : Option ℕ) (fs : FileSystem) :
    Option SummaryLine → FileSystem
  | some line =>
      let text := encodeUtf8 (line.text env.asSecsF64)
      fs.append (summaryFile env.logDir) (failure.elim text text.take)
  | none => fs

/-- The summary is created in front of the loop, if the run gets there. -/
def start (env : RunEnvironment) (instances : List IId) (fs : FileSystem) : SystemState :=
  let run := RunState.start env.opts instances
  { run
    shared.store :=
      if run.point = .loopHead then
        fs.write (summaryFile env.logDir) (encodeUtf8 HEADER_STR.toList)
      else fs
    shared.locals := fun _ => .start }

def mainStep (env : RunEnvironment) (failure : Option ℕ) (s : SystemState) : Option SystemState :=
  (s.run.advance env.opts failure.isNone).map fun run =>
    { run
      shared := { s.shared with store := logLine env failure s.shared.store (attempted s.run) } }

/-- The last step of a job ends its task. -/
def jobEnds (s : RunState) (handle : ℕ) (task : JobTask) : Option RunState :=
  match task.phase with
  | .ended outcome => s.finishTask handle outcome
  | _ => some s

def step (env : RunEnvironment) : SystemAction → SystemState → Option SystemState
  | .main failure, s => s.mainStep env failure
  | .job handle action, s =>
      match s.run.tasks[handle]? with
      | some ⟨iid, .running⟩ =>
          (jobStep env iid action (s.shared.store, s.shared.locals handle)).bind fun next =>
            (jobEnds s.run handle next.2).map fun run =>
              { run, shared := ⟨next.1, Function.update s.shared.locals handle next.2⟩ }
      | _ => none

end SystemState

end StrideRunner
