import StrideRunner.Library.Transition
import StrideRunner.Model.Commands.Run.Job

/-! # The scheduling loop of `command_run`

The main task and the spawned job tasks are interleaved. The main task moves from one program
point to the next; a job task ends at any time with any outcome of `Job::main`. -/

namespace StrideRunner

/-! ## Summary and display -/

/-- A line of `summary.csv`; `time_sec` is a duration in nanoseconds. -/
structure SummaryLine where
  iid : IId
  timeSec : ℕ
  state : String
  score : Option ℕ
  bestScoreKnown : Option ℕ
  deriving DecidableEq, Repr

/-- The line that `log_job_result` writes. -/
def logJobResult (iid : IId) (summary : JobResult) : SummaryLine :=
  let (score, bestKnown) := match summary.state with
    | .bestKnown score => (some score, some score)
    | .suboptimal score bestKnown => (some score, some bestKnown)
    | _ => (none, none)
  ⟨iid, summary.runtime, summary.state.display, score, bestKnown⟩

def summaryFile (logDir : PathBuf) : PathBuf := logDir ++ ["summary.csv"]

def writeFailed : AnyhowError := .message "Failed to write to run summary file"

structure ProgressDisplay where
  numOptimal : ℕ
  numSuboptimal : ℕ
  numInfeasible : ℕ
  numError : ℕ
  numTimeout : ℕ
  numIncomplete : ℕ
  deriving DecidableEq, Repr

namespace ProgressDisplay

def new : ProgressDisplay := ⟨0, 0, 0, 0, 0, 0⟩

def finishJob (self : ProgressDisplay) : JobResultState → ProgressDisplay
  | .bestKnown _ => { self with numOptimal := self.numOptimal + 1 }
  | .suboptimal _ _ => { self with numSuboptimal := self.numSuboptimal + 1 }
  | .infeasible => { self with numInfeasible := self.numInfeasible + 1 }
  | .error => { self with numError := self.numError + 1 }
  | .timeout => { self with numTimeout := self.numTimeout + 1 }
  | .incomplete => { self with numIncomplete := self.numIncomplete + 1 }

end ProgressDisplay

inductive JobSuccess where
  | reportAsFailure
  | reportAsSuccess
  deriving DecidableEq, Repr

/-- The classification in `JobContext::poll`. -/
def jobSuccess (opts : RunOpts) : JobResultState → JobSuccess
  | .bestKnown _ => .reportAsSuccess
  | .incomplete => .reportAsSuccess
  | .timeout => .reportAsSuccess
  | .suboptimal _ _ => if opts.suboptimalIsError then .reportAsFailure else .reportAsSuccess
  | _ => .reportAsFailure

/-! ## Tasks and jobs -/

inductive TaskState where
  | running
  | finished (outcome : Outcome AnyhowError JobResult)
  deriving DecidableEq, Repr

/-- A spawned task; it goes on running when its handle is dropped. -/
structure Task where
  iid : IId
  state : TaskState
  deriving DecidableEq, Repr

/-- The entry of a running job; `taskHandle` is the position of its task. -/
structure JobContext where
  iid : IId
  taskHandle : Option ℕ
  deriving DecidableEq, Repr

/-- The method `is_finished`, which inspects the handle. -/
def JobContext.isFinished (job : JobContext) : Bool :=
  job.taskHandle.isNone

/-- The position of the main task in `command_run`. -/
inductive ProgramPoint where
  | loopHead
  | polling (index : ℕ)
  | retaining
  | returned (result : Outcome AnyhowError Unit)
  deriving DecidableEq, Repr

structure RunState where
  point : ProgramPoint
  instances : List IId
  runningJobs : List JobContext
  tasks : List Task
  display : ProgressDisplay
  summary : List SummaryLine
  reportErrorOnExit : Bool
  deriving DecidableEq, Repr

/-! ## Steps -/

namespace RunState

def noInstances : AnyhowError := .message "No instances to run"

def someRunsFailed : AnyhowError := .message "Some runs failed"

/-- The state in front of the loop, after the checks that precede it. -/
def start (opts : RunOpts) (instances : List IId) : RunState :=
  { point :=
      if instances.isEmpty then .returned (.err noInstances)
      else if opts.parallelJobs = 0 then .returned (.panic "assertion failed: avail_slots > 0")
      else .loopHead
    instances
    runningJobs := []
    tasks := []
    display := .new
    summary := []
    reportErrorOnExit := false }

/-- At most one new job is spawned per iteration. -/
def spawn (opts : RunOpts) (s : RunState) : RunState :=
  if opts.parallelJobs > s.runningJobs.length then
    match s.instances with
    | iid :: rest =>
        { s with
          instances := rest
          runningJobs := s.runningJobs ++ [⟨iid, some s.tasks.length⟩]
          tasks := s.tasks ++ [⟨iid, .running⟩] }
    | [] => s
  else s

/-- The handle is taken before the outcome of the task is looked at. -/
def takeHandle (s : RunState) (index : ℕ) : RunState :=
  { s with runningJobs := s.runningJobs.modify index fun job => { job with taskHandle := none } }

/-- `poll` after the job's handle has been taken. -/
def settle (opts : RunOpts) (written : Bool) (s : RunState) (index : ℕ) (iid : IId) :
    Outcome AnyhowError JobResult → RunState
  | .ok result =>
      if written then
        { s with
          point := .polling (index + 1)
          display := s.display.finishJob result.state
          summary := s.summary ++ [logJobResult iid result]
          reportErrorOnExit :=
            s.reportErrorOnExit || jobSuccess opts result.state = .reportAsFailure }
      else { s with point := .returned (.err writeFailed) }
  | .err error => { s with point := .returned (.err error) }
  | .panic message => { s with point := .returned (.err (.message message)) }

/-- `JobContext::poll` on the job at this position; `written` tells whether the summary file
accepts the line. -/
def poll (opts : RunOpts) (written : Bool) (s : RunState) (index : ℕ) (job : JobContext) :
    RunState :=
  match job.taskHandle with
  | none => { s with
      point := .returned (.panic "called `Option::unwrap()` on a `None` value") }
  | some handle =>
      match s.tasks[handle]? with
      | some ⟨_, .finished outcome⟩ =>
          settle opts written (s.takeHandle index) index job.iid outcome
      | _ => { s with point := .polling (index + 1) }

/-- The next move of the main task. -/
def advance (opts : RunOpts) (written : Bool) (s : RunState) : Option RunState :=
  match s.point with
  | .loopHead =>
      if s.instances.isEmpty && s.runningJobs.isEmpty then
        some { s with
          point := .returned (if s.reportErrorOnExit then .err someRunsFailed else .ok ()) }
      else some { s.spawn opts with point := .polling 0 }
  | .polling index =>
      match s.runningJobs[index]? with
      | some job => some (s.poll opts written index job)
      | none => some { s with point := .retaining }
  | .retaining =>
      some { s with
        point := .loopHead
        runningJobs := s.runningJobs.filter fun job => !job.isFinished }
  | .returned _ => none

/-- A running task ends. -/
def finishTask (s : RunState) (handle : ℕ) (outcome : Outcome AnyhowError JobResult) :
    Option RunState :=
  match s.tasks[handle]? with
  | some ⟨iid, .running⟩ =>
      some { s with tasks := s.tasks.set handle ⟨iid, .finished outcome⟩ }
  | _ => none

end RunState

inductive RunAction where
  | main (written : Bool)
  | task (handle : ℕ) (outcome : Outcome AnyhowError JobResult)
  deriving DecidableEq, Repr

def runStep (opts : RunOpts) : RunAction → RunState → Option RunState
  | .main written, s => s.advance opts written
  | .task handle outcome, s => s.finishTask handle outcome

end StrideRunner
