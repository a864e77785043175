import StrideRunner.Model.Pace.Solution
import Mathlib.Logic.Function.Basic

/-! # Running one solver and judging its output -/

namespace StrideRunner

/-- Instance id and data id are distinct types over `u32`. -/
structure IId where
  id : UInt32
  deriving DecidableEq, Repr

structure DId where
  id : UInt32
  deriving DecidableEq, Repr

/-! ## Files -/

/-- A path as the list of its components. -/
abbrev PathBuf := List String

abbrev FileSystem := PathBuf → Option Bytes

namespace FileSystem

/-- `fs::write` and `File::create`, the latter with empty content. -/
def write (fs : FileSystem) (path : PathBuf) (content : Bytes) : FileSystem :=
  Function.update fs path (some content)

def remove (fs : FileSystem) (path : PathBuf) : FileSystem :=
  Function.update fs path none

/-- A write through a handle that is still open: nothing happens to a file that is gone. -/
def append (fs : FileSystem) (path : PathBuf) (content : Bytes) : FileSystem :=
  Function.update fs path ((fs path).map (· ++ content))

def notFound : IoError := ⟨.notFound, "No such file or directory (os error 2)"⟩

def read (fs : FileSystem) (path : PathBuf) : Outcome IoError Bytes :=
  match fs path with
  | some content => .ok content
  | none => .err notFound

/-- `fs::remove_file`. -/
def removeFile (fs : FileSystem) (path : PathBuf) : Outcome IoError FileSystem :=
  match fs path with
  | some _ => .ok (fs.remove path)
  | none => .err notFound

end FileSystem

/-! ## Results -/

/-- The output of the verifier; node ids are counted from 1. -/
inductive SolverResult where
  | valid (data : List ℕ)
  | validCached
  | infeasible
  | syntaxError
  | timeout
  | incompleteOutput
  deriving DecidableEq, Repr

/-- `data.len() as u32` keeps the low 32 bits. -/
def SolverResult.score : SolverResult → Option ℕ
  | .valid data => some (data.length % U32_SIZE)
  | _ => none

/-- The exit code of a process, or none if a signal ended it. -/
structure ExitStatus where
  code : Option ℕ
  deriving DecidableEq, Repr

def ExitStatus.success (status : ExitStatus) : Bool :=
  status.code == some 0

inductive ChildExitCode where
  | beforeTimeout (status : ExitStatus)
  | withinGrace (status : ExitStatus)
  | timeout
  deriving DecidableEq, Repr

/-! ## The executor -/

/-- The part of the executor that decides about files and verdicts. -/
structure SolverExecutor where
  workingDir : PathBuf
  instanceId : IId
  instanceData : List Char
  deriving Repr

abbrev PATH_STDIN : String := "stdin.gr"
abbrev PATH_STDOUT : String := "stdout"
abbrev PATH_STDERR : String := "stderr"

namespace SolverExecutor

open Pace

def filename (self : SolverExecutor) (suffix : String) : PathBuf :=
  self.workingDir ++ ["iid" ++ toString self.instanceId.id.toNat ++ "." ++ suffix]

/-- Reads back the instance and the solver's output and classifies the latter. -/
def verifySolution (profile : BuildProfile) (self : SolverExecutor) (fs : FileSystem) :
    Outcome IoError SolverResult := do
  let instanceFile ← fs.read (self.filename PATH_STDIN)
  let instanceReader ← Outcome.ofExcept (PaceReader.tryNew instanceFile)
  let n := instanceReader.numberOfNodes
  let edges ← instanceReader.collectEdges profile
  let solutionFile ← fs.read (self.filename PATH_STDOUT)
  match Solution.read solutionFile (some n) with
  | .error error =>
      if error.kind = .unexpectedEof then return .incompleteOutput
      else if error.kind = .invalidData then return .syntaxError
      else .err error
  | .ok solution =>
      let valid ← solution.validDomsetForInstance n edges
      if valid then do
        let data ← solution.take1indexedSolution profile
        return .valid data
      else return .infeasible

/-- What `run` makes of the way the solver ended. -/
def judge (profile : BuildProfile) (self : SolverExecutor) (code : ChildExitCode)
    (fs : FileSystem) : Outcome IoError SolverResult :=
  match code with
  | .timeout => .ok .timeout
  | .withinGrace status =>
      if status.success then self.verifySolution profile fs else .ok .timeout
  | .beforeTimeout status =>
      if status.success then self.verifySolution profile fs else .ok .syntaxError

end SolverExecutor

/-! ## Running the solver -/

inductive Stream where
  | stdout
  | stderr
  deriving DecidableEq, Repr

def Stream.path : Stream → String
  | .stdout => PATH_STDOUT
  | .stderr => PATH_STDERR

/-- What a solver makes of its input: the pieces of its output, and how it ends. -/
structure SolverRun where
  output : List (Stream × Bytes)
  code : ChildExitCode
  deriving Repr

/-- An I/O error below the context that `run` may give it. -/
structure ExecutorError where
  context : Option String
  source : IoError
  deriving DecidableEq, Repr

namespace SolverExecutor

/-- The whole of `run`, with no other process at work and no system call failing. -/
def run (profile : BuildProfile) (self : SolverExecutor) (solver : Bytes → SolverRun)
    (fs : FileSystem) : Outcome ExecutorError SolverResult × FileSystem :=
  let fs := fs.write (self.filename PATH_STDIN) (encodeUtf8 self.instanceData)
  match fs.read (self.filename PATH_STDIN) with
  | .err error => (.err ⟨some "Open STDIN", error⟩, fs)
  | .panic message => (.panic message, fs)
  | .ok stdin =>
      let fs := fs.write (self.filename PATH_STDOUT) []
      let fs := fs.write (self.filename PATH_STDERR) []
      let fs := (solver stdin).output.foldl
        (fun fs piece => fs.append (self.filename piece.1.path) piece.2) fs
      ((self.judge profile (solver stdin).code fs).mapErr fun error => ⟨none, error⟩, fs)

end SolverExecutor

/-! ## One system call at a time -/

/-- What `run`, and after it `delete_files`, does next. -/
inductive ExecutorPhase where
  | writeStdin
  | openStdin
  | createStdout (opened : Bytes)
  | createStderr (opened : Bytes)
  | spawn (opened : Bytes)
  | solving (output : List (Stream × Bytes)) (code : ChildExitCode)
  | verifying (code : ChildExitCode)
  | returned
  | removeStdin
  | removeStdout
  | removeStderr
  | deleted
  deriving Repr

structure ExecutorState where
  phase : ExecutorPhase
  result : Option (Outcome ExecutorError SolverResult)
  deletion : Option (Outcome ExecutorError Unit)
  deriving Repr

namespace ExecutorState

def start : ExecutorState := ⟨.writeStdin, none, none⟩

def goto (state : ExecutorState) (phase : ExecutorPhase) : ExecutorState :=
  { state with phase }

def answer (state : ExecutorState) (result : Outcome ExecutorError SolverResult) :
    ExecutorState :=
  { state with phase := .returned, result := some result }

def finish (state : ExecutorState) (deletion : Outcome ExecutorError Unit) : ExecutorState :=
  { state with phase := .deleted, deletion := some deletion }

end ExecutorState

/-- The next system call succeeds as far as the files allow, or fails for another reason; `left`
is what a failed write leaves in the file. -/
inductive ExecutorAction where
  | proceed
  | fail (error : IoError) (left : Option Bytes)
  | deleteFiles
  deriving Repr

namespace SolverExecutor

def removeStep (self : SolverExecutor) (suffix : String)
    (next : ExecutorState → ExecutorState) (fs : FileSystem) (state : ExecutorState) :
    FileSystem × ExecutorState :=
  match fs.removeFile (self.filename suffix) with
  | .ok fs => (fs, next state)
  | .err error => (fs, state.finish (.err ⟨none, error⟩))
  | .panic message => (fs, state.finish (.panic message))

def proceedStep (profile : BuildProfile) (solver : Bytes → SolverRun) (self : SolverExecutor)
    (fs : FileSystem) (state : ExecutorState) : Option (FileSystem × ExecutorState) :=
  match state.phase with
  | .writeStdin =>
      some (fs.write (self.filename PATH_STDIN) (encodeUtf8 self.instanceData),
        state.goto .openStdin)
  | .openStdin =>
      match fs.read (self.filename PATH_STDIN) with
      | .ok opened => some (fs, state.goto (.createStdout opened))
      | .err error => some (fs, state.answer (.err ⟨some "Open STDIN", error⟩))
      | .panic message => some (fs, state.answer (.panic message))
  | .createStdout opened =>
      some (fs.write (self.filename PATH_STDOUT) [], state.goto (.createStderr opened))
  | .createStderr opened =>
      some (fs.write (self.filename PATH_STDERR) [], state.goto (.spawn opened))
  | .spawn opened =>
      -- the child reads the file as it is now; its handle outlives the name
      let stdin := (fs (self.filename PATH_STDIN)).getD opened
      some (fs, state.goto (.solving (solver stdin).output (solver stdin).code))
  | .solving ((stream, piece) :: output) code =>
      some (fs.append (self.filename stream.path) piece, state.goto (.solving output code))
  | .solving [] code => some (fs, state.goto (.verifying code))
  | .verifying code =>
      some (fs, state.answer ((self.judge profile code fs).mapErr fun error => ⟨none, error⟩))
  | .removeStdin => some (self.removeStep PATH_STDIN (·.goto .removeStdout) fs state)
  | .removeStdout => some (self.removeStep PATH_STDOUT (·.goto .removeStderr) fs state)
  | .removeStderr => some (self.removeStep PATH_STDERR (·.finish (.ok ())) fs state)
  | .returned => none
  | .deleted => none

def failStep (self : SolverExecutor) (error : IoError) (left : Option Bytes) (fs : FileSystem)
    (state : ExecutorState) : Option (FileSystem × ExecutorState) :=
  match state.phase with
  | .writeStdin =>
      some (left.elim fs (fs.write (self.filename PATH_STDIN)),
        state.answer (.err ⟨none, error⟩))
  | .openStdin => some (fs, state.answer (.err ⟨some "Open STDIN", error⟩))
  | .createStdout _ => some (fs, state.answer (.err ⟨some "Open STDOUT", error⟩))
  | .createStderr _ => some (fs, state.answer (.err ⟨some "Open STDERR", error⟩))
  | .spawn _ => some (fs, state.answer (.err ⟨some "Spawn solver as child", error⟩))
  | .solving [] _ => some (fs, state.answer (.err ⟨none, error⟩))
  | .verifying _ => some (fs, state.answer (.err ⟨none, error⟩))
  | .removeStdin => some (fs, state.finish (.err ⟨none, error⟩))
  | .removeStdout => some (fs, state.finish (.err ⟨none, error⟩))
  | .removeStderr => some (fs, state.finish (.err ⟨none, error⟩))
  | .solving (_ :: _) _ => none
  | .returned => none
  | .deleted => none

/-- A job deletes files after a run that returned `Ok`; a missing stdin file is no error. -/
def deleteStep (self : SolverExecutor) (fs : FileSystem) (state : ExecutorState) :
    Option (FileSystem × ExecutorState) :=
  match state.phase, state.result with
  | .returned, some (.ok _) =>
      if (fs (self.filename PATH_STDIN)).isSome then some (fs, state.goto .removeStdin)
      else some (fs, state.goto .removeStdout)
  | _, _ => none

end SolverExecutor

def executorStep (profile : BuildProfile) (solver : Bytes → SolverRun) (self : SolverExecutor) :
    ExecutorAction → FileSystem × ExecutorState → Option (FileSystem × ExecutorState)
  | .proceed, (fs, state) => self.proceedStep profile solver fs state
  | .fail error left, (fs, state) => self.failStep error left fs state
  | .deleteFiles, (fs, state) => self.deleteStep fs state

end StrideRunner
