import StrideRunner.Verification.Executor.Output

/-! # Another directory

What an executor returns and what it writes depends on the text of the instance, and not on the
directory or on the number of the instance. -/

namespace StrideRunner

namespace SolverExecutor

variable {profile : BuildProfile} {solver : Bytes → SolverRun} {self other : SolverExecutor}
  {fs fs' base base' : FileSystem}

/-- The two executors find the same in their files. -/
def SameFiles (self other : SolverExecutor) (fs fs' : FileSystem) : Prop :=
  ∀ suffix ∈ [PATH_STDIN, PATH_STDOUT, PATH_STDERR],
    fs' (other.filename suffix) = fs (self.filename suffix)

theorem stream_path_mem (stream : Stream) :
    stream.path ∈ [PATH_STDIN, PATH_STDOUT, PATH_STDERR] := by
  cases stream <;> simp [Stream.path]

theorem filename_mem_files {suffix : String}
    (h : suffix ∈ [PATH_STDIN, PATH_STDOUT, PATH_STDERR]) : self.filename suffix ∈ self.files := by
  simp only [List.mem_cons, List.not_mem_nil, or_false] at h
  obtain rfl | rfl | rfl := h
  · exact stdin_mem_files
  · exact stdout_mem_files
  · exact stderr_mem_files

theorem SameFiles.update (h : SameFiles self other fs fs') (suffix : String)
    (value : Option Bytes) :
    SameFiles self other (Function.update fs (self.filename suffix) value)
      (Function.update fs' (other.filename suffix) value) := by
  intro suffix' hsuffix'
  by_cases hsame : suffix' = suffix
  · subst hsame
    simp only [Function.update_self]
  · rw [Function.update_of_ne (filename_ne hsame), Function.update_of_ne (filename_ne hsame)]
    exact h suffix' hsuffix'

/-- The three files are created anew. -/
theorem sameFiles_created (hdata : other.instanceData = self.instanceData) :
    SameFiles self other (self.created base) (other.created base') := by
  intro suffix hsuffix
  simp only [List.mem_cons, List.not_mem_nil, or_false] at hsuffix
  obtain rfl | rfl | rfl := hsuffix
  · rw [created_stdin, created_stdin, stdin, stdin, hdata]
  · rw [created_stdout, created_stdout]
  · rw [created_stderr, created_stderr]

theorem SameFiles.foldl_appendPiece (h : SameFiles self other fs fs')
    (output : List (Stream × Bytes)) :
    SameFiles self other (output.foldl self.appendPiece fs)
      (output.foldl other.appendPiece fs') := by
  induction output generalizing fs fs' with
  | nil => exact h
  | cons piece output ih =>
      have hcontent := h piece.1.path (stream_path_mem piece.1)
      apply ih
      unfold appendPiece FileSystem.append
      rw [hcontent]
      exact h.update _ _

theorem SameFiles.judge_eq (h : SameFiles self other fs fs') (code : ChildExitCode) :
    other.judge profile code fs' = self.judge profile code fs := by
  have hstdin := h PATH_STDIN (by simp)
  have hstdout := h PATH_STDOUT (by simp)
  have hverify : other.verifySolution profile fs' = self.verifySolution profile fs := by
    unfold verifySolution FileSystem.read
    rw [hstdin, hstdout]
  unfold judge
  rw [hverify]

/-- The same text gives the same result and the same files. -/
theorem run_relocated (hdata : other.instanceData = self.instanceData) :
    (other.run profile solver base').1 = (self.run profile solver base).1 ∧
      SameFiles self other (self.run profile solver base).2 (other.run profile solver base').2 := by
  have hstdin : other.stdin = self.stdin := by rw [stdin, stdin, hdata]
  have hfiles : SameFiles self other (self.written (solver self.stdin).output base)
      (other.written (solver self.stdin).output base') :=
    (sameFiles_created hdata).foldl_appendPiece _
  rw [run_eq, run_eq, hstdin]
  exact ⟨by rw [hfiles.judge_eq], hfiles⟩

end SolverExecutor

end StrideRunner
