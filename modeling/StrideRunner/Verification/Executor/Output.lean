import StrideRunner.Verification.Executor.Refinement
import StrideRunner.Verification.Executor.Verdict

/-! # From the output of a solver to the result of `run`

The stdout file collects what the solver writes to its standard output, and the instance file is
not touched. A result `Valid` comes with a dominating set of the instance that was fed. -/

namespace StrideRunner

open Pace Library

/-- What the solver writes to its standard output. -/
def stdoutOf (output : List (Stream × Bytes)) : Bytes :=
  output.flatMap fun piece => if piece.1 = .stdout then piece.2 else []

theorem stdoutOf_cons (stream : Stream) (bytes : Bytes) (output : List (Stream × Bytes)) :
    stdoutOf ((stream, bytes) :: output) =
      (if stream = .stdout then bytes else []) ++ stdoutOf output := rfl

/-- Strictly increasing ids between 1 and `n` that dominate the graph. -/
structure IsDomset (n : ℕ) (edges : List Edge) (ids : List ℕ) : Prop where
  sorted : ids.SortedLT
  inRange : ∀ id ∈ ids, 1 ≤ id ∧ id ≤ n
  covers : Covers n edges ids

theorem Covers.of_mem_iff {n : ℕ} {edges : List Edge} {ids ids' : List ℕ}
    (h : Covers n edges ids) (hmem : ∀ id, id ∈ ids' ↔ id ∈ ids) : Covers n edges ids' := by
  unfold Covers at h ⊢
  simpa only [hmem] using h

namespace SolverExecutor

variable {profile : BuildProfile} {solver : Bytes → SolverRun} {self : SolverExecutor}
  {fs base : FileSystem}

/-! ## The files after the run -/

theorem foldl_appendPiece_of_ne {path : PathBuf}
    (hpath : ∀ stream : Stream, path ≠ self.filename stream.path)
    (output : List (Stream × Bytes)) : output.foldl self.appendPiece fs path = fs path := by
  induction output generalizing fs with
  | nil => rfl
  | cons piece output ih =>
      rw [List.foldl_cons, ih]
      exact Function.update_of_ne (hpath piece.1) ..

theorem foldl_appendPiece_stdout {content : Bytes}
    (hstdout : fs (self.filename PATH_STDOUT) = some content) (output : List (Stream × Bytes)) :
    output.foldl self.appendPiece fs (self.filename PATH_STDOUT) =
      some (content ++ stdoutOf output) := by
  induction output generalizing fs content with
  | nil => simpa [stdoutOf] using hstdout
  | cons piece output ih =>
      obtain ⟨stream, bytes⟩ := piece
      cases stream with
      | stdout =>
          have hpiece : self.appendPiece fs (.stdout, bytes) (self.filename PATH_STDOUT) =
              some (content ++ bytes) := by
            simp [appendPiece, FileSystem.append, Stream.path, hstdout]
          rw [List.foldl_cons, ih hpiece, stdoutOf_cons, if_pos rfl, List.append_assoc]
      | stderr =>
          have hne : self.filename PATH_STDOUT ≠ self.filename PATH_STDERR :=
            filename_ne (by decide)
          have hpiece : self.appendPiece fs (.stderr, bytes) (self.filename PATH_STDOUT) =
              some content :=
            (Function.update_of_ne hne ..).trans hstdout
          rw [List.foldl_cons, ih hpiece, stdoutOf_cons, if_neg (by simp), List.nil_append]

theorem written_stdin (output : List (Stream × Bytes)) :
    self.written output base (self.filename PATH_STDIN) = some self.stdin := by
  have hpath : ∀ stream : Stream, self.filename PATH_STDIN ≠ self.filename stream.path := by
    intro stream
    cases stream with
    | stdout => exact filename_ne (by decide)
    | stderr => exact filename_ne (by decide)
  exact (foldl_appendPiece_of_ne hpath output).trans created_stdin

theorem written_stdout (output : List (Stream × Bytes)) :
    self.written output base (self.filename PATH_STDOUT) = some (stdoutOf output) :=
  foldl_appendPiece_stdout created_stdout output

/-! ## Valid results -/

/-- What has succeeded when the verifier answers `Valid`. -/
theorem exists_of_valid {file out : Bytes} {data : List ℕ}
    (hstdin : fs (self.filename PATH_STDIN) = some file)
    (hstdout : fs (self.filename PATH_STDOUT) = some out)
    (h : self.verifySolution profile fs = .ok (.valid data)) :
    ∃ reader edges solution, PaceReader.tryNew file = .ok reader ∧
      reader.collectEdges profile = .ok edges ∧
      Solution.read out (some reader.numberOfNodes) = .ok solution ∧
      solution.validDomsetForInstance reader.numberOfNodes edges = .ok true ∧
      solution.take1indexedSolution profile = .ok data := by
  unfold verifySolution FileSystem.read at h
  simp only [hstdin, hstdout, Outcome.ok_bind] at h
  obtain ⟨reader, hreader, h⟩ := Outcome.bind_eq_ok.mp h
  obtain ⟨edges, hedges, h⟩ := Outcome.bind_eq_ok.mp h
  have htryNew : PaceReader.tryNew file = .ok reader := by
    cases hfile : PaceReader.tryNew file with
    | error error => simp [hfile] at hreader
    | ok reader' => simpa [hfile] using hreader
  cases hsolution : Solution.read out (some reader.numberOfNodes) with
  | error error =>
      simp only [hsolution] at h
      split at h
      · cases h
      · split at h
        · cases h
        · cases h
  | ok solution =>
      simp only [hsolution] at h
      obtain ⟨valid, hvalid, h⟩ := Outcome.bind_eq_ok.mp h
      cases valid with
      | false => cases h
      | true =>
          obtain ⟨ids, hids, h⟩ := Outcome.bind_eq_ok.mp h
          cases h
          exact ⟨reader, edges, solution, htryNew, hedges, hsolution, hvalid, hids⟩

theorem wellFormedInstance_of_valid {file out : Bytes} {data : List ℕ}
    (hstdin : fs (self.filename PATH_STDIN) = some file)
    (hstdout : fs (self.filename PATH_STDOUT) = some out)
    (h : self.verifySolution profile fs = .ok (.valid data)) :
    ∃ n edges, WellFormedInstance profile file n edges ∧
      ∃ solution, Solution.read out (some n) = .ok solution := by
  obtain ⟨reader, edges, solution, hreader, hedges, hread, hvalid, _⟩ :=
    exists_of_valid hstdin hstdout h
  have hinstance : readInstance profile file = .ok (reader.numberOfNodes, edges) := by
    simp only [readInstance, hreader, hedges, Outcome.ofExcept_ok, Outcome.ok_bind, Outcome.pure_eq]
  refine ⟨_, edges, ⟨hinstance, ?_⟩, solution, hread⟩
  by_contra hrange
  have hnot : ¬ (EdgesInRange reader.numberOfNodes edges ∧
      ∀ u ∈ solution.solution, u < reader.numberOfNodes) := fun h => hrange h.1
  obtain ⟨message, herr⟩ := Solution.validDomsetForInstance_of_not_inRange hnot
  cases hvalid.symm.trans herr

/-- The verifier certifies nothing but dominating sets. -/
theorem isDomset_of_valid {file out : Bytes} {data : List ℕ}
    (hstdin : fs (self.filename PATH_STDIN) = some file)
    (hstdout : fs (self.filename PATH_STDOUT) = some out)
    (h : self.verifySolution profile fs = .ok (.valid data)) :
    ∃ n edges, WellFormedInstance profile file n edges ∧ IsDomset n edges data := by
  obtain ⟨n, edges, hinstance, solution, hread⟩ := wellFormedInstance_of_valid hstdin hstdout h
  obtain ⟨_, _, _, _, hn⟩ := hinstance.exists_reader
  obtain ⟨_, nodes, htext, rfl⟩ := (read_eq_ok_iff_isSolutionText hn).mp hread
  obtain ⟨valid, hverdict, hcovers⟩ := verifySolution_of_read_ok hinstance hstdin hstdout hread
  rw [h] at hverdict
  cases valid with
  | false => cases hverdict
  | true =>
      cases hverdict
      have hmem : ∀ id, id ∈ (nodes.insertionSort (· ≤ ·)).map (· + 1) ↔
          id ∈ nodes.map (· + 1) := by simp
      refine ⟨n, edges, hinstance, ?_, ?_, (hcovers.mp rfl).of_mem_iff hmem⟩
      · have hlt := (sortedLT_insertionSort htext.nodup.of_map).pairwise
        exact (hlt.map (· + 1) fun _ _ => Nat.succ_lt_succ).sortedLT
      · intro id hid
        exact htext.inRange id ((hmem id).mp hid)

/-- A run that returns `Valid` has had this verdict of the verifier. -/
theorem verifySolution_of_run {data : List ℕ}
    (h : (self.run profile solver base).1 = .ok (.valid data)) :
    self.verifySolution profile (self.written (solver self.stdin).output base) =
      .ok (.valid data) := by
  rw [run_eq] at h
  have hjudge : self.judge profile (solver self.stdin).code
      (self.written (solver self.stdin).output base) = .ok (.valid data) :=
    Outcome.mapErr_eq_ok.mp h
  unfold judge at hjudge
  split at hjudge
  · cases hjudge
  · split at hjudge
    · exact hjudge
    · cases hjudge
  · split at hjudge
    · exact hjudge
    · cases hjudge

/-- A run that returns `Valid` has been given the text of a graph that these ids dominate. -/
theorem isDomset_of_run {data : List ℕ} (h : (self.run profile solver base).1 = .ok (.valid data)) :
    ∃ n edges, WellFormedInstance profile self.stdin n edges ∧ IsDomset n edges data :=
  isDomset_of_valid (written_stdin _) (written_stdout _) (verifySolution_of_run h)

end SolverExecutor

end StrideRunner
