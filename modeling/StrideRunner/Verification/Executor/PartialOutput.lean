import StrideRunner.Model.Commands.Run.Command
import StrideRunner.Verification.Executor.Verdict

/-! # Partial solutions

An output with fewer ids than its header announces is classified like any malformed output. -/

namespace StrideRunner

open Pace Library

/-- The state of a finished job comes from the verdict of its run. -/
theorem Job.main_eq_ok {opts : RunOpts} {effects : Job.Effects} {result : JobResult}
    (h : Job.main opts effects = .ok result) :
    ∃ info data verdict, effects.fetchInstance = .ok info ∧ effects.run data = .ok verdict ∧
      Job.toResultType verdict info = .ok result.state := by
  unfold Job.main at h
  obtain ⟨info, hinfo, h⟩ := Outcome.bind_eq_ok.mp h
  obtain ⟨data, _, h⟩ := Outcome.bind_eq_ok.mp h
  obtain ⟨verdict, hrun, h⟩ := Outcome.bind_eq_ok.mp h
  obtain ⟨_, _, h⟩ := Outcome.bind_eq_ok.mp h
  obtain ⟨state, hstate, h⟩ := Outcome.bind_eq_ok.mp h
  obtain ⟨_, _, h⟩ := Outcome.bind_eq_ok.mp h
  cases h
  exact ⟨info, _, verdict, hinfo, hrun, hstate⟩

namespace SolverExecutor

variable {profile : BuildProfile} {self : SolverExecutor} {fs : FileSystem} {file out : Bytes}
  {n : ℕ} {edges : List Edge}

/-- Too few ids are a syntax error, never an incomplete output; the job ends in the state
`error` and counts as failed. -/
theorem verifySolution_of_partial {k : ℕ} {ids : List ℕ}
    (hinstance : WellFormedInstance profile file n edges)
    (hstdin : fs (self.filename PATH_STDIN) = some file)
    (hstdout : fs (self.filename PATH_STDOUT) = some out)
    (hnumbers : HasNumbers out (k :: ids)) (hlength : ids.length < k) :
    self.verifySolution profile fs = .ok .syntaxError ∧
      ∀ opts effects result,
        (∀ data, effects.run data = .ok .syntaxError) → Job.main opts effects = .ok result →
        result.state = .error ∧ jobSuccess opts result.state = .reportAsFailure := by
  refine ⟨?_, ?_⟩
  · cases hread : Solution.read out (some n) with
    | error error =>
        rw [verifySolution_of_read_error hinstance hstdin hstdout hread,
          if_neg (SolutionReader.items_ne_nil_of_hasNumbers hnumbers)]
    | ok s =>
        obtain ⟨nodes, _, _, _, _, hnodes, _⟩ := Solution.read_eq_ok_iff.mp hread
        obtain ⟨hk, hids⟩ := List.cons.inj (hnumbers.unique hnodes)
        rw [hk, hids, List.length_map] at hlength
        exact (lt_irrefl _ hlength).elim
  · intro opts effects result hrun hmain
    obtain ⟨info, data, verdict, _, hverdict, hstate⟩ := Job.main_eq_ok hmain
    cases (hrun data).symm.trans hverdict
    have herror : result.state = .error := (Outcome.ok.inj hstate).symm
    rw [herror]
    exact ⟨rfl, rfl⟩

/-- Two ids are announced and one is given; the job would otherwise succeed. -/
def partialOutput : Bytes := encodeUtf8 "c partial\n2\n1\n".toList

def partialEffects : Job.Effects :=
  { fetchInstance := .ok ⟨⟨7⟩, ⟨7⟩, some 1⟩
    fetchData := fun _ => .ok []
    run := fun _ => .ok .syntaxError
    runtime := 5
    upload := fun _ => .ok ()
    deleteFiles := .ok () }

theorem verifySolution_of_partial_path :
    pathExecutor.verifySolution .debug (pathExecutor.filesOf pathInstance partialOutput) =
        .ok .syntaxError ∧
      ∀ opts effects result,
        (∀ data, effects.run data = .ok .syntaxError) → Job.main opts effects = .ok result →
        result.state = .error ∧ jobSuccess opts result.state = .reportAsFailure := by
  have hstdout : pathExecutor.filesOf pathInstance partialOutput
      (pathExecutor.filename PATH_STDOUT) = some partialOutput := by decide +kernel
  have hnumbers : HasNumbers partialOutput [2, 1] := by decide +kernel
  exact verifySolution_of_partial (wellFormedInstance_path .debug) (by decide +kernel) hstdout
    hnumbers (by decide)

/-- The input that refutes the promise: one valid id of two, and the state is `error`. -/
theorem partial_output_is_error :
    WellFormedInstance .release pathInstance 3 [⟨0, 1⟩, ⟨1, 2⟩] ∧
      HasNumbers partialOutput [2, 1] ∧
      pathExecutor.verifySolution .release
        (pathExecutor.filesOf pathInstance partialOutput) ≠ .ok .incompleteOutput ∧
      Job.main ⟨1, false, false, false, true, none⟩ partialEffects = .ok ⟨.error, 5⟩ ∧
      jobSuccess ⟨1, false, false, false, true, none⟩ .error = .reportAsFailure := by
  refine ⟨wellFormedInstance_path .release, ?_, ?_, rfl, rfl⟩
  · decide +kernel
  · decide +kernel

end SolverExecutor

end StrideRunner
