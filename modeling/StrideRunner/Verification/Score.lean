import StrideRunner.Model.Commands.Run.Command
import StrideRunner.Model.Commands.Run.Score
import StrideRunner.Verification.Executor.PartialOutput
import StrideRunner.Verification.Import

/-! # Scores

A score is compared with the best one known in four places: the classification of a job, its
upload, its line of the summary and the import command. -/

namespace StrideRunner

open Pace

/-! ## Machine integers -/

namespace Isize

variable {profile : BuildProfile}

theorem bmod_eq_self {value : ℤ} (hlo : -2 ^ 63 ≤ value) (hhi : value < 2 ^ 63) :
    value.bmod U64_SIZE = value := by
  have hsize : ((U64_SIZE : ℕ) : ℤ) = 2 ^ 64 := rfl
  exact Int.bmod_eq_of_le_mul_two (by omega) (by omega)

theorem cast_of_lt {n : ℕ} (h : n < U32_SIZE) : cast n = n := by
  have hsize : U32_SIZE = 2 ^ 32 := rfl
  exact bmod_eq_self (by omega) (by omega)

theorem fit_of_mem {ε : Type} {overflow : String} {value : ℤ} (hlo : -2 ^ 63 ≤ value)
    (hhi : value < 2 ^ 63) : (fit profile overflow value : Outcome ε ℤ) = .ok value := by
  simp only [fit, bmod_eq_self hlo hhi, if_true]

theorem sub_cast {ε : Type} {a b : ℕ} (ha : a < U32_SIZE) (hb : b < U32_SIZE) :
    (sub profile (cast a) (cast b) : Outcome ε ℤ) = .ok ((a : ℤ) - b) := by
  have hsize : U32_SIZE = 2 ^ 32 := rfl
  rw [cast_of_lt ha, cast_of_lt hb]
  exact fit_of_mem (by omega) (by omega)

/-- On `u32` scores no intermediate value overflows. -/
theorem isScoreGoodEnoughForUpload_eq {solutionScore : ℕ} {bestScore : Option ℕ}
    (hscore : solutionScore < U32_SIZE) (hbest : ∀ best ∈ bestScore, best < U32_SIZE) :
    isScoreGoodEnoughForUpload profile solutionScore bestScore =
      .ok (StrideRunner.isScoreGoodEnoughForUpload solutionScore bestScore) := by
  cases bestScore with
  | none => rfl
  | some best =>
      have hbest := hbest best rfl
      have hsize : U32_SIZE = 2 ^ 32 := rfl
      have hlarger : (sub profile (cast solutionScore) (cast best) : Outcome AnyhowError ℤ) =
          .ok ((solutionScore : ℤ) - best) := sub_cast hscore hbest
      have hdifference : (sub profile ((solutionScore : ℤ) - best) 5 : Outcome AnyhowError ℤ) =
          .ok ((solutionScore : ℤ) - best - 5) := fit_of_mem (by omega) (by omega)
      have hscaled : (mul profile ((solutionScore : ℤ) - best - 5) 10 : Outcome AnyhowError ℤ) =
          .ok (((solutionScore : ℤ) - best - 5) * 10) := fit_of_mem (by omega) (by omega)
      simp only [isScoreGoodEnoughForUpload, hlarger, hdifference, hscaled, Outcome.ok_bind,
        Outcome.pure_eq, StrideRunner.isScoreGoodEnoughForUpload]
      rw [cast_of_lt hbest]

theorem toResultType_valid_eq {data : List ℕ} {info : InstanceModel}
    (hdata : data.length < U32_SIZE) (hbest : ∀ best ∈ info.bestScore, best < U32_SIZE) :
    toResultType profile (.valid data) info = Job.toResultType (.valid data) info := by
  cases hinfo : info.bestScore with
  | none => simp [toResultType, Job.toResultType, hinfo]
  | some best =>
      have hbest := hbest best hinfo
      have hlarger : (sub profile (cast data.length) (cast best) : Outcome AnyhowError ℤ) =
          .ok ((data.length : ℤ) - best) := sub_cast hdata hbest
      rw [toResultType, Job.toResultType, hinfo, Option.elim_some, hlarger, Outcome.ok_bind,
        Option.elim_some]
      rfl

end Isize

/-! ## The two thresholds -/

/-- As good as the best score that is known. -/
def IsBest (score : ℕ) (bestScore : Option ℕ) : Prop := ∀ best ∈ bestScore, score ≤ best

/-- Less than five more than a tenth above the best score that is known. -/
def IsNearBest (score : ℕ) (bestScore : Option ℕ) : Prop :=
  ∀ best ∈ bestScore, 10 * score < 11 * best + 50

theorem IsBest.isNearBest {score : ℕ} {bestScore : Option ℕ} (h : IsBest score bestScore) :
    IsNearBest score bestScore := by
  intro best hbest
  have hle := h best hbest
  omega

theorem IsNearBest.of_le {score score' : ℕ} {bestScore : Option ℕ}
    (h : IsNearBest score bestScore) (hle : score' ≤ score) : IsNearBest score' bestScore := by
  intro best hbest
  have hlt := h best hbest
  omega

theorem isScoreGoodEnoughForUpload_iff {score : ℕ} {bestScore : Option ℕ} :
    isScoreGoodEnoughForUpload score bestScore ↔ IsNearBest score bestScore := by
  cases bestScore with
  | none => simp [isScoreGoodEnoughForUpload, IsNearBest]
  | some best =>
      simp only [isScoreGoodEnoughForUpload, IsNearBest, decide_eq_true_eq, Option.mem_some_iff,
        forall_eq']
      omega

namespace Job

variable {data : List ℕ} {info : InstanceModel}

theorem uploads_valid_iff {opts : RunOpts} (hdata : data.length < U32_SIZE)
    (hupload : opts.noUpload = false) (hsolver : opts.solverUuid = none) :
    uploads opts (.valid data) info.bestScore ↔ IsNearBest data.length info.bestScore := by
  rw [← isScoreGoodEnoughForUpload_iff]
  simp [uploads, hupload, hsolver, Nat.mod_eq_of_lt hdata]

theorem toResultType_of_isBest (hdata : data.length < U32_SIZE)
    (h : IsBest data.length info.bestScore) :
    toResultType (.valid data) info = .ok (.bestKnown data.length) := by
  cases hinfo : info.bestScore with
  | none => simp [toResultType, hinfo, Nat.mod_eq_of_lt hdata]
  | some best =>
      have hle := h best hinfo
      simp [toResultType, hinfo, Nat.mod_eq_of_lt hdata, hle]

theorem toResultType_of_not_isBest (hdata : data.length < U32_SIZE)
    (h : ¬ IsBest data.length info.bestScore) :
    ∃ best, info.bestScore = some best ∧ best < data.length ∧
      toResultType (.valid data) info = .ok (.suboptimal data.length best) := by
  cases hinfo : info.bestScore with
  | none => simp [IsBest, hinfo] at h
  | some best =>
      have hlt : best < data.length := by simpa [IsBest, hinfo] using h
      refine ⟨best, rfl, hlt, ?_⟩
      simp [toResultType, hinfo, Nat.mod_eq_of_lt hdata, hlt]

theorem toResultType_eq_bestKnown_iff {score : ℕ} (hdata : data.length < U32_SIZE) :
    toResultType (.valid data) info = .ok (.bestKnown score) ↔
      score = data.length ∧ IsBest data.length info.bestScore := by
  by_cases h : IsBest data.length info.bestScore
  · simp [toResultType_of_isBest hdata h, h, eq_comm]
  · obtain ⟨best, _, _, hresult⟩ := toResultType_of_not_isBest hdata h
    simp [hresult, h]

/-- The line of the summary in terms of the two scores. -/
theorem logJobResult_of_toResultType {result : JobResult} (hdata : data.length < U32_SIZE)
    (h : toResultType (.valid data) info = .ok result.state) (iid : IId) :
    (logJobResult iid result).score = some data.length ∧
      (logJobResult iid result).bestScoreKnown =
        some (info.bestScore.elim data.length (min data.length)) ∧
      ((logJobResult iid result).state = "best" ↔
        (logJobResult iid result).score = (logJobResult iid result).bestScoreKnown) := by
  by_cases hbest : IsBest data.length info.bestScore
  · have hmin : info.bestScore.elim data.length (min data.length) = data.length := by
      cases hinfo : info.bestScore with
      | none => rfl
      | some best => exact min_eq_left (hbest best hinfo)
    rw [toResultType_of_isBest hdata hbest] at h
    simp [logJobResult, ← Outcome.ok.inj h, JobResultState.display, hmin]
  · obtain ⟨best, hinfo, hlt, hresult⟩ := toResultType_of_not_isBest hdata hbest
    rw [hresult] at h
    have hne : data.length ≠ best := hlt.ne'
    simp [logJobResult, ← Outcome.ok.inj h, JobResultState.display, hinfo, hlt.le, hne]

end Job

namespace Import

variable {profile : BuildProfile} {effects : ImportEffects} {iid : IId} {info : InstanceRow}
  {solution : Solution}

/-- A solution that passes the checks is distinct nodes below the `u32` number of them. -/
theorem length_lt_of_checkSolution
    (h : checkSolution profile effects iid = .ok (info, solution)) :
    solution.solution.length < U32_SIZE ∧
      solution.take1indexedSolution profile = .ok (solution.solution.map (· + 1)) := by
  obtain ⟨_, _, _, _, _, hchecked⟩ := exists_checked_of_checkSolution h
  obtain ⟨hsorted, hids, hbound⟩ := Solution.spec_of_read hchecked.read
  have hlength := Solution.length_le_of_nodup hsorted.nodup (hbound _ rfl)
  exact ⟨hlength.trans_lt info.nodes.toNat_lt, Solution.take1indexedSolution_eq hids⟩

theorem upload_mem_of_isNearBest
    (h : checkSolution profile effects iid = .ok (info, solution))
    (hnear : IsNearBest solution.solution.length info.bestScore) :
    .upload (solution.solution.map (· + 1)) ∈ (commandImportSolution profile effects iid).2 := by
  obtain ⟨hlength, hdata⟩ := length_lt_of_checkSolution h
  rw [← isScoreGoodEnoughForUpload_iff] at hnear
  simp only [commandImportSolution, h, uploadSolution, Nat.mod_eq_of_lt hlength, hnear, hdata,
    not_true, if_false]
  cases plain (effects.upload (.valid (solution.solution.map (· + 1)))) <;> simp

theorem commandImportSolution_of_not_isNearBest
    (h : checkSolution profile effects iid = .ok (info, solution))
    (hnear : ¬ IsNearBest solution.solution.length info.bestScore) :
    ∃ best, info.bestScore = some best ∧ commandImportSolution profile effects iid =
      (.ok (), [.feasible iid solution.solution.length, .notGoodEnough best]) := by
  obtain ⟨hlength, _⟩ := length_lt_of_checkSolution h
  cases hbest : info.bestScore with
  | none => simp [IsNearBest, hbest] at hnear
  | some best =>
      rw [← isScoreGoodEnoughForUpload_iff, hbest] at hnear
      refine ⟨best, rfl, ?_⟩
      simp only [commandImportSolution, h, uploadSolution, Nat.mod_eq_of_lt hlength, hbest, hnear,
        Bool.false_eq_true, not_false_eq_true, if_true]

end Import

/-! ## The four places -/

/-- What is made of a valid result. `IsNearBest` and `IsBest` are spelled out. -/
structure ScoreSpec (profile : BuildProfile) (data : List ℕ) (info : InstanceModel) : Prop where
  upload_exact : Isize.isScoreGoodEnoughForUpload profile (data.length % U32_SIZE)
    info.bestScore = .ok (isScoreGoodEnoughForUpload (data.length % U32_SIZE) info.bestScore)
  result_exact : Isize.toResultType profile (.valid data) info =
    Job.toResultType (.valid data) info
  sent : ∀ opts effects, opts.noUpload = false → opts.solverUuid = none →
    ((∀ best ∈ info.bestScore, 10 * data.length < 11 * best + 50) →
      Job.uploadResults opts effects (.valid data) info.bestScore = effects.upload (.valid data)) ∧
    (¬ (∀ best ∈ info.bestScore, 10 * data.length < 11 * best + 50) →
      Job.uploadResults opts effects (.valid data) info.bestScore = .ok ())
  sent_of_bestKnown : ∀ opts effects score, opts.noUpload = false → opts.solverUuid = none →
    Job.toResultType (.valid data) info = .ok (.bestKnown score) →
    Job.uploadResults opts effects (.valid data) info.bestScore = effects.upload (.valid data)
  sent_of_fewer : ∀ opts (fewer : List ℕ), opts.noUpload = false → opts.solverUuid = none →
    fewer.length ≤ data.length → Job.uploads opts (.valid data) info.bestScore →
    Job.uploads opts (.valid fewer) info.bestScore
  bestKnown_iff : ∀ score, Job.toResultType (.valid data) info = .ok (.bestKnown score) ↔
    score = data.length ∧ ∀ best ∈ info.bestScore, data.length ≤ best
  no_panic : ∀ message, Job.toResultType (.valid data) info ≠ .panic message
  row : ∀ opts (effects : Job.Effects) result iid, effects.fetchInstance = .ok info →
    (∀ text, effects.run text = .ok (.valid data)) → Job.main opts effects = .ok result →
    (logJobResult iid result).score = some data.length ∧
      (logJobResult iid result).bestScoreKnown =
        some (info.bestScore.elim data.length (min data.length)) ∧
      ((logJobResult iid result).state = "best" ↔
        (logJobResult iid result).score = (logJobResult iid result).bestScoreKnown)
  imported : ∀ (effects : ImportEffects) iid (record : InstanceRow) (solution : Solution),
    Import.checkSolution profile effects iid = .ok (record, solution) →
    solution.solution.length = data.length → record.bestScore = info.bestScore →
    ((∃ ids, .upload ids ∈ (commandImportSolution profile effects iid).2) ↔
      ∀ best ∈ info.bestScore, 10 * data.length < 11 * best + 50) ∧
    (¬ (∀ best ∈ info.bestScore, 10 * data.length < 11 * best + 50) →
      ∃ best, record.bestScore = some best ∧ commandImportSolution profile effects iid =
        (.ok (), [.feasible iid data.length, .notGoodEnough best]))

theorem scores_agree {data : List ℕ} {info : InstanceModel} (hdata : data.length < U32_SIZE)
    (hbest : ∀ best ∈ info.bestScore, best < U32_SIZE) (profile : BuildProfile) :
    ScoreSpec profile data info where
  upload_exact := by
    rw [Nat.mod_eq_of_lt hdata]
    exact Isize.isScoreGoodEnoughForUpload_eq hdata hbest
  result_exact := Isize.toResultType_valid_eq hdata hbest
  sent := by
    intro opts effects hupload hsolver
    have huploads : Job.uploads opts (.valid data) info.bestScore ↔
        IsNearBest data.length info.bestScore := Job.uploads_valid_iff hdata hupload hsolver
    constructor
    · intro hnear
      rw [Job.uploadResults, if_pos (huploads.mpr hnear)]
    · intro hnear
      rw [Job.uploadResults, if_neg (huploads.not.mpr hnear)]
  sent_of_bestKnown := by
    intro opts effects score hupload hsolver hresult
    obtain ⟨_, hisBest⟩ := (Job.toResultType_eq_bestKnown_iff hdata).mp hresult
    have huploads := (Job.uploads_valid_iff hdata hupload hsolver).mpr hisBest.isNearBest
    rw [Job.uploadResults, if_pos huploads]
  sent_of_fewer := by
    intro opts fewer hupload hsolver hle huploads
    rw [Job.uploads_valid_iff hdata hupload hsolver] at huploads
    rw [Job.uploads_valid_iff (hle.trans_lt hdata) hupload hsolver]
    exact huploads.of_le hle
  bestKnown_iff := fun _ => Job.toResultType_eq_bestKnown_iff hdata
  no_panic := by
    intro message
    by_cases h : IsBest data.length info.bestScore
    · simp [Job.toResultType_of_isBest hdata h]
    · obtain ⟨best, _, _, hresult⟩ := Job.toResultType_of_not_isBest hdata h
      simp [hresult]
  row := by
    intro opts effects result iid hinfo hrun hmain
    obtain ⟨info', text, verdict, hinfo', hverdict, hstate⟩ := Job.main_eq_ok hmain
    cases hinfo.symm.trans hinfo'
    cases (hrun text).symm.trans hverdict
    exact Job.logJobResult_of_toResultType hdata hstate iid
  imported := by
    intro effects iid record solution hcheck hlength hrecord
    have hrefused := Import.commandImportSolution_of_not_isNearBest hcheck
    have huploaded := Import.upload_mem_of_isNearBest hcheck
    rw [hlength] at hrefused huploaded
    rw [hrecord] at huploaded
    rw [hrecord] at hrefused ⊢
    refine ⟨⟨?_, fun hnear => ⟨_, huploaded hnear⟩⟩, hrefused⟩
    rintro ⟨ids, hmem⟩
    by_contra hnear
    obtain ⟨best, _, hcommand⟩ := hrefused hnear
    simp [hcommand] at hmem

/-- Three nodes where two are known to suffice: suboptimal, and uploaded all the same. -/
theorem scores_agree_three_nodes : ScoreSpec .debug [1, 2, 3] ⟨⟨1⟩, ⟨1⟩, some 2⟩ :=
  scores_agree (by decide) (by decide) .debug

end StrideRunner
