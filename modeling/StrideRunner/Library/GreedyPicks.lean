import Mathlib.Data.Set.Defs
import Mathlib.Data.List.Nodup

/-! # Greedy selection

Candidates are picked one by one, each with a largest gain, until no candidate has a gain. The gain
depends on what has been picked before. -/

namespace StrideRunner.Library

variable {α : Type*} (gain : List α → α → ℕ) (candidates : Set α)

/-- The list can be picked after `chosen`. -/
inductive GreedyPicks : List α → List α → Prop where
  | done (chosen : List α) (hzero : ∀ v ∈ candidates, v ∉ chosen → gain chosen v = 0) :
      GreedyPicks chosen []
  | pick (chosen : List α) (v : α) (picks : List α) (hcandidate : v ∈ candidates)
      (hnew : v ∉ chosen) (hpositive : 0 < gain chosen v)
      (hmax : ∀ w ∈ candidates, w ∉ chosen → gain chosen w ≤ gain chosen v)
      (hrest : GreedyPicks (chosen ++ [v]) picks) : GreedyPicks chosen (v :: picks)

namespace GreedyPicks

variable {gain candidates} {chosen picks : List α}

theorem mem_candidates (h : GreedyPicks gain candidates chosen picks) :
    ∀ v ∈ picks, v ∈ candidates := by
  induction h with
  | done chosen hzero => simp
  | pick chosen v picks hcandidate hnew hpositive hmax hrest ih =>
      rw [List.forall_mem_cons]
      exact ⟨hcandidate, ih⟩

/-- Nothing is picked twice. -/
theorem nodup (h : GreedyPicks gain candidates chosen picks) (hchosen : chosen.Nodup) :
    (chosen ++ picks).Nodup := by
  induction h with
  | done chosen hzero => rwa [List.append_nil]
  | pick chosen v picks hcandidate hnew hpositive hmax hrest ih =>
      have hnext : (chosen ++ [v]).Nodup := List.nodup_append.mpr
        ⟨hchosen, List.nodup_singleton v, by
          intro a ha b hb
          rw [List.mem_singleton] at hb
          exact fun hab => hnew (hb ▸ hab ▸ ha)⟩
      have hall := ih hnext
      rwa [List.append_assoc, List.singleton_append] at hall

/-- What has not been picked in the end has no gain. -/
theorem gain_eq_zero (h : GreedyPicks gain candidates chosen picks) :
    ∀ v ∈ candidates, v ∉ chosen ++ picks → gain (chosen ++ picks) v = 0 := by
  induction h with
  | done chosen hzero => rwa [List.append_nil]
  | pick chosen v picks hcandidate hnew hpositive hmax hrest ih =>
      rwa [List.append_assoc, List.singleton_append] at ih

/-- Each pick had a gain at its time. -/
theorem exists_gain (h : GreedyPicks gain candidates chosen picks) :
    ∀ v ∈ picks, ∃ before, 0 < gain before v := by
  induction h with
  | done chosen hzero => simp
  | pick chosen v picks hcandidate hnew hpositive hmax hrest ih =>
      rw [List.forall_mem_cons]
      exact ⟨⟨chosen, hpositive⟩, ih⟩

end GreedyPicks

end StrideRunner.Library
