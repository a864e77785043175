import StrideRunner.Library.Transition
import Mathlib.Order.WellFounded

/-! # Fair executions

An execution goes on forever; moments at which nothing happens stand for a system that has come to
rest or that is kept waiting. Weak fairness says who may not be kept waiting. -/

namespace StrideRunner.Library

variable {σ α : Type*} {step : α → σ → Option σ} {run : ℕ → σ} {label : ℕ → Option α}

/-- Nothing happens at the moments without a label. -/
structure Execution (step : α → σ → Option σ) (run : ℕ → σ) (label : ℕ → Option α) : Prop where
  moves : ∀ n a, label n = some a → step a (run n) = some (run (n + 1))
  idles : ∀ n, label n = none → run (n + 1) = run n

theorem Execution.cases (h : Execution step run label) (n : ℕ) :
    run (n + 1) = run n ∨ ∃ a, label n = some a ∧ step a (run n) = some (run (n + 1)) := by
  cases hlabel : label n with
  | none => exact Or.inl (h.idles n hlabel)
  | some a => exact Or.inr ⟨a, rfl, h.moves n a hlabel⟩

theorem Execution.invariant (h : Execution step run label) (Inv : σ → Prop)
    (hstep : ∀ a s t, Inv s → step a s = some t → Inv t) {n m : ℕ} (hn : Inv (run n))
    (hle : n ≤ m) : Inv (run m) := by
  induction m, hle using Nat.le_induction with
  | base => exact hn
  | succ m _ ih =>
      obtain hsame | ⟨a, _, ha⟩ := h.cases m
      · rwa [hsame]
      · exact hstep a _ _ ih ha

section Stuttering

variable {τ : Type*} {R : τ → τ → Prop} {seq : ℕ → τ}

end Stuttering

end StrideRunner.Library
