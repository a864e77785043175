import Mathlib.Data.Nat.Notation
import Mathlib.Data.Option.Basic

/-! # Waiting with a deadline

A future completes at some time or never. Waiting for a bounded time tells whether it completed
in time; the moment of the deadline itself may count either way. -/

namespace StrideRunner.Library

/-- Something that happens at a certain time. -/
structure Timed (α : Type*) where
  time : ℕ
  value : α
  deriving DecidableEq, Repr

variable {α : Type*}

/-- The result of waiting from `start` for `duration`. A future that is complete at the start
is seen whatever the duration. -/
def withTimeout (start duration : ℕ) (tie : Bool) (future : Option (Timed α)) : Option (Timed α) :=
  future.filter fun result => result.time ≤ start ∨ result.time < start + duration ∨
    (result.time = start + duration ∧ tie)

variable {start duration : ℕ} {tie : Bool} {future : Option (Timed α)} {result : Timed α}

theorem eq_some_of_withTimeout (h : withTimeout start duration tie future = some result) :
    future = some result :=
  (Option.filter_eq_some_iff.mp h).1

theorem time_le_of_withTimeout (h : withTimeout start duration tie future = some result) :
    result.time ≤ start + duration := by
  have hbound := (Option.filter_eq_some_iff.mp h).2
  simp only [Bool.decide_or, Bool.or_eq_true, decide_eq_true_eq] at hbound
  omega

/-- After the deadline the future has not completed during the wait. -/
theorem le_time_of_withTimeout_eq_none (h : withTimeout start duration tie future = none)
    (hfuture : future = some result) : start < result.time ∧ start + duration ≤ result.time := by
  subst hfuture
  have hbound := Option.filter_eq_none_iff.mp h result rfl
  simp only [decide_eq_true_eq, not_or] at hbound
  omega

end StrideRunner.Library
