import Mathlib.Data.List.Basic

/-! # Labelled transition systems

A system is given by a partial step function; a run is the list of its labels, so "every
interleaving" is a quantifier over lists. -/

namespace StrideRunner.Library

variable {σ α : Type*} (step : α → σ → Option σ)

/-- The state after performing the labels one by one, if every step is enabled. -/
def exec : List α → σ → Option σ
  | [], s => some s
  | a :: as, s => (step a s).bind (exec as)

variable {step}

@[simp] theorem exec_nil (s : σ) : exec step [] s = some s := rfl

theorem exec_cons_eq_some {a : α} {as : List α} {s final : σ} :
    exec step (a :: as) s = some final ↔
      ∃ mid, step a s = some mid ∧ exec step as mid = some final := by
  simp [exec, Option.bind_eq_some_iff]

theorem exec_append_eq_some {as bs : List α} {s final : σ} :
    exec step (as ++ bs) s = some final ↔
      ∃ mid, exec step as s = some mid ∧ exec step bs mid = some final := by
  induction as generalizing s with
  | nil => simp
  | cons a as ih =>
      simp only [List.cons_append, exec_cons_eq_some, ih]
      constructor
      · rintro ⟨s₁, hstep, s₂, has, hbs⟩
        exact ⟨s₂, ⟨s₁, hstep, has⟩, hbs⟩
      · rintro ⟨s₂, ⟨s₁, hstep, has⟩, hbs⟩
        exact ⟨s₁, hstep, s₂, has, hbs⟩

/-- Some run leads from the one state to the other. -/
def Reaches (step : α → σ → Option σ) (s t : σ) : Prop :=
  ∃ as, exec step as s = some t

theorem Reaches.refl (s : σ) : Reaches step s s :=
  ⟨[], rfl⟩

theorem Reaches.tail {a : α} {s t u : σ} (h : Reaches step s t) (hstep : step a t = some u) :
    Reaches step s u := by
  obtain ⟨as, has⟩ := h
  exact ⟨as ++ [a], exec_append_eq_some.mpr ⟨t, has, by simp [exec, hstep]⟩⟩

/-- The guard, on a label and the state before it, holds at each step of the run. -/
def EveryStep (step : α → σ → Option σ) (guard : α → σ → Prop) : List α → σ → Prop
  | [], _ => True
  | a :: as, s => guard a s ∧ ∀ t, step a s = some t → EveryStep step guard as t

theorem EveryStep.imp {guard guard' : α → σ → Prop} {as : List α} {s : σ}
    (h : EveryStep step guard as s) (himp : ∀ a s, guard a s → guard' a s) :
    EveryStep step guard' as s := by
  induction as generalizing s with
  | nil => trivial
  | cons a as ih => exact ⟨himp a s h.1, fun t ht => ih (h.2 t ht)⟩

/-- The guard goes on to hold after the first part of a run. -/
theorem EveryStep.of_append {guard : α → σ → Prop} {as bs : List α} {s t : σ}
    (h : EveryStep step guard (as ++ bs) s) (has : exec step as s = some t) :
    EveryStep step guard bs t := by
  induction as generalizing s with
  | nil =>
      cases has
      exact h
  | cons a as ih =>
      obtain ⟨mid, hmid, hrest⟩ := exec_cons_eq_some.mp has
      exact ih (h.2 mid hmid) hrest

theorem exec_invariant_of_guard {guard : α → σ → Prop} {Inv : σ → Prop}
    (hstep : ∀ a s t, guard a s → Inv s → step a s = some t → Inv t)
    {as : List α} {s final : σ} (hguard : EveryStep step guard as s)
    (hrun : exec step as s = some final) (hs : Inv s) : Inv final := by
  induction as generalizing s with
  | nil =>
      cases hrun
      exact hs
  | cons a as ih =>
      obtain ⟨ha, has⟩ := hguard
      obtain ⟨mid, hmid, hrest⟩ := exec_cons_eq_some.mp hrun
      exact ih (has mid hmid) hrest (hstep a s mid ha hs hmid)

theorem everyStep_of_forall {guard : α → σ → Prop} (h : ∀ a s, guard a s) (as : List α) (s : σ) :
    EveryStep step guard as s := by
  induction as generalizing s with
  | nil => trivial
  | cons a as ih => exact ⟨h a s, fun t _ => ih t⟩

theorem everyStep_of_mem {permitted : α → Prop} {as : List α} (h : ∀ a ∈ as, permitted a) (s : σ) :
    EveryStep step (fun a _ => permitted a) as s := by
  induction as generalizing s with
  | nil => trivial
  | cons a as ih =>
      obtain ⟨ha, has⟩ := List.forall_mem_cons.mp h
      exact ⟨ha, fun t _ => ih has t⟩

/-- An invariant of the permitted steps is an invariant of the runs made of them. -/
theorem exec_invariant (permitted : α → Prop) {Inv : σ → Prop}
    (hstep : ∀ a s t, permitted a → Inv s → step a s = some t → Inv t)
    {as : List α} {s final : σ} (hpermitted : ∀ a ∈ as, permitted a)
    (hrun : exec step as s = some final) (hs : Inv s) : Inv final :=
  exec_invariant_of_guard hstep (everyStep_of_mem hpermitted s) hrun hs

/-- A reflexive and transitive relation that holds across each step holds across a run. -/
theorem exec_relation {R : σ → σ → Prop} (hrefl : ∀ s, R s s)
    (htrans : ∀ {s t u}, R s t → R t u → R s u)
    (hstep : ∀ a s t, step a s = some t → R s t)
    {as : List α} {s final : σ} (hrun : exec step as s = some final) : R s final := by
  induction as generalizing s with
  | nil =>
      cases hrun
      exact hrefl _
  | cons a as ih =>
      obtain ⟨mid, hmid, hrest⟩ := exec_cons_eq_some.mp hrun
      exact htrans (hstep a s mid hmid) (ih hrest)

/-- A rank that every step lowers, until it is zero, is zero after that many steps. -/
theorem exec_rank (permitted : α → Prop) {Inv : σ → Prop} {rank : σ → ℕ}
    (hstep : ∀ a s t, permitted a → Inv s → step a s = some t → Inv t)
    (hrank : ∀ a s t, Inv s → step a s = some t → rank t < rank s ∨ rank t = 0)
    {as : List α} {s final : σ} (hpermitted : ∀ a ∈ as, permitted a)
    (hrun : exec step as s = some final) (hs : Inv s) :
    rank final + as.length ≤ rank s ∨ rank final = 0 := by
  induction as generalizing s with
  | nil =>
      cases hrun
      exact Or.inl (Nat.le_refl _)
  | cons a as ih =>
      obtain ⟨ha, has⟩ := List.forall_mem_cons.mp hpermitted
      obtain ⟨mid, hmid, hrest⟩ := exec_cons_eq_some.mp hrun
      have htail := ih has hrest (hstep a s mid ha hs hmid)
      have hhead := hrank a s mid hs hmid
      rw [List.length_cons]
      omega

/-- Every state of an infinite sequence of permitted steps is reached by a finite run. -/
theorem exists_exec_of_steps {permitted : α → Prop} {run : ℕ → σ}
    (hstep : ∀ n, ∃ a, permitted a ∧ step a (run n) = some (run (n + 1))) (n : ℕ) :
    ∃ as, (∀ a ∈ as, permitted a) ∧ exec step as (run 0) = some (run n) := by
  induction n with
  | zero => exact ⟨[], by simp, rfl⟩
  | succ n ih =>
      obtain ⟨as, hpermitted, hrun⟩ := ih
      obtain ⟨a, ha, hlast⟩ := hstep n
      refine ⟨as ++ [a], ?_, exec_append_eq_some.mpr ⟨_, hrun, by simp [exec, hlast]⟩⟩
      simpa [or_imp, forall_and] using ⟨hpermitted, ha⟩

end StrideRunner.Library
