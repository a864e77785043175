import StrideRunner.Library.Transition

/-! # Projections of a transition system

A map of the states carries the runs of one system to runs of another when every step becomes one
step of the other system or leaves the image as it is. What is known of the states is carried
forward from the first state or backward from the last one. -/

namespace StrideRunner.Library

variable {σ τ α β : Type*} {step : α → σ → Option σ} {step' : β → τ → Option τ}

/-- `shows a b` says that a step under `a` may be seen as one under `b`. -/
def Projects (step : α → σ → Option σ) (step' : β → τ → Option τ) (Inv : σ → Prop) (view : σ → τ)
    (shows : α → β → Prop) : Prop :=
  ∀ a s t, Inv s → step a s = some t →
    view t = view s ∨ ∃ b, shows a b ∧ step' b (view s) = some (view t)

/-- A run becomes a run that shows nothing else. -/
theorem Projects.exec {Inv : σ → Prop} {view : σ → τ} {shows : α → β → Prop}
    (h : Projects step step' Inv view shows)
    (hinv : ∀ a s t, Inv s → step a s = some t → Inv t) {as : List α} {s t : σ} (hs : Inv s)
    (hrun : exec step as s = some t) :
    ∃ bs, Library.exec step' bs (view s) = some (view t) ∧ ∀ b ∈ bs, ∃ a ∈ as, shows a b := by
  induction as generalizing s with
  | nil =>
      cases hrun
      exact ⟨[], rfl, by simp⟩
  | cons a as ih =>
      obtain ⟨mid, hstep, hrest⟩ := exec_cons_eq_some.mp hrun
      obtain ⟨bs, hbs, hshown⟩ := ih (hinv a s mid hs hstep) hrest
      have htail : ∀ b ∈ bs, ∃ a' ∈ a :: as, shows a' b := by
        intro b hb
        obtain ⟨a', ha', hshows⟩ := hshown b hb
        exact ⟨a', List.mem_cons_of_mem a ha', hshows⟩
      obtain hsame | ⟨b, hshows, hb⟩ := h a s mid hs hstep
      · rw [hsame] at hbs
        exact ⟨bs, hbs, htail⟩
      · refine ⟨b :: bs, exec_cons_eq_some.mpr ⟨_, hb, hbs⟩, ?_⟩
        rw [List.forall_mem_cons]
        exact ⟨⟨a, List.mem_cons_self, hshows⟩, htail⟩

/-- Here the invariant holds in the last state and is inherited by the states before it, so the
other system may depend on how the run ends. -/
theorem exec_of_backward {Inv : σ → Prop} {view : σ → τ}
    (h : ∀ a s t, Inv t → step a s = some t →
      view t = view s ∨ ∃ b, step' b (view s) = some (view t))
    (hinv : ∀ a s t, step a s = some t → Inv t → Inv s) {as : List α} {s t : σ} (ht : Inv t)
    (hrun : exec step as s = some t) :
    Inv s ∧ ∃ bs, exec step' bs (view s) = some (view t) := by
  induction as generalizing s with
  | nil =>
      cases hrun
      exact ⟨ht, [], rfl⟩
  | cons a as ih =>
      obtain ⟨mid, hstep, hrest⟩ := exec_cons_eq_some.mp hrun
      obtain ⟨hmid, bs, hbs⟩ := ih hrest
      refine ⟨hinv a s mid hstep hmid, ?_⟩
      obtain hsame | ⟨b, hb⟩ := h a s mid hmid hstep
      · exact ⟨bs, hsame ▸ hbs⟩
      · exact ⟨b :: bs, exec_cons_eq_some.mpr ⟨_, hb, hbs⟩⟩

end StrideRunner.Library
