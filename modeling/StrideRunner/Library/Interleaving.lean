import StrideRunner.Library.Transition
import Mathlib.Data.Set.Defs
import Mathlib.Logic.Function.Basic

/-! # Interleaved processes on a shared store

Processes work on a shared store. A process that is confined to its own keys cannot tell an
interleaved run from a run alone. -/

namespace StrideRunner.Library

variable {ι κ ν L A : Type*}

/-- The local state of a process is changed by its own steps only. -/
structure SharedState (ι κ ν L : Type*) where
  store : κ → ν
  locals : ι → L

/-- A step of a process under a label, or a write from outside of the processes. -/
inductive InterleavedAction (ι κ ν A : Type*) where
  | process (i : ι) (a : A)
  | outside (key : κ) (value : ν)

/-- The steps of one process. -/
abbrev Process (κ ν L A : Type*) := A → (κ → ν) × L → Option ((κ → ν) × L)

/-- The labels of the steps of process `i`. -/
def ownLabels [DecidableEq ι] (i : ι) : List (InterleavedAction ι κ ν A) → List A :=
  List.filterMap fun action =>
    match action with
    | .process j a => if j = i then some a else none
    | .outside _ _ => none

theorem mem_of_mem_ownLabels [DecidableEq ι] {i : ι} {actions : List (InterleavedAction ι κ ν A)}
    {a : A} (h : a ∈ ownLabels i actions) : .process i a ∈ actions := by
  obtain ⟨action, hmem, haction⟩ := List.mem_filterMap.mp h
  cases action with
  | process j b =>
      dsimp only at haction
      split at haction
      · rename_i heq
        cases haction
        exact heq ▸ hmem
      · cases haction
  | outside key value => cases haction

def interleave [DecidableEq ι] [DecidableEq κ] (process : ι → Process κ ν L A) :
    InterleavedAction ι κ ν A → SharedState ι κ ν L → Option (SharedState ι κ ν L)
  | .process i a, s =>
      (process i a (s.store, s.locals i)).map fun next =>
        ⟨next.1, Function.update s.locals i next.2⟩
  | .outside key value, s => some { s with store := Function.update s.store key value }

def AgreeOn (own : Set κ) (σ τ : κ → ν) : Prop :=
  ∀ key ∈ own, σ key = τ key

/-- A step writes the process's own keys only, and depends on no other. -/
structure Confined (own : Set κ) (process : Process κ ν L A) : Prop where
  frame : ∀ {a σ l σ' l'}, process a (σ, l) = some (σ', l') → ∀ key ∉ own, σ' key = σ key
  congr : ∀ {a σ l σ' l'}, process a (σ, l) = some (σ', l') → ∀ τ, AgreeOn own σ τ →
    ∃ τ', process a (τ, l) = some (τ', l') ∧ AgreeOn own σ' τ'

theorem AgreeOn.trans {own : Set κ} {σ τ υ : κ → ν} (h : AgreeOn own σ τ)
    (h' : AgreeOn own τ υ) : AgreeOn own σ υ :=
  fun key hkey => (h key hkey).trans (h' key hkey)

theorem AgreeOn.update [DecidableEq κ] {own : Set κ} {σ τ : κ → ν} (h : AgreeOn own σ τ)
    (key : κ) (value : ν) :
    AgreeOn own (Function.update σ key value) (Function.update τ key value) := by
  intro other hother
  by_cases heq : other = key
  · subst heq
    rw [Function.update_self, Function.update_self]
  · rw [Function.update_of_ne heq, Function.update_of_ne heq]
    exact h other hother

variable [DecidableEq ι] [DecidableEq κ] {process : ι → Process κ ν L A} {own : ι → Set κ}

/-- A step of another process, or from outside, leaves the own keys as they are. -/
theorem agreeOn_of_step (hconfined : ∀ i, Confined (own i) (process i))
    (hdisjoint : ∀ i j, i ≠ j → ∀ key ∈ own i, key ∉ own j) {i : ι}
    {action : InterleavedAction ι κ ν A} {s t : SharedState ι κ ν L}
    (hother : ∀ a, action ≠ .process i a)
    (houtside : ∀ key value, action = .outside key value → key ∉ own i)
    (hstep : interleave process action s = some t) :
    AgreeOn (own i) t.store s.store ∧ t.locals i = s.locals i := by
  cases action with
  | process j a =>
      have hne : i ≠ j := by
        rintro rfl
        exact hother a rfl
      obtain ⟨⟨σ', l'⟩, hnext, rfl⟩ := Option.map_eq_some_iff.mp hstep
      refine ⟨?_, Function.update_of_ne hne ..⟩
      intro key hkey
      exact (hconfined j).frame hnext key (hdisjoint i j hne key hkey)
  | outside key value =>
      cases hstep
      refine ⟨?_, rfl⟩
      intro other hown
      have hne : other ≠ key := by
        rintro rfl
        exact houtside other value rfl hown
      exact Function.update_of_ne hne ..

/-- Whatever the others do, a process behaves as it does alone: with the same labels it reaches
the same local state, and its own keys have the same values. -/
theorem exec_alone_of_interleaved (hconfined : ∀ i, Confined (own i) (process i))
    (hdisjoint : ∀ i j, i ≠ j → ∀ key ∈ own i, key ∉ own j)
    {actions : List (InterleavedAction ι κ ν A)} {s t : SharedState ι κ ν L} (i : ι)
    (houtside : ∀ key value, .outside key value ∈ actions → key ∉ own i)
    (hrun : exec (interleave process) actions s = some t) {τ : κ → ν}
    (hagree : AgreeOn (own i) s.store τ) :
    ∃ τ', exec (process i) (ownLabels i actions) (τ, s.locals i) = some (τ', t.locals i) ∧
      AgreeOn (own i) t.store τ' := by
  induction actions generalizing s τ with
  | nil =>
      cases hrun
      exact ⟨τ, rfl, hagree⟩
  | cons action actions ih =>
      obtain ⟨mid, hstep, hrest⟩ := exec_cons_eq_some.mp hrun
      have houtside' : ∀ key value, .outside key value ∈ actions → key ∉ own i :=
        fun key value hmem => houtside key value (List.mem_cons_of_mem action hmem)
      by_cases hself : ∃ a, action = .process i a
      · obtain ⟨a, rfl⟩ := hself
        obtain ⟨⟨σ', l'⟩, hnext, rfl⟩ := Option.map_eq_some_iff.mp hstep
        obtain ⟨τ₁, hτ₁, hagree₁⟩ := (hconfined i).congr hnext τ hagree
        obtain ⟨τ', hτ', hagree'⟩ := ih houtside' hrest hagree₁
        dsimp only at hτ'
        rw [Function.update_self] at hτ'
        refine ⟨τ', ?_, hagree'⟩
        have hlabels : ownLabels i (.process i a :: actions) = a :: ownLabels i actions := by
          simp [ownLabels]
        rw [hlabels]
        exact exec_cons_eq_some.mpr ⟨_, hτ₁, hτ'⟩
      · have hother : ∀ a, action ≠ .process i a := not_exists.mp hself
        obtain ⟨hmid, hlocals⟩ := agreeOn_of_step hconfined hdisjoint hother
          (fun key value h => houtside key value (h ▸ List.mem_cons_self)) hstep
        have hlabels : ownLabels i (action :: actions) = ownLabels i actions := by
          cases action with
          | process j a =>
              have hne : j ≠ i := by
                rintro rfl
                exact hother a rfl
              simp [ownLabels, hne]
          | outside key value => simp [ownLabels]
        rw [hlabels, ← hlocals]
        exact ih houtside' hrest (hmid.trans hagree)

end StrideRunner.Library
