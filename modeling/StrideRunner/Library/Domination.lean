import Mathlib.Combinatorics.SimpleGraph.Basic
import Mathlib.Combinatorics.SimpleGraph.VertexCover
import Mathlib.Data.Finset.Card

/-! # Dominating sets

A set `D` dominates `U` when the closed neighbourhoods of its vertices cover `U`. The last
result justifies deciding this by counting the covered vertices. -/

namespace StrideRunner.Library

variable {V : Type*} (G : SimpleGraph V)

def closedNeighborSet (v : V) : Set V := insert v (G.neighborSet v)

def Dominates (D U : Set V) : Prop := U ⊆ ⋃ v ∈ D, closedNeighborSet G v

variable {G}

@[simp] theorem mem_closedNeighborSet {v w : V} :
    w ∈ closedNeighborSet G v ↔ w = v ∨ G.Adj v w := by
  simp [closedNeighborSet]

theorem dominates_iff {D U : Set V} :
    Dominates G D U ↔ ∀ w ∈ U, ∃ v ∈ D, w = v ∨ G.Adj v w := by
  simp [Dominates, Set.subset_def]

/-- Only the covered part of `U` matters, so counting it decides domination. -/
theorem card_eq_iff_dominates {D : Set V} {U covered : Finset V}
    (hcovered : ∀ w, w ∈ covered ↔ ∃ v ∈ D, w ∈ closedNeighborSet G v)
    (hsub : covered ⊆ U) : covered.card = U.card ↔ Dominates G D U := by
  rw [dominates_iff]
  constructor
  · intro hcard w hw
    have heq : covered = U := Finset.eq_of_subset_of_card_le hsub hcard.ge
    rw [Finset.mem_coe, ← heq, hcovered] at hw
    simpa only [mem_closedNeighborSet] using hw
  · intro h
    congr 1
    apply Finset.Subset.antisymm hsub
    intro w hw
    rw [hcovered]
    simpa only [mem_closedNeighborSet] using h w hw

/-- A vertex cover dominates what is not isolated, and nothing else if it avoids isolated
vertices. -/
theorem dominates_iff_of_isVertexCover {C U : Set V} (hcover : G.IsVertexCover C)
    (hC : ∀ v ∈ C, ¬ G.IsIsolated v) : Dominates G C U ↔ ∀ v ∈ U, ¬ G.IsIsolated v := by
  rw [dominates_iff]
  apply forall₂_congr
  intro w _
  constructor
  · rintro ⟨v, hv, rfl | hadj⟩
    · exact hC _ hv
    · exact fun hisolated => hisolated v hadj.symm
  · intro hw
    by_cases hmem : w ∈ C
    · exact ⟨w, hmem, Or.inl rfl⟩
    · obtain ⟨v, hadj⟩ := SimpleGraph.exists_adj_iff_not_isIsolated.mpr hw
      exact ⟨v, (hcover hadj).resolve_left hmem, Or.inr hadj.symm⟩

end StrideRunner.Library
