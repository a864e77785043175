import StrideRunner.Library.Domination
import StrideRunner.Model.Pace.Solution

/-! # The dominating set check

The adjacency lists represent the edges read so far, and the covered set is the union of the
closed neighbourhoods visited so far. Counting then decides domination. -/

namespace StrideRunner.Pace

open StrideRunner Library

/-- The graph of an edge list; repetitions, orientation and self-loops do not matter. -/
def instanceGraph (edges : List Edge) : SimpleGraph ℕ :=
  SimpleGraph.fromRel fun a b => (⟨a, b⟩ : Edge) ∈ edges

theorem mem_closedNeighborSet_instanceGraph {edges : List Edge} {v w : ℕ} :
    w ∈ closedNeighborSet (instanceGraph edges) v ↔
      w = v ∨ (⟨v, w⟩ : Edge) ∈ edges ∨ (⟨w, v⟩ : Edge) ∈ edges := by
  rw [mem_closedNeighborSet, instanceGraph, SimpleGraph.fromRel_adj]
  grind

def EdgesInRange (n : ℕ) (edges : List Edge) : Prop :=
  ∀ e ∈ edges, e.u < n ∧ e.v < n

namespace Solution

def neighbors (adjlist : List (List ℕ)) (u : ℕ) : List ℕ :=
  adjlist[u]?.getD []

theorem pushNeighbor_spec {adjlist : List (List ℕ)} {u : ℕ} (v : ℕ) (hu : u < adjlist.length) :
    ∃ next, pushNeighbor adjlist u v = .ok next ∧ next.length = adjlist.length ∧
      ∀ x w, w ∈ neighbors next x ↔ w ∈ neighbors adjlist x ∨ x = u ∧ w = v := by
  unfold pushNeighbor
  rw [List.getElem?_eq_getElem hu]
  refine ⟨_, rfl, by simp, ?_⟩
  intro x w
  by_cases hx : x = u
  · subst hx
    simp [neighbors, hu]
  · simp [neighbors, List.getElem?_set_ne (Ne.symm hx), hx]

/-- `adjlist` holds the neighbours along `edges` of the nodes below `n`. -/
structure IsAdjlist (n : ℕ) (edges : List Edge) (adjlist : List (List ℕ)) : Prop where
  length_eq : adjlist.length = n
  mem_neighbors : ∀ u w,
    w ∈ neighbors adjlist u ↔ (⟨u, w⟩ : Edge) ∈ edges ∨ (⟨w, u⟩ : Edge) ∈ edges

theorem isAdjlist_replicate (n : ℕ) : IsAdjlist n [] (List.replicate n []) := by
  refine ⟨by simp, ?_⟩
  intro u w
  simp only [neighbors, List.getElem?_replicate]
  split <;> simp

theorem buildAdjlist_spec {n : ℕ} {done edges : List Edge} {adjlist : List (List ℕ)}
    (hadj : IsAdjlist n done adjlist) (hrange : EdgesInRange n edges) :
    ∃ final, buildAdjlist n edges adjlist = .ok final ∧ IsAdjlist n (done ++ edges) final := by
  induction edges generalizing done adjlist with
  | nil => exact ⟨adjlist, rfl, by simpa using hadj⟩
  | cons e edges ih =>
      obtain ⟨u, v⟩ := e
      obtain ⟨⟨hu, hv⟩, hrest⟩ := List.forall_mem_cons.mp hrange
      dsimp only at hu hv
      have hu' : u < adjlist.length := by rwa [hadj.length_eq]
      obtain ⟨adj₁, hpush₁, hlen₁, hmem₁⟩ := pushNeighbor_spec v hu'
      have hv' : v < adj₁.length := by rwa [hlen₁, hadj.length_eq]
      obtain ⟨adj₂, hpush₂, hlen₂, hmem₂⟩ := pushNeighbor_spec u hv'
      have hnext : IsAdjlist n (done ++ [⟨u, v⟩]) adj₂ := by
        refine ⟨by rw [hlen₂, hlen₁, hadj.length_eq], ?_⟩
        intro x w
        rw [hmem₂, hmem₁, hadj.mem_neighbors]
        simp only [List.mem_append, List.mem_singleton, Edge.mk.injEq]
        grind
      obtain ⟨final, hfinal, hspec⟩ := ih hnext hrest
      have hguard : ¬ max u v ≥ n := by omega
      refine ⟨final, ?_, by simpa using hspec⟩
      simp only [buildAdjlist, hguard, if_false, hpush₁, hpush₂, Outcome.ok_bind, hfinal]

theorem cover_spec {n : ℕ} {adjlist : List (List ℕ)} (hlen : adjlist.length = n)
    {nodes : List ℕ} (hnodes : ∀ u ∈ nodes, u < n) (covered : Finset ℕ) :
    ∃ final, cover n adjlist nodes covered = .ok final ∧
      ∀ w, w ∈ final ↔ w ∈ covered ∨ ∃ u ∈ nodes, w = u ∨ w ∈ neighbors adjlist u := by
  induction nodes generalizing covered with
  | nil => exact ⟨covered, rfl, by simp⟩
  | cons u nodes ih =>
      obtain ⟨hu, hrest⟩ := List.forall_mem_cons.mp hnodes
      have hget : adjlist[u]? = some (neighbors adjlist u) := by
        simp [neighbors, List.getElem?_eq_getElem (hlen ▸ hu)]
      obtain ⟨final, hfinal, hmem⟩ :=
        ih hrest (insert u covered ∪ (neighbors adjlist u).toFinset)
      refine ⟨final, ?_, ?_⟩
      · simp only [cover, ge_iff_le, Nat.not_le.mpr hu, if_false, hget, hfinal]
      · intro w
        rw [hmem]
        simp only [Finset.mem_union, Finset.mem_insert, List.mem_toFinset,
          List.exists_mem_cons_iff]
        grind

/-- On nodes and edges below `n`, the check returns without panicking and decides domination. -/
theorem validDomsetForInstance_spec {n : ℕ} {edges : List Edge} {nodes : List ℕ}
    (hedges : EdgesInRange n edges) (hnodes : ∀ u ∈ nodes, u < n) :
    ∃ valid, validDomsetForInstance ⟨nodes⟩ n edges = .ok valid ∧
      (valid = true ↔
        Dominates (instanceGraph edges) {u | u ∈ nodes} (Finset.range n : Set ℕ)) := by
  obtain ⟨adjlist, hbuild, hadj⟩ := buildAdjlist_spec (isAdjlist_replicate n) hedges
  obtain ⟨covered, hcover, hmem⟩ := cover_spec hadj.length_eq hnodes ∅
  refine ⟨decide (covered.card = n), ?_, ?_⟩
  · simp only [validDomsetForInstance, hbuild, hcover, Outcome.ok_bind]
    rfl
  · have hcovered : ∀ w, w ∈ covered ↔
        ∃ u ∈ {u | u ∈ nodes}, w ∈ closedNeighborSet (instanceGraph edges) u := by
      intro w
      simp only [hmem, hadj.mem_neighbors, mem_closedNeighborSet_instanceGraph]
      simp
    have hsub : covered ⊆ Finset.range n := by
      intro w hw
      obtain ⟨u, hu, hclosed⟩ := (hcovered w).mp hw
      rw [mem_closedNeighborSet_instanceGraph] at hclosed
      rw [Finset.mem_range]
      rcases hclosed with rfl | hedge | hedge
      · exact hnodes _ hu
      · exact (hedges _ hedge).2
      · exact (hedges _ hedge).1
    rw [← card_eq_iff_dominates hcovered hsub, Finset.card_range, decide_eq_true_iff]

/-! ## Nodes and edges out of range -/

theorem buildAdjlist_of_not_inRange {n : ℕ} {edges : List Edge} {adjlist : List (List ℕ)}
    (hlen : adjlist.length = n) (hrange : ¬ EdgesInRange n edges) :
    buildAdjlist n edges adjlist =
      .err (invalidData "Edge contains node id larger than the number of nodes") := by
  induction edges generalizing adjlist with
  | nil => exact (hrange (by simp [EdgesInRange])).elim
  | cons e edges ih =>
      obtain ⟨u, v⟩ := e
      by_cases hguard : max u v ≥ n
      · simp only [buildAdjlist, hguard, if_true]
      · have hu : u < adjlist.length := by omega
        obtain ⟨adj₁, hpush₁, hlen₁, _⟩ := pushNeighbor_spec v hu
        have hv : v < adj₁.length := by omega
        obtain ⟨adj₂, hpush₂, hlen₂, _⟩ := pushNeighbor_spec u hv
        have hrest : ¬ EdgesInRange n edges := by
          intro h
          apply hrange
          rw [EdgesInRange, List.forall_mem_cons]
          exact ⟨by dsimp only; omega, h⟩
        simp only [buildAdjlist, hguard, if_false, hpush₁, hpush₂, Outcome.ok_bind]
        exact ih (by omega) hrest

theorem cover_of_not_inRange {n : ℕ} {adjlist : List (List ℕ)} (hlen : adjlist.length = n)
    {nodes : List ℕ} (hnodes : ¬ ∀ u ∈ nodes, u < n) (covered : Finset ℕ) :
    cover n adjlist nodes covered =
      .err (invalidData "Node id in solution larger than the number of nodes") := by
  induction nodes generalizing covered with
  | nil => simp at hnodes
  | cons u nodes ih =>
      by_cases hu : u ≥ n
      · simp only [cover, hu, if_true]
      · have hget : adjlist[u]? = some (neighbors adjlist u) := by
          have hlt : u < adjlist.length := by omega
          simp [neighbors, hlt]
        have hrest : ¬ ∀ u ∈ nodes, u < n := by
          intro h
          exact hnodes (List.forall_mem_cons.mpr ⟨Nat.lt_of_not_le hu, h⟩)
        simp only [cover, hu, if_false, hget]
        exact ih hrest _

/-- An id that is too large in either list ends the check with `InvalidData`. -/
theorem validDomsetForInstance_of_not_inRange {n : ℕ} {edges : List Edge} {nodes : List ℕ}
    (h : ¬ (EdgesInRange n edges ∧ ∀ u ∈ nodes, u < n)) :
    ∃ message, validDomsetForInstance ⟨nodes⟩ n edges = .err (invalidData message) := by
  have hlen : (List.replicate n ([] : List ℕ)).length = n := List.length_replicate
  by_cases hedges : EdgesInRange n edges
  · obtain ⟨adjlist, hbuild, hadj⟩ := buildAdjlist_spec (isAdjlist_replicate n) hedges
    have hnodes : ¬ ∀ u ∈ nodes, u < n := fun hnodes => h ⟨hedges, hnodes⟩
    refine ⟨"Node id in solution larger than the number of nodes", ?_⟩
    simp only [validDomsetForInstance, hbuild, cover_of_not_inRange hadj.length_eq hnodes,
      Outcome.ok_bind, Outcome.err_bind]
  · refine ⟨"Edge contains node id larger than the number of nodes", ?_⟩
    simp only [validDomsetForInstance, buildAdjlist_of_not_inRange hlen hedges, Outcome.err_bind]

/-- What the check answers for `n` nodes, an edge list and a list of chosen nodes. -/
structure DomsetCheckSpec (n : ℕ) (edges : List Edge) (nodes : List ℕ)
    (answer : Outcome IoError Bool) : Prop where
  no_panic : ∀ message, answer ≠ .panic message
  err_iff : (∃ error, answer = .err error) ↔
    (∃ e ∈ edges, n ≤ e.u ∨ n ≤ e.v) ∨ ∃ u ∈ nodes, n ≤ u
  invalidData_of_err : ∀ error, answer = .err error → error.kind = .invalidData
  true_iff : answer = .ok true ↔ EdgesInRange n edges ∧ (∀ u ∈ nodes, u < n) ∧
    ∀ w < n, w ∈ nodes ∨ ∃ v ∈ nodes, (⟨v, w⟩ : Edge) ∈ edges ∨ (⟨w, v⟩ : Edge) ∈ edges
  false_iff : answer = .ok false ↔ EdgesInRange n edges ∧ (∀ u ∈ nodes, u < n) ∧
    ¬ ∀ w < n, w ∈ nodes ∨ ∃ v ∈ nodes, (⟨v, w⟩ : Edge) ∈ edges ∨ (⟨w, v⟩ : Edge) ∈ edges
  wrapped : n < U32_SIZE → ∀ node, (u32Sub .release 0 1 : Outcome IoError ℕ) = .ok node →
    (∃ e ∈ edges, e.u = node ∨ e.v = node) ∨ node ∈ nodes → ∃ error, answer = .err error

theorem dominates_range_iff {n : ℕ} {edges : List Edge} {nodes : List ℕ} :
    Dominates (instanceGraph edges) {u | u ∈ nodes} (Finset.range n : Set ℕ) ↔
      ∀ w < n, w ∈ nodes ∨
        ∃ v ∈ nodes, (⟨v, w⟩ : Edge) ∈ edges ∨ (⟨w, v⟩ : Edge) ∈ edges := by
  simp only [Dominates, Set.subset_def, Finset.mem_coe, Finset.mem_range, Set.mem_iUnion,
    mem_closedNeighborSet_instanceGraph, Set.mem_ofPred_eq]
  apply forall₂_congr
  intro w _
  constructor
  · rintro ⟨v, hv, rfl | hedge⟩
    · exact Or.inl hv
    · exact Or.inr ⟨v, hv, hedge⟩
  · rintro (hw | ⟨v, hv, hedge⟩)
    · exact ⟨w, hw, Or.inl rfl⟩
    · exact ⟨v, hv, Or.inr hedge⟩

/-- The check never panics, rejects ids out of range and otherwise decides domination. -/
theorem validDomsetForInstance_exact (n : ℕ) (edges : List Edge) (nodes : List ℕ) :
    DomsetCheckSpec n edges nodes (validDomsetForInstance ⟨nodes⟩ n edges) := by
  have hout : (∃ e ∈ edges, n ≤ e.u ∨ n ≤ e.v) ∨ (∃ u ∈ nodes, n ≤ u) ↔
      ¬ (EdgesInRange n edges ∧ ∀ u ∈ nodes, u < n) := by
    simp only [EdgesInRange]
    grind
  have hwrap : n < U32_SIZE → ∀ node, (u32Sub .release 0 1 : Outcome IoError ℕ) = .ok node →
      (∃ e ∈ edges, e.u = node ∨ e.v = node) ∨ node ∈ nodes →
      ¬ (EdgesInRange n edges ∧ ∀ u ∈ nodes, u < n) := by
    rintro hn node hnode hmem
    cases hnode
    rw [← hout]
    rcases hmem with ⟨e, he, hend⟩ | hnode
    · exact Or.inl ⟨e, he, by omega⟩
    · exact Or.inr ⟨_, hnode, by omega⟩
  by_cases hrange : EdgesInRange n edges ∧ ∀ u ∈ nodes, u < n
  · obtain ⟨valid, hvalid, hiff⟩ := validDomsetForInstance_spec hrange.1 hrange.2
    rw [dominates_range_iff] at hiff
    rw [hvalid]
    refine ⟨by simp, ?_, by simp, ?_, ?_, ?_⟩
    · exact hout.trans (iff_of_false (not_not.mpr hrange) (by simp)) |>.symm
    · rw [← hiff, and_iff_right hrange.1, and_iff_right hrange.2, Outcome.ok.injEq]
    · rw [← hiff, and_iff_right hrange.1, and_iff_right hrange.2, Outcome.ok.injEq]
      simp
    · intro hn node hnode hmem
      exact (hwrap hn node hnode hmem hrange).elim
  · obtain ⟨message, herr⟩ := validDomsetForInstance_of_not_inRange hrange
    rw [herr]
    refine ⟨by simp, ?_, ?_, ?_, ?_, ?_⟩
    · rw [hout]
      simp [hrange]
    · rintro error ⟨⟩
      rfl
    · apply iff_of_false (by simp)
      rintro ⟨hedges, hnodes, _⟩
      exact hrange ⟨hedges, hnodes⟩
    · apply iff_of_false (by simp)
      rintro ⟨hedges, hnodes, _⟩
      exact hrange ⟨hedges, hnodes⟩
    · intro _ _ _ _
      exact ⟨_, rfl⟩

end Solution

end StrideRunner.Pace
