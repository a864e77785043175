import StrideRunner.Library.GreedyPicks
import StrideRunner.Model.Examples.Greedy
import StrideRunner.Verification.Pace.Domset

/-! # The example solver picks greedily

The priority of a node in the queue is the number of its neighbours that have not been picked, so
no decrement underflows, and the picked nodes are a vertex cover. -/

namespace StrideRunner.Greedy

open Pace Library Solution

variable {profile : BuildProfile} {n : ℕ} {edges : List Edge} {graph : List (List ℕ)}

/-! ## The graph -/

/-- The other ends of the edges at a node, in their order. -/
def otherEnds (edges : List Edge) (u : ℕ) : List ℕ :=
  edges.filterMap fun e => if e.u = u then some e.v else if e.v = u then some e.u else none

theorem otherEnds_append (edges edges' : List Edge) (u : ℕ) :
    otherEnds (edges ++ edges') u = otherEnds edges u ++ otherEnds edges' u :=
  List.filterMap_append

theorem length_otherEnds_le (edges : List Edge) (u : ℕ) :
    (otherEnds edges u).length ≤ edges.length :=
  List.length_filterMap_le ..

theorem mem_otherEnds {u v : ℕ} :
    v ∈ otherEnds edges u ↔ (⟨u, v⟩ : Edge) ∈ edges ∨ (⟨v, u⟩ : Edge) ∈ edges := by
  rw [otherEnds, List.mem_filterMap]
  constructor
  · rintro ⟨⟨a, b⟩, hedge, heq⟩
    grind
  · rintro (hedge | hedge)
    · exact ⟨⟨u, v⟩, hedge, by simp⟩
    · refine ⟨⟨v, u⟩, hedge, ?_⟩
      by_cases hvu : v = u
      · simp [hvu]
      · simp [hvu]

/-- Two nodes are joined as often from either side. -/
theorem count_otherEnds_comm (edges : List Edge) (u v : ℕ) :
    (otherEnds edges u).count v = (otherEnds edges v).count u := by
  induction edges with
  | nil => rfl
  | cons e edges ih =>
      obtain ⟨a, b⟩ := e
      simp only [otherEnds, List.filterMap_cons] at ih ⊢
      grind

/-- Each list holds the other ends of the edges at its node. -/
structure IsNeighborLists (n : ℕ) (edges : List Edge) (graph : List (List ℕ)) : Prop where
  length_eq : graph.length = n
  neighbors_eq : ∀ u, neighbors graph u = otherEnds edges u
  sum_eq : (graph.map List.length).sum = 2 * edges.length

theorem isNeighborLists_replicate (n : ℕ) : IsNeighborLists n [] (List.replicate n []) := by
  refine ⟨by simp, ?_, by simp⟩
  intro u
  simp only [neighbors, List.getElem?_replicate]
  split <;> rfl

theorem pushNeighbor_eq {u : ℕ} (v : ℕ) (hu : u < graph.length) :
    ∃ next, pushNeighbor graph u v = .ok next ∧ next.length = graph.length ∧
      (∀ x, neighbors next x = if x = u then neighbors graph u ++ [v] else neighbors graph x) ∧
      (next.map List.length).sum = (graph.map List.length).sum + 1 := by
  unfold pushNeighbor
  rw [List.getElem?_eq_getElem hu]
  refine ⟨_, rfl, by simp, ?_, ?_⟩
  · intro x
    by_cases hx : x = u
    · subst hx
      simp [neighbors, hu]
    · simp [neighbors, List.getElem?_set_ne (Ne.symm hx), hx]
  · rw [List.map_set, List.length_append, List.length_singleton]
    have hu' : u < (graph.map List.length).length := by rwa [List.length_map]
    have hget : (graph.map List.length)[u] = graph[u].length := List.getElem_map ..
    have hsplit := List.sum_take_add_sum_drop (graph.map List.length) u
    rw [List.drop_eq_getElem_cons hu', List.sum_cons, hget] at hsplit
    rw [List.set_eq_take_append_cons_drop, if_pos hu', List.sum_append, List.sum_cons]
    omega

/-- An edge between two nodes adds each to the list of the other. -/
theorem IsNeighborLists.push {done : List Edge} {e : Edge} (h : IsNeighborLists n done graph)
    (hu : e.u < n) (hv : e.v < n) (hne : e.u ≠ e.v) :
    ∃ mid next, pushNeighbor graph e.u e.v = .ok mid ∧ pushNeighbor mid e.v e.u = .ok next ∧
      IsNeighborLists n (done ++ [e]) next := by
  obtain ⟨u, v⟩ := e
  dsimp only at hu hv hne ⊢
  obtain ⟨mid, hmid, hlength, hneighbors, hsum⟩ :=
    pushNeighbor_eq v (h.length_eq.symm ▸ hu : u < graph.length)
  obtain ⟨next, hnext, hlength', hneighbors', hsum'⟩ :=
    pushNeighbor_eq u (by rw [hlength, h.length_eq]; exact hv : v < mid.length)
  refine ⟨mid, next, hmid, hnext, by rw [hlength', hlength, h.length_eq], ?_, ?_⟩
  · intro x
    rw [hneighbors', otherEnds_append, ← h.neighbors_eq]
    by_cases hxv : x = v
    · subst hxv
      rw [if_pos rfl, hneighbors, if_neg (Ne.symm hne)]
      simp [otherEnds, hne]
    · rw [if_neg hxv, hneighbors]
      by_cases hxu : x = u
      · subst hxu
        simp [otherEnds]
      · simp [otherEnds, hxu, Ne.symm hxu, Ne.symm hxv]
  · rw [hsum', hsum, h.sum_eq, List.length_append, List.length_singleton]
    omega

theorem readEdges_cons {reader rest : PaceReader} {edge : Edge}
    (hnext : PaceReader.next profile reader = (.ok (some edge), rest)) (graph : List (List ℕ)) :
    readEdges profile reader graph = (do
      let graph ← pushNeighbor graph edge.u edge.v
      if edge.u = edge.v then .panic "assertion `left != right` failed"
      else
        let graph ← pushNeighbor graph edge.v edge.u
        readEdges profile rest graph) := by
  rw [readEdges]
  split
  · rename_i h
    cases hnext.symm.trans h
  · rename_i h
    cases hnext.symm.trans h
    rfl
  · rename_i h
    cases hnext.symm.trans h
  · rename_i h
    cases hnext.symm.trans h

theorem readEdges_nil {reader rest : PaceReader}
    (hnext : PaceReader.next profile reader = (.ok none, rest)) (graph : List (List ℕ)) :
    readEdges profile reader graph = .ok graph := by
  rw [readEdges]
  split
  · rfl
  · rename_i h
    cases hnext.symm.trans h
  · rename_i h
    cases hnext.symm.trans h
  · rename_i h
    cases hnext.symm.trans h

/-- On an instance without self-loops the loop ends with the lists of its edges. -/
theorem readEdges_eq {reader : PaceReader} {done : List Edge}
    (hedges : reader.collectEdges profile = .ok edges) (hrange : EdgesInRange n edges)
    (hloops : ∀ e ∈ edges, e.u ≠ e.v) (h : IsNeighborLists n done graph) :
    ∃ final, readEdges profile reader graph = .ok final ∧
      IsNeighborLists n (done ++ edges) final := by
  fun_induction PaceReader.collectEdges profile reader generalizing edges done graph with
  | case1 reader rest hnext =>
      cases hedges
      exact ⟨graph, readEdges_nil hnext graph, by rwa [List.append_nil]⟩
  | case2 reader edge rest hnext ih =>
      obtain ⟨tail, htail, hedges⟩ := Outcome.bind_eq_ok.mp hedges
      cases hedges
      obtain ⟨⟨hu, hv⟩, hrest⟩ := List.forall_mem_cons.mp hrange
      obtain ⟨hne, hloops⟩ := List.forall_mem_cons.mp hloops
      obtain ⟨mid, next, hmid, hpush, hlists⟩ := h.push hu hv hne
      obtain ⟨final, hfinal, hspec⟩ := ih htail hrest hloops hlists
      refine ⟨final, ?_, by rwa [List.append_assoc] at hspec⟩
      rw [readEdges_cons hnext, hmid, Outcome.ok_bind, if_neg hne, hpush, Outcome.ok_bind, hfinal]
  | case3 reader error rest hnext => cases hedges
  | case4 reader message rest hnext => cases hedges

/-- A self-loop ends the loop in the assertion. -/
theorem readEdges_of_selfLoop {reader : PaceReader} (hedges : reader.collectEdges profile = .ok edges)
    (hrange : EdgesInRange n edges) (hlength : graph.length = n) (hloop : ∃ e ∈ edges, e.u = e.v) :
    readEdges profile reader graph = .panic "assertion `left != right` failed" := by
  fun_induction PaceReader.collectEdges profile reader generalizing edges graph with
  | case1 reader rest hnext =>
      cases hedges
      simp at hloop
  | case2 reader edge rest hnext ih =>
      obtain ⟨tail, htail, hedges⟩ := Outcome.bind_eq_ok.mp hedges
      cases hedges
      obtain ⟨⟨hu, hv⟩, hrest⟩ := List.forall_mem_cons.mp hrange
      obtain ⟨mid, hmid, hmidLength, _⟩ := pushNeighbor_eq edge.v (hlength.symm ▸ hu : edge.u < graph.length)
      rw [readEdges_cons hnext, hmid, Outcome.ok_bind]
      by_cases heq : edge.u = edge.v
      · rw [if_pos heq]
      · obtain ⟨next, hpush, hnextLength, _⟩ :=
          pushNeighbor_eq edge.u (by omega : edge.v < mid.length)
        rw [if_neg heq, hpush, Outcome.ok_bind]
        apply ih htail hrest (by omega)
        rw [List.exists_mem_cons_iff] at hloop
        exact hloop.resolve_left heq
  | case3 reader error rest hnext => cases hedges
  | case4 reader message rest hnext => cases hedges

/-! ## The queue -/

theorem neighbors_eq {u : ℕ} {list : List ℕ} (h : graph[u]? = some list) :
    neighbors graph u = list := by
  rw [neighbors, h, Option.getD_some]

/-- The edges at a node whose other end has not been chosen. -/
def openDegree (edges : List Edge) (chosen : List ℕ) (v : ℕ) : ℕ :=
  (otherEnds edges v).countP fun w => w ∉ chosen

theorem decrease_eq {queue : PriorityQueue ℕ} (hunique : queue.Unique) {neighbor : ℕ}
    (hpositive : ∀ d, (neighbor, d) ∈ queue → 0 < d) :
    decrease profile queue neighbor =
      .ok (queue.map fun entry => (entry.1, entry.2 - [neighbor].count entry.1)) := by
  unfold decrease
  cases hpriority : queue.priority? neighbor with
  | none =>
      rw [PriorityQueue.priority?_eq_none_iff] at hpriority
      have hsame : queue.map (fun entry => (entry.1, entry.2 - [neighbor].count entry.1)) =
          queue := by
        conv_rhs => rw [← List.map_id queue]
        apply List.map_congr_left
        intro entry hentry
        have hne : neighbor ≠ entry.1 :=
          fun heq => hpriority (heq ▸ List.mem_map_of_mem hentry)
        simp [hne]
      rw [hsame]
  | some d =>
      have hmem := hunique.priority?_eq_some_iff.mp hpriority
      have hd := hpositive d hmem
      simp only [u32Sub_of_le profile (show 1 ≤ d from hd), Outcome.ok_bind, Outcome.pure_eq,
        Outcome.ok.injEq]
      apply PriorityQueue.setPriority_eq_map
      · rintro ⟨item, value⟩ hentry rfl
        simp [hunique.eq_of_mem hentry hmem]
      · rintro ⟨item, value⟩ _ hne
        simp [Ne.symm hne]

/-- Where no priority is too small, each node loses one for each time it is in the list. -/
theorem decreaseAll_eq {queue : PriorityQueue ℕ} (hunique : queue.Unique) {list : List ℕ}
    (hle : ∀ entry ∈ queue, list.count entry.1 ≤ entry.2) :
    decreaseAll profile list queue =
      .ok (queue.map fun entry => (entry.1, entry.2 - list.count entry.1)) := by
  induction list generalizing queue with
  | nil => simp [decreaseAll]
  | cons neighbor list ih =>
      have hpositive : ∀ d, (neighbor, d) ∈ queue → 0 < d := by
        intro d hd
        have hcount := hle _ hd
        rw [List.count_cons_self] at hcount
        dsimp only at hcount
        omega
      have hcons : ∀ v, (neighbor :: list).count v = [neighbor].count v + list.count v := by
        intro v
        rw [← List.count_append]
        rfl
      rw [decreaseAll, decrease_eq hunique hpositive, Outcome.ok_bind, ih]
      · rw [List.map_map]
        simp only [Function.comp_def, hcons, Nat.sub_sub]
      · simpa only [PriorityQueue.Unique, List.map_map, Function.comp_def] using hunique
      · intro entry hentry
        obtain ⟨old, hold, rfl⟩ := List.mem_map.mp hentry
        have hcount := hle old hold
        rw [hcons] at hcount
        dsimp only
        omega

/-- At the start each node waits with its degree. -/
theorem initialQueue_eq (hlength : graph.length ≤ U32_SIZE)
    (hdegree : ∀ u, (neighbors graph u).length < U32_SIZE) :
    initialQueue graph = graph.zipIdx.map fun entry => (entry.2, entry.1.length) := by
  have hcast : ∀ entry ∈ graph.zipIdx,
      entry.2 % U32_SIZE = entry.2 ∧ entry.1.length % U32_SIZE = entry.1.length := by
    rintro ⟨list, node⟩ hentry
    rw [List.mk_mem_zipIdx_iff_getElem?] at hentry
    have hnode : node < graph.length := (List.getElem?_eq_some_iff.mp hentry).1
    have hlist := hdegree node
    rw [neighbors, hentry, Option.getD_some] at hlist
    exact ⟨Nat.mod_eq_of_lt (hnode.trans_le hlength), Nat.mod_eq_of_lt hlist⟩
  have hunique : PriorityQueue.Unique (graph.zipIdx.map fun entry => (entry.2, entry.1.length)) := by
    rw [PriorityQueue.Unique, List.map_map]
    have hkeys : (Prod.fst ∘ fun entry : List ℕ × ℕ => (entry.2, entry.1.length)) = Prod.snd := rfl
    rw [hkeys, List.zipIdx_map_snd]
    exact List.nodup_range'
  have hfold := @PriorityQueue.foldl_push_eq ℕ _ [] _ hunique
  rw [List.nil_append, List.foldl_map] at hfold
  rw [initialQueue, ← hfold]
  apply List.foldl_ext
  intro queue entry hentry
  rw [(hcast entry hentry).1, (hcast entry hentry).2]

/-! ## The loop -/

/-- The queue holds nodes that have not been chosen, with the numbers of their open neighbours. A
node that has been dropped has none. -/
structure Pending (n : ℕ) (edges : List Edge) (chosen : List ℕ) (queue : PriorityQueue ℕ) :
    Prop where
  unique : queue.Unique
  entry : ∀ v d, (v, d) ∈ queue → v < n ∧ v ∉ chosen ∧ d = openDegree edges chosen v
  dropped : ∀ v < n, v ∉ chosen → v ∉ queue.map Prod.fst → openDegree edges chosen v = 0

/-- A new choice closes the edges to it. -/
theorem openDegree_append {chosen : List ℕ} {u : ℕ} (hu : u ∉ chosen) (v : ℕ) :
    openDegree edges (chosen ++ [u]) v + (otherEnds edges v).count u = openDegree edges chosen v := by
  unfold openDegree
  induction otherEnds edges v with
  | nil => rfl
  | cons w list ih =>
      by_cases hw : w = u
      · subst hw
        simp [hu] at ih ⊢
        omega
      · simp only [List.mem_append, List.mem_singleton, hw, or_false, List.countP_cons,
          List.count_cons_of_ne hw] at ih ⊢
        omega

theorem pending_initial (hlists : IsNeighborLists n edges graph) (hn : n < U32_SIZE)
    (hedges : edges.length < U32_SIZE) : Pending n edges [] (initialQueue graph) := by
  have hqueue := initialQueue_eq (hlists.length_eq ▸ hn.le)
    fun u => (hlists.neighbors_eq u).symm ▸ (length_otherEnds_le edges u).trans_lt hedges
  have hkeys : (initialQueue graph).map Prod.fst = List.range n := by
    rw [hqueue, List.map_map, List.range_eq_range', ← hlists.length_eq, ← List.zipIdx_map_snd]
    rfl
  refine ⟨?_, ?_, ?_⟩
  · rw [PriorityQueue.Unique, hkeys]
    exact List.nodup_range
  · intro v d hentry
    have hv : v < n := List.mem_range.mp (hkeys ▸ List.mem_map_of_mem hentry)
    refine ⟨hv, List.not_mem_nil, ?_⟩
    rw [hqueue] at hentry
    obtain ⟨⟨list, node⟩, hmem, heq⟩ := List.mem_map.mp hentry
    cases heq
    rw [List.mk_mem_zipIdx_iff_getElem?] at hmem
    simp [openDegree, ← hlists.neighbors_eq, neighbors_eq hmem]
  · intro v hv _ hdropped
    rw [hkeys, List.mem_range] at hdropped
    exact (hdropped hv).elim

theorem count_le_openDegree {chosen : List ℕ} {u : ℕ} (hu : u ∉ chosen) (v : ℕ) :
    (otherEnds edges v).count u ≤ openDegree edges chosen v :=
  (openDegree_append hu v).symm ▸ Nat.le_add_left ..

section

variable {chosen : List ℕ} {queue rest : PriorityQueue ℕ} {ties : TieBreak ℕ} {node degree : ℕ}

/-- The popped node is not among the others. -/
theorem Pending.pop (h : Pending n edges chosen queue)
    (hpop : queue.pop ties = some ((node, degree), rest)) :
    node < n ∧ node ∉ chosen ∧ degree = openDegree edges chosen node ∧ rest.Unique ∧
      (∀ v d, (v, d) ∈ rest → v ≠ node ∧ (v, d) ∈ queue) ∧
      ∀ v ≠ node, v ∉ rest.map Prod.fst → v ∉ queue.map Prod.fst := by
  obtain ⟨hmem, _, hperm⟩ := PriorityQueue.of_pop hpop
  obtain ⟨hnode, hnew, hdegree⟩ := h.entry node degree hmem
  have hkeys := hperm.map Prod.fst
  have hnodup := hkeys.nodup_iff.mp h.unique
  rw [List.map_cons, List.nodup_cons] at hnodup
  refine ⟨hnode, hnew, hdegree, hnodup.2, ?_, ?_⟩
  · intro v d hentry
    refine ⟨?_, hperm.mem_iff.mpr (List.mem_cons_of_mem _ hentry)⟩
    rintro rfl
    exact hnodup.1 (List.mem_map.mpr ⟨_, hentry, rfl⟩)
  · intro v hne hv
    rw [hkeys.mem_iff, List.map_cons, List.mem_cons]
    exact not_or.mpr ⟨hne, hv⟩

/-- A node without open neighbours can be dropped. -/
theorem Pending.drop (h : Pending n edges chosen queue)
    (hpop : queue.pop ties = some ((node, 0), rest)) : Pending n edges chosen rest := by
  obtain ⟨_, _, hzero, hunique, hrest, hdropped⟩ := h.pop hpop
  refine ⟨hunique, ?_, ?_⟩
  · intro v d hentry
    exact h.entry v d (hrest v d hentry).2
  · intro v hv hopen hnot
    by_cases hne : v = node
    · exact hne ▸ hzero.symm
    · exact h.dropped v hv hopen (hdropped v hne hnot)

/-- Nothing that is left has more open neighbours than the popped node. -/
theorem Pending.openDegree_le (h : Pending n edges chosen queue)
    (hpop : queue.pop ties = some ((node, degree), rest)) :
    ∀ v < n, v ∉ chosen → openDegree edges chosen v ≤ openDegree edges chosen node := by
  intro v hv hopen
  obtain ⟨hmem, hmax, _⟩ := PriorityQueue.of_pop hpop
  have hdegree := (h.entry node degree hmem).2.2
  by_cases hqueued : v ∈ queue.map Prod.fst
  · obtain ⟨⟨item, d⟩, hentry, rfl⟩ := List.mem_map.mp hqueued
    have hd := (h.entry item d hentry).2.2
    have hle := hmax _ hentry
    dsimp only at hle ⊢
    omega
  · rw [h.dropped v hv hopen hqueued]
    exact Nat.zero_le _

/-- After a choice every waiting neighbour loses the edges to the chosen node. -/
theorem Pending.pick (h : Pending n edges chosen queue) (hlists : IsNeighborLists n edges graph)
    (hpop : queue.pop ties = some ((node, degree), rest)) :
    ∃ next, decreaseAll profile (neighbors graph node) rest = .ok next ∧
      Pending n edges (chosen ++ [node]) next := by
  obtain ⟨_, hnew, _, hunique, hrest, hdropped⟩ := h.pop hpop
  have hle : ∀ entry ∈ rest, (neighbors graph node).count entry.1 ≤ entry.2 := by
    rintro ⟨v, d⟩ hentry
    obtain ⟨_, _, hd⟩ := h.entry v d (hrest v d hentry).2
    rw [hlists.neighbors_eq, count_otherEnds_comm, hd]
    exact count_le_openDegree hnew v
  refine ⟨_, decreaseAll_eq hunique hle, ?_, ?_, ?_⟩
  · simpa only [PriorityQueue.Unique, List.map_map, Function.comp_def] using hunique
  · intro v d hentry
    obtain ⟨⟨item, old⟩, hold, heq⟩ := List.mem_map.mp hentry
    cases heq
    obtain ⟨hne, hqueued⟩ := hrest item old hold
    obtain ⟨hitem, hopen, hold⟩ := h.entry item old hqueued
    refine ⟨hitem, ?_, ?_⟩
    · simp only [List.mem_append, List.mem_singleton, not_or]
      exact ⟨hopen, hne⟩
    · have happend := @openDegree_append edges chosen node hnew item
      dsimp only
      rw [hlists.neighbors_eq, count_otherEnds_comm]
      omega
  · intro v hv hopen hnot
    simp only [List.mem_append, List.mem_singleton, not_or] at hopen
    rw [List.map_map] at hnot
    have hzero := h.dropped v hv hopen.1 (hdropped v hopen.2 hnot)
    have happend := @openDegree_append edges chosen node hnew v
    omega

/-- The loop ends without panic, and its choices are greedy. -/
theorem greedyLoop_spec {ties : ℕ → TieBreak ℕ} {step : ℕ} (hlists : IsNeighborLists n edges graph)
    (h : Pending n edges chosen queue) :
    ∃ domset, greedyLoop profile ties graph step queue = .ok domset ∧
      GreedyPicks (openDegree edges) {v | v < n} chosen domset := by
  fun_induction greedyLoop profile ties graph step queue generalizing chosen with
  | case1 step queue hpop =>
      rw [PriorityQueue.pop_eq_none_iff] at hpop
      subst hpop
      exact ⟨[], rfl, .done chosen fun v hv hopen => h.dropped v hv hopen List.not_mem_nil⟩
  | case2 step queue node rest hpop ih => exact ih (h.drop hpop)
  | case3 step queue node degree rest hpop hdegree hnone =>
      obtain ⟨hnode, _⟩ := h.pop hpop
      rw [List.getElem?_eq_none_iff, hlists.length_eq] at hnone
      omega
  | case4 step queue node degree rest hpop hdegree list hlist next hnext ih =>
      obtain ⟨hnode, hnew, hopen, _⟩ := h.pop hpop
      obtain ⟨next', hnext', hpending⟩ := h.pick hlists hpop
      rw [neighbors_eq hlist, hnext] at hnext'
      cases hnext'
      obtain ⟨domset, hdomset, hpicks⟩ := ih hpending
      refine ⟨node :: domset, by rw [hdomset]; rfl, ?_⟩
      exact .pick chosen node domset hnode hnew (by omega) (h.openDegree_le hpop) hpicks
  | case5 step queue node degree rest hpop hdegree list hlist error herror =>
      obtain ⟨next, hnext, _⟩ := h.pick hlists hpop
      rw [neighbors_eq hlist, herror] at hnext
      cases hnext
  | case6 step queue node degree rest hpop hdegree list hlist message hpanic =>
      obtain ⟨next, hnext, _⟩ := h.pick hlists hpop
      rw [neighbors_eq hlist, hpanic] at hnext
      cases hnext

end

/-- What has been picked in the end. -/
structure Picked (n : ℕ) (edges : List Edge) (domset : List ℕ) : Prop where
  greedy : GreedyPicks (openDegree edges) {v | v < n} [] domset
  nodup : domset.Nodup
  lt : ∀ v ∈ domset, v < n
  cover : ∀ e ∈ edges, e.u ∈ domset ∨ e.v ∈ domset
  incident : ∀ v ∈ domset, ∃ w, w ∈ otherEnds edges v

theorem openDegree_eq_zero_iff {chosen : List ℕ} {v : ℕ} :
    openDegree edges chosen v = 0 ↔ ∀ w ∈ otherEnds edges v, w ∈ chosen := by
  simp [openDegree]

theorem picked_of_greedyPicks {domset : List ℕ} (hrange : EdgesInRange n edges)
    (h : GreedyPicks (openDegree edges) {v | v < n} [] domset) : Picked n edges domset := by
  refine ⟨h, h.nodup List.nodup_nil, h.mem_candidates, ?_, ?_⟩
  · intro e he
    by_cases hu : e.u ∈ domset
    · exact Or.inl hu
    · have hzero := h.gain_eq_zero e.u (hrange e he).1 hu
      rw [openDegree_eq_zero_iff] at hzero
      exact Or.inr (hzero e.v (mem_otherEnds.mpr (Or.inl he)))
  · intro v hv
    obtain ⟨before, hgain⟩ := h.exists_gain v hv
    by_contra hnone
    have hzero : openDegree edges before v = 0 :=
      openDegree_eq_zero_iff.mpr fun w hw => (hnone ⟨w, hw⟩).elim
    omega

theorem greedy_eq {ties : ℕ → TieBreak ℕ} (hlists : IsNeighborLists n edges graph)
    (hrange : EdgesInRange n edges) (hn : n < U32_SIZE) (hedges : edges.length < U32_SIZE) :
    ∃ domset, greedy profile ties graph = .ok domset ∧ Picked n edges domset := by
  obtain ⟨domset, hdomset, hpicks⟩ := greedyLoop_spec hlists (pending_initial hlists hn hedges)
  exact ⟨domset, hdomset, picked_of_greedyPicks hrange hpicks⟩

end StrideRunner.Greedy
