import StrideRunner.Model.Pace.SolutionWriter
import StrideRunner.Verification.Decimal
import StrideRunner.Verification.Pace.Grammar

/-! # Solutions as texts and as vectors

A text that consists of the number of ids and the ids in their order is accepted if the ids are
distinct and in range. The writer gives such a text, and the conversion of a vector applies the same
bound without asking for distinct ids. -/

namespace StrideRunner.Pace

open StrideRunner Library InstanceWriter

/-- A text with the length of the vector and its entries, up to its layout. -/
structure IsVectorText (file : Bytes) (v : List ℕ) : Prop where
  utf8 : Utf8Lines file
  hasNumbers : HasNumbers file (v.length :: v)

theorem isNumberLine_decimal (n : ℕ) : IsNumberLine (encodeUtf8 (decimal n)) n := by
  refine ⟨decimal n, decodeUtf8_encodeUtf8 _, ?_⟩
  rw [trim_decimal]
  exact isDecimal_decimal n

theorem not_isSkippedRaw_decimal (n : ℕ) : isSkippedRaw (encodeUtf8 (decimal n)) = false := by
  have hne : decimal n ≠ [] := (isDecimal_decimal n).nonempty
  simp [isSkippedRaw, trim_decimal, SolutionReader.isSkipped, hne, head?_decimal_ne]

theorem hasNumbers_numberLines (values : List ℕ) :
    HasNumbers (encodeUtf8 (numberLines values)) values := by
  rw [HasNumbers, lines_encodeUtf8, lines_numberLines]
  induction values with
  | nil => exact .nil
  | cons value values ih =>
      rw [List.map_cons, List.map_cons, List.filter_cons, not_isSkippedRaw_decimal]
      exact .cons (isNumberLine_decimal value) ih

theorem isVectorText_numberLines (v : List ℕ) :
    IsVectorText (encodeUtf8 (numberLines (v.length :: v))) v := by
  refine ⟨?_, hasNumbers_numberLines _⟩
  intro raw hraw
  rw [lines_encodeUtf8] at hraw
  obtain ⟨text, _, rfl⟩ := List.mem_map.mp hraw
  simp

namespace Solution

variable {profile : BuildProfile} {file : Bytes} {nodesUpperBound : Option ℕ}

theorem length_le_of_nodup {nodes : List ℕ} {n : ℕ} (hnodup : nodes.Nodup)
    (h : ∀ node ∈ nodes, node < n) : nodes.length ≤ n := by
  have hsub : nodes ⊆ List.range n := fun node hnode => List.mem_range.mpr (h node hnode)
  have hlength := (List.subperm_of_subset hnodup hsub).length_le
  rwa [List.length_range] at hlength

/-- Reading a text with the ids of `nodes`: the number in front is right, so only repetitions and
the bound matter. -/
theorem read_vectorText_eq_ok_iff {nodes : List ℕ} {s : Solution}
    (htext : IsVectorText file (nodes.map (· + 1)))
    (hnodes : ∀ node ∈ nodes, node + 1 < U32_SIZE) :
    read file nodesUpperBound = .ok s ↔ nodes.Nodup ∧
      (∀ bound ∈ nodesUpperBound, ∀ node ∈ nodes, node < bound) ∧
      s = ⟨nodes.insertionSort (· ≤ ·)⟩ := by
  have hnumbers := htext.hasNumbers
  rw [List.length_map] at hnumbers
  rw [read_eq_ok_iff]
  constructor
  · intro h
    obtain ⟨nodes', hnodup, hs, hbound, _, hnumbers', _⟩ := h
    have hids := (List.cons.inj (hnumbers.unique hnumbers')).2
    have hsame : nodes = nodes' := Nat.succ_injective.list_map hids
    subst hsame
    exact ⟨hnodup, hbound, hs⟩
  · intro h
    obtain ⟨hnodup, hbound, hs⟩ := h
    refine ⟨nodes, hnodup, hs, hbound, htext.utf8, hnumbers, ?_⟩
    have hlength : nodes.length ≤ U32_SIZE - 1 :=
      length_le_of_nodup hnodup fun node hnode => Nat.lt_sub_of_add_lt (hnodes node hnode)
    rw [List.forall_mem_cons]
    constructor
    · exact Nat.lt_of_le_sub_one (by decide) hlength
    · intro id hid
      obtain ⟨node, hnode, rfl⟩ := List.mem_map.mp hid
      exact hnodes node hnode

theorem kind_of_read_vectorText {v : List ℕ} {error : IoError} (htext : IsVectorText file v)
    (h : read file nodesUpperBound = .error error) : error.kind = .invalidData := by
  rcases kind_of_read h with ⟨hitems, _⟩ | ⟨_, hkind⟩
  · exact (SolutionReader.items_ne_nil_of_hasNumbers htext.hasNumbers hitems).elim
  · exact hkind

/-- What `read` guarantees about the nodes. -/
theorem spec_of_read {s : Solution} (h : read file nodesUpperBound = .ok s) :
    s.solution.SortedLT ∧ (∀ node ∈ s.solution, node + 1 < U32_SIZE) ∧
      ∀ bound ∈ nodesUpperBound, ∀ node ∈ s.solution, node < bound := by
  obtain ⟨nodes, hnodup, rfl, hbound, _, _, hlt⟩ := read_eq_ok_iff.mp h
  refine ⟨sortedLT_insertionSort hnodup, ?_, ?_⟩
  · intro node hnode
    have hmem := (List.mem_insertionSort (· ≤ ·)).mp hnode
    exact hlt (node + 1) (List.mem_cons_of_mem _ (List.mem_map_of_mem hmem))
  · intro bound hb node hnode
    exact hbound bound hb node ((List.mem_insertionSort (· ≤ ·)).mp hnode)

/-! ## The writer -/

theorem writeNodes_eq {nodes : List ℕ} (h : ∀ node ∈ nodes, node + 1 < U32_SIZE)
    (written : List Char) :
    writeNodes profile nodes written =
      (.ok (), written ++ numberLines (nodes.map (· + 1))) := by
  induction nodes generalizing written with
  | nil => simp [writeNodes, numberLines]
  | cons node nodes ih =>
      obtain ⟨hnode, hnodes⟩ := List.forall_mem_cons.mp h
      have hadd : (u32Add profile node 1 : Outcome IoError ℕ) = .ok (node + 1) :=
        u32Add_of_lt profile hnode
      simp only [writeNodes, hadd]
      rw [ih hnodes, List.map_cons, numberLines_cons]
      simp

theorem write_eq {s : Solution} (hne : s.solution ≠ [])
    (h : ∀ node ∈ s.solution, node + 1 < U32_SIZE) :
    write profile s = (.ok (), numberLines
      ((s.solution.map (· + 1)).length :: s.solution.map (· + 1))) := by
  rw [write, if_neg hne, writeNodes_eq h, numberLines_cons, List.length_map]
  simp

/-- The writer and the reader are inverse to each other up to the order of the nodes. -/
structure Transcribes (profile : BuildProfile) : Prop where
  write_read : ∀ (n : ℕ) (s : Solution), s.solution ≠ [] →
    (∀ node ∈ s.solution, node < U32_SIZE - 1) →
    ∃ text, write profile s = (.ok (), text) ∧
      (s.solution.Nodup ∧ (∀ node ∈ s.solution, node < n) →
        read (encodeUtf8 text) (some n) = .ok ⟨s.solution.insertionSort (· ≤ ·)⟩) ∧
      (¬ (s.solution.Nodup ∧ ∀ node ∈ s.solution, node < n) →
        ∃ error, read (encodeUtf8 text) (some n) = .error error ∧ error.kind = .invalidData)
  read_write : ∀ (file : Bytes) (nodesUpperBound : Option ℕ) (s : Solution),
    read file nodesUpperBound = .ok s → s.solution ≠ [] →
    ∃ text, write profile s = (.ok (), text) ∧
      read (encodeUtf8 text) nodesUpperBound = .ok s

theorem transcribes (profile : BuildProfile) : Transcribes profile := by
  constructor
  · intro n s hne hlt
    have hids : ∀ node ∈ s.solution, node + 1 < U32_SIZE := fun node hnode =>
      Nat.add_lt_of_lt_sub (hlt node hnode)
    have htext := isVectorText_numberLines (s.solution.map (· + 1))
    refine ⟨_, write_eq hne hids, ?_, ?_⟩
    · intro h
      refine (read_vectorText_eq_ok_iff htext hids).mpr ⟨h.1, ?_, rfl⟩
      rintro bound ⟨⟩
      exact h.2
    · intro h
      cases hread : read (encodeUtf8 (numberLines
          ((s.solution.map (· + 1)).length :: s.solution.map (· + 1)))) (some n) with
      | error error => exact ⟨error, rfl, kind_of_read_vectorText htext hread⟩
      | ok t =>
          have hspec := (read_vectorText_eq_ok_iff htext hids).mp hread
          exact (h ⟨hspec.1, hspec.2.1 n rfl⟩).elim
  · intro file nodesUpperBound s hread hne
    obtain ⟨hsorted, hids, hbound⟩ := spec_of_read hread
    have htext := isVectorText_numberLines (s.solution.map (· + 1))
    refine ⟨_, write_eq hne hids, ?_⟩
    refine (read_vectorText_eq_ok_iff htext hids).mpr ⟨hsorted.nodup, hbound, ?_⟩
    rw [hsorted.sortedLE.pairwise.insertionSort_eq]

/-! ## Vectors of ids -/

theorem take1indexedSolution_eq {nodes : List ℕ} (h : ∀ node ∈ nodes, node + 1 < U32_SIZE) :
    take1indexedSolution profile ⟨nodes⟩ = .ok (nodes.map (· + 1)) := by
  rw [take1indexedSolution]
  induction nodes with
  | nil => rfl
  | cons node nodes ih =>
      obtain ⟨hnode, hnodes⟩ := List.forall_mem_cons.mp h
      have hadd : (u32Add profile node 1 : Outcome IoError ℕ) = .ok (node + 1) :=
        u32Add_of_lt profile hnode
      simp only [take1indexedSolution.go, hadd, ih hnodes, Outcome.ok_bind, Outcome.pure_eq,
        List.map_cons]

/-- The ids that both constructors admit. -/
def IdsInRange (nodesUpperBound : Option ℕ) (v : List ℕ) : Prop :=
  ∀ u ∈ v, u ≠ 0 ∧ ∀ n ∈ nodesUpperBound, u ≤ n

theorem idsInRange_map_succ_iff {nodes : List ℕ} :
    IdsInRange nodesUpperBound (nodes.map (· + 1)) ↔
      ∀ bound ∈ nodesUpperBound, ∀ node ∈ nodes, node < bound := by
  simp only [IdsInRange, List.forall_mem_map, Nat.succ_le_iff]
  grind

theorem outOfRange_iff {u : ℕ} :
    (u = 0 ∨ nodesUpperBound.any fun n => u > n) ↔
      ¬ (u ≠ 0 ∧ ∀ n ∈ nodesUpperBound, u ≤ n) := by
  cases nodesUpperBound with
  | none => simp
  | some n =>
      simp only [Option.any_some, gt_iff_lt, decide_eq_true_eq, Option.mem_some_iff, forall_eq']
      omega

theorem from1indexedVec_go_cons {u : ℕ} {v : List ℕ}
    (hu : u ≠ 0 ∧ ∀ n ∈ nodesUpperBound, u ≤ n) :
    from1indexedVec.go profile nodesUpperBound (u :: v) = (do
      let us ← from1indexedVec.go profile nodesUpperBound v
      return (u - 1) :: us) := by
  have hguard : ¬ (u = 0 ∨ nodesUpperBound.any fun n => u > n) := by
    rw [outOfRange_iff]
    exact not_not.mpr hu
  have hsub : (u32Sub profile u 1 : Outcome IoError ℕ) = .ok (u - 1) :=
    u32Sub_of_le profile (Nat.one_le_iff_ne_zero.mpr hu.1)
  rw [from1indexedVec.go, if_neg hguard, hsub, Outcome.ok_bind]

theorem from1indexedVec_of_inRange {v : List ℕ} (h : IdsInRange nodesUpperBound v) :
    from1indexedVec profile v nodesUpperBound = .ok ⟨v.map (· - 1)⟩ := by
  have hgo : from1indexedVec.go profile nodesUpperBound v = .ok (v.map (· - 1)) := by
    induction v with
    | nil => rfl
    | cons u v ih =>
        obtain ⟨hu, hv⟩ := List.forall_mem_cons.mp h
        rw [from1indexedVec_go_cons hu, ih hv, Outcome.ok_bind, Outcome.pure_eq, List.map_cons]
  rw [from1indexedVec, hgo, Outcome.ok_bind, Outcome.pure_eq]

theorem from1indexedVec_of_not_inRange {v : List ℕ} (h : ¬ IdsInRange nodesUpperBound v) :
    from1indexedVec profile v nodesUpperBound = .err (invalidData "Node id out of range") := by
  have hgo : from1indexedVec.go profile nodesUpperBound v =
      .err (invalidData "Node id out of range") := by
    induction v with
    | nil => exact (h (by simp [IdsInRange])).elim
    | cons u v ih =>
        by_cases hu : u ≠ 0 ∧ ∀ n ∈ nodesUpperBound, u ≤ n
        · have hv : ¬ IdsInRange nodesUpperBound v := fun hv =>
            h (List.forall_mem_cons.mpr ⟨hu, hv⟩)
          rw [from1indexedVec_go_cons hu, ih hv, Outcome.err_bind]
        · rw [from1indexedVec.go, if_pos (outOfRange_iff.mpr hu)]
  rw [from1indexedVec, hgo, Outcome.err_bind]

theorem from1indexedVec_eq_ok_iff {v : List ℕ} {t : Solution} :
    from1indexedVec profile v nodesUpperBound = .ok t ↔
      v = t.solution.map (· + 1) ∧ IdsInRange nodesUpperBound v := by
  by_cases h : IdsInRange nodesUpperBound v
  · obtain ⟨nodes, rfl⟩ := exists_map_succ fun u hu => Nat.one_le_iff_ne_zero.mpr (h u hu).1
    rw [from1indexedVec_of_inRange h]
    simp only [List.map_map, Function.comp_def, Nat.add_sub_cancel, List.map_id', h, and_true,
      Outcome.ok.injEq]
    constructor
    · rintro rfl
      rfl
    · intro hids
      rw [Nat.succ_injective.list_map hids]
  · rw [from1indexedVec_of_not_inRange h]
    simp [h]

/-- Reading the text of a vector is converting the vector and sorting the result. -/
theorem read_vectorText_iff_vector (profile : BuildProfile) {v : List ℕ} {s : Solution}
    (hv : ∀ u ∈ v, u < U32_SIZE) (htext : IsVectorText file v) :
    read file nodesUpperBound = .ok s ↔ v.Nodup ∧
      ∃ t, from1indexedVec profile v nodesUpperBound = .ok t ∧
        s = ⟨t.solution.insertionSort (· ≤ ·)⟩ := by
  constructor
  · intro hread
    obtain ⟨nodes, hnodup, hs, hbound, _, hnumbers, _⟩ := read_eq_ok_iff.mp hread
    have hids := (List.cons.inj (htext.hasNumbers.unique hnumbers)).2
    refine ⟨hids ▸ hnodup.map Nat.succ_injective, ⟨nodes⟩, ?_, hs⟩
    refine from1indexedVec_eq_ok_iff.mpr ⟨hids, ?_⟩
    rw [hids, idsInRange_map_succ_iff]
    exact hbound
  · intro h
    obtain ⟨hnodup, t, hvector, hs⟩ := h
    obtain ⟨rfl, hrange⟩ := from1indexedVec_eq_ok_iff.mp hvector
    rw [read_vectorText_eq_ok_iff htext (List.forall_mem_map.mp hv)]
    exact ⟨hnodup.of_map, idsInRange_map_succ_iff.mp hrange, hs⟩

/-- The two constructors admit the same ids, and only the text must be free of repetitions. -/
structure ConstructorsAgree (profile : BuildProfile) : Prop where
  vector_ok_iff : ∀ (v : List ℕ) (nodesUpperBound : Option ℕ), (∀ u ∈ v, u < U32_SIZE) →
    ((∃ t, from1indexedVec profile v nodesUpperBound = .ok t) ↔
      ∀ u ∈ v, ¬ (u = 0 ∨ ∃ n ∈ nodesUpperBound, n < u))
  vectorText : ∀ v : List ℕ, IsVectorText (encodeUtf8 (numberLines (v.length :: v))) v
  read_ok_iff : ∀ (file : Bytes) (v : List ℕ) (nodesUpperBound : Option ℕ),
    (∀ u ∈ v, u < U32_SIZE) → IsVectorText file v →
    ((∃ s, read file nodesUpperBound = .ok s) ↔
      (∃ t, from1indexedVec profile v nodesUpperBound = .ok t) ∧ v.Nodup)
  read_sorted : ∀ (file : Bytes) (v : List ℕ) (nodesUpperBound : Option ℕ) (s t : Solution),
    (∀ u ∈ v, u < U32_SIZE) → IsVectorText file v →
    read file nodesUpperBound = .ok s → from1indexedVec profile v nodesUpperBound = .ok t →
    s.solution = t.solution.insertionSort (· ≤ ·)
  take_vector : ∀ (v : List ℕ) (nodesUpperBound : Option ℕ) (t : Solution),
    (∀ u ∈ v, u < U32_SIZE) → from1indexedVec profile v nodesUpperBound = .ok t →
    take1indexedSolution profile t = .ok v
  vector_take : ∀ (file : Bytes) (nodesUpperBound : Option ℕ) (s : Solution),
    read file nodesUpperBound = .ok s → ∃ v, take1indexedSolution profile s = .ok v ∧
      from1indexedVec profile v none = .ok s ∧
      from1indexedVec profile v nodesUpperBound = .ok s

theorem constructorsAgree (profile : BuildProfile) : ConstructorsAgree profile where
  vector_ok_iff := by
    intro v nodesUpperBound _
    have hrange : IdsInRange nodesUpperBound v ↔
        ∀ u ∈ v, ¬ (u = 0 ∨ ∃ n ∈ nodesUpperBound, n < u) := by
      simp [IdsInRange]
    rw [← hrange]
    by_cases h : IdsInRange nodesUpperBound v
    · exact iff_of_true ⟨_, from1indexedVec_of_inRange h⟩ h
    · rw [from1indexedVec_of_not_inRange h]
      simp [h]
  vectorText := isVectorText_numberLines
  read_ok_iff := by
    intro file v nodesUpperBound hv htext
    simp only [read_vectorText_iff_vector profile hv htext]
    constructor
    · rintro ⟨s, hnodup, t, hvector, _⟩
      exact ⟨⟨t, hvector⟩, hnodup⟩
    · rintro ⟨⟨t, hvector⟩, hnodup⟩
      exact ⟨_, hnodup, t, hvector, rfl⟩
  read_sorted := by
    intro file v nodesUpperBound s t hv htext hread hvector
    obtain ⟨_, t', hvector', rfl⟩ := (read_vectorText_iff_vector profile hv htext).mp hread
    cases hvector.symm.trans hvector'
    rfl
  take_vector := by
    intro v nodesUpperBound t hv hvector
    obtain ⟨rfl, _⟩ := from1indexedVec_eq_ok_iff.mp hvector
    exact take1indexedSolution_eq (List.forall_mem_map.mp hv)
  vector_take := by
    intro file nodesUpperBound s hread
    obtain ⟨_, hids, hbound⟩ := spec_of_read hread
    refine ⟨s.solution.map (· + 1), take1indexedSolution_eq hids, ?_, ?_⟩
    · exact from1indexedVec_eq_ok_iff.mpr ⟨rfl, idsInRange_map_succ_iff.mpr (by simp)⟩
    · exact from1indexedVec_eq_ok_iff.mpr ⟨rfl, idsInRange_map_succ_iff.mpr hbound⟩

end Solution

end StrideRunner.Pace
