import StrideRunner.Verification.Decimal
import StrideRunner.Verification.Pace.Domset
import StrideRunner.Verification.Pace.Layout
import Mathlib.Order.Bounds.Basic
import Mathlib.Data.Finset.Prod

/-! # Writing and reading instances

What the writer produces is a layout of the shifted edges, so the reader gets them back. -/

namespace StrideRunner.Pace

open StrideRunner Library InstanceWriter

def endpoints (edges : List Edge) : Set ℕ :=
  {node | ∃ edge ∈ edges, node = edge.u ∨ node = edge.v}

/-- The edge with `lo` subtracted from both endpoints. -/
def shift (lo : ℕ) (edge : Edge) : Edge := ⟨edge.u - lo, edge.v - lo⟩

theorem endpoints_congr {edges edges' : List Edge} (h : ∀ edge, edge ∈ edges' ↔ edge ∈ edges) :
    endpoints edges' = endpoints edges := by
  simp only [endpoints, h]

theorem minNode_eq {edges : List Edge} {lo : ℕ} (hlo : IsLeast (endpoints edges) lo) :
    minNode edges = lo := by
  have hmin : (edges.map fun edge => min edge.u edge.v).min? = some lo := by
    rw [List.min?_eq_some_iff]
    constructor
    · obtain ⟨edge, hedge, hend⟩ := hlo.1
      have hu := hlo.2 ⟨edge, hedge, Or.inl rfl⟩
      have hv := hlo.2 ⟨edge, hedge, Or.inr rfl⟩
      exact List.mem_map.mpr ⟨edge, hedge, by omega⟩
    · intro node hnode
      obtain ⟨edge, hedge, rfl⟩ := List.mem_map.mp hnode
      exact le_min (hlo.2 ⟨edge, hedge, Or.inl rfl⟩) (hlo.2 ⟨edge, hedge, Or.inr rfl⟩)
  rw [minNode, hmin, Option.getD_some]

theorem maxNode_eq {edges : List Edge} {hi : ℕ} (hhi : IsGreatest (endpoints edges) hi) :
    maxNode edges = hi := by
  have hmax : (edges.map fun edge => max edge.u edge.v).max? = some hi := by
    rw [List.max?_eq_some_iff]
    constructor
    · obtain ⟨edge, hedge, hend⟩ := hhi.1
      have hu := hhi.2 ⟨edge, hedge, Or.inl rfl⟩
      have hv := hhi.2 ⟨edge, hedge, Or.inr rfl⟩
      exact List.mem_map.mpr ⟨edge, hedge, by omega⟩
    · intro node hnode
      obtain ⟨edge, hedge, rfl⟩ := List.mem_map.mp hnode
      exact max_le (hhi.2 ⟨edge, hedge, Or.inl rfl⟩) (hhi.2 ⟨edge, hedge, Or.inr rfl⟩)
  rw [maxNode, hmax, Option.getD_some]

/-! ## The text -/

def bodyText (lo : ℕ) (edges : List Edge) : List Char :=
  edges.flatMap fun edge =>
    decimal (edge.u - lo + 1) ++ ' ' :: decimal (edge.v - lo + 1) ++ ['\n']

/-- All endpoints lie between `lo` and `hi`, and their number fits `u32`. -/
def EdgesBetween (lo hi : ℕ) (edges : List Edge) : Prop :=
  ∀ edge ∈ edges, (lo ≤ edge.u ∧ edge.u ≤ hi) ∧ lo ≤ edge.v ∧ edge.v ≤ hi

theorem writeEdges_eq (profile : BuildProfile) {lo hi : ℕ} (hfits : hi - lo + 1 < U32_SIZE)
    {edges : List Edge} (hedges : EdgesBetween lo hi edges) (written : List Char) :
    writeEdges profile lo edges written = (.ok (), written ++ bodyText lo edges) := by
  induction edges generalizing written with
  | nil => simp [writeEdges, bodyText]
  | cons edge edges ih =>
      obtain ⟨⟨⟨hu, hu'⟩, hv, hv'⟩, hrest⟩ := List.forall_mem_cons.mp hedges
      have hadd : ∀ node, lo ≤ node → node ≤ hi →
          (u32Add profile (node - lo) 1 : Outcome IoError ℕ) = .ok (node - lo + 1) := by
        intro node hle hge
        exact u32Add_of_lt profile (by omega)
      have hline : edgeLine profile lo edge =
          .ok (decimal (edge.u - lo + 1) ++ ' ' :: decimal (edge.v - lo + 1) ++ ['\n']) := by
        simp only [edgeLine, u32Sub_of_le profile hu, u32Sub_of_le profile hv, hadd _ hu hu',
          hadd _ hv hv', Outcome.ok_bind, Outcome.pure_eq]
      simp only [writeEdges, hline, ih hrest, bodyText, List.flatMap_cons, List.append_assoc]

theorem spells_decimals (a b : ℕ) :
    Spells ' ' [decimal a, decimal b] (decimal a ++ ' ' :: decimal b) := by
  have hword : ∀ n, decimal n ≠ [] ∧ ' ' ∉ decimal n := fun n =>
    ⟨(isDecimal_decimal n).nonempty, (isDecimal_decimal n).notMem rfl⟩
  exact .cons (hword a).1 (hword a).2 (.singleton (hword b).1 (hword b).2)

theorem isBody_bodyText (lo : ℕ) (edges : List Edge) :
    IsBody (edges.map fun edge => ⟨edge.u - lo + 1, edge.v - lo + 1⟩) (bodyText lo edges) := by
  induction edges with
  | nil => exact .done
  | cons edge edges ih =>
      have hline : IsEdgeLine ⟨edge.u - lo + 1, edge.v - lo + 1⟩
          (decimal (edge.u - lo + 1) ++ ' ' :: decimal (edge.v - lo + 1)) :=
        ⟨_, _, isDecimal_decimal _, isDecimal_decimal _, spells_decimals _ _⟩
      have hbody := IsBody.edge hline (.lf _) ih
      simpa [bodyText] using hbody

theorem isInstanceText_written {problemId : List Char} (hid : problemId ≠ [])
    (hspace : ' ' ∉ problemId) (n m lo : ℕ) (edges : List Edge) :
    IsInstanceText problemId n m (edges.map fun edge => ⟨edge.u - lo + 1, edge.v - lo + 1⟩)
      (headerLine problemId n m ++ bodyText lo edges) := by
  have hspells : Spells ' ' [['p'], problemId, decimal n, decimal m]
      (['p'] ++ ' ' :: (problemId ++ ' ' :: (decimal n ++ ' ' :: decimal m))) :=
    .cons (by decide) (by decide) (.cons hid hspace (spells_decimals n m))
  have hheader : IsHeaderLine problemId n m _ :=
    ⟨_, _, isDecimal_decimal n, isDecimal_decimal m, hspells⟩
  have htext := IsInstanceText.header hheader (.lf _) (isBody_bodyText lo edges)
  simpa [headerLine] using htext

/-! ## The round trip -/

/-- Nodes below `n` make up at most `n * n` different edges. -/
theorem length_le_of_inRange {n : ℕ} {edges : List Edge} (hnodup : edges.Nodup)
    (hrange : EdgesInRange n edges) : edges.length ≤ n * n := by
  have hinj : Set.InjOn (fun edge : Edge => (edge.u, edge.v)) edges.toFinset := by
    rintro ⟨u, v⟩ _ ⟨u', v'⟩ _ h
    cases h
    rfl
  have hmaps : ∀ edge ∈ edges.toFinset,
      (edge.u, edge.v) ∈ Finset.range n ×ˢ Finset.range n := by
    intro edge hedge
    have h := hrange edge (List.mem_toFinset.mp hedge)
    simpa using h
  have hcard := Finset.card_le_card_of_injOn _ hmaps hinj
  rwa [List.toFinset_card_of_nodup hnodup, Finset.card_product, Finset.card_range] at hcard

theorem sortedLT_map_shift {lo : ℕ} {edges : List Edge} (hsorted : edges.SortedLT)
    (hlo : ∀ edge ∈ edges, lo ≤ edge.u ∧ lo ≤ edge.v) : (edges.map (shift lo)).SortedLT := by
  have hlt : (edges.map (shift lo)).Pairwise (· < ·) := by
    rw [List.pairwise_map]
    apply hsorted.pairwise.imp_of_mem
    intro e f he hf h
    have he := hlo e he
    have hf := hlo f hf
    rw [edge_lt_iff] at h ⊢
    simp only [shift]
    omega
  exact hlt.sortedLT

/-- What writing `edges`, with endpoints from `lo` to `hi`, and reading the text back gives:
`found` are the edges of the reader. -/
structure RoundTripSpec (profile : BuildProfile) (problemId : List Char) (edges : List Edge)
    (lo hi : ℕ) (text : List Char) (found : List Edge) : Prop where
  written : paceWriter profile problemId edges = (.ok (hi - lo + 1, found.length), text)
  read_back : ∃ reader, PaceReader.tryNew (encodeUtf8 text) = .ok reader ∧
    reader.problemId = problemId ∧ reader.numberOfNodes = hi - lo + 1 ∧
    reader.numberOfEdges = found.length ∧
    ∀ profile, reader.items profile = .ok (found.map .ok)
  sorted : found.SortedLT
  mem_iff : ∀ edge, edge ∈ found ↔ ∃ original ∈ edges, shift lo original = edge
  inRange : EdgesInRange (hi - lo + 1) found
  first_node : 0 ∈ endpoints found
  last_node : hi - lo ∈ endpoints found
  canonical : ∀ edges', (∀ edge, edge ∈ edges' ↔ edge ∈ edges) →
    (paceWriter profile problemId edges').2 = text
  stable : (paceWriter profile problemId found).2 = text

theorem isLeast_sortDedup {edges : List Edge} {lo : ℕ} (h : IsLeast (endpoints edges) lo) :
    IsLeast (endpoints (sortDedup edges)) lo := by
  rwa [endpoints_congr fun _ => mem_sortDedup]

theorem isGreatest_sortDedup {edges : List Edge} {hi : ℕ}
    (h : IsGreatest (endpoints edges) hi) : IsGreatest (endpoints (sortDedup edges)) hi := by
  rwa [endpoints_congr fun _ => mem_sortDedup]

theorem edgesBetween {edges : List Edge} {lo hi : ℕ} (hlo : IsLeast (endpoints edges) lo)
    (hhi : IsGreatest (endpoints edges) hi) : EdgesBetween lo hi edges := by
  intro edge hedge
  exact ⟨⟨hlo.2 ⟨edge, hedge, Or.inl rfl⟩, hhi.2 ⟨edge, hedge, Or.inl rfl⟩⟩,
    hlo.2 ⟨edge, hedge, Or.inr rfl⟩, hhi.2 ⟨edge, hedge, Or.inr rfl⟩⟩

/-- The written text as a function of the sorted edges. -/
theorem paceWriter_eq (profile : BuildProfile) (problemId : List Char) {edges : List Edge}
    {lo hi : ℕ} (hlo : IsLeast (endpoints edges) lo) (hhi : IsGreatest (endpoints edges) hi)
    (hfits : hi - lo + 1 < U32_SIZE) :
    paceWriter profile problemId edges =
      (.ok (hi - lo + 1, (sortDedup edges).length),
        headerLine problemId (hi - lo + 1) (sortDedup edges).length ++
          bodyText lo (sortDedup edges)) := by
  have hne : edges ≠ [] := by
    rintro rfl
    obtain ⟨_, h, _⟩ := hlo.1
    cases h
  have hle : lo ≤ hi := hlo.2 hhi.1
  have hadd : (u32Add profile (hi - lo) 1 : Outcome IoError ℕ) = .ok (hi - lo + 1) :=
    u32Add_of_lt profile hfits
  simp only [paceWriter, hne, if_false, minNode_eq (isLeast_sortDedup hlo),
    maxNode_eq (isGreatest_sortDedup hhi), u32Sub_of_le profile hle, Outcome.ok_bind, hadd,
    writeEdges_eq profile hfits (edgesBetween (isLeast_sortDedup hlo) (isGreatest_sortDedup hhi))]

/-- The sorted edges, moved so that the smallest endpoint becomes 0. -/
theorem isLeast_shifted {edges : List Edge} {lo : ℕ} (hlo : IsLeast (endpoints edges) lo) :
    IsLeast (endpoints (edges.map (shift lo))) 0 := by
  refine ⟨?_, fun _ _ => Nat.zero_le _⟩
  obtain ⟨edge, hedge, hend⟩ := hlo.1
  refine ⟨shift lo edge, List.mem_map_of_mem hedge, ?_⟩
  simp only [shift]
  omega

theorem isGreatest_shifted {edges : List Edge} {lo hi : ℕ}
    (hhi : IsGreatest (endpoints edges) hi) :
    IsGreatest (endpoints (edges.map (shift lo))) (hi - lo) := by
  constructor
  · obtain ⟨edge, hedge, hend⟩ := hhi.1
    refine ⟨shift lo edge, List.mem_map_of_mem hedge, ?_⟩
    simp only [shift]
    omega
  · rintro node ⟨found, hfound, hend⟩
    obtain ⟨edge, hedge, rfl⟩ := List.mem_map.mp hfound
    have hu := hhi.2 ⟨edge, hedge, Or.inl rfl⟩
    have hv := hhi.2 ⟨edge, hedge, Or.inr rfl⟩
    simp only [shift] at hend
    omega

theorem inRange_shifted {edges : List Edge} {lo hi : ℕ} (hedges : EdgesBetween lo hi edges) :
    EdgesInRange (hi - lo + 1) (edges.map (shift lo)) := by
  intro found hfound
  obtain ⟨edge, hedge, rfl⟩ := List.mem_map.mp hfound
  have h := hedges edge hedge
  simp only [shift]
  omega

theorem bodyText_shifted (lo : ℕ) (edges : List Edge) :
    bodyText 0 (edges.map (shift lo)) = bodyText lo edges := by
  simp only [bodyText, List.flatMap_map, shift, Nat.sub_zero]

/-- The writer's text is a layout of the shifted edges, which the reader decodes. -/
theorem decode_written {problemId : List Char} (hid : problemId ≠ []) (hspace : ' ' ∉ problemId)
    (hlf : '\n' ∉ problemId) {lo hi : ℕ} {edges : List Edge} (hsorted : edges.SortedLT)
    (hedges : EdgesBetween lo hi edges) (hfits : hi - lo + 1 < U32_SIZE) :
    ∃ reader, PaceReader.tryNew (encodeUtf8
        (headerLine problemId (hi - lo + 1) edges.length ++ bodyText lo edges)) = .ok reader ∧
      reader.problemId = problemId ∧ reader.numberOfNodes = hi - lo + 1 ∧
      reader.numberOfEdges = edges.length ∧
      ∀ profile, reader.items profile = .ok ((edges.map (shift lo)).map .ok) := by
  have hlength : edges.length < U64_SIZE := by
    have hnodup : (edges.map (shift lo)).Nodup :=
      (sortedLT_map_shift hsorted fun e he => ⟨(hedges e he).1.1, (hedges e he).2.1⟩).nodup
    have hle := length_le_of_inRange hnodup (inRange_shifted hedges)
    rw [List.length_map] at hle
    calc edges.length ≤ (hi - lo + 1) * (hi - lo + 1) := hle
      _ ≤ (U32_SIZE - 1) * (U32_SIZE - 1) := by gcongr <;> omega
      _ < U64_SIZE := by decide
  have hrange : ∀ edge ∈ edges.map fun edge => (⟨edge.u - lo + 1, edge.v - lo + 1⟩ : Edge),
      PaceReader.IdsInRange (hi - lo + 1) edge := by
    intro edge hedge
    obtain ⟨original, horiginal, rfl⟩ := List.mem_map.mp hedge
    have h := hedges original horiginal
    constructor <;> constructor <;> dsimp only <;> omega
  obtain ⟨rest, hbody, hnew⟩ := PaceReader.tryNew_of_isInstanceText hlf hfits hlength
    (isInstanceText_written hid hspace (hi - lo + 1) edges.length lo edges)
  refine ⟨_, hnew, rfl, rfl, rfl, ?_⟩
  intro profile
  rw [PaceReader.items_of_isBody profile hfits hrange hbody, List.map_map, List.map_map]
  rfl

/-- Writing any edges and reading the text back gives the edges in their normal form. -/
theorem paceWriter_roundTrip {problemId : List Char} {edges : List Edge} {lo hi : ℕ}
    (hid : problemId ≠ []) (hspace : ' ' ∉ problemId) (hlf : '\n' ∉ problemId)
    (hlo : IsLeast (endpoints edges) lo) (hhi : IsGreatest (endpoints edges) hi)
    (hfits : hi - lo + 1 < U32_SIZE) (profile : BuildProfile) :
    ∃ text found, RoundTripSpec profile problemId edges lo hi text found := by
  have hsorted := sortedLT_sortDedup edges
  have hleast := isLeast_sortDedup hlo
  have hgreatest := isGreatest_sortDedup hhi
  have hedges := edgesBetween hleast hgreatest
  have hshifted : ((sortDedup edges).map (shift lo)).SortedLT :=
    sortedLT_map_shift hsorted fun e he => ⟨(hedges e he).1.1, (hedges e he).2.1⟩
  refine ⟨headerLine problemId (hi - lo + 1) (sortDedup edges).length ++
    bodyText lo (sortDedup edges), (sortDedup edges).map (shift lo), ?_⟩
  constructor
  · rw [List.length_map]
    exact paceWriter_eq profile problemId hlo hhi hfits
  · rw [List.length_map]
    exact decode_written hid hspace hlf hsorted hedges hfits
  · exact hshifted
  · simp
  · exact inRange_shifted hedges
  · exact (isLeast_shifted hleast).1
  · exact (isGreatest_shifted hgreatest).1
  · intro edges' hmem
    rw [← endpoints_congr hmem] at hlo hhi
    rw [paceWriter_eq profile problemId hlo hhi hfits, sortDedup_congr hmem]
  · rw [paceWriter_eq profile problemId (isLeast_shifted hleast) (isGreatest_shifted hgreatest)
      (by simpa using hfits), sortDedup_of_sortedLT hshifted, bodyText_shifted, List.length_map,
      Nat.sub_zero]

theorem paceWriter_roundTrip_path :
    ∃ text found, RoundTripSpec .debug ['d', 's'] [⟨3, 2⟩, ⟨2, 1⟩, ⟨3, 2⟩] 1 3 text found := by
  refine paceWriter_roundTrip (by decide) (by decide) (by decide) ⟨?_, ?_⟩ ⟨?_, ?_⟩ (by decide)
    .debug
  · exact ⟨⟨2, 1⟩, by decide, Or.inr rfl⟩
  · rintro node ⟨edge, hedge, hend⟩
    simp only [List.mem_cons, List.not_mem_nil, or_false] at hedge
    rcases hedge with rfl | rfl | rfl <;> simp only at hend <;> omega
  · exact ⟨⟨3, 2⟩, by decide, Or.inl rfl⟩
  · rintro node ⟨edge, hedge, hend⟩
    simp only [List.mem_cons, List.not_mem_nil, or_false] at hedge
    rcases hedge with rfl | rfl | rfl <;> simp only at hend <;> omega

/-- With an empty problem id the header has three words only, and is rejected. -/
theorem paceWriter_emptyProblemId :
    paceWriter .debug [] [⟨0, 1⟩] =
        (.ok (2, 1), ['p', ' ', ' ', '2', ' ', '1', '\n', '1', ' ', '2', '\n']) ∧
      ∃ error, PaceReader.tryNew (encodeUtf8
        ['p', ' ', ' ', '2', ' ', '1', '\n', '1', ' ', '2', '\n']) = .error error := by
  refine ⟨by decide +kernel, ?_⟩
  exact ⟨⟨.invalidData, "Premature end of line when parsing Header>Number of edges."⟩,
    by decide +kernel⟩

end StrideRunner.Pace
