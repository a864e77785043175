import StrideRunner.Model.Utils.SolverExecutor
import StrideRunner.Verification.Pace.Domset
import StrideRunner.Verification.Pace.Tokens
import StrideRunner.Verification.Pace.Transcription

/-! # The verdict on a solver's output

For a well-formed instance the verifier always returns, and its verdict is determined by the
grammar of the output and by domination in the instance graph. -/

namespace StrideRunner

open Pace Library

/-! ## Instances -/

/-- The number of nodes and the edges of an instance file that is read to its end. -/
def readInstance (profile : BuildProfile) (file : Bytes) : Outcome IoError (ℕ × List Edge) := do
  let reader ← Outcome.ofExcept (PaceReader.tryNew file)
  let edges ← reader.collectEdges profile
  return (reader.numberOfNodes, edges)

/-- The file is readable, and the edges, counted from 0, stay below the number of nodes. -/
structure WellFormedInstance (profile : BuildProfile) (file : Bytes) (n : ℕ)
    (edges : List Edge) : Prop where
  read_eq : readInstance profile file = .ok (n, edges)
  inRange : EdgesInRange n edges

theorem WellFormedInstance.exists_reader {profile : BuildProfile} {file : Bytes} {n : ℕ}
    {edges : List Edge} (h : WellFormedInstance profile file n edges) :
    ∃ reader, PaceReader.tryNew file = .ok reader ∧ reader.numberOfNodes = n ∧
      reader.collectEdges profile = .ok edges ∧ n < U32_SIZE := by
  have hread := h.read_eq
  unfold readInstance at hread
  cases hreader : PaceReader.tryNew file with
  | error error => simp [hreader] at hread
  | ok reader =>
      cases hedges : reader.collectEdges profile with
      | err error => simp [hreader, hedges] at hread
      | panic message => simp [hreader, hedges] at hread
      | ok collected =>
          simp only [hreader, hedges, Outcome.ofExcept_ok, Outcome.ok_bind, Outcome.pure_eq,
            Outcome.ok.injEq, Prod.mk.injEq] at hread
          obtain ⟨rfl, rfl⟩ := hread
          exact ⟨reader, rfl, rfl, hedges, PaceReader.numberOfNodes_lt hreader⟩

/-! ## Outputs -/

/-- After the comments, `k` and then `k` pairwise distinct ids between 1 and `n`. -/
structure IsSolutionText (file : Bytes) (n : ℕ) (ids : List ℕ) : Prop where
  hasNumbers : HasNumbers file (ids.length :: ids)
  nodup : ids.Nodup
  inRange : ∀ id ∈ ids, 1 ≤ id ∧ id ≤ n

/-- The closed neighbourhoods of the nodes with these ids cover all `n` nodes. -/
def Covers (n : ℕ) (edges : List Edge) (ids : List ℕ) : Prop :=
  Dominates (instanceGraph edges) {u | u + 1 ∈ ids} (Finset.range n : Set ℕ)

theorem covers_iff {n : ℕ} {edges : List Edge} {ids : List ℕ} :
    Covers n edges ids ↔ ∀ w < n, ∃ id ∈ ids, 1 ≤ id ∧
      (w + 1 = id ∨ (⟨id - 1, w⟩ : Edge) ∈ edges ∨ (⟨w, id - 1⟩ : Edge) ∈ edges) := by
  simp only [Covers, Dominates, Set.subset_def, Finset.mem_coe, Finset.mem_range,
    Set.mem_iUnion, mem_closedNeighborSet_instanceGraph, Set.mem_ofPred_eq]
  apply forall₂_congr
  intro w _
  constructor
  · rintro ⟨u, hu, hclosed⟩
    refine ⟨u + 1, hu, Nat.succ_pos u, ?_⟩
    simpa using hclosed
  · rintro ⟨id, hid, hpos, hclosed⟩
    refine ⟨id - 1, by rwa [Nat.sub_add_cancel hpos], ?_⟩
    rcases hclosed with rfl | hedge
    · simp
    · exact Or.inr hedge

instance (n : ℕ) (edges : List Edge) (ids : List ℕ) : Decidable (Covers n edges ids) :=
  decidable_of_iff _ covers_iff.symm

instance (n : ℕ) (edges : List Edge) : Decidable (EdgesInRange n edges) :=
  inferInstanceAs (Decidable (∀ e ∈ edges, _))

theorem IsSolutionText.unique {file : Bytes} {n : ℕ} {ids ids' : List ℕ}
    (h : IsSolutionText file n ids) (h' : IsSolutionText file n ids') : ids = ids' :=
  (List.cons.inj (h.hasNumbers.unique h'.hasNumbers)).2

/-- Ids count the nodes from 1. -/
theorem IsSolutionText.lt_of_mem {file : Bytes} {n : ℕ} {nodes : List ℕ}
    (h : IsSolutionText file n (nodes.map (· + 1))) : ∀ node ∈ nodes, node < n := by
  intro node hnode
  have hle := h.inRange (node + 1) (List.mem_map_of_mem hnode)
  omega

theorem covers_map_succ_iff {n : ℕ} {edges : List Edge} {nodes : List ℕ} :
    Covers n edges (nodes.map (· + 1)) ↔ Dominates (instanceGraph edges)
      {u | u ∈ nodes.insertionSort (· ≤ ·)} (Finset.range n : Set ℕ) := by
  have hset : {u | u + 1 ∈ nodes.map (· + 1)} = {u | u ∈ nodes.insertionSort (· ≤ ·)} := by
    ext u
    simp
  rw [Covers, hset]

/-- `Solution::read` accepts exactly the solution texts whose lines are all UTF-8. -/
theorem read_eq_ok_iff_isSolutionText {file : Bytes} {n : ℕ} {s : Solution}
    (hn : n < U32_SIZE) :
    Solution.read file (some n) = .ok s ↔
      Utf8Lines file ∧ ∃ nodes : List ℕ, IsSolutionText file n (nodes.map (· + 1)) ∧
        s = ⟨nodes.insertionSort (· ≤ ·)⟩ := by
  have hinj : Function.Injective fun node : ℕ => node + 1 := Nat.succ_injective
  rw [Solution.read_eq_ok_iff]
  constructor
  · rintro ⟨nodes, hnodup, hs, hbound, hutf8, hnumbers, _⟩
    refine ⟨hutf8, nodes, ⟨?_, hnodup.map hinj, ?_⟩, hs⟩
    · rwa [List.length_map]
    · intro id hid
      obtain ⟨node, hnode, rfl⟩ := List.mem_map.mp hid
      have hlt := hbound n rfl node hnode
      omega
  · rintro ⟨hutf8, nodes, htext, hs⟩
    have hbound := htext.lt_of_mem
    have hids : ∀ node ∈ nodes, node + 1 < U32_SIZE := fun node hnode =>
      (Nat.succ_le_of_lt (hbound node hnode)).trans_lt hn
    rw [← Solution.read_eq_ok_iff,
      Solution.read_vectorText_eq_ok_iff ⟨hutf8, htext.hasNumbers⟩ hids]
    refine ⟨htext.nodup.of_map, ?_, hs⟩
    rintro bound ⟨⟩
    exact hbound

/-! ## Verdicts -/

/-- The verdict that an output deserves for the instance with `n` nodes and these edges. -/
structure IsVerdict (n : ℕ) (edges : List Edge) (out : Bytes) (verdict : SolverResult) :
    Prop where
  valid_iff : ∀ data, verdict = .valid data ↔
    Utf8Lines out ∧ ∃ ids, IsSolutionText out n ids ∧ Covers n edges ids ∧
      data.SortedLT ∧ ∀ id, id ∈ data ↔ id ∈ ids
  infeasible_iff : verdict = .infeasible ↔
    Utf8Lines out ∧ ∃ ids, IsSolutionText out n ids ∧ ¬ Covers n edges ids
  otherwise : (∀ data, verdict ≠ .valid data) → verdict ≠ .infeasible →
    verdict = .syntaxError ∨ verdict = .incompleteOutput

/-- Rejected texts deserve either of the two remaining verdicts. -/
theorem isVerdict_of_not_solutionText {n : ℕ} {edges : List Edge} {out : Bytes}
    {verdict : SolverResult} (h : ¬ (Utf8Lines out ∧ ∃ ids, IsSolutionText out n ids))
    (hverdict : verdict = .syntaxError ∨ verdict = .incompleteOutput) :
    IsVerdict n edges out verdict := by
  refine ⟨?_, ?_, fun _ _ => hverdict⟩
  · intro data
    apply iff_of_false
    · rintro rfl
      simp at hverdict
    · rintro ⟨hutf8, ids, htext, _⟩
      exact h ⟨hutf8, ids, htext⟩
  · apply iff_of_false
    · rintro rfl
      simp at hverdict
    · rintro ⟨hutf8, ids, htext, _⟩
      exact h ⟨hutf8, ids, htext⟩

theorem isVerdict_valid {n : ℕ} {edges : List Edge} {out : Bytes} {ids data : List ℕ}
    (hutf8 : Utf8Lines out) (htext : IsSolutionText out n ids) (hcovers : Covers n edges ids)
    (hsorted : data.SortedLT) (hdata : ∀ id, id ∈ data ↔ id ∈ ids) :
    IsVerdict n edges out (.valid data) := by
  refine ⟨?_, ?_, fun hnot => (hnot data rfl).elim⟩
  · intro data'
    constructor
    · rintro ⟨⟩
      exact ⟨hutf8, ids, htext, hcovers, hsorted, hdata⟩
    · rintro ⟨_, ids', htext', _, hsorted', hdata'⟩
      cases htext.unique htext'
      congr 1
      exact hsorted.eq_of_mem_iff hsorted' fun id => (hdata id).trans (hdata' id).symm
  · apply iff_of_false (by simp)
    rintro ⟨_, ids', htext', hnot⟩
    exact hnot (htext.unique htext' ▸ hcovers)

theorem isVerdict_infeasible {n : ℕ} {edges : List Edge} {out : Bytes} {ids : List ℕ}
    (hutf8 : Utf8Lines out) (htext : IsSolutionText out n ids) (hnot : ¬ Covers n edges ids) :
    IsVerdict n edges out .infeasible := by
  refine ⟨?_, ?_, fun _ h => (h rfl).elim⟩
  · intro data
    apply iff_of_false (by simp)
    rintro ⟨_, ids', htext', hcovers, _⟩
    exact hnot (htext.unique htext' ▸ hcovers)
  · simp only [true_iff]
    exact ⟨hutf8, ids, htext, hnot⟩

namespace SolverExecutor

variable {profile : BuildProfile} {self : SolverExecutor} {fs : FileSystem} {file out : Bytes}
  {n : ℕ} {edges : List Edge}

/-- A rejected output is never an `Err` of the verifier. -/
theorem verifySolution_of_read_error {error : IoError}
    (hinstance : WellFormedInstance profile file n edges)
    (hstdin : fs (self.filename PATH_STDIN) = some file)
    (hstdout : fs (self.filename PATH_STDOUT) = some out)
    (hread : Solution.read out (some n) = .error error) :
    self.verifySolution profile fs =
      .ok (if SolutionReader.items (bufReadLines out) = [] then .incompleteOutput
        else .syntaxError) := by
  obtain ⟨reader, hreader, rfl, hedges, _⟩ := hinstance.exists_reader
  simp only [verifySolution, FileSystem.read, hstdin, hstdout, hreader, hedges, hread,
    Outcome.ofExcept_ok, Outcome.ok_bind, Outcome.pure_eq]
  rcases Solution.kind_of_read hread with ⟨hitems, hkind⟩ | ⟨hitems, hkind⟩
  · simp [hitems, hkind]
  · simp [hitems, hkind]

/-- An accepted output is checked for domination without `Err` or panic. -/
theorem verifySolution_of_read_ok {nodes : List ℕ}
    (hinstance : WellFormedInstance profile file n edges)
    (hstdin : fs (self.filename PATH_STDIN) = some file)
    (hstdout : fs (self.filename PATH_STDOUT) = some out)
    (hread : Solution.read out (some n) = .ok ⟨nodes.insertionSort (· ≤ ·)⟩) :
    ∃ valid : Bool, self.verifySolution profile fs =
        .ok (if valid then .valid ((nodes.insertionSort (· ≤ ·)).map (· + 1)) else .infeasible) ∧
      (valid = true ↔ Covers n edges (nodes.map (· + 1))) := by
  obtain ⟨reader, hreader, hnodesOf, hedges, _⟩ := hinstance.exists_reader
  obtain ⟨_, hids, hbound⟩ := Solution.spec_of_read hread
  obtain ⟨valid, hvalid, hiff⟩ :=
    Solution.validDomsetForInstance_spec hinstance.inRange (hbound n rfl)
  have htake : Solution.take1indexedSolution profile ⟨nodes.insertionSort (· ≤ ·)⟩ = _ :=
    Solution.take1indexedSolution_eq hids
  refine ⟨valid, ?_, hiff.trans covers_map_succ_iff.symm⟩
  simp only [verifySolution, FileSystem.read, hstdin, hstdout, hreader, hnodesOf, hedges,
    hread, hvalid, Outcome.ofExcept_ok, Outcome.ok_bind, Outcome.pure_eq]
  cases valid with
  | true => simp [htake]
  | false => simp

/-- On a well-formed instance, every output receives the verdict it deserves. -/
theorem verifySolution_isVerdict (hinstance : WellFormedInstance profile file n edges)
    (hstdin : fs (self.filename PATH_STDIN) = some file)
    (hstdout : fs (self.filename PATH_STDOUT) = some out) :
    ∃ verdict, self.verifySolution profile fs = .ok verdict ∧ IsVerdict n edges out verdict ∧
      ∀ data, verdict = .valid data →
        data.length ≤ n ∧ verdict.score = some data.length := by
  obtain ⟨_, _, _, _, hn⟩ := hinstance.exists_reader
  cases hread : Solution.read out (some n) with
  | error error =>
      refine ⟨_, verifySolution_of_read_error hinstance hstdin hstdout hread, ?_, ?_⟩
      · refine isVerdict_of_not_solutionText ?_ (by split <;> simp)
        rintro ⟨hutf8, ids, htext⟩
        obtain ⟨nodes, rfl⟩ := exists_map_succ fun id hid => (htext.inRange id hid).1
        have hok := (read_eq_ok_iff_isSolutionText hn).mpr ⟨hutf8, nodes, htext, rfl⟩
        cases hread.symm.trans hok
      · split <;> simp
  | ok s =>
      obtain ⟨hutf8, nodes, htext, rfl⟩ := (read_eq_ok_iff_isSolutionText hn).mp hread
      obtain ⟨valid, hverdict, hcovers⟩ :=
        verifySolution_of_read_ok hinstance hstdin hstdout hread
      refine ⟨_, hverdict, ?_⟩
      cases valid with
      | false =>
          refine ⟨isVerdict_infeasible hutf8 htext ?_, by simp⟩
          rw [← hcovers]
          simp
      | true =>
          have hlength := Solution.length_le_of_nodup htext.nodup.of_map htext.lt_of_mem
          refine ⟨isVerdict_valid hutf8 htext (hcovers.mp rfl) ?_ (by simp), ?_⟩
          · have hlt := (sortedLT_insertionSort htext.nodup.of_map).pairwise
            exact (hlt.map (· + 1) fun _ _ => Nat.succ_lt_succ).sortedLT
          · rintro data ⟨⟩
            have hlt : nodes.length < U32_SIZE := by omega
            refine ⟨by simpa using hlength, ?_⟩
            simp [SolverResult.score, Nat.mod_eq_of_lt hlt]

/-! ## Concrete files -/

/-- A directory that holds the two files the verifier reads. -/
def filesOf (self : SolverExecutor) (file out : Bytes) : FileSystem :=
  FileSystem.write (FileSystem.write (fun _ => none) (self.filename PATH_STDIN) file)
    (self.filename PATH_STDOUT) out

def pathExecutor : SolverExecutor := ⟨["log"], ⟨7⟩, []⟩

def pathInstance : Bytes := encodeUtf8 "c three nodes\np ds 3 2\n1 2\n2 3\n".toList

theorem wellFormedInstance_path (profile : BuildProfile) :
    WellFormedInstance profile pathInstance 3 [⟨0, 1⟩, ⟨1, 2⟩] := by
  cases profile with
  | debug => exact ⟨by decide +kernel, by decide⟩
  | release => exact ⟨by decide +kernel, by decide⟩

theorem verifySolution_isVerdict_path :
    ∃ verdict, pathExecutor.verifySolution .debug (pathExecutor.filesOf pathInstance
        (encodeUtf8 "c size\n 2\n\n3\n1\n".toList)) = .ok verdict ∧
      IsVerdict 3 [⟨0, 1⟩, ⟨1, 2⟩] (encodeUtf8 "c size\n 2\n\n3\n1\n".toList) verdict ∧
      ∀ data, verdict = .valid data → data.length ≤ 3 ∧ verdict.score = some data.length :=
  verifySolution_isVerdict (wellFormedInstance_path .debug) (by decide +kernel)
    (by decide +kernel)

/-- The verifier reads comments as text as well: a byte that is not UTF-8 in a comment rejects
an output that otherwise is a dominating set. -/
theorem verifySolution_comment_not_utf8 :
    WellFormedInstance .release pathInstance 3 [⟨0, 1⟩, ⟨1, 2⟩] ∧
      IsSolutionText [99, 32, 255, 10, 49, 10, 50, 10] 3 [2] ∧
      Covers 3 [⟨0, 1⟩, ⟨1, 2⟩] [2] ∧
      pathExecutor.verifySolution .release (pathExecutor.filesOf pathInstance
        [99, 32, 255, 10, 49, 10, 50, 10]) = .ok .syntaxError := by
  refine ⟨wellFormedInstance_path .release, ⟨?_, ?_, ?_⟩, ?_, ?_⟩
  · decide +kernel
  · decide
  · decide
  · decide
  · decide +kernel

end SolverExecutor

end StrideRunner
