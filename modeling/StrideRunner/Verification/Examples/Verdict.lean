import StrideRunner.Verification.Examples.Greedy
import StrideRunner.Verification.Examples.Printing
import StrideRunner.Verification.Executor.Output

/-! # The runner's verdict on the example solver

The solver covers all edges, so its output is a dominating set of the instance unless some node is
isolated, an option spoils it, or an assertion ends it. -/

namespace StrideRunner.Greedy

open Pace Library

variable {profile : BuildProfile} {ties : ℕ → TieBreak ℕ} {opts : Opt} {n : ℕ}
  {edges : List Edge} {file : Bytes} {domset : List ℕ}

/-! ## The input -/

/-- The assertions of `read_graph` hold. -/
structure Accepted (profile : BuildProfile) (file : Bytes) (edges : List Edge) : Prop where
  loopless : ∀ e ∈ edges, e.u ≠ e.v
  counted : profile = .debug →
    ∀ reader, PaceReader.tryNew file = .ok reader → reader.numberOfEdges = edges.length

theorem readGraph_of_accepted (hinstance : WellFormedInstance profile file n edges)
    (hedges : edges.length < U32_SIZE) (h : Accepted profile file edges) :
    ∃ graph, readGraph profile file = .ok graph ∧ IsNeighborLists n edges graph := by
  obtain ⟨reader, hreader, hnodes, hcollect, _⟩ := hinstance.exists_reader
  obtain ⟨graph, hgraph, hlists⟩ :=
    readEdges_eq hcollect hinstance.inRange h.loopless (isNeighborLists_replicate n)
  rw [List.nil_append] at hlists
  have hcount : debugAssertCount profile graph reader.numberOfEdges = .ok () := by
    unfold debugAssertCount
    by_cases hprofile : profile = .debug
    · have hsize : 2 * U32_SIZE ≤ U64_SIZE := by decide
      have hm := h.counted hprofile reader hreader
      have hfits : ¬ U64_SIZE ≤ 2 * edges.length := by omega
      rw [if_pos hprofile, hm, if_neg hfits, hlists.sum_eq]
      simp
    · rw [if_neg hprofile]
  refine ⟨graph, ?_, hlists⟩
  simp only [readGraph, hreader, hnodes, hgraph, hcount, Outcome.ofExcept_ok, Outcome.ok_bind,
    Outcome.pure_eq]

theorem readGraph_of_not_accepted (hinstance : WellFormedInstance profile file n edges)
    (h : ¬ Accepted profile file edges) : ∃ message, readGraph profile file = .panic message := by
  obtain ⟨reader, hreader, hnodes, hcollect, _⟩ := hinstance.exists_reader
  by_cases hloop : ∃ e ∈ edges, e.u = e.v
  · have hpanic := readEdges_of_selfLoop hcollect hinstance.inRange
      (isNeighborLists_replicate n).length_eq hloop
    refine ⟨"assertion `left != right` failed", ?_⟩
    simp only [readGraph, hreader, hnodes, hpanic, Outcome.ofExcept_ok, Outcome.ok_bind,
      Outcome.panic_bind]
  · have hloopless : ∀ e ∈ edges, e.u ≠ e.v := fun e he heq => hloop ⟨e, he, heq⟩
    obtain ⟨graph, hgraph, hlists⟩ :=
      readEdges_eq hcollect hinstance.inRange hloopless (isNeighborLists_replicate n)
    have hcount : ∃ message, debugAssertCount profile graph reader.numberOfEdges =
        .panic message := by
      have hwrong : profile = .debug ∧ reader.numberOfEdges ≠ edges.length := by
        by_contra hright
        refine h ⟨hloopless, fun hprofile reader' hreader' => ?_⟩
        cases hreader.symm.trans hreader'
        exact not_not.mp fun hne => hright ⟨hprofile, hne⟩
      have hsum : (graph.map List.length).sum ≠ 2 * reader.numberOfEdges := by
        rw [hlists.sum_eq, List.nil_append]
        omega
      unfold debugAssertCount
      rw [if_pos hwrong.1, if_pos hsum]
      split
      · exact ⟨_, rfl⟩
      · exact ⟨_, rfl⟩
    obtain ⟨message, hcount⟩ := hcount
    refine ⟨message, ?_⟩
    simp only [readGraph, hreader, hnodes, hgraph, hcount, Outcome.ofExcept_ok, Outcome.ok_bind,
      Outcome.panic_bind]

/-! ## The output -/

/-- The nodes that are printed. -/
def printed (opts : Opt) (domset : List ℕ) : List ℕ :=
  if opts.infeasible then domset.take (domset.length / 2) else domset

theorem sublist_printed : (printed opts domset).Sublist domset := by
  unfold printed
  split
  · exact List.take_sublist ..
  · exact List.Sublist.refl _

theorem main_of_not_accepted (hinstance : WellFormedInstance profile file n edges)
    (h : ¬ Accepted profile file edges) : main profile ties opts file = ⟨[], some 101⟩ := by
  obtain ⟨message, hpanic⟩ := readGraph_of_not_accepted hinstance h
  simp only [main, hpanic, Outcome.panic_bind, exitCode]

/-- What is printed around the time of the signal. -/
def waiting (opts : Opt) : List Char :=
  if opts.waitSigterm then
    commentLine opts "c Waiting for SIGTERM" ++ commentLine opts "c Got SIGTERM"
  else []

theorem skipped_waiting (opts : Opt) : Skipped (waiting opts) := by
  unfold waiting
  split
  · exact (skipped_commentLine ⟨by decide, by decide⟩).append
      (skipped_commentLine ⟨by decide, by decide⟩)
  · exact skipped_nil

theorem main_eq (hdomset : readGraph profile file >>= greedy profile ties = .ok domset)
    (hends : opts.neverTerminate = false) : main profile ties opts file =
      ⟨waiting opts ++ (printResult profile opts (printed opts domset)).2,
        some (exitCode (printResult profile opts (printed opts domset)).1)⟩ := by
  simp only [main, hdomset, hends]
  rfl

/-- Unless it never ends, the process exits with 0 and prints the nodes under their number. -/
theorem main_of_accepted (hinstance : WellFormedInstance profile file n edges)
    (hedges : edges.length < U32_SIZE) (h : Accepted profile file edges) :
    ∃ domset, readGraph profile file >>= greedy profile ties = .ok domset ∧
      Picked n edges domset ∧
      (opts.neverTerminate = true → (main profile ties opts file).code = none) ∧
      (opts.neverTerminate = false → (main profile ties opts file).code = some 0 ∧
        HasNumbers (encodeUtf8 (main profile ties opts file).text)
          (((printed opts domset).length + opts.wrongCardinality.toNat) ::
            (printed opts domset).map (· + 1))) := by
  obtain ⟨_, _, _, _, hn⟩ := hinstance.exists_reader
  obtain ⟨graph, hgraph, hlists⟩ := readGraph_of_accepted hinstance hedges h
  obtain ⟨domset, hdomset, hpicked⟩ := greedy_eq hlists hinstance.inRange hn hedges
  have hall : readGraph profile file >>= greedy profile ties = .ok domset := by
    rw [hgraph, Outcome.ok_bind, hdomset]
  have hsmall : ∀ node ∈ printed opts domset, node + 1 < U32_SIZE := by
    intro node hnode
    have hlt := hpicked.lt node (sublist_printed.subset hnode)
    omega
  refine ⟨domset, hall, hpicked, ?_, ?_⟩
  · intro hnever
    simp only [main, hall, hnever, if_true]
  · intro hends
    rw [main_eq hall hends, printResult_eq profile opts hsmall, exitCode]
    refine ⟨rfl, ?_⟩
    have hnumbers := hasNumbers_printResult profile opts (skipped_waiting opts) hsmall
    rwa [printResult_eq profile opts hsmall] at hnumbers

/-! ## The verdict -/

theorem adj_instanceGraph_iff (hloopless : ∀ e ∈ edges, e.u ≠ e.v) {v w : ℕ} :
    (instanceGraph edges).Adj v w ↔ w ∈ otherEnds edges v := by
  rw [instanceGraph, SimpleGraph.fromRel_adj, mem_otherEnds, and_iff_right_iff_imp]
  rintro (hedge | hedge)
  · exact hloopless _ hedge
  · exact (hloopless _ hedge).symm

theorem not_isIsolated_iff (hloopless : ∀ e ∈ edges, e.u ≠ e.v) {v : ℕ} :
    ¬ (instanceGraph edges).IsIsolated v ↔ ∃ w, w ∈ otherEnds edges v := by
  rw [← SimpleGraph.exists_adj_iff_not_isIsolated]
  simp only [adj_instanceGraph_iff hloopless]

/-- The nodes that are picked dominate all nodes but the isolated ones. -/
theorem covers_iff_of_picked (hloopless : ∀ e ∈ edges, e.u ≠ e.v) (h : Picked n edges domset) :
    Covers n edges (domset.map (· + 1)) ↔ ∀ v < n, ∃ w, w ∈ otherEnds edges v := by
  have hcover : (instanceGraph edges).IsVertexCover {u | u + 1 ∈ domset.map (· + 1)} := by
    intro v w hadj
    rw [adj_instanceGraph_iff hloopless, mem_otherEnds] at hadj
    have hmem : ∀ u, u ∈ {u | u + 1 ∈ domset.map (· + 1)} ↔ u ∈ domset := by simp
    rw [hmem, hmem]
    rcases hadj with hedge | hedge
    · exact h.cover _ hedge
    · exact (h.cover _ hedge).symm
  have hincident : ∀ v ∈ {u | u + 1 ∈ domset.map (· + 1)}, ¬ (instanceGraph edges).IsIsolated v := by
    intro v hv
    rw [not_isIsolated_iff hloopless]
    exact h.incident v (by simpa using hv)
  rw [Covers, dominates_iff_of_isVertexCover hcover hincident]
  simp only [Finset.mem_coe, Finset.mem_range, not_isIsolated_iff hloopless]

/-- The process writes the text of `ending` in any pieces and exits in time with its code, or it
does not end in time because it never ends. -/
structure IsRun (ending : Ending) (run : SolverRun) : Prop where
  stdout : stdoutOf run.output = encodeUtf8 ending.text
  code : match ending.code with
    | some code => run.code = .beforeTimeout ⟨some code⟩ ∨ run.code = .withinGrace ⟨some code⟩
    | none => run.code = .timeout

/-- The verdict that the options and the picked nodes lead to. -/
def verdict (opts : Opt) (n : ℕ) (edges : List Edge) (domset : List ℕ) : SolverResult :=
  if opts.neverTerminate then .timeout
  else if opts.wrongCardinality then .syntaxError
  else if Covers n edges ((printed opts domset).map (· + 1)) then
    .valid (((printed opts domset).insertionSort (· ≤ ·)).map (· + 1))
  else .infeasible

section

variable {self : SolverExecutor} {fs : FileSystem} {out : Bytes} {nodes : List ℕ}

/-- The right number in front of distinct nodes leaves it to the check for domination. -/
theorem verifySolution_of_numbers (hinstance : WellFormedInstance profile file n edges)
    (hstdin : fs (self.filename PATH_STDIN) = some file)
    (hstdout : fs (self.filename PATH_STDOUT) = some out) (hutf8 : Utf8Lines out)
    (hnumbers : HasNumbers out (nodes.length :: nodes.map (· + 1))) (hnodup : nodes.Nodup)
    (hlt : ∀ node ∈ nodes, node < n) :
    self.verifySolution profile fs = .ok (if Covers n edges (nodes.map (· + 1)) then
      .valid ((nodes.insertionSort (· ≤ ·)).map (· + 1)) else .infeasible) := by
  obtain ⟨_, _, _, _, hn⟩ := hinstance.exists_reader
  have htext : IsSolutionText out n (nodes.map (· + 1)) := by
    refine ⟨by rwa [List.length_map], hnodup.map Nat.succ_injective, ?_⟩
    intro id hid
    obtain ⟨node, hnode, rfl⟩ := List.mem_map.mp hid
    have hbound := hlt node hnode
    omega
  have hread : Solution.read out (some n) = .ok ⟨nodes.insertionSort (· ≤ ·)⟩ :=
    (read_eq_ok_iff_isSolutionText hn).mpr ⟨hutf8, nodes, htext, rfl⟩
  obtain ⟨valid, hverdict, hcovers⟩ :=
    SolverExecutor.verifySolution_of_read_ok hinstance hstdin hstdout hread
  rw [hverdict]
  simp only [hcovers]

/-- A wrong number in front of the nodes. -/
theorem verifySolution_of_wrong_size {size : ℕ} (hinstance : WellFormedInstance profile file n edges)
    (hstdin : fs (self.filename PATH_STDIN) = some file)
    (hstdout : fs (self.filename PATH_STDOUT) = some out)
    (hnumbers : HasNumbers out (size :: nodes.map (· + 1))) (hsize : size ≠ nodes.length) :
    self.verifySolution profile fs = .ok .syntaxError := by
  obtain ⟨_, _, _, _, hn⟩ := hinstance.exists_reader
  cases hread : Solution.read out (some n) with
  | ok solution =>
      obtain ⟨_, nodes', htext, _⟩ := (read_eq_ok_iff_isSolutionText hn).mp hread
      obtain ⟨hlength, hids⟩ := List.cons.inj (hnumbers.unique htext.hasNumbers)
      have hsame : (nodes.map (· + 1)).length = (nodes'.map (· + 1)).length :=
        congrArg List.length hids
      rw [← hsame, List.length_map] at hlength
      exact (hsize hlength).elim
  | error error =>
      rw [SolverExecutor.verifySolution_of_read_error hinstance hstdin hstdout hread,
        if_neg (SolutionReader.items_ne_nil_of_hasNumbers hnumbers)]

/-- The result of `run` on the example solver, for any choice among the nodes of largest degree. -/
structure RunSpec (profile : BuildProfile) (ties : ℕ → TieBreak ℕ) (opts : Opt) (n : ℕ)
    (edges : List Edge) (file : Bytes) (code : ChildExitCode)
    (result : Outcome ExecutorError SolverResult) : Prop where
  accepted : Accepted profile file edges → ∃ domset,
    readGraph profile file >>= greedy profile ties = .ok domset ∧ Picked n edges domset ∧
      result = .ok (verdict opts n edges domset) ∧
      (Covers n edges (domset.map (· + 1)) ↔ ∀ v < n, ∃ w, w ∈ otherEnds edges v)
  refused : ¬ Accepted profile file edges → main profile ties opts file = ⟨[], some 101⟩ ∧
    result = .ok (if code = .withinGrace ⟨some 101⟩ then .timeout else .syntaxError)

theorem judge_of_code {ending : Ending} {run : SolverRun} (hrun : IsRun ending run)
    (hcode : ending.code = some 0) :
    self.judge profile run.code fs = self.verifySolution profile fs := by
  have hend := hrun.code
  rw [hcode] at hend
  rcases hend with hend | hend
  · rw [hend]
    rfl
  · rw [hend]
    rfl

/-- The example solver fails on an instance in its assertions only. It picks a vertex cover greedily,
and what it prints is valid unless a node is isolated or an option spoils it. -/
theorem greedy_run {solver : Bytes → SolverRun} {base : FileSystem}
    (hinstance : WellFormedInstance profile self.stdin n edges) (hedges : edges.length < U32_SIZE)
    (hrun : IsRun (main profile ties opts self.stdin) (solver self.stdin)) :
    RunSpec profile ties opts n edges self.stdin (solver self.stdin).code
      (self.run profile solver base).1 := by
  rw [SolverExecutor.run_eq]
  generalize hfiles : self.written (solver self.stdin).output base = files
  have hstdin : files (self.filename PATH_STDIN) = some self.stdin := by
    rw [← hfiles]
    exact SolverExecutor.written_stdin _
  have hstdout : files (self.filename PATH_STDOUT) =
      some (encodeUtf8 (main profile ties opts self.stdin).text) := by
    rw [← hfiles, SolverExecutor.written_stdout, hrun.stdout]
  refine ⟨?_, ?_⟩
  · intro haccepted
    obtain ⟨domset, hdomset, hpicked, hnever, hends⟩ :=
      @main_of_accepted profile ties opts n edges self.stdin hinstance hedges haccepted
    refine ⟨domset, hdomset, hpicked, ?_, covers_iff_of_picked haccepted.loopless hpicked⟩
    unfold verdict
    cases hoption : opts.neverTerminate with
    | true =>
        have hcode := hrun.code
        rw [hnever hoption] at hcode
        rw [hcode]
        rfl
    | false =>
        obtain ⟨hcode, hnumbers⟩ := hends hoption
        rw [judge_of_code hrun hcode]
        cases hwrong : opts.wrongCardinality with
        | true =>
            have hsize : (printed opts domset).length + opts.wrongCardinality.toNat ≠
                (printed opts domset).length := by simp [hwrong]
            rw [verifySolution_of_wrong_size hinstance hstdin hstdout hnumbers hsize]
            rfl
        | false =>
            rw [hwrong] at hnumbers
            rw [verifySolution_of_numbers hinstance hstdin hstdout (utf8Lines_encodeUtf8 _) hnumbers
              (sublist_printed.nodup hpicked.nodup)
              fun node hnode => hpicked.lt node (sublist_printed.subset hnode)]
            rfl
  · intro hrefused
    have hmain := @main_of_not_accepted profile ties opts n edges self.stdin hinstance hrefused
    have hcode := hrun.code
    rw [hmain] at hcode
    refine ⟨hmain, ?_⟩
    rcases hcode with hcode | hcode
    · rw [hcode]
      rfl
    · rw [hcode]
      rfl

end

/-- The text in one piece, well before the timeout. -/
def runOf (ending : Ending) : SolverRun :=
  ⟨[(.stdout, encodeUtf8 ending.text)],
    ending.code.elim .timeout fun code => .beforeTimeout ⟨some code⟩⟩

theorem isRun_runOf (ending : Ending) : IsRun ending (runOf ending) := by
  refine ⟨by simp [runOf, stdoutOf], ?_⟩
  cases hcode : ending.code with
  | none => simp [runOf, hcode]
  | some code => simp [runOf, hcode]

def triangleExecutor : SolverExecutor := ⟨["log"], ⟨7⟩, "p ds 3 3\n1 2\n1 3\n2 3\n".toList⟩

/-- `--infeasible` drops a half of the nodes that are picked. -/
def halfOpt : Opt := ⟨true, false, true, false, false, true⟩

def triangleSolver (stdin : Bytes) : SolverRun :=
  runOf (main .debug (fun _ => .first) halfOpt stdin)

theorem greedy_run_triangle :
    RunSpec .debug (fun _ => .first) halfOpt 3 [⟨0, 1⟩, ⟨0, 2⟩, ⟨1, 2⟩] triangleExecutor.stdin
      (triangleSolver triangleExecutor.stdin).code
      (triangleExecutor.run .debug triangleSolver fun _ => none).1 := by
  have hinstance : WellFormedInstance .debug triangleExecutor.stdin 3
      [⟨0, 1⟩, ⟨0, 2⟩, ⟨1, 2⟩] := ⟨by decide +kernel, by decide⟩
  have hrun : IsRun (main .debug (fun _ => .first) halfOpt triangleExecutor.stdin)
      (triangleSolver triangleExecutor.stdin) := isRun_runOf _
  exact greedy_run hinstance (by decide) hrun

/-- The half that is left may still dominate. -/
example : (triangleExecutor.run .debug triangleSolver fun _ => none).1 = .ok (.valid [1]) := by
  decide +kernel

end StrideRunner.Greedy
