import StrideRunner.Model.Commands.Import
import StrideRunner.Verification.Executor.Verdict

/-! # Two certifications of a solution

The import command counts the nodes by the metadata, and the verifier of a run by the header of
the instance. They agree as far as the two counts do. -/

namespace StrideRunner

open Pace Library

namespace Import

variable {profile : BuildProfile} {info : InstanceRow} {text : List Char} {file : Bytes}

/-- The command gets this record, this instance and this solution. -/
structure Delivers (effects : ImportEffects) (info : InstanceRow) (text : List Char)
    (file : Bytes) : Prop where
  fetchInstance : effects.fetchInstance = .ok info
  openSolution : effects.openSolution = .ok file
  fetchData : effects.fetchData info.dataDid = .ok text

/-- The solution is read and dominates the graph on as many nodes as the record says. -/
def AcceptedFor (profile : BuildProfile) (nodes : ℕ) (text : List Char) (file : Bytes) : Prop :=
  ∃ reader edges ids, PaceReader.tryNew (encodeUtf8 text) = .ok reader ∧
    reader.collectEdges profile = .ok edges ∧ Utf8Lines file ∧ IsSolutionText file nodes ids ∧
    EdgesInRange nodes edges ∧ Covers nodes edges ids

/-- What a feasible import promises about the run that gave the solution. -/
structure ImportSpec (profile : BuildProfile) (info : InstanceRow) (text : List Char)
    (file : Bytes) (events : List ImportEvent) : Prop where
  count_eq : ∀ reader, PaceReader.tryNew (encodeUtf8 text) = .ok reader →
    reader.numberOfNodes = info.nodes.toNat
  verified : ∃ data, (∀ (executor : SolverExecutor) (fs : FileSystem),
      fs (executor.filename PATH_STDIN) = some (encodeUtf8 text) →
      fs (executor.filename PATH_STDOUT) = some file →
      executor.verifySolution profile fs = .ok (.valid data)) ∧
    (∀ iid cardinality, .feasible iid cardinality ∈ events → cardinality = data.length) ∧
    ∀ uploaded, .upload uploaded ∈ events → uploaded = data

/-- Whenever the command calls the solution feasible, the verifier agrees. -/
def Certifies (profile : BuildProfile) (info : InstanceRow) (text : List Char) (file : Bytes) :
    Prop :=
  ∀ effects iid cardinality, Delivers effects info text file →
    .feasible iid cardinality ∈ (commandImportSolution profile effects iid).2 →
    ImportSpec profile info text file (commandImportSolution profile effects iid).2

theorem plain_eq_ok {α : Type} {result : Outcome AnyhowError α} {value : α} :
    plain result = .ok value ↔ result = .ok value := by
  cases result <;> simp [plain, Outcome.mapErr]

theorem withContext_eq_ok {α : Type} {context : String} {result : Outcome IoError α} {value : α} :
    withContext context result = .ok value ↔ result = .ok value := by
  cases result <;> simp [withContext, Outcome.mapErr]

theorem ofExcept_eq_ok {ε α : Type} {result : Except ε α} {value : α} :
    Outcome.ofExcept result = .ok value ↔ result = .ok value := by
  cases result <;> simp

/-- What the checks of the command amount to. -/
structure Checked (profile : BuildProfile) (info : InstanceRow) (text : List Char) (file : Bytes)
    (solution : Solution) (reader : PaceReader) (edges : List Edge) : Prop where
  read : Solution.read file (some info.nodes.toNat) = .ok solution
  reader_eq : PaceReader.tryNew (encodeUtf8 text) = .ok reader
  edges_eq : reader.collectEdges profile = .ok edges
  valid : solution.validDomsetForInstance info.nodes.toNat edges = .ok true

theorem Delivers.unique {effects : ImportEffects} {info' : InstanceRow} {text' : List Char}
    {file' : Bytes} (h : Delivers effects info text file)
    (h' : Delivers effects info' text' file') : info' = info ∧ text' = text ∧ file' = file := by
  cases h.fetchInstance.symm.trans h'.fetchInstance
  cases h.openSolution.symm.trans h'.openSolution
  cases h.fetchData.symm.trans h'.fetchData
  exact ⟨rfl, rfl, rfl⟩

theorem exists_checked_of_checkSolution {effects : ImportEffects} {iid : IId}
    {solution : Solution} (h : checkSolution profile effects iid = .ok (info, solution)) :
    ∃ text file reader edges, Delivers effects info text file ∧
      Checked profile info text file solution reader edges := by
  unfold checkSolution at h
  simp only [Outcome.bind_eq_ok, plain_eq_ok, withContext_eq_ok, ofExcept_eq_ok] at h
  obtain ⟨_, _, found, hfetch, _, _, out, hopen, s, hread, _, _, data, hdata, reader, hreader,
    edges, hedges, valid, hvalid, h⟩ := h
  cases valid with
  | false => simp at h
  | true =>
      cases h
      exact ⟨data, out, reader, edges, ⟨hfetch, hopen, hdata⟩, hread, hreader, hedges, hvalid⟩

theorem checked_of_checkSolution {effects : ImportEffects} {iid : IId} {info' : InstanceRow}
    {solution : Solution} (hdelivers : Delivers effects info text file)
    (h : checkSolution profile effects iid = .ok (info', solution)) :
    info' = info ∧ ∃ reader edges, Checked profile info text file solution reader edges := by
  obtain ⟨_, _, reader, edges, hdelivers', hchecked⟩ := exists_checked_of_checkSolution h
  obtain ⟨rfl, rfl, rfl⟩ := hdelivers.unique hdelivers'
  exact ⟨rfl, reader, edges, hchecked⟩

theorem checkSolution_of_checked {effects : ImportEffects} {iid : IId} {solution : Solution}
    {reader : PaceReader} {edges : List Edge} (hdelivers : Delivers effects info text file)
    (hmeta : effects.openMetaDb = .ok ()) (hserver : effects.serverConn = .ok ())
    (hdb : effects.openInstanceDb = .ok ())
    (h : Checked profile info text file solution reader edges) :
    checkSolution profile effects iid = .ok (info, solution) := by
  simp [checkSolution, plain, withContext, Outcome.mapErr, hmeta, hserver, hdb,
    hdelivers.fetchInstance, hdelivers.openSolution, hdelivers.fetchData, h.read, h.reader_eq,
    h.edges_eq, h.valid]

/-- The nodes of a solution that has been read stay below the bound. -/
theorem lt_of_read {n : ℕ} {solution : Solution}
    (h : Solution.read file (some n) = .ok solution) : ∀ node ∈ solution.solution, node < n :=
  (Solution.spec_of_read h).2.2 n rfl

theorem acceptedFor_iff : AcceptedFor profile info.nodes.toNat text file ↔
    ∃ solution reader edges, Checked profile info text file solution reader edges := by
  have hn : info.nodes.toNat < U32_SIZE := info.nodes.toNat_lt
  constructor
  · rintro ⟨reader, edges, ids, hreader, hedges, hutf8, htext, hrange, hcovers⟩
    obtain ⟨nodes, rfl⟩ := exists_map_succ fun id hid => (htext.inRange id hid).1
    have hread := (read_eq_ok_iff_isSolutionText hn).mpr ⟨hutf8, nodes, htext, rfl⟩
    obtain ⟨valid, hvalid, hiff⟩ := Solution.validDomsetForInstance_spec hrange (lt_of_read hread)
    rw [← covers_map_succ_iff] at hiff
    cases hiff.mpr hcovers
    exact ⟨_, reader, edges, hread, hreader, hedges, hvalid⟩
  · rintro ⟨solution, reader, edges, hread, hreader, hedges, hvalid⟩
    have hlt := lt_of_read hread
    obtain ⟨hutf8, nodes, htext, rfl⟩ := (read_eq_ok_iff_isSolutionText hn).mp hread
    have hrange : EdgesInRange info.nodes.toNat edges := by
      by_contra hnot
      obtain ⟨message, herr⟩ := Solution.validDomsetForInstance_of_not_inRange fun h => hnot h.1
      cases herr.symm.trans hvalid
    obtain ⟨valid, hvalid', hiff⟩ := Solution.validDomsetForInstance_spec hrange hlt
    cases hvalid.symm.trans hvalid'
    rw [← covers_map_succ_iff] at hiff
    exact ⟨reader, edges, nodes.map (· + 1), hreader, hedges, hutf8, htext, hrange, hiff.mp rfl⟩

/-- With the same number of nodes the verifier makes the same checks. -/
theorem verifySolution_of_checked {executor : SolverExecutor} {fs : FileSystem}
    {solution : Solution} {reader : PaceReader} {edges : List Edge} {data : List ℕ}
    (h : Checked profile info text file solution reader edges)
    (hcount : reader.numberOfNodes = info.nodes.toNat)
    (hdata : solution.take1indexedSolution profile = .ok data)
    (hstdin : fs (executor.filename PATH_STDIN) = some (encodeUtf8 text))
    (hstdout : fs (executor.filename PATH_STDOUT) = some file) :
    executor.verifySolution profile fs = .ok (.valid data) := by
  simp [SolverExecutor.verifySolution, FileSystem.read, hstdin, hstdout, h.reader_eq, h.edges_eq,
    hcount, h.read, h.valid, hdata]

theorem upload_eq_of_mem {effects : ImportEffects} {solution : Solution} {data uploaded : List ℕ}
    (hdata : solution.take1indexedSolution profile = .ok data)
    (h : .upload uploaded ∈ (uploadSolution profile effects info solution).2) :
    uploaded = data := by
  unfold uploadSolution at h
  rw [hdata] at h
  split at h
  · cases hbest : info.bestScore <;> simp [hbest] at h
  · dsimp only at h
    split at h <;> simpa using h

theorem feasible_notMem_uploadSolution {effects : ImportEffects} {solution : Solution} {iid : IId}
    {cardinality : ℕ} :
    .feasible iid cardinality ∉ (uploadSolution profile effects info solution).2 := by
  unfold uploadSolution
  split
  · split <;> simp
  · split
    · simp
    · simp
    · split <;> simp

/-- The two certifications agree exactly if no solution is accepted for another number of nodes
than that of the header. -/
theorem certifies_iff (profile : BuildProfile) (info : InstanceRow) (text : List Char)
    (file : Bytes) : Certifies profile info text file ↔
      (AcceptedFor profile info.nodes.toNat text file → ∀ reader,
        PaceReader.tryNew (encodeUtf8 text) = .ok reader →
        reader.numberOfNodes = info.nodes.toNat) := by
  constructor
  · intro hcertifies haccepted reader hreader
    obtain ⟨solution, reader', edges, hchecked⟩ := acceptedFor_iff.mp haccepted
    -- nothing else fails
    have hdelivers : Delivers ⟨.ok (), .ok info, .ok (), .ok file, .ok (), fun _ => .ok text,
        fun _ => .ok ()⟩ info text file := ⟨rfl, rfl, rfl⟩
    apply (hcertifies _ info.iid solution.solution.length hdelivers ?_).count_eq reader hreader
    simp [commandImportSolution, checkSolution_of_checked hdelivers rfl rfl rfl hchecked]
  · intro hcount effects iid cardinality hdelivers hfeasible
    cases hcheck : checkSolution profile effects iid with
    | err error => simp [commandImportSolution, hcheck] at hfeasible
    | panic message => simp [commandImportSolution, hcheck] at hfeasible
    | ok checked =>
        obtain ⟨info', solution⟩ := checked
        obtain ⟨rfl, reader, edges, hchecked⟩ := checked_of_checkSolution hdelivers hcheck
        have hcount := hcount (acceptedFor_iff.mpr ⟨solution, reader, edges, hchecked⟩)
        have hdata : solution.take1indexedSolution profile = .ok (solution.solution.map (· + 1)) :=
          Solution.take1indexedSolution_eq (Solution.spec_of_read hchecked.read).2.1
        refine ⟨hcount, solution.solution.map (· + 1), ?_, ?_, ?_⟩
        · intro executor fs hstdin hstdout
          exact verifySolution_of_checked hchecked (hcount reader hchecked.reader_eq) hdata hstdin
            hstdout
        · intro iid' cardinality' hmem
          simp only [commandImportSolution, hcheck] at hmem
          rcases List.mem_cons.mp hmem with heq | hmem
          · cases heq
            simp
          · exact (feasible_notMem_uploadSolution hmem).elim
        · intro uploaded hmem
          simp only [commandImportSolution, hcheck] at hmem
          rcases List.mem_cons.mp hmem with heq | hmem
          · cases heq
          · exact upload_eq_of_mem hdata hmem

/-- The header has three nodes, and the record has two. -/
def threeNodes : List Char := ['p', ' ', 'd', 's', ' ', '3', ' ', '1', '\n', '1', ' ', '2', '\n']

def twoNodeRecord : InstanceRow := ⟨⟨⟨1⟩, ⟨1⟩, none⟩, 2⟩

/-- The solution `{1}` leaves the third node uncovered. -/
def firstNode : Bytes := [49, 10, 49, 10]

theorem commandImportSolution_twoNodeRecord :
    commandImportSolution .release ⟨.ok (), .ok twoNodeRecord, .ok (), .ok firstNode, .ok (),
        fun _ => .ok threeNodes, fun _ => .ok ()⟩ ⟨1⟩ =
      (.ok (), [.feasible ⟨1⟩ 1, .upload [1], .uploadComplete]) ∧
    SolverExecutor.pathExecutor.verifySolution .release
        (SolverExecutor.pathExecutor.filesOf (encodeUtf8 threeNodes) firstNode) =
      .ok .infeasible := by
  constructor
  · decide +kernel
  · decide +kernel

end Import

end StrideRunner
