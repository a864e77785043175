import StrideRunner.Library.Splitting
import StrideRunner.Model.Commands.Run.Job
import StrideRunner.Verification.Lines
import StrideRunner.Verification.Pace.Items
import StrideRunner.Verification.Pace.Tokens

/-! # Stripping comments

A job may remove the comments of an instance before the solver sees it. The text is split and
joined again, which can cost a line a carriage return; the instance stays the same. -/

namespace StrideRunner.Pace

open StrideRunner Library

/-- What a line becomes when the text is joined and split once more. -/
def Reread (line read : List Char) : Prop :=
  read = line ∨ line = read ++ ['\r']

theorem Reread.head?_ne {line read : List Char} (h : Reread line read) {c : Char}
    (hc : line.head? ≠ some c) : read.head? ≠ some c := by
  rcases h with rfl | rfl
  · exact hc
  · cases read with
    | nil => simp
    | cons d read => exact hc

/-- Induction on the kept lines; each but the last is followed by a line feed. -/
theorem lines_joined {kept : List (List Char)} (hkept : ∀ line ∈ kept, line ≠ [] ∧ '\n' ∉ line) :
    List.Forall₂ Reread kept (lines '\r' '\n' (kept.intersperse ['\n']).flatten) := by
  induction kept with
  | nil => exact .nil
  | cons line kept ih =>
      obtain ⟨⟨hne, hlf⟩, hrest⟩ := List.forall_mem_cons.mp hkept
      cases kept with
      | nil =>
          have hread : lines '\r' '\n' line = [line] := lines_of_notMem hne hlf
          rw [List.intersperse_singleton, List.flatten_singleton, hread]
          exact .cons (Or.inl rfl) .nil
      | cons next kept =>
          have hread : lines '\r' '\n' (line ++ '\n' :: ((next :: kept).intersperse ['\n']).flatten)
              = _ := lines_append_lf hlf _
          rw [List.intersperse_cons_cons, List.flatten_cons, List.flatten_cons,
            List.singleton_append, hread]
          exact .cons (chop_eq_or line) (ih hrest)

/-! ## The tokens of a line without its carriage return -/

theorem cr_notMem_of_isUnsigned {token : List Char} {value : ℕ} (h : IsUnsigned token value) :
    '\r' ∉ token := by
  rcases h with h | ⟨digits, rfl, h⟩
  · exact h.notMem rfl
  · simp [h.notMem]

namespace PaceReader

/-- The carriage return is behind the two ids of an edge, in a token that is ignored. -/
theorem HasEndpoints.of_append_cr {read : List Char} {edge : Edge}
    (h : HasEndpoints (read ++ ['\r']) edge) : HasEndpoints read edge := by
  obtain ⟨source, target, rest, hparts, hsource, hu, htarget, hv⟩ := h
  obtain ⟨ws, w, hconcat, hread⟩ := tokens_concat (by decide : '\r' ≠ ' ') read
  have heq : ws ++ [w ++ ['\r']] = source :: target :: rest := hconcat.symm.trans hparts
  have hmem : '\r' ∈ w ++ ['\r'] := by simp
  cases ws with
  | nil =>
      obtain ⟨rfl, _⟩ := List.cons.inj heq
      exact (cr_notMem_of_isUnsigned hsource hmem).elim
  | cons first ws =>
      obtain ⟨rfl, htail⟩ := List.cons.inj heq
      cases ws with
      | nil =>
          obtain ⟨rfl, _⟩ := List.cons.inj htail
          exact (cr_notMem_of_isUnsigned htarget hmem).elim
      | cons second ws =>
          obtain ⟨rfl, _⟩ := List.cons.inj htail
          rcases hread with hread | hread
          · exact ⟨first, second, ws, hread, hsource, hu, htarget, hv⟩
          · exact ⟨first, second, ws ++ [w], hread, hsource, hu, htarget, hv⟩

/-- The last token of a header is a number, so the line does not end in a carriage return. -/
theorem not_hasHeader_append_cr {read problemId : List Char} {n m : ℕ} :
    ¬ HasHeader (read ++ ['\r']) problemId n m := by
  rintro ⟨tag, nodes, edges, hparts, _, _, _, hedges, _⟩
  obtain ⟨ws, w, hconcat, _⟩ := tokens_concat (by decide : '\r' ≠ ' ') read
  have heq : ws ++ [w ++ ['\r']] = [tag, problemId, nodes] ++ [edges] := hconcat.symm.trans hparts
  have hlast := (List.append_inj' heq rfl).2
  obtain ⟨rfl, _⟩ := List.cons.inj hlast
  exact cr_notMem_of_isUnsigned hedges (by simp)

theorem HasHeader.reread {line read problemId : List Char} {n m : ℕ}
    (h : HasHeader line problemId n m) (hread : Reread line read) :
    HasHeader read problemId n m := by
  rcases hread with rfl | rfl
  · exact h
  · exact (not_hasHeader_append_cr h).elim

theorem HasEndpoints.reread {line read : List Char} {edge : Edge} (h : HasEndpoints line edge)
    (hread : Reread line read) : HasEndpoints read edge := by
  rcases hread with rfl | rfl
  · exact h
  · exact h.of_append_cr

/-! ## The lines behind the header -/

theorem edgeItem_reread {profile : BuildProfile} {n : ℕ} {line read : List Char} {edge : Edge}
    (hread : Reread line read) (h : edgeItem profile n line = .ok edge) :
    edgeItem profile n read = .ok edge := by
  unfold edgeItem at h ⊢
  cases hparse : parseEndpoints line with
  | error error => simp [hparse] at h
  | ok ends =>
      have hreparse := parseEndpoints_eq_ok_iff.mpr
        ((parseEndpoints_eq_ok_iff.mp hparse).reread hread)
      rw [hparse] at h
      rw [hreparse]
      exact h

theorem lineItems_reread {profile : BuildProfile} {n : ℕ} {body read : List (List Char)}
    (hread : List.Forall₂ Reread body read) (hbody : ∀ line ∈ body, line.head? ≠ some 'c')
    {edges : List Edge}
    (h : (body.map Except.ok).filterMap (lineItem profile n) = edges.map .ok) :
    (read.map Except.ok).filterMap (lineItem profile n) = edges.map .ok := by
  induction hread generalizing edges with
  | nil => exact h
  | @cons line reread body read hline hrest ih =>
      obtain ⟨hc, hbody⟩ := List.forall_mem_cons.mp hbody
      have hitem : lineItem profile n (.ok line) = some (edgeItem profile n line) := if_neg hc
      have hitem' : lineItem profile n (.ok reread) = some (edgeItem profile n reread) :=
        if_neg (hline.head?_ne hc)
      rw [List.map_cons, List.filterMap_cons_some hitem] at h
      rw [List.map_cons, List.filterMap_cons_some hitem']
      cases edges with
      | nil => cases h
      | cons edge edges =>
          obtain ⟨hedge, htail⟩ := List.cons.inj h
          rw [edgeItem_reread hline hedge, ih hbody htail, List.map_cons]

/-- An edge item comes from a line with two tokens, which is not empty. -/
theorem hasEndpoints_of_edgeItem {profile : BuildProfile} {n : ℕ} {line : List Char} {edge : Edge}
    (h : edgeItem profile n line = .ok edge) : ∃ ends, HasEndpoints line ends := by
  unfold edgeItem at h
  cases hparse : parseEndpoints line with
  | error error => simp [hparse] at h
  | ok ends => exact ⟨ends, parseEndpoints_eq_ok_iff.mp hparse⟩

theorem HasEndpoints.ne_nil {line : List Char} {edge : Edge} (h : HasEndpoints line edge) :
    line ≠ [] := by
  rintro rfl
  obtain ⟨_, _, _, hparts, _⟩ := h
  cases hparts

theorem HasHeader.ne_nil {line problemId : List Char} {n m : ℕ}
    (h : HasHeader line problemId n m) : line ≠ [] := by
  rintro rfl
  obtain ⟨_, _, _, hparts, _⟩ := h
  cases hparts

/-- The lines that are left without the comments. -/
def keptLines (lines : List (List Char)) : List (List Char) :=
  lines.filter fun line => line.head? ≠ some 'c'

theorem mem_keptLines {lines : List (List Char)} {line : List Char} :
    line ∈ keptLines lines ↔ line ∈ lines ∧ line.head? ≠ some 'c' := by
  simp [keptLines]

/-- The header is the first line that is kept. -/
theorem keptLines_eq_cons {lines : List (List Char)} {header : List Char} {rest : List Line}
    (h : nextNonCommentLine (lines.map .ok) = (.ok (some header), rest)) :
    ∃ body, rest = body.map .ok ∧ keptLines lines = header :: keptLines body := by
  induction lines with
  | nil => cases h
  | cons line lines ih =>
      rw [List.map_cons, nextNonCommentLine] at h
      split at h
      · rename_i hc
        obtain ⟨body, hrest, hkept⟩ := ih h
        exact ⟨body, hrest, by simpa [keptLines, hc] using hkept⟩
      · rename_i hc
        cases h
        exact ⟨lines, rfl, by simp [keptLines, hc]⟩

theorem nextNonCommentLine_cons {line : List Char} (hc : line.head? ≠ some 'c')
    (lines : List Line) : nextNonCommentLine (.ok line :: lines) = (.ok (some line), lines) :=
  if_neg hc

theorem lineItems_keptLines (profile : BuildProfile) (n : ℕ) (lines : List (List Char)) :
    ((keptLines lines).map Except.ok).filterMap (lineItem profile n) =
      (lines.map Except.ok).filterMap (lineItem profile n) := by
  induction lines with
  | nil => rfl
  | cons line lines ih =>
      by_cases hc : line.head? = some 'c'
      · have hnone : lineItem profile n (.ok line) = none := if_pos hc
        rw [List.map_cons, List.filterMap_cons_none hnone, ← ih]
        simp [keptLines, hc]
      · have hkept : keptLines (line :: lines) = line :: keptLines lines := by
          simp [keptLines, hc]
        rw [hkept, List.map_cons, List.map_cons, List.filterMap_cons, List.filterMap_cons, ih]

theorem ne_nil_of_mem_body {profile : BuildProfile} {n : ℕ} {body : List (List Char)}
    {edges : List Edge} (hbody : ∀ line ∈ body, line.head? ≠ some 'c')
    (h : (body.map Except.ok).filterMap (lineItem profile n) = edges.map .ok) {line : List Char}
    (hline : line ∈ body) : line ≠ [] := by
  have hitem : edgeItem profile n line ∈ edges.map .ok := by
    rw [← h]
    apply List.mem_filterMap.mpr
    exact ⟨.ok line, List.mem_map_of_mem hline, if_neg (hbody line hline)⟩
  obtain ⟨edge, _, hedge⟩ := List.mem_map.mp hitem
  obtain ⟨ends, hends⟩ := hasEndpoints_of_edgeItem hedge.symm
  exact hends.ne_nil

/-! ## The stripped text -/

/-- What the reader makes of the text without comments, compared with the text itself. -/
structure StripSpec (profile : BuildProfile) (text : List Char) (reader : PaceReader)
    (edges : List Edge) : Prop where
  read_back : ∃ stripped, tryNew (encodeUtf8 (Job.stripComments text)) = .ok stripped ∧
    stripped.problemId = reader.problemId ∧ stripped.numberOfNodes = reader.numberOfNodes ∧
    stripped.numberOfEdges = reader.numberOfEdges ∧ stripped.collectEdges profile = .ok edges
  no_comment : ∀ line ∈ StrideRunner.lines '\r' '\n' (Job.stripComments text),
    line.head? ≠ some 'c'
  same_verdict : ∀ (executor : SolverExecutor) (fs stripped : FileSystem),
    fs (executor.filename PATH_STDIN) = some (encodeUtf8 text) →
    stripped (executor.filename PATH_STDIN) = some (encodeUtf8 (Job.stripComments text)) →
    stripped (executor.filename PATH_STDOUT) = fs (executor.filename PATH_STDOUT) →
    executor.verifySolution profile stripped = executor.verifySolution profile fs

/-- The verdict depends on the number of nodes, the edges and the output. -/
theorem verifySolution_congr {profile : BuildProfile} {executor : SolverExecutor}
    {fs fs' : FileSystem} {file file' : Bytes} {reader reader' : PaceReader} {edges : List Edge}
    (hfile : fs (executor.filename PATH_STDIN) = some file)
    (hfile' : fs' (executor.filename PATH_STDIN) = some file')
    (hstdout : fs' (executor.filename PATH_STDOUT) = fs (executor.filename PATH_STDOUT))
    (hnew : tryNew file = .ok reader) (hnew' : tryNew file' = .ok reader')
    (hn : reader'.numberOfNodes = reader.numberOfNodes)
    (hedges : reader.collectEdges profile = .ok edges)
    (hedges' : reader'.collectEdges profile = .ok edges) :
    executor.verifySolution profile fs' = executor.verifySolution profile fs := by
  simp only [SolverExecutor.verifySolution, FileSystem.read, hfile, hfile', hstdout,
    Outcome.ok_bind, hnew, hnew', Outcome.ofExcept_ok, hn, hedges, hedges']

theorem stripComments_spec {profile : BuildProfile} {text : List Char} {reader : PaceReader}
    {edges : List Edge} (hnew : tryNew (encodeUtf8 text) = .ok reader)
    (hedges : reader.collectEdges profile = .ok edges) :
    StripSpec profile text reader edges := by
  obtain ⟨_, header, hnext, hheader⟩ := tryNew_spec hnew
  rw [bufReadLines_encodeUtf8] at hnext
  obtain ⟨body, hrest, hkept⟩ := keptLines_eq_cons hnext
  have hheader := parseHeaderLine_eq_ok_iff.mp hheader
  have hitems := hedges
  rw [collectEdges_eq_collect, collect_eq_ok_iff, lineItems, hrest, ← lineItems_keptLines]
    at hitems
  have hbody : ∀ line ∈ keptLines body, line.head? ≠ some 'c' := fun line hline =>
    (mem_keptLines.mp hline).2
  have hheader_c : header.head? ≠ some 'c' := by
    have hmem : header ∈ keptLines (StrideRunner.lines '\r' '\n' text) := by simp [hkept]
    exact (mem_keptLines.mp hmem).2
  have hne : ∀ line ∈ header :: keptLines body, line ≠ [] ∧ '\n' ∉ line := by
    intro line hline
    constructor
    · rcases List.mem_cons.mp hline with rfl | hline
      · exact hheader.ne_nil
      · exact ne_nil_of_mem_body hbody hitems hline
    · rw [← hkept] at hline
      exact notMem_of_mem_lines (mem_keptLines.mp hline).1
  have hjoined := lines_joined hne
  have hstripped : Job.stripComments text =
      ((header :: keptLines body).intersperse ['\n']).flatten := by
    rw [← hkept]
    rfl
  rw [← hstripped, List.forall₂_cons_left_iff] at hjoined
  obtain ⟨first, read, hfirst, hread, hlines⟩ := hjoined
  have hfirst_c := hfirst.head?_ne hheader_c
  have hreader : tryNew (encodeUtf8 (Job.stripComments text)) = .ok
      ⟨read.map .ok, reader.problemId, reader.numberOfNodes, reader.numberOfEdges⟩ := by
    simp [tryNew, bufReadLines_encodeUtf8, hlines, nextNonCommentLine_cons hfirst_c,
      parseHeaderLine_eq_ok_iff.mpr (hheader.reread hfirst)]
  have hcollect : collectEdges profile
      ⟨read.map .ok, reader.problemId, reader.numberOfNodes, reader.numberOfEdges⟩ =
      .ok edges := by
    rw [collectEdges_eq_collect, collect_eq_ok_iff]
    exact lineItems_reread hread hbody hitems
  refine ⟨⟨_, hreader, rfl, rfl, rfl, hcollect⟩, ?_, ?_⟩
  · intro line hline
    rw [hlines] at hline
    rcases List.mem_cons.mp hline with rfl | hline
    · exact hfirst_c
    · obtain ⟨kept, hmem, hreread⟩ := exists_of_forall₂_mem hread hline
      exact hreread.head?_ne (hbody kept hmem)
  · intro executor fs stripped hfile hfile' hstdout
    exact verifySolution_congr hfile hfile' hstdout hnew hreader rfl hedges hcollect

/-- Comments, a blank token behind an edge, a carriage return of its own, and no line feed at the
end. -/
theorem stripComments_spec_demo :
    StripSpec .debug ['c', '\n', 'p', ' ', 'd', 's', ' ', '3', ' ', '2', '\r', '\n', '1', ' ', '2',
        ' ', '\r', '\r', '\n', 'c', '!', '\n', '2', ' ', '3']
      ⟨[.ok ['1', ' ', '2', ' ', '\r'], .ok ['c', '!'], .ok ['2', ' ', '3']], ['d', 's'], 3, 2⟩
      [⟨0, 1⟩, ⟨1, 2⟩] := by
  apply stripComments_spec
  · decide +kernel
  · simp only [collectEdges_eq_collect]
    decide +kernel

end PaceReader

end StrideRunner.Pace
