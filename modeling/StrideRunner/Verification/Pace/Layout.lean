import StrideRunner.Library.Splitting
import StrideRunner.Verification.Lines
import StrideRunner.Verification.Pace.EdgeRange

/-! # Layouts of an instance

A grammar of the texts that describe an instance, with its comments, spaces and line ends, and the
proof that the reader decodes each of them. -/

namespace StrideRunner.Pace

open StrideRunner Library

/-! ## The grammar -/

/-- The end of a line in front of `rest`; only the last line of a file may go without. -/
inductive IsLineEnd : List Char → List Char → Prop
  | lf (rest) : IsLineEnd ['\n'] rest
  | crlf (rest) : IsLineEnd ['\r', '\n'] rest
  | missing : IsLineEnd [] []

def IsCommentLine (line : List Char) : Prop :=
  line.head? = some 'c' ∧ '\n' ∉ line

/-- The two ids of `edge`, counted from 1, with leading zeros and spaces. -/
def IsEdgeLine (edge : Edge) (line : List Char) : Prop :=
  ∃ source target, IsDecimal source edge.u ∧ IsDecimal target edge.v ∧
    Spells ' ' [source, target] line

def IsHeaderLine (problemId : List Char) (n m : ℕ) (line : List Char) : Prop :=
  ∃ nodes edges, IsDecimal nodes n ∧ IsDecimal edges m ∧
    Spells ' ' [['p'], problemId, nodes, edges] line

/-- Comments, and one line for each edge. -/
inductive IsBody : List Edge → List Char → Prop
  | done : IsBody [] []
  | comment {edges line ending rest} (hline : IsCommentLine line) (hend : IsLineEnd ending rest)
      (hrest : IsBody edges rest) : IsBody edges (line ++ (ending ++ rest))
  | edge {edge edges line ending rest} (hline : IsEdgeLine edge line)
      (hend : IsLineEnd ending rest) (hrest : IsBody edges rest) :
      IsBody (edge :: edges) (line ++ (ending ++ rest))

/-- Comments, the header, and the body. -/
inductive IsInstanceText (problemId : List Char) (n m : ℕ) (edges : List Edge) :
    List Char → Prop
  | comment {line ending rest} (hline : IsCommentLine line) (hend : IsLineEnd ending rest)
      (hrest : IsInstanceText problemId n m edges rest) :
      IsInstanceText problemId n m edges (line ++ (ending ++ rest))
  | header {line ending rest} (hline : IsHeaderLine problemId n m line)
      (hend : IsLineEnd ending rest) (hrest : IsBody edges rest) :
      IsInstanceText problemId n m edges (line ++ (ending ++ rest))

/-! ## Lines -/

/-- A line is read as it was written, up to a carriage return at its own end. -/
theorem lines_ended {line ending rest : List Char} (hline : line ++ ending ≠ [])
    (hlf : '\n' ∉ line) (hend : IsLineEnd ending rest) :
    ∃ read, lines '\r' '\n' (line ++ (ending ++ rest)) = read :: lines '\r' '\n' rest ∧
      (read = line ∨ line = read ++ ['\r']) := by
  cases hend with
  | lf =>
      exact ⟨chop '\r' line, lines_append_lf hlf rest, chop_eq_or line⟩
  | crlf =>
      refine ⟨line, ?_, Or.inl rfl⟩
      have hcr : '\n' ∉ line ++ ['\r'] := by simp [hlf]
      have hread : lines '\r' '\n' (line ++ ['\r'] ++ '\n' :: rest) = _ := lines_append_lf hcr rest
      rw [chop_append_cr] at hread
      simpa using hread
  | missing =>
      refine ⟨line, ?_, Or.inl rfl⟩
      rw [List.append_nil] at hline
      have hread : lines '\r' '\n' line = [line] := lines_of_notMem hline hlf
      simpa [lines] using hread

theorem lines_comment {line ending rest : List Char} (hline : IsCommentLine line)
    (hend : IsLineEnd ending rest) :
    ∃ read, lines '\r' '\n' (line ++ (ending ++ rest)) = read :: lines '\r' '\n' rest ∧
      read.head? = some 'c' := by
  have hne : line ≠ [] := by
    rintro rfl
    cases hline.1
  obtain ⟨read, hread, rfl | rfl⟩ := lines_ended (by simp [hne]) hline.2 hend
  · exact ⟨read, hread, hline.1⟩
  · refine ⟨read, hread, ?_⟩
    cases read with
    | nil => cases hline.1
    | cons c read => exact hline.1

/-- A line of words without line breaks, whose last one has no carriage return. -/
theorem lines_spelled {ws : List (List Char)} {line ending rest : List Char} (hws : ws ≠ [])
    (hline : Spells ' ' ws line) (hlf : ∀ w ∈ ws, '\n' ∉ w) (hcr : ∀ w ∈ ws.getLast?, '\r' ∉ w)
    (hend : IsLineEnd ending rest) :
    lines '\r' '\n' (line ++ (ending ++ rest)) = line :: lines '\r' '\n' rest := by
  have hne : line ≠ [] := by
    rintro rfl
    exact hws (hline.tokens_eq.symm.trans tokens_nil)
  have hlf' : '\n' ∉ line := by
    intro hmem
    rcases hline.mem hmem with h | ⟨w, hw, hmem⟩
    · cases h
    · exact hlf w hw hmem
  obtain ⟨read, hread, rfl | rfl⟩ := lines_ended (by simp [hne]) hlf' hend
  · exact hread
  · exfalso
    rcases hline.mem_of_getLast? List.getLast?_concat with h | ⟨w, hw, hmem⟩
    · cases h
    · exact hcr w hw hmem

theorem lines_edge {edge : Edge} {line ending rest : List Char} (hline : IsEdgeLine edge line)
    (hend : IsLineEnd ending rest) :
    lines '\r' '\n' (line ++ (ending ++ rest)) = line :: lines '\r' '\n' rest := by
  obtain ⟨source, target, hsource, htarget, hspells⟩ := hline
  apply lines_spelled (by simp) hspells ?_ ?_ hend
  · simp [hsource.notMem, htarget.notMem]
  · simp [htarget.notMem]

theorem lines_header {problemId : List Char} {n m : ℕ} {line ending rest : List Char}
    (hid : '\n' ∉ problemId) (hline : IsHeaderLine problemId n m line)
    (hend : IsLineEnd ending rest) :
    lines '\r' '\n' (line ++ (ending ++ rest)) = line :: lines '\r' '\n' rest := by
  obtain ⟨nodes, edges, hnodes, hedges, hspells⟩ := hline
  apply lines_spelled (by simp) hspells ?_ ?_ hend
  · simp [hid, hnodes.notMem, hedges.notMem]
  · simp [hedges.notMem]

/-! ## Reading a layout -/

namespace PaceReader

theorem hasEndpoints_of_isEdgeLine {edge : Edge} {line : List Char} (hline : IsEdgeLine edge line)
    (hu : edge.u < U32_SIZE) (hv : edge.v < U32_SIZE) :
    line.head? ≠ some 'c' ∧ HasEndpoints line edge := by
  obtain ⟨source, target, hsource, htarget, hspells⟩ := hline
  refine ⟨?_, source, target, [], hspells.tokens_eq, Or.inl hsource, hu, Or.inl htarget, hv⟩
  intro hhead
  have hmem : 'c' ∈ line := List.mem_of_mem_head? hhead
  rcases hspells.mem hmem with h | ⟨w, hw, hmem⟩
  · cases h
  · revert hmem
    simp only [List.mem_cons, List.not_mem_nil, or_false] at hw
    rcases hw with rfl | rfl
    · exact hsource.notMem rfl
    · exact htarget.notMem rfl

theorem hasHeader_of_isHeaderLine {problemId : List Char} {n m : ℕ} {line : List Char}
    (hline : IsHeaderLine problemId n m line) (hn : n < U32_SIZE) (hm : m < U64_SIZE) :
    line.head? ≠ some 'c' ∧ HasHeader line problemId n m := by
  obtain ⟨nodes, edges, hnodes, hedges, hspells⟩ := hline
  refine ⟨?_, ['p'], nodes, edges, hspells.tokens_eq, rfl, Or.inl hnodes, hn, Or.inl hedges, hm⟩
  rcases hspells.head?_eq with h | h
  · simp [h]
  · simp [h]

/-- Induction over the body: a comment adds no item, and an edge line adds its edge. -/
theorem lineItems_of_isBody (profile : BuildProfile) {n : ℕ} (hn : n < U32_SIZE)
    {edges : List Edge} {text : List Char} (hbody : IsBody edges text)
    (hrange : ∀ edge ∈ edges, IdsInRange n edge) :
    ((StrideRunner.lines '\r' '\n' text).map Except.ok).filterMap (lineItem profile n) =
      edges.map fun edge => .ok ⟨edge.u - 1, edge.v - 1⟩ := by
  induction hbody with
  | done => rfl
  | comment hline hend hrest ih =>
      obtain ⟨read, hread, hc⟩ := lines_comment hline hend
      have hnone : lineItem profile n (.ok read) = none := if_pos hc
      rw [hread, List.map_cons, List.filterMap_cons_none hnone, ih hrange]
  | @edge edge edges line ending rest hline hend hrest ih =>
      obtain ⟨hedge, hedges⟩ := List.forall_mem_cons.mp hrange
      obtain ⟨hc, hends⟩ := hasEndpoints_of_isEdgeLine hline (by have := hedge.1.2; omega)
        (by have := hedge.2.2; omega)
      have hitem : lineItem profile n (.ok line) = some (.ok ⟨edge.u - 1, edge.v - 1⟩) := by
        rw [lineItem, if_neg hc, edgeItem_of_inRange hends hedge]
      rw [lines_edge hline hend, List.map_cons, List.filterMap_cons_some hitem, ih hedges,
        List.map_cons]

/-- The comments in front of the header are skipped. -/
theorem nextNonCommentLine_of_isInstanceText {problemId : List Char} {n m : ℕ} {edges : List Edge}
    {text : List Char} (hid : '\n' ∉ problemId) (hn : n < U32_SIZE) (hm : m < U64_SIZE)
    (htext : IsInstanceText problemId n m edges text) :
    ∃ line rest, nextNonCommentLine ((StrideRunner.lines '\r' '\n' text).map Except.ok) =
        (.ok (some line), (StrideRunner.lines '\r' '\n' rest).map Except.ok) ∧
      HasHeader line problemId n m ∧ IsBody edges rest := by
  induction htext with
  | comment hline hend hrest ih =>
      obtain ⟨line, rest, hnext, hheader, hbody⟩ := ih
      obtain ⟨read, hread, hc⟩ := lines_comment hline hend
      refine ⟨line, rest, ?_, hheader, hbody⟩
      rw [hread, List.map_cons, nextNonCommentLine, if_pos hc, hnext]
  | @header line ending rest hline hend hrest =>
      obtain ⟨hc, hheader⟩ := hasHeader_of_isHeaderLine hline hn hm
      refine ⟨line, rest, ?_, hheader, hrest⟩
      rw [lines_header hid hline hend, List.map_cons, nextNonCommentLine, if_neg hc]

/-- The header is read, and the body is left to the iterator. -/
theorem tryNew_of_isInstanceText {problemId : List Char} {n m : ℕ} {edges : List Edge}
    {text : List Char} (hid : '\n' ∉ problemId) (hn : n < U32_SIZE) (hm : m < U64_SIZE)
    (htext : IsInstanceText problemId n m edges text) :
    ∃ rest, IsBody edges rest ∧ tryNew (encodeUtf8 text) =
      .ok ⟨(StrideRunner.lines '\r' '\n' rest).map .ok, problemId, n, m⟩ := by
  obtain ⟨line, rest, hnext, hheader, hbody⟩ :=
    nextNonCommentLine_of_isInstanceText hid hn hm htext
  refine ⟨rest, hbody, ?_⟩
  simp [tryNew, bufReadLines_encodeUtf8, hnext, parseHeaderLine_eq_ok_iff.mpr hheader]

theorem items_of_isBody (profile : BuildProfile) {problemId : List Char} {n m : ℕ}
    {edges : List Edge} {rest : List Char} (hn : n < U32_SIZE)
    (hrange : ∀ edge ∈ edges, IdsInRange n edge) (hbody : IsBody edges rest) :
    items profile ⟨(StrideRunner.lines '\r' '\n' rest).map .ok, problemId, n, m⟩ =
      .ok (edges.map fun edge => .ok ⟨edge.u - 1, edge.v - 1⟩) := by
  rw [items_eq_gather, gather_eq_ok_iff, lineItems, lineItems_of_isBody profile hn hbody hrange,
    List.map_map]
  rfl

/-- Every layout of an instance is decoded to its header and its edges, counted from 0. -/
theorem decode_layout {problemId : List Char} {n m : ℕ} {edges : List Edge} {text : List Char}
    (hid : '\n' ∉ problemId) (hn : n < U32_SIZE) (hm : m < U64_SIZE)
    (hrange : ∀ edge ∈ edges, IdsInRange n edge)
    (htext : IsInstanceText problemId n m edges text) :
    ∃ reader, tryNew (encodeUtf8 text) = .ok reader ∧ reader.problemId = problemId ∧
      reader.numberOfNodes = n ∧ reader.numberOfEdges = m ∧
      ∀ profile, items profile reader =
        .ok (edges.map fun edge => .ok ⟨edge.u - 1, edge.v - 1⟩) := by
  obtain ⟨rest, hbody, hnew⟩ := tryNew_of_isInstanceText hid hn hm htext
  exact ⟨_, hnew, rfl, rfl, rfl, fun profile => items_of_isBody profile hn hrange hbody⟩

theorem isInstanceText_demo :
    IsInstanceText ['d', 's'] 3 2 [⟨1, 2⟩, ⟨2, 3⟩]
      (['c', '!'] ++ (['\r', '\n'] ++ ([' ', 'p', ' ', ' ', 'd', 's', ' ', '3', ' ', '0', '2'] ++
        (['\n'] ++ (['1', ' ', '2', ' '] ++ (['\r', '\n'] ++ (['c'] ++ (['\n'] ++
          (['2', ' ', '0', '3'] ++ ([] ++ [])))))))))) := by
  refine .comment ⟨rfl, by decide⟩ (.crlf _) (.header ⟨['3'], ['0', '2'], ?_, ?_, ?_⟩ (.lf _) ?_)
  · decide
  · decide
  · exact .word 1 (by decide) (by decide) (Or.inr rfl) (.word 2 (by decide) (by decide) (Or.inr rfl)
      (.word 1 (by decide) (by decide) (Or.inr rfl)
        (.word 1 (by decide) (by decide) (Or.inl rfl) (.blank 0))))
  · refine .edge ⟨['1'], ['2'], by decide, by decide, ?_⟩ (.crlf _) (.comment ⟨rfl, by decide⟩
      (.lf _) (.edge ⟨['2'], ['0', '3'], by decide, by decide, ?_⟩ .missing .done))
    · exact .word 0 (by decide) (by decide) (Or.inr rfl)
        (.word 1 (by decide) (by decide) (Or.inl rfl) (.blank 1))
    · exact .word 0 (by decide) (by decide) (Or.inr rfl)
        (.word 1 (by decide) (by decide) (Or.inl rfl) (.blank 0))

theorem decode_layout_demo :
    ∃ reader, tryNew (encodeUtf8 (['c', '!'] ++ (['\r', '\n'] ++
          ([' ', 'p', ' ', ' ', 'd', 's', ' ', '3', ' ', '0', '2'] ++ (['\n'] ++
            (['1', ' ', '2', ' '] ++ (['\r', '\n'] ++ (['c'] ++ (['\n'] ++
              (['2', ' ', '0', '3'] ++ ([] ++ []))))))))))) = .ok reader ∧
      reader.problemId = ['d', 's'] ∧ reader.numberOfNodes = 3 ∧ reader.numberOfEdges = 2 ∧
      ∀ profile, items profile reader = .ok [.ok ⟨0, 1⟩, .ok ⟨1, 2⟩] :=
  decode_layout (by decide) (by decide) (by decide) (by decide) isInstanceText_demo

end PaceReader

end StrideRunner.Pace
