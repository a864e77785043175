import StrideRunner.Library.Traversal
import StrideRunner.Model.Pace.InstanceReader
import StrideRunner.Verification.Text

/-! # The tokens of headers and edges

What the parser of an instance file accepts, in terms of the tokens of a line. -/

namespace StrideRunner.Pace.PaceReader

open StrideRunner Library

/-- The first two tokens of the line are the numbers of `edge`, counted from 1. -/
def HasEndpoints (line : List Char) (edge : Edge) : Prop :=
  ∃ source target rest, parts line = source :: target :: rest ∧
    IsUnsigned source edge.u ∧ edge.u < U32_SIZE ∧ IsUnsigned target edge.v ∧ edge.v < U32_SIZE

theorem parseNextValue_eq_ok_iff {size value : ℕ} {name : String} {tokens rest : List (List Char)}
    (hsize : 0 < size) :
    parseNextValue size name tokens = .ok (value, rest) ↔
      ∃ token, tokens = token :: rest ∧ IsUnsigned token value ∧ value < size := by
  cases tokens with
  | nil => simp [parseNextValue]
  | cons token tokens =>
      have hiff : parseUnsigned size token = .ok value ↔ IsUnsigned token value ∧ value < size :=
        parseUnsigned_eq_ok_iff_isUnsigned hsize
      cases hparse : parseUnsigned size token with
      | error kind =>
          rw [hparse] at hiff
          simp only [parseNextValue, hparse, reduceCtorEq, false_iff]
          rintro ⟨_, ⟨⟩, hvalue⟩
          cases hiff.mpr hvalue
      | ok number =>
          rw [hparse] at hiff
          simp only [parseNextValue, hparse, Except.ok.injEq, Prod.mk.injEq]
          constructor
          · rintro ⟨rfl, rfl⟩
            exact ⟨token, rfl, hiff.mp rfl⟩
          · rintro ⟨_, ⟨⟩, hvalue⟩
            exact ⟨Except.ok.inj (hiff.mpr hvalue), rfl⟩

theorem parseEndpoints_eq_ok_iff {line : List Char} {edge : Edge} :
    parseEndpoints line = .ok edge ↔ HasEndpoints line edge := by
  have hsize : 0 < U32_SIZE := by decide
  unfold parseEndpoints HasEndpoints
  constructor
  · intro h
    obtain ⟨⟨u, tail⟩, hu, h⟩ := except_bind_eq_ok.mp h
    obtain ⟨⟨v, rest⟩, hv, h⟩ := except_bind_eq_ok.mp h
    cases h
    obtain ⟨source, hparts, hsource⟩ := (parseNextValue_eq_ok_iff hsize).mp hu
    obtain ⟨target, rfl, htarget⟩ := (parseNextValue_eq_ok_iff hsize).mp hv
    exact ⟨source, target, rest, hparts, hsource.1, hsource.2, htarget.1, htarget.2⟩
  · rintro ⟨source, target, rest, hparts, hsource, hu, htarget, hv⟩
    have hfirst : parseNextValue U32_SIZE "Source node" (parts line) =
        .ok (edge.u, target :: rest) :=
      (parseNextValue_eq_ok_iff hsize).mpr ⟨source, hparts, hsource, hu⟩
    have hsecond : parseNextValue U32_SIZE "Target node" (target :: rest) = .ok (edge.v, rest) :=
      (parseNextValue_eq_ok_iff hsize).mpr ⟨target, rfl, htarget, hv⟩
    exact except_bind_eq_ok.mpr ⟨_, hfirst, except_bind_eq_ok.mpr ⟨_, hsecond, rfl⟩⟩

theorem kind_of_parseNextValue {size : ℕ} {name : String} {tokens : List (List Char)}
    {error : IoError} (h : parseNextValue size name tokens = .error error) :
    error.kind = .invalidData := by
  cases tokens with
  | nil =>
      cases h
      rfl
  | cons token tokens =>
      simp only [parseNextValue] at h
      split at h <;> cases h
      rfl

theorem kind_of_parseEndpoints {line : List Char} {error : IoError}
    (h : parseEndpoints line = .error error) : error.kind = .invalidData := by
  unfold parseEndpoints at h
  cases hu : parseNextValue U32_SIZE "Source node" (parts line) with
  | error e =>
      rw [hu] at h
      cases h
      exact kind_of_parseNextValue hu
  | ok first =>
      obtain ⟨u, tail⟩ := first
      rw [hu] at h
      cases hv : parseNextValue U32_SIZE "Target node" tail with
      | error e =>
          simp only [except_ok_bind, hv] at h
          cases h
          exact kind_of_parseNextValue hv
      | ok second => simp [hv] at h

/-! ## Headers -/

/-- The line consists of a token with `p` in front, the problem id and the two numbers. -/
def HasHeader (line problemId : List Char) (n m : ℕ) : Prop :=
  ∃ tag nodes edges, parts line = [tag, problemId, nodes, edges] ∧ tag.head? = some 'p' ∧
    IsUnsigned nodes n ∧ n < U32_SIZE ∧ IsUnsigned edges m ∧ m < U64_SIZE

theorem parseHeaderLine_eq_ok_iff {line problemId : List Char} {n m : ℕ} :
    parseHeaderLine line = .ok (problemId, n, m) ↔ HasHeader line problemId n m := by
  have hsize : 0 < U32_SIZE := by decide
  have hsize' : 0 < U64_SIZE := by decide
  unfold HasHeader
  constructor
  · intro h
    unfold parseHeaderLine at h
    split at h
    · cases h
    · rename_i tag tail hparts
      split at h
      · cases h
      · rename_i htag
        split at h
        · cases h
        · rename_i id tail
          obtain ⟨⟨n', tail'⟩, hn, hrest⟩ := except_bind_eq_ok.mp h
          obtain ⟨⟨m', rest⟩, hm, hend⟩ := except_bind_eq_ok.mp hrest
          obtain ⟨nodes, rfl, hnodes⟩ := (parseNextValue_eq_ok_iff hsize).mp hn
          obtain ⟨edges, rfl, hedges⟩ := (parseNextValue_eq_ok_iff hsize').mp hm
          by_cases hnil : rest = []
          · subst hnil
            cases hend
            exact ⟨tag, nodes, edges, hparts, not_not.mp htag, hnodes.1, hnodes.2, hedges⟩
          · simp [hnil] at hend
  · rintro ⟨tag, nodes, edges, hparts, htag, hnodes, hn, hedges, hm⟩
    have hfirst : parseNextValue U32_SIZE "Header>Number of nodes" [nodes, edges] =
        .ok (n, [edges]) := (parseNextValue_eq_ok_iff hsize).mpr ⟨nodes, rfl, hnodes, hn⟩
    have hsecond : parseNextValue U64_SIZE "Header>Number of edges" [edges] = .ok (m, []) :=
      (parseNextValue_eq_ok_iff hsize').mpr ⟨edges, rfl, hedges, hm⟩
    simp [parseHeaderLine, hparts, htag, hfirst, hsecond]

theorem kind_of_mem_bufReadLines {bytes : Bytes} {error : IoError}
    (h : .error error ∈ bufReadLines bytes) : error.kind = .invalidData := by
  obtain ⟨raw, _, hraw⟩ := List.mem_map.mp h
  unfold decodeLine at hraw
  split at hraw <;> cases hraw
  rfl

theorem mem_nextNonCommentLine_snd {lines : List Line} {line : Line}
    (h : line ∈ (nextNonCommentLine lines).2) : line ∈ lines := by
  fun_induction nextNonCommentLine lines with
  | case1 => exact h
  | case2 error rest => exact List.mem_cons_of_mem _ h
  | case3 text rest hc ih => exact List.mem_cons_of_mem _ (ih h)
  | case4 text rest hc => exact List.mem_cons_of_mem _ h

/-- The reader is at a suffix of the file's lines, and its header has been checked. -/
theorem tryNew_spec {file : Bytes} {reader : PaceReader} (h : tryNew file = .ok reader) :
    (∀ line ∈ reader.lines, line ∈ bufReadLines file) ∧ ∃ line,
      nextNonCommentLine (bufReadLines file) = (.ok (some line), reader.lines) ∧
      parseHeaderLine line = .ok (reader.problemId, reader.numberOfNodes, reader.numberOfEdges) := by
  unfold tryNew at h
  rcases hfirst : nextNonCommentLine (bufReadLines file) with ⟨_ | _ | line, rest⟩
  · simp [hfirst] at h
  · simp [hfirst] at h
  · rw [hfirst] at h
    obtain ⟨⟨problemId, n, m⟩, hheader, h⟩ := except_bind_eq_ok.mp h
    cases h
    refine ⟨fun line' hline' => mem_nextNonCommentLine_snd ?_, line, rfl, hheader⟩
    rwa [hfirst]

/-- The header check bounds the number of nodes. -/
theorem numberOfNodes_lt {file : Bytes} {reader : PaceReader} (h : tryNew file = .ok reader) :
    reader.numberOfNodes < U32_SIZE := by
  obtain ⟨_, line, _, hheader⟩ := tryNew_spec h
  obtain ⟨_, _, _, _, _, _, hn, _⟩ := parseHeaderLine_eq_ok_iff.mp hheader
  exact hn

end StrideRunner.Pace.PaceReader
