import StrideRunner.Model.Text

/-! # Graphs and the instance reader -/

namespace StrideRunner.Pace

open StrideRunner

/-- The source's `Node` and `NumNodes` are `u32`, its `NumEdges` is `u64`; all are `ℕ` here. -/
structure Edge where
  u : ℕ
  v : ℕ
  deriving DecidableEq, Repr

def invalidData (message : String) : IoError := ⟨.invalidData, message⟩

/-- The iterator state: the lines still to be read and the values of the header. -/
structure PaceReader where
  lines : List Line
  problemId : List Char
  numberOfNodes : ℕ
  numberOfEdges : ℕ
  deriving DecidableEq, Repr

namespace PaceReader

/-- Comments are recognised on the raw line. The second component is the rest of the stream. -/
def nextNonCommentLine : List Line → Except IoError (Option (List Char)) × List Line
  | [] => (.ok none, [])
  | .error error :: rest => (.error error, rest)
  | .ok line :: rest =>
      if line.head? = some 'c' then nextNonCommentLine rest else (.ok (some line), rest)

/-- `line.split(' ').filter(|t| !t.is_empty())`. -/
def parts (line : List Char) : List (List Char) :=
  (line.splitOn ' ').filter (· ≠ [])

/-- The macro `parse_next_value!`, at the unsigned type with `size` values. -/
def parseNextValue (size : ℕ) (name : String) :
    List (List Char) → Except IoError (ℕ × List (List Char))
  | [] => .error (invalidData ("Premature end of line when parsing " ++ name ++ "."))
  | next :: rest =>
      match parseUnsigned size next with
      | .ok value => .ok (value, rest)
      | .error _ => .error (invalidData ("Invalid value found. Cannot parse " ++ name ++ "."))

/-- The checks of `parse_header` on its line: problem id, number of nodes, number of edges. -/
def parseHeaderLine (line : List Char) : Except IoError (List Char × ℕ × ℕ) :=
  match parts line with
  | [] => .error (invalidData "Invalid header found; line should start with p")
  | tag :: rest =>
      if tag.head? ≠ some 'p' then
        .error (invalidData "Invalid header found; line should start with p")
      else match rest with
        | [] => .error (invalidData "Invalid header; no problem id found")
        | problemId :: rest => do
            let (numberOfNodes, rest) ← parseNextValue U32_SIZE "Header>Number of nodes" rest
            let (numberOfEdges, rest) ← parseNextValue U64_SIZE "Header>Number of edges" rest
            if rest ≠ [] then
              .error (invalidData "Invalid header found; expected end of line")
            else
              return (problemId, numberOfNodes, numberOfEdges)

/-- `try_new` with its call of `parse_header`. -/
def tryNew (bytes : Bytes) : Except IoError PaceReader :=
  match nextNonCommentLine (bufReadLines bytes) with
  | (.error error, _) => .error error
  | (.ok none, _) => .error (invalidData "No header found")
  | (.ok (some line), rest) => do
      let (problemId, numberOfNodes, numberOfEdges) ← parseHeaderLine line
      return ⟨rest, problemId, numberOfNodes, numberOfEdges⟩

/-- The two endpoints of an edge line as written, that is, counted from 1. -/
def parseEndpoints (line : List Char) : Except IoError Edge := do
  let (from', rest) ← parseNextValue U32_SIZE "Source node" (parts line)
  let (dest, _) ← parseNextValue U32_SIZE "Target node" rest
  return ⟨from', dest⟩

/-- `debug_assert!((1..=self.number_of_nodes).contains(&node))`; release builds skip it. -/
def debugAssertRange (profile : BuildProfile) (n : ℕ) (name : String) (node : ℕ) :
    Outcome IoError Unit :=
  if profile = .debug ∧ ¬ (1 ≤ node ∧ node ≤ n) then
    .panic ("assertion failed: (1..=self.number_of_nodes).contains(&" ++ name ++ ")")
  else .ok ()

def parseEdgeLine (profile : BuildProfile) (reader : PaceReader) :
    Outcome IoError (Option Edge) × PaceReader :=
  match nextNonCommentLine reader.lines with
  | (.error error, rest) => (.err error, { reader with lines := rest })
  | (.ok none, rest) => (.ok none, { reader with lines := rest })
  | (.ok (some line), rest) =>
      (do
        let edge ← Outcome.ofExcept (parseEndpoints line)
        debugAssertRange profile reader.numberOfNodes "from" edge.u
        debugAssertRange profile reader.numberOfNodes "dest" edge.v
        return some edge, { reader with lines := rest })

/-- `Iterator::next`. `.ok none` ends the iteration and `.err` is an item `Some(Err(_))`. -/
def next (profile : BuildProfile) (reader : PaceReader) :
    Outcome IoError (Option Edge) × PaceReader :=
  match parseEdgeLine profile reader with
  | (.ok (some edge), reader) =>
      (do
        let u ← u32Sub profile edge.u 1
        let v ← u32Sub profile edge.v 1
        return some ⟨u, v⟩, reader)
  | (result, reader) => (result, reader)

theorem length_nextNonCommentLine_lt {lines : List Line} {line : List Char}
    (h : (nextNonCommentLine lines).1 = .ok (some line)) :
    (nextNonCommentLine lines).2.length < lines.length := by
  fun_induction nextNonCommentLine lines with
  | case1 => simp at h
  | case2 => simp at h
  | case3 text rest hc ih => exact (ih h).trans (Nat.lt_succ_self _)
  | case4 => simp

theorem next_lines (profile : BuildProfile) (reader : PaceReader) :
    (next profile reader).2.lines = (nextNonCommentLine reader.lines).2 := by
  have hparse : (parseEdgeLine profile reader).2.lines =
      (nextNonCommentLine reader.lines).2 := by
    rcases h : nextNonCommentLine reader.lines with ⟨_ | _ | line, rest⟩ <;>
      simp only [parseEdgeLine, h]
  rw [← hparse]
  unfold next
  split <;> simp [*]

theorem length_next_lt {profile : BuildProfile} {reader : PaceReader} {edge : Edge}
    (h : (next profile reader).1 = .ok (some edge)) :
    (next profile reader).2.lines.length < reader.lines.length := by
  rw [next_lines]
  have hlt := @length_nextNonCommentLine_lt reader.lines
  rcases hline : nextNonCommentLine reader.lines with ⟨_ | _ | line, rest⟩
  · simp [next, parseEdgeLine, hline] at h
  · simp [next, parseEdgeLine, hline] at h
  · have hfst : (nextNonCommentLine reader.lines).1 = .ok (some line) := by rw [hline]
    simpa only [hline] using hlt hfst

/-- The loop `for edge in reader { edges.push(edge?); }` of the callers. -/
def collectEdges (profile : BuildProfile) (reader : PaceReader) : Outcome IoError (List Edge) :=
  match _h : next profile reader with
  | (.ok none, _) => .ok []
  | (.ok (some edge), rest) => do
      let edges ← collectEdges profile rest
      return edge :: edges
  | (.err error, _) => .err error
  | (.panic message, _) => .panic message
termination_by reader.lines.length
decreasing_by
  have hedge : (next profile reader).1 = .ok (some edge) := by rw [_h]
  have hlt := length_next_lt hedge
  rwa [_h] at hlt

theorem length_next_lt_of_err {profile : BuildProfile} {reader : PaceReader} {error : IoError}
    (h : (next profile reader).1 = .err error) :
    (next profile reader).2.lines.length < reader.lines.length := by
  rw [next_lines]
  have hne : (nextNonCommentLine reader.lines).1 ≠ .ok none := by
    intro hnone
    rcases hline : nextNonCommentLine reader.lines with ⟨first, rest⟩
    rw [hline] at hnone
    subst hnone
    simp [next, parseEdgeLine, hline] at h
  generalize reader.lines = lines at hne
  fun_induction nextNonCommentLine lines with
  | case1 => exact (hne rfl).elim
  | case2 => simp
  | case3 text rest hc ih => exact (ih hne).trans (Nat.lt_succ_self _)
  | case4 => simp

/-- Iterating to the end. The items include the errors; a panic unwinds the iteration. -/
def items (profile : BuildProfile) (reader : PaceReader) :
    Outcome IoError (List (Except IoError Edge)) :=
  match _h : next profile reader with
  | (.ok none, _) => .ok []
  | (.ok (some edge), rest) => do
      let tail ← items profile rest
      return .ok edge :: tail
  | (.err error, rest) => do
      let tail ← items profile rest
      return .error error :: tail
  | (.panic message, _) => .panic message
termination_by reader.lines.length
decreasing_by
  · have hedge : (next profile reader).1 = .ok (some edge) := by rw [_h]
    have hlt := length_next_lt hedge
    rwa [_h] at hlt
  · have herror : (next profile reader).1 = .err error := by rw [_h]
    have hlt := length_next_lt_of_err herror
    rwa [_h] at hlt

end PaceReader

end StrideRunner.Pace
