import StrideRunner.Model.Pace.InstanceReader
import Mathlib.Data.Finset.Card
import Mathlib.Data.List.Destutter
import Mathlib.Data.List.Sort

/-! # Reading solutions and checking them for domination -/

namespace StrideRunner.Pace

open StrideRunner

/-- The iterator state of `reader::SolutionReader`. -/
structure SolutionReader where
  lines : List Line
  solutionSize : ℕ
  deriving Repr

namespace SolutionReader

/-- A line that is neither blank nor a comment, as a number. -/
def parseLine (trimmedLine : List Char) : Except IoError ℕ :=
  if trimmedLine.any (fun c => !isNumeric c) then
    .error (invalidData "Non-numeric character in line")
  else match parseUnsigned U32_SIZE trimmedLine with
    | .ok value => .ok value
    | .error kind => .error (invalidData kind.message)

/-- Blank lines and comments are recognised after trimming. -/
def isSkipped (trimmedLine : List Char) : Bool :=
  trimmedLine.isEmpty || trimmedLine.head? == some 'c'

def nextNonCommentLine : List Line → Option (Except IoError ℕ) × List Line
  | [] => (none, [])
  | .error error :: rest => (some (.error error), rest)
  | .ok line :: rest =>
      if isSkipped (trim line) then nextNonCommentLine rest
      else (some (parseLine (trim line)), rest)

def tryNew (bytes : Bytes) : Except IoError SolutionReader :=
  match nextNonCommentLine (bufReadLines bytes) with
  | (some (.ok size), rest) => .ok ⟨rest, size⟩
  | (some (.error error), _) => .error error
  | (none, _) => .error ⟨.unexpectedEof, "No solution size found"⟩

/-- `Iterator::next`: node ids are counted from 1 in the text and from 0 in the program. -/
def next (reader : SolutionReader) : Option (Except IoError ℕ) × SolutionReader :=
  match nextNonCommentLine reader.lines with
  | (some (.ok x), rest) =>
      if x > 0 then (some (.ok (x - 1)), { reader with lines := rest })
      else (some (.error (invalidData "Node id smaller than 1")), { reader with lines := rest })
  | (some (.error error), rest) => (some (.error error), { reader with lines := rest })
  | (none, rest) => (none, { reader with lines := rest })

theorem length_nextNonCommentLine_lt {lines : List Line} {item : Except IoError ℕ}
    (h : (nextNonCommentLine lines).1 = some item) :
    (nextNonCommentLine lines).2.length < lines.length := by
  fun_induction nextNonCommentLine lines with
  | case1 => simp at h
  | case2 => simp
  | case3 text rest hc ih => exact (ih h).trans (Nat.lt_succ_self _)
  | case4 => simp

theorem length_next_lt {reader : SolutionReader} {item : Except IoError ℕ}
    (h : reader.next.1 = some item) : reader.next.2.lines.length < reader.lines.length := by
  have hrest : reader.next.2.lines = (nextNonCommentLine reader.lines).2 := by
    unfold next
    split <;> (try split) <;> simp [*]
  rw [hrest]
  rcases hline : nextNonCommentLine reader.lines with ⟨_ | first, rest⟩
  · simp [next, hline] at h
  · simpa only [hline] using length_nextNonCommentLine_lt (congrArg Prod.fst hline)

/-- The loop of `Solution::read` that collects the nodes below the bound. -/
def collectNodes (nodesUpperBound : Option ℕ) (reader : SolutionReader) :
    Except IoError (List ℕ) :=
  match _h : reader.next with
  | (none, _) => .ok []
  | (some (.error error), _) => .error error
  | (some (.ok node), rest) =>
      if nodesUpperBound.any (fun bound => node ≥ bound) then
        .error (invalidData "Node id larger than the number of nodes in the header")
      else do
        let nodes ← collectNodes nodesUpperBound rest
        return node :: nodes
termination_by reader.lines.length
decreasing_by
  have hitem : reader.next.1 = some (.ok node) := by rw [_h]
  have hlt := length_next_lt hitem
  rwa [_h] at hlt

end SolutionReader

/-- A set of nodes counted from 0; `read` yields it sorted and without repetition. -/
structure Solution where
  solution : List ℕ
  deriving DecidableEq, Repr

namespace Solution

/-- `Vec::dedup` removes consecutive repetitions. -/
def dedup (nodes : List ℕ) : List ℕ :=
  nodes.destutter (· ≠ ·)

def read (bytes : Bytes) (nodesUpperBound : Option ℕ) : Except IoError Solution := do
  let reader ← SolutionReader.tryNew bytes
  let solution ← reader.collectNodes nodesUpperBound
  if solution.length ≠ reader.solutionSize then
    .error (invalidData
      "Number of nodes in solution does not match the number of nodes in the header")
  else
    let solution := dedup (solution.insertionSort (· ≤ ·))
    if solution.length ≠ reader.solutionSize then
      .error (invalidData "Solution contains duplicates")
    else
      return ⟨solution⟩

/-- `adjlist[u as usize].push(v)`, with its bounds check. -/
def pushNeighbor (adjlist : List (List ℕ)) (u v : ℕ) :
    Outcome IoError (List (List ℕ)) :=
  match adjlist[u]? with
  | none => .panic "index out of bounds"
  | some neighbors => .ok (adjlist.set u (neighbors ++ [v]))

/-- The first loop of `valid_domset_for_instance`. -/
def buildAdjlist (n : ℕ) : List Edge → List (List ℕ) → Outcome IoError (List (List ℕ))
  | [], adjlist => .ok adjlist
  | ⟨u, v⟩ :: edges, adjlist =>
      if max u v ≥ n then
        .err (invalidData "Edge contains node id larger than the number of nodes")
      else do
        let adjlist ← pushNeighbor adjlist u v
        let adjlist ← pushNeighbor adjlist v u
        buildAdjlist n edges adjlist

/-- The second loop of `valid_domset_for_instance`; `covered` is a hash set. -/
def cover (n : ℕ) (adjlist : List (List ℕ)) :
    List ℕ → Finset ℕ → Outcome IoError (Finset ℕ)
  | [], covered => .ok covered
  | u :: solution, covered =>
      if u ≥ n then
        .err (invalidData "Node id in solution larger than the number of nodes")
      else match adjlist[u]? with
        | none => .panic "index out of bounds"
        | some neighbors => cover n adjlist solution (insert u covered ∪ neighbors.toFinset)

/-- Verifies that the solution is a dominating set of the graph with `n` nodes. -/
def validDomsetForInstance (self : Solution) (n : ℕ) (edges : List Edge) :
    Outcome IoError Bool := do
  let adjlist ← buildAdjlist n edges (List.replicate n [])
  let covered ← cover n adjlist self.solution ∅
  return covered.card = n

/-- `*x += 1` for every node of the solution. -/
def take1indexedSolution (profile : BuildProfile) (self : Solution) :
    Outcome IoError (List ℕ) :=
  go self.solution
where
  go : List ℕ → Outcome IoError (List ℕ)
    | [] => .ok []
    | x :: xs => do
        let x ← u32Add profile x 1
        let xs ← go xs
        return x :: xs

end Solution

end StrideRunner.Pace
