import Mathlib.Algebra.Ring.Nat
import StrideRunner.Library.PriorityQueue
import StrideRunner.Model.Pace.SolutionWriter

/-! # The example solver `greedy`

The solver reads an instance from its standard input, picks nodes by the number of their
neighbours that have not been picked, and prints them in the format of a solution. -/

namespace StrideRunner.Greedy

open Pace Library InstanceWriter

/-- The options that decide what is printed; `--sleep` only delays it. -/
structure Opt where
  addComment : Bool
  wrongCardinality : Bool
  infeasible : Bool
  waitSigterm : Bool
  neverTerminate : Bool
  emptyLines : Bool
  deriving DecidableEq, Repr

/-! ## Reading the graph -/

/-- The loop of `read_graph`. The assertion stands between the two pushes. -/
def readEdges (profile : BuildProfile) (reader : PaceReader) (closedNeighbors : List (List ℕ)) :
    Outcome IoError (List (List ℕ)) :=
  match _h : PaceReader.next profile reader with
  | (.ok none, _) => .ok closedNeighbors
  | (.ok (some edge), rest) => do
      let closedNeighbors ← Solution.pushNeighbor closedNeighbors edge.u edge.v
      if edge.u = edge.v then .panic "assertion `left != right` failed"
      else
        let closedNeighbors ← Solution.pushNeighbor closedNeighbors edge.v edge.u
        readEdges profile rest closedNeighbors
  | (.err error, _) => .err error
  | (.panic message, _) => .panic message
termination_by reader.lines.length
decreasing_by
  have hedge : (PaceReader.next profile reader).1 = .ok (some edge) := by rw [_h]
  have hlt := PaceReader.length_next_lt hedge
  rwa [_h] at hlt

/-- The `debug_assert_eq` after the loop; its right side is a product of `usize` values. -/
def debugAssertCount (profile : BuildProfile) (closedNeighbors : List (List ℕ))
    (numberOfEdges : ℕ) : Outcome IoError Unit :=
  if profile = .debug then
    if U64_SIZE ≤ 2 * numberOfEdges then .panic "attempt to multiply with overflow"
    else if (closedNeighbors.map List.length).sum ≠ 2 * numberOfEdges then
      .panic "assertion `left == right` failed"
    else .ok ()
  else .ok ()

def readGraph (profile : BuildProfile) (stdin : Bytes) : Outcome IoError (List (List ℕ)) := do
  let reader ← Outcome.ofExcept (PaceReader.tryNew stdin)
  let closedNeighbors ← readEdges profile reader (List.replicate reader.numberOfNodes [])
  debugAssertCount profile closedNeighbors reader.numberOfEdges
  return closedNeighbors

/-! ## Picking nodes -/

/-- The node ids and the lengths of the lists are cast to `u32`. -/
def initialQueue (graph : List (List ℕ)) : PriorityQueue ℕ :=
  graph.zipIdx.foldl (fun queue entry =>
    PriorityQueue.push queue (entry.2 % U32_SIZE) (entry.1.length % U32_SIZE)) []

/-- `pq.change_priority_by(neighbor, |d| *d -= 1)`: nothing happens to an absent node. -/
def decrease (profile : BuildProfile) (queue : PriorityQueue ℕ) (neighbor : ℕ) :
    Outcome IoError (PriorityQueue ℕ) :=
  match PriorityQueue.priority? queue neighbor with
  | none => .ok queue
  | some d => do
      let d ← u32Sub profile d 1
      return PriorityQueue.setPriority queue neighbor d

def decreaseAll (profile : BuildProfile) :
    List ℕ → PriorityQueue ℕ → Outcome IoError (PriorityQueue ℕ)
  | [], queue => .ok queue
  | neighbor :: neighbors, queue => do
      let queue ← decrease profile queue neighbor
      decreaseAll profile neighbors queue

theorem length_decrease {profile : BuildProfile} {queue next : PriorityQueue ℕ} {neighbor : ℕ}
    (h : decrease profile queue neighbor = .ok next) : next.length = queue.length := by
  unfold decrease at h
  split at h
  · cases h
    rfl
  · obtain ⟨d, _, h⟩ := Outcome.bind_eq_ok.mp h
    cases h
    exact PriorityQueue.length_setPriority

theorem length_decreaseAll {profile : BuildProfile} {neighbors : List ℕ}
    {queue next : PriorityQueue ℕ} (h : decreaseAll profile neighbors queue = .ok next) :
    next.length = queue.length := by
  induction neighbors generalizing queue with
  | nil =>
      cases h
      rfl
  | cons neighbor neighbors ih =>
      obtain ⟨mid, hmid, h⟩ := Outcome.bind_eq_ok.mp h
      rw [ih h, length_decrease hmid]

/-- The loop of `greedy`; `ties step` decides which node the pop number `step` yields. -/
def greedyLoop (profile : BuildProfile) (ties : ℕ → TieBreak ℕ) (graph : List (List ℕ))
    (step : ℕ) (queue : PriorityQueue ℕ) : Outcome IoError (List ℕ) :=
  match _hpop : PriorityQueue.pop (ties step) queue with
  | none => .ok []
  | some ((node, degree), rest) =>
      if degree = 0 then greedyLoop profile ties graph (step + 1) rest
      else match graph[node]? with
        | none => .panic "index out of bounds"
        | some neighbors =>
            match _hnext : decreaseAll profile neighbors rest with
            | .ok next => do
                let domset ← greedyLoop profile ties graph (step + 1) next
                return node :: domset
            | .err error => .err error
            | .panic message => .panic message
termination_by queue.length
decreasing_by
  · have hlength := PriorityQueue.length_of_pop _hpop
    omega
  · have hlength := PriorityQueue.length_of_pop _hpop
    have hsame := length_decreaseAll _hnext
    omega

def greedy (profile : BuildProfile) (ties : ℕ → TieBreak ℕ) (graph : List (List ℕ)) :
    Outcome IoError (List ℕ) :=
  greedyLoop profile ties graph 0 (initialQueue graph)

/-! ## Printing -/

def commentLine (opts : Opt) (text : String) : List Char :=
  if opts.addComment then text.toList ++ ['\n'] else []

def emptyLine (opts : Opt) : List Char :=
  if opts.emptyLines then ['\n'] else []

/-- The text that has been printed when `print_result` ends. -/
def printResult (profile : BuildProfile) (opts : Opt) (domset : List ℕ) :
    Outcome IoError Unit × List Char :=
  let head := commentLine opts "c Greedy algorithm" ++ emptyLine opts ++
    (decimal (domset.length + opts.wrongCardinality.toNat) ++ ['\n']) ++
    commentLine opts "c Here goes another comment" ++ emptyLine opts
  match Solution.writeNodes profile domset head with
  | (.ok (), text) => (.ok (), text ++ emptyLine opts)
  | (outcome, text) => (outcome, text)

/-- What the process prints, and its exit code if it ends. -/
structure Ending where
  text : List Char
  code : Option ℕ
  deriving DecidableEq, Repr

/-- The exit code of a `main` that returns or unwinds. -/
def exitCode {α : Type} : Outcome IoError α → ℕ
  | .ok _ => 0
  | .err _ => 1
  | .panic _ => 101

/-- Waiting for SIGTERM leaves its trace in the text. -/
def main (profile : BuildProfile) (ties : ℕ → TieBreak ℕ) (opts : Opt) (stdin : Bytes) : Ending :=
  match readGraph profile stdin >>= greedy profile ties with
  | .ok domset =>
      let domset := if opts.infeasible then domset.take (domset.length / 2) else domset
      let waiting :=
        if opts.waitSigterm then
          commentLine opts "c Waiting for SIGTERM" ++ commentLine opts "c Got SIGTERM"
        else []
      if opts.neverTerminate then ⟨waiting, none⟩
      else
        let printed := printResult profile opts domset
        ⟨waiting ++ printed.2, some (exitCode printed.1)⟩
  | outcome => ⟨[], some (exitCode outcome)⟩

end StrideRunner.Greedy
