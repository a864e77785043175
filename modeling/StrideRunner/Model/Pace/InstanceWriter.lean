import StrideRunner.Library.Sorting
import StrideRunner.Model.Pace.InstanceReader
import Mathlib.Data.Prod.Lex

/-! # The instance writer

The writer appends to a buffer in memory, which never fails. -/

namespace StrideRunner.Pace

open StrideRunner Library

/-- The derived order compares the first endpoints first. -/
instance : LinearOrder Edge :=
  LinearOrder.lift' (fun edge => toLex (edge.u, edge.v)) fun e f h => by
    cases e
    cases f
    simpa using h

theorem edge_lt_iff {e f : Edge} : e < f ↔ e.u < f.u ∨ e.u = f.u ∧ e.v < f.v :=
  Prod.Lex.toLex_lt_toLex

namespace InstanceWriter

def maxNode (edges : List Edge) : ℕ :=
  (edges.map fun edge => max edge.u edge.v).max?.getD 0

def minNode (edges : List Edge) : ℕ :=
  (edges.map fun edge => min edge.u edge.v).min?.getD 0

/-- `{}` at an unsigned type. -/
def decimal (n : ℕ) : List Char := Nat.toDigits 10 n

def headerLine (problemId : List Char) (numNodes numEdges : ℕ) : List Char :=
  ['p', ' '] ++ problemId ++ ' ' :: decimal numNodes ++ ' ' :: decimal numEdges ++ ['\n']

/-- One round of the loop; the ids in the text are counted from 1. -/
def edgeLine (profile : BuildProfile) (minNode : ℕ) (edge : Edge) : Outcome IoError (List Char) := do
  let u ← u32Sub profile edge.u minNode
  let u ← u32Add profile u 1
  let v ← u32Sub profile edge.v minNode
  let v ← u32Add profile v 1
  return decimal u ++ ' ' :: decimal v ++ ['\n']

def writeEdges (profile : BuildProfile) (minNode : ℕ) :
    List Edge → List Char → Outcome IoError Unit × List Char
  | [], written => (.ok (), written)
  | edge :: edges, written =>
      match edgeLine profile minNode edge with
      | .ok line => writeEdges profile minNode edges (written ++ line)
      | .err error => (.err error, written)
      | .panic message => (.panic message, written)

end InstanceWriter

open InstanceWriter

/-- `pace_writer`: the numbers of nodes and edges, and the text that has been written. -/
def paceWriter (profile : BuildProfile) (problemId : List Char) (edges : List Edge) :
    Outcome IoError (ℕ × ℕ) × List Char :=
  if edges = [] then (.err ⟨.invalidInput, "No edges to write"⟩, [])
  else
    -- `sort_unstable` and `dedup`
    let edges := sortDedup edges
    let numNodes : Outcome IoError ℕ := do
      let span ← u32Sub profile (maxNode edges) (minNode edges)
      u32Add profile span 1
    match numNodes with
    | .err error => (.err error, [])
    | .panic message => (.panic message, [])
    | .ok numNodes =>
        match writeEdges profile (minNode edges) edges
            (headerLine problemId numNodes edges.length) with
        | (.ok (), written) => (.ok (numNodes, edges.length), written)
        | (.err error, written) => (.err error, written)
        | (.panic message, written) => (.panic message, written)

end StrideRunner.Pace
