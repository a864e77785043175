import StrideRunner.Library.Hashing
import StrideRunner.Model.Pace.InstanceWriter
import StrideRunner.Model.Pace.Solution

/-! # The other forms of a solution

A solution is written as a text, converted from and to a vector of ids counted from 1, and hashed.
The text is appended to a buffer in memory. -/

namespace StrideRunner.Pace.Solution

open StrideRunner Library InstanceWriter

/-- `*u -= 1` for every entry, after the check of its range. -/
def from1indexedVec (profile : BuildProfile) (solution : List ℕ) (nodesUpperBound : Option ℕ) :
    Outcome IoError Solution := do
  let solution ← go solution
  return ⟨solution⟩
where
  go : List ℕ → Outcome IoError (List ℕ)
    | [] => .ok []
    | u :: us =>
        if u = 0 ∨ nodesUpperBound.any (fun n => u > n) then
          .err (invalidData "Node id out of range")
        else do
          let u ← u32Sub profile u 1
          let us ← go us
          return u :: us

def writeNodes (profile : BuildProfile) : List ℕ → List Char → Outcome IoError Unit × List Char
  | [], written => (.ok (), written)
  | u :: us, written =>
      match (u32Add profile u 1 : Outcome IoError ℕ) with
      | .ok id => writeNodes profile us (written ++ (decimal id ++ ['\n']))
      | .err error => (.err error, written)
      | .panic message => (.panic message, written)

/-- The result of `write`, and the text that has been written. -/
def write (profile : BuildProfile) (self : Solution) : Outcome IoError Unit × List Char :=
  if self.solution = [] then (.err ⟨.invalidInput, "No solution to write"⟩, [])
  else writeNodes profile self.solution (decimal self.solution.length ++ ['\n'])

/-- `u32::to_le_bytes`; `UInt8.ofNat` keeps the lowest byte. -/
def toLeBytes (value : ℕ) : Bytes :=
  [.ofNat value, .ofNat (value / 256), .ofNat (value / 65536), .ofNat (value / 16777216)]

def updateNodes {δ : Type} (profile : BuildProfile) (hasher : Hasher UInt8 δ) :
    List ℕ → hasher.State → Outcome IoError hasher.State
  | [], state => .ok state
  | node :: nodes, state => do
      let id ← u32Add profile node 1
      updateNodes profile hasher nodes (hasher.update state (toLeBytes id))

/-- `hasher` is `Sha1`. -/
def computeDigest {δ : Type} (profile : BuildProfile) (hasher : Hasher UInt8 δ)
    (self : Solution) : Outcome IoError δ := do
  let state ← updateNodes profile hasher self.solution hasher.new
  return hasher.finalize state

end StrideRunner.Pace.Solution
