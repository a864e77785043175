import StrideRunner.Library.Sorting
import StrideRunner.Library.Traversal
import StrideRunner.Model.Pace.Solution
import StrideRunner.Verification.Text

/-! # What `Solution::read` accepts

The reader is first reduced to the list of its items, then `read` to a traversal of that list,
and finally acceptance to a grammar on the raw lines of the input. -/

namespace StrideRunner.Pace

open StrideRunner Library

namespace SolutionReader

/-! ## The items of the reader -/

/-- What a line contributes to the iteration; skipped lines contribute nothing. -/
def lineItem : Line → Option (Except IoError ℕ)
  | .error error => some (.error error)
  | .ok line => if isSkipped (trim line) then none else some (parseLine (trim line))

def items (lines : List Line) : List (Except IoError ℕ) :=
  lines.filterMap lineItem

theorem nextNonCommentLine_eq_nextHit (lines : List Line) :
    nextNonCommentLine lines = nextHit lineItem lines := by
  fun_induction nextNonCommentLine lines with
  | case1 => rfl
  | case2 => rfl
  | case3 line rest hskip ih => simp [nextHit, lineItem, hskip, ih]
  | case4 line rest hskip => simp [nextHit, lineItem, hskip]

/-- The shift from ids counted from 1 to ids counted from 0. -/
def shiftItem : Except IoError ℕ → Except IoError ℕ
  | .ok x => if x > 0 then .ok (x - 1) else .error (invalidData "Node id smaller than 1")
  | .error error => .error error

theorem next_fst (reader : SolutionReader) :
    reader.next.1 = (items reader.lines).head?.map shiftItem := by
  rw [items, ← nextHit_fst, ← nextNonCommentLine_eq_nextHit]
  unfold next
  rcases nextNonCommentLine reader.lines with ⟨_ | _ | x, rest⟩
  · rfl
  · rfl
  · simp only [shiftItem, Option.map_some]
    split <;> rfl

theorem items_next_snd (reader : SolutionReader) :
    items reader.next.2.lines = (items reader.lines).tail := by
  rw [items, items, ← filterMap_nextHit_snd, ← nextNonCommentLine_eq_nextHit]
  unfold next
  rcases nextNonCommentLine reader.lines with ⟨_ | _ | x, rest⟩
  · rfl
  · rfl
  · simp only
    split <;> rfl

theorem items_eq_nil_of_next {reader rest : SolutionReader} (h : reader.next = (none, rest)) :
    items reader.lines = [] := by
  have hfst := next_fst reader
  rw [h] at hfst
  cases hitems : items reader.lines with
  | nil => rfl
  | cons item tail => simp [hitems] at hfst

theorem items_eq_cons_of_next {reader rest : SolutionReader} {item : Except IoError ℕ}
    (h : reader.next = (some item, rest)) :
    ∃ first, items reader.lines = first :: items rest.lines ∧ shiftItem first = item := by
  have hfst := next_fst reader
  have hsnd := items_next_snd reader
  rw [h] at hfst hsnd
  cases hitems : items reader.lines with
  | nil => simp [hitems] at hfst
  | cons first tail =>
      rw [hsnd, hitems]
      exact ⟨first, rfl, by simpa [hitems] using hfst.symm⟩

/-- The bound check in the loop of `read`, after the shift. -/
def boundItem (nodesUpperBound : Option ℕ) (item : Except IoError ℕ) : Except IoError ℕ := do
  let node ← shiftItem item
  if nodesUpperBound.any (fun bound => node ≥ bound) then
    .error (invalidData "Node id larger than the number of nodes in the header")
  else return node

theorem collectNodes_eq_mapM (nodesUpperBound : Option ℕ) (reader : SolutionReader) :
    reader.collectNodes nodesUpperBound =
      (items reader.lines).mapM (boundItem nodesUpperBound) := by
  fun_induction collectNodes nodesUpperBound reader with
  | case1 reader rest hnext =>
      rw [items_eq_nil_of_next hnext]
      rfl
  | case2 reader error rest hnext =>
      obtain ⟨first, hitems, hshift⟩ := items_eq_cons_of_next hnext
      simp [hitems, List.mapM_cons, boundItem, hshift]
  | case3 reader node rest hnext hbound =>
      obtain ⟨first, hitems, hshift⟩ := items_eq_cons_of_next hnext
      simp [hitems, List.mapM_cons, boundItem, hshift, hbound]
  | case4 reader node rest hnext hbound ih =>
      obtain ⟨first, hitems, hshift⟩ := items_eq_cons_of_next hnext
      simp [hitems, List.mapM_cons, boundItem, hshift, hbound, ih]

/-! ## Errors -/

theorem kind_of_mem_items {bytes : Bytes} {error : IoError}
    (h : .error error ∈ items (bufReadLines bytes)) : error.kind = .invalidData := by
  obtain ⟨line, hline, hitem⟩ := List.mem_filterMap.mp h
  obtain ⟨raw, hraw, rfl⟩ := List.mem_map.mp hline
  unfold decodeLine at hitem
  split at hitem
  · simp only [lineItem] at hitem
    split at hitem
    · simp at hitem
    · simp only [parseLine, Option.some.injEq] at hitem
      split at hitem
      · cases hitem; rfl
      · split at hitem <;> cases hitem
        rfl
  · cases hitem; rfl

theorem boundItem_succ (nodesUpperBound : Option ℕ) (x : ℕ) :
    boundItem nodesUpperBound (.ok (x + 1)) =
      if nodesUpperBound.any (fun bound => x ≥ bound) then
        .error (invalidData "Node id larger than the number of nodes in the header")
      else .ok x := rfl

theorem boundItem_eq_ok_iff {nodesUpperBound : Option ℕ} {item : Except IoError ℕ}
    {node : ℕ} :
    boundItem nodesUpperBound item = .ok node ↔
      item = .ok (node + 1) ∧ ∀ bound ∈ nodesUpperBound, node < bound := by
  cases item with
  | error error => simp [boundItem, shiftItem]
  | ok x =>
      cases x with
      | zero => simp [boundItem, shiftItem]
      | succ x =>
          rw [boundItem_succ]
          cases nodesUpperBound with
          | none => simp
          | some bound =>
              by_cases hx : bound ≤ x
              · simp only [Option.any_some, ge_iff_le, hx, decide_true, if_true, reduceCtorEq,
                  Option.mem_some_iff, forall_eq', Except.ok.injEq, false_iff, not_and]
                rintro h hlt
                exact absurd hx (Nat.not_le.mpr (Nat.succ_injective h ▸ hlt))
              · simp only [Option.any_some, ge_iff_le, hx, decide_false, Bool.false_eq_true,
                  if_false, Option.mem_some_iff, forall_eq', Except.ok.injEq]
                constructor
                · rintro rfl
                  exact ⟨rfl, Nat.lt_of_not_le hx⟩
                · rintro ⟨h, _⟩
                  exact Nat.succ_injective h

theorem kind_of_boundItem {nodesUpperBound : Option ℕ} {item : Except IoError ℕ}
    {error : IoError} (h : boundItem nodesUpperBound item = .error error) :
    item = .error error ∨ error.kind = .invalidData := by
  cases item with
  | error e =>
      simp only [boundItem, shiftItem, except_error_bind, Except.error.injEq] at h
      exact Or.inl (congrArg _ h)
  | ok x =>
      right
      cases x with
      | zero =>
          cases h
          rfl
      | succ x =>
          rw [boundItem_succ] at h
          split at h <;> cases h
          rfl

end SolutionReader

/-! ## `read` as a function of the items -/

namespace Solution

open SolutionReader

/-- The checks of `read` behind the loop. -/
def finish (solutionSize : ℕ) (nodes : List ℕ) : Except IoError Solution :=
  if nodes.length ≠ solutionSize then
    .error (invalidData
      "Number of nodes in solution does not match the number of nodes in the header")
  else if (dedup (nodes.insertionSort (· ≤ ·))).length ≠ solutionSize then
    .error (invalidData "Solution contains duplicates")
  else .ok ⟨dedup (nodes.insertionSort (· ≤ ·))⟩

def readItems (nodesUpperBound : Option ℕ) : List (Except IoError ℕ) → Except IoError Solution
  | [] => .error ⟨.unexpectedEof, "No solution size found"⟩
  | .error error :: _ => .error error
  | .ok solutionSize :: rest => do
      let nodes ← rest.mapM (boundItem nodesUpperBound)
      finish solutionSize nodes

theorem read_eq_readItems (bytes : Bytes) (nodesUpperBound : Option ℕ) :
    read bytes nodesUpperBound = readItems nodesUpperBound (items (bufReadLines bytes)) := by
  have hfst := nextHit_fst lineItem (bufReadLines bytes)
  have hsnd := filterMap_nextHit_snd lineItem (bufReadLines bytes)
  unfold read tryNew
  rw [nextNonCommentLine_eq_nextHit]
  generalize nextHit lineItem (bufReadLines bytes) = hit at hfst hsnd
  obtain ⟨first, rest⟩ := hit
  change List.filterMap lineItem rest = (items (bufReadLines bytes)).tail at hsnd
  change first = (items (bufReadLines bytes)).head? at hfst
  cases hitems : items (bufReadLines bytes) with
  | nil =>
      rw [hitems] at hfst
      subst hfst
      rfl
  | cons item tail =>
      rw [hitems] at hfst hsnd
      subst hfst
      cases item with
      | error error => rfl
      | ok solutionSize =>
          simp only [List.head?_cons, except_ok_bind, collectNodes_eq_mapM, readItems]
          rw [items, hsnd]
          rfl

theorem dedup_insertionSort (nodes : List ℕ) :
    dedup (nodes.insertionSort (· ≤ ·)) = sortDedup nodes := rfl

theorem finish_eq_ok_iff {solutionSize : ℕ} {nodes : List ℕ} {s : Solution} :
    finish solutionSize nodes = .ok s ↔
      nodes.length = solutionSize ∧ nodes.Nodup ∧ s = ⟨nodes.insertionSort (· ≤ ·)⟩ := by
  unfold finish
  rw [dedup_insertionSort]
  by_cases hsize : nodes.length = solutionSize
  · subst hsize
    by_cases hnodup : nodes.Nodup
    · simp [sortDedup_of_nodup hnodup, hnodup, eq_comm]
    · simp [length_sortDedup_eq_iff, hnodup]
  · simp [hsize]

theorem kind_of_finish {solutionSize : ℕ} {nodes : List ℕ} {error : IoError}
    (h : finish solutionSize nodes = .error error) : error.kind = .invalidData := by
  unfold finish at h
  split at h
  · cases h; rfl
  · split at h <;> cases h
    rfl

/-- The error kinds of `read`: only an input without any item is an unexpected end of file. -/
theorem kind_of_read {bytes : Bytes} {nodesUpperBound : Option ℕ} {error : IoError}
    (h : read bytes nodesUpperBound = .error error) :
    (items (bufReadLines bytes) = [] ∧ error.kind = .unexpectedEof) ∨
      (items (bufReadLines bytes) ≠ [] ∧ error.kind = .invalidData) := by
  rw [read_eq_readItems] at h
  cases hitems : items (bufReadLines bytes) with
  | nil =>
      rw [hitems] at h
      cases h
      exact Or.inl ⟨rfl, rfl⟩
  | cons item tail =>
      refine Or.inr ⟨by simp, ?_⟩
      have hmem : ∀ x ∈ item :: tail, ∀ e, x = .error e → e.kind = .invalidData := by
        rintro x hx e rfl
        exact kind_of_mem_items (hitems ▸ hx)
      rw [hitems] at h
      cases item with
      | error e =>
          cases h
          exact hmem _ (by simp) _ rfl
      | ok solutionSize =>
          simp only [readItems] at h
          cases hnodes : tail.mapM (boundItem nodesUpperBound) with
          | error e =>
              rw [hnodes] at h
              cases h
              obtain ⟨x, hx, hbound⟩ := exists_error_of_mapM_eq_error hnodes
              rcases kind_of_boundItem hbound with rfl | hkind
              · exact hmem _ (List.mem_cons_of_mem _ hx) _ rfl
              · exact hkind
          | ok nodes =>
              rw [hnodes] at h
              exact kind_of_finish h

end Solution

end StrideRunner.Pace
