import Mathlib.Data.List.Destutter
import Mathlib.Data.List.Sort

/-! # Sorting and other orders

Sorting and then removing consecutive repetitions gives the strictly increasing list of the
elements, so the result depends only on which elements there are. -/

namespace StrideRunner.Library

/-- Some order of a list, such as that of a hash set or of a random shuffle. -/
structure Reordering (α : Type*) where
  run : List α → List α
  perm : ∀ xs, (run xs).Perm xs

namespace Reordering

variable {α : Type*} (order : Reordering α)

/-- The order that the list already has. -/
def refl : Reordering α := ⟨id, fun xs => .refl xs⟩

@[simp] theorem mem_run {xs : List α} {x : α} : x ∈ order.run xs ↔ x ∈ xs :=
  (order.perm xs).mem_iff

@[simp] theorem nodup_run {xs : List α} : (order.run xs).Nodup ↔ xs.Nodup :=
  (order.perm xs).nodup_iff

end Reordering

variable {α : Type*} [LinearOrder α]

theorem sortedLT_insertionSort {xs : List α} (h : xs.Nodup) :
    (xs.insertionSort (· ≤ ·)).SortedLT := by
  have hsorted : (xs.insertionSort (· ≤ ·)).SortedLE :=
    (List.pairwise_insertionSort (· ≤ ·) xs).sortedLE
  exact hsorted.sortedLT_of_nodup ((List.perm_insertionSort (· ≤ ·) xs).nodup_iff.mpr h)

def sortDedup (xs : List α) : List α :=
  (xs.insertionSort (· ≤ ·)).destutter (· ≠ ·)

theorem sortDedup_eq_dedup (xs : List α) : sortDedup xs = (xs.insertionSort (· ≤ ·)).dedup :=
  (List.pairwise_insertionSort (· ≤ ·) xs).destutter_eq_dedup

@[simp] theorem mem_sortDedup {xs : List α} {x : α} : x ∈ sortDedup xs ↔ x ∈ xs := by
  rw [sortDedup_eq_dedup, List.mem_dedup, List.mem_insertionSort]

theorem sortedLT_sortDedup (xs : List α) : (sortDedup xs).SortedLT := by
  have hsorted : (sortDedup xs).SortedLE :=
    ((List.pairwise_insertionSort (· ≤ ·) xs).sublist (List.destutter_sublist _ _)).sortedLE
  apply hsorted.sortedLT_of_nodup
  rw [sortDedup_eq_dedup]
  exact List.nodup_dedup _

theorem sortDedup_congr {xs ys : List α} (h : ∀ x, x ∈ xs ↔ x ∈ ys) :
    sortDedup xs = sortDedup ys :=
  (sortedLT_sortDedup xs).eq_of_mem_iff (sortedLT_sortDedup ys) fun x => by simp [h x]

theorem sortDedup_of_sortedLT {xs : List α} (h : xs.SortedLT) : sortDedup xs = xs :=
  (sortedLT_sortDedup xs).eq_of_mem_iff h fun _ => mem_sortDedup

theorem sortDedup_of_nodup {xs : List α} (h : xs.Nodup) :
    sortDedup xs = xs.insertionSort (· ≤ ·) := by
  rw [sortDedup_eq_dedup]
  exact ((List.perm_insertionSort (· ≤ ·) xs).nodup_iff.mpr h).dedup

/-- Equal lengths before and after mean that there was nothing to remove. -/
theorem length_sortDedup_eq_iff {xs : List α} : (sortDedup xs).length = xs.length ↔ xs.Nodup := by
  constructor
  · intro h
    have hlength := h.trans (List.length_insertionSort (· ≤ ·) xs).symm
    rw [sortDedup_eq_dedup] at hlength
    have hsame := (List.dedup_sublist _).eq_of_length hlength
    exact (List.perm_insertionSort (· ≤ ·) xs).nodup_iff.mp (List.dedup_eq_self.mp hsame)
  · intro h
    rw [sortDedup_of_nodup h, List.length_insertionSort]

end StrideRunner.Library
