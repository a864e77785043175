import Mathlib.Data.List.Basic

/-! # Incremental hash functions

A hasher takes its input in pieces, and only their concatenation matters. Pieces of one length can
be told from it. -/

namespace StrideRunner.Library

/-- A hash function of texts over `γ` that can be fed piece by piece. -/
structure Hasher (γ δ : Type) where
  State : Type
  new : State
  update : State → List γ → State
  finalize : State → δ
  hash : List γ → δ
  finalize_foldl : ∀ pieces : List (List γ),
    finalize (pieces.foldl update new) = hash pieces.flatten

namespace Hasher

/-- Any function gives a hasher, which collects its input first. -/
def ofHash {γ δ : Type} (hash : List γ → δ) : Hasher γ δ where
  State := List γ
  new := []
  update := (· ++ ·)
  finalize := hash
  hash := hash
  finalize_foldl pieces := by
    have hfoldl : ∀ start, pieces.foldl (· ++ ·) start = start ++ pieces.flatten := by
      induction pieces with
      | nil => simp
      | cons piece pieces ih =>
          intro start
          rw [List.foldl_cons, ih, List.flatten_cons, List.append_assoc]
    rw [hfoldl, List.nil_append]

/-- The hasher whose digest is the input itself. -/
def recorder {γ : Type} : Hasher γ (List γ) := ofHash id

@[simp] theorem hash_recorder {γ : Type} (text : List γ) : recorder.hash text = text := rfl

end Hasher

/-- Blocks of one length are determined by their concatenation. -/
theorem flatMap_inj_of_length {α γ : Type} {encode : α → List γ} {size : ℕ} (hsize : 0 < size)
    (hlength : ∀ a, (encode a).length = size) {xs ys : List α}
    (hinj : ∀ a ∈ xs, ∀ b ∈ ys, encode a = encode b → a = b)
    (h : xs.flatMap encode = ys.flatMap encode) : xs = ys := by
  have hne : ∀ a text, encode a ++ text ≠ [] := by
    intro a text hnil
    have hzero := congrArg List.length hnil
    rw [List.length_append, hlength, List.length_nil] at hzero
    omega
  induction xs generalizing ys with
  | nil =>
      cases ys with
      | nil => rfl
      | cons y ys => exact (hne y _ h.symm).elim
  | cons x xs ih =>
      cases ys with
      | nil => exact (hne x _ h).elim
      | cons y ys =>
          rw [List.flatMap_cons, List.flatMap_cons] at h
          obtain ⟨hhead, htail⟩ := List.append_inj h ((hlength x).trans (hlength y).symm)
          have hxy := hinj x List.mem_cons_self y List.mem_cons_self hhead
          have hrest : xs = ys := by
            apply ih _ htail
            intro a ha b hb
            exact hinj a (List.mem_cons_of_mem _ ha) b (List.mem_cons_of_mem _ hb)
          rw [hxy, hrest]

end StrideRunner.Library
