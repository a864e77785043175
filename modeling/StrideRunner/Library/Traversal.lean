import Mathlib.Data.List.Forall2
import Mathlib.Data.List.Induction

/-! # Traversals of lists

`mapM` in `Except` stops at the first error. Iterators that skip some elements of a list are
described by `nextHit`: the first element that is kept, with the rest of the list. Two facts on
positions and on separators follow. -/

namespace StrideRunner.Library

variable {α β ε : Type}

/-! ## Traversal in `Except` -/

@[simp] theorem except_ok_bind {ε α β : Type} (value : α) (next : α → Except ε β) :
    (Except.ok value >>= next) = next value := rfl

@[simp] theorem except_error_bind {ε α β : Type} (error : ε) (next : α → Except ε β) :
    ((Except.error error : Except ε α) >>= next) = .error error := rfl

@[simp] theorem except_pure (value : α) : (pure value : Except ε α) = .ok value := rfl

theorem except_bind_eq_ok {x : Except ε α} {next : α → Except ε β} {result : β} :
    (x >>= next) = .ok result ↔ ∃ value, x = .ok value ∧ next value = .ok result := by
  cases x with
  | error error => simp
  | ok value => simp

/-- A traversal succeeds exactly when every element does. -/
theorem mapM_eq_ok_iff {f : α → Except ε β} {xs : List α} {ys : List β} :
    xs.mapM f = .ok ys ↔ List.Forall₂ (fun x y => f x = .ok y) xs ys := by
  induction xs generalizing ys with
  | nil => simp [eq_comm]
  | cons x xs ih =>
      rw [List.mapM_cons, except_bind_eq_ok]
      constructor
      · rintro ⟨y, hy, h⟩
        obtain ⟨zs, hzs, h⟩ := except_bind_eq_ok.mp h
        cases h
        exact .cons hy (ih.mp hzs)
      · intro h
        cases h with
        | cons hy hys =>
            refine ⟨_, hy, except_bind_eq_ok.mpr ⟨_, ih.mpr hys, rfl⟩⟩

/-- The error of a traversal is the error of one of its elements. -/
theorem exists_error_of_mapM_eq_error {f : α → Except ε β} {xs : List α} {error : ε}
    (h : xs.mapM f = .error error) : ∃ x ∈ xs, f x = .error error := by
  induction xs with
  | nil => simp at h
  | cons x xs ih =>
      rw [List.mapM_cons] at h
      cases hx : f x with
      | error e =>
          rw [hx] at h
          cases h
          exact ⟨x, by simp, hx⟩
      | ok y =>
          cases hxs : xs.mapM f with
          | error e =>
              simp only [hx, hxs, except_ok_bind, except_error_bind] at h
              cases h
              obtain ⟨z, hz, hfz⟩ := ih hxs
              exact ⟨z, List.mem_cons_of_mem x hz, hfz⟩
          | ok ys => simp [hx, hxs] at h

/-- Each element on the right is related to one on the left. -/
theorem exists_of_forall₂_mem {α β : Type*} {R : α → β → Prop} {xs : List α} {ys : List β}
    (h : List.Forall₂ R xs ys) {y : β} (hy : y ∈ ys) : ∃ x ∈ xs, R x y := by
  induction h with
  | nil => simp at hy
  | cons hxy _ ih =>
      rcases List.mem_cons.mp hy with rfl | hy
      · exact ⟨_, List.mem_cons_self, hxy⟩
      · obtain ⟨x, hx, hR⟩ := ih hy
        exact ⟨x, List.mem_cons_of_mem _ hx, hR⟩

/-! ## Skipping iterators -/

/-- The first value `f` produces on a list, with the elements behind it. -/
def nextHit (f : α → Option β) : List α → Option β × List α
  | [] => (none, [])
  | x :: xs =>
      match f x with
      | some y => (some y, xs)
      | none => nextHit f xs

theorem nextHit_fst (f : α → Option β) (xs : List α) :
    (nextHit f xs).1 = (xs.filterMap f).head? := by
  induction xs with
  | nil => rfl
  | cons x xs ih =>
      cases h : f x with
      | none => simpa [nextHit, h] using ih
      | some y => simp [nextHit, h]

theorem filterMap_nextHit_snd (f : α → Option β) (xs : List α) :
    (nextHit f xs).2.filterMap f = (xs.filterMap f).tail := by
  induction xs with
  | nil => rfl
  | cons x xs ih =>
      cases h : f x with
      | none => simpa [nextHit, h] using ih
      | some y => simp [nextHit, h]

/-! ## Positions and separators -/

/-- Reading off every position is reading off every element. -/
theorem filterMap_range_getElem? (xs : List α) (f : α → Option β) :
    (List.range xs.length).filterMap (fun i => xs[i]?.bind f) = xs.filterMap f := by
  induction xs using List.reverseRecOn with
  | nil => rfl
  | append_singleton xs x ih =>
      have hrange : (List.range xs.length).filterMap (fun i => (xs ++ [x])[i]?.bind f) =
          xs.filterMap f := by
        rw [← ih]
        apply List.filterMap_congr
        intro i hi
        rw [List.getElem?_append_left (List.mem_range.mp hi)]
      rw [List.length_append, List.length_singleton, List.range_succ, List.filterMap_append,
        hrange]
      cases hx : f x <;> simp [List.filterMap_append, hx]

/-- The text in front of the first of several kinds of separators is determined. -/
theorem append_cons_inj_of_forall_not {separates : α → Prop} {a a' : α} {xs xs' ys ys' : List α}
    (hxs : ∀ x ∈ xs, ¬ separates x) (hxs' : ∀ x ∈ xs', ¬ separates x) (ha : separates a)
    (ha' : separates a') (h : xs ++ a :: ys = xs' ++ a' :: ys') :
    xs = xs' ∧ a = a' ∧ ys = ys' := by
  induction xs generalizing xs' with
  | nil =>
      cases xs' with
      | nil =>
          obtain ⟨rfl, rfl⟩ := List.cons.inj h
          exact ⟨rfl, rfl, rfl⟩
      | cons x' xs' =>
          obtain ⟨rfl, _⟩ := List.cons.inj h
          exact (hxs' a List.mem_cons_self ha).elim
  | cons x xs ih =>
      rw [List.forall_mem_cons] at hxs
      cases xs' with
      | nil =>
          obtain ⟨rfl, _⟩ := List.cons.inj h
          exact (hxs.1 ha').elim
      | cons x' xs' =>
          rw [List.forall_mem_cons] at hxs'
          obtain ⟨rfl, htail⟩ := List.cons.inj h
          obtain ⟨rfl, rfl, rfl⟩ := ih hxs.2 hxs'.2 htail
          exact ⟨rfl, rfl, rfl⟩

/-- The text in front of the first separator is determined. -/
theorem append_cons_inj_of_notMem_left {a : α} {xs xs' ys ys' : List α}
    (hxs : a ∉ xs) (hxs' : a ∉ xs') (h : xs ++ a :: ys = xs' ++ a :: ys') :
    xs = xs' ∧ ys = ys' := by
  have hne : ∀ {zs : List α}, a ∉ zs → ∀ z ∈ zs, ¬ z = a := by
    rintro zs hzs z hz rfl
    exact hzs hz
  obtain ⟨hfront, _, hback⟩ := append_cons_inj_of_forall_not (hne hxs) (hne hxs') rfl rfl h
  exact ⟨hfront, hback⟩

end StrideRunner.Library
