import Mathlib.Data.List.AList

/-! # Write-once tables

A table with unique keys in which a row, once present, is never replaced. Two ways of adding a
row are offered: one that refuses a key that is present and one that ignores it. -/

namespace StrideRunner.Library

variable {κ ν : Type} [DecidableEq κ]

/-- The keys of the rows are pairwise distinct. -/
abbrev UniqueTable (κ ν : Type) : Type := AList fun _ : κ => ν

namespace UniqueTable

/-- Adds a row with a new key. -/
def insertNew (key : κ) (value : ν) (table : UniqueTable κ ν) : Option (UniqueTable κ ν) :=
  if key ∈ table then none else some (table.insert key value)

/-- Adds a row unless its key is present. -/
def insertOrIgnore (key : κ) (value : ν) (table : UniqueTable κ ν) : UniqueTable κ ν :=
  if key ∈ table then table else table.insert key value

/-- Adds rows one after the other. -/
def merge (table : UniqueTable κ ν) (rows : List (κ × ν)) : UniqueTable κ ν :=
  rows.foldl (fun table row => insertOrIgnore row.1 row.2 table) table

/-- The rows of a table, in the order of its entries. -/
def rows (table : UniqueTable κ ν) : List (κ × ν) :=
  table.entries.map fun entry => (entry.1, entry.2)

/-- Every row of the first table is a row of the second. -/
def Extends (s t : UniqueTable κ ν) : Prop :=
  ∀ key value, s.lookup key = some value → t.lookup key = some value

/-- The rows with a key of both tables are the same in both. -/
def Agrees (s t : UniqueTable κ ν) : Prop :=
  ∀ key value value', s.lookup key = some value → t.lookup key = some value' → value' = value

theorem Extends.refl (s : UniqueTable κ ν) : Extends s s :=
  fun _ _ h => h

theorem Extends.trans {s t u : UniqueTable κ ν} (h : Extends s t) (h' : Extends t u) :
    Extends s u :=
  fun key value hs => h' key value (h key value hs)

theorem Extends.mem {s t : UniqueTable κ ν} (h : Extends s t) {key : κ} (hmem : key ∈ s) :
    key ∈ t := by
  obtain ⟨value, hvalue⟩ := Option.isSome_iff_exists.mp (AList.lookup_isSome.mpr hmem)
  exact AList.lookup_isSome.mp (Option.isSome_iff_exists.mpr ⟨value, h key value hvalue⟩)

theorem lookup_insertNew {key : κ} {value : ν} {s t : UniqueTable κ ν}
    (h : insertNew key value s = some t) : s.lookup key = none ∧ t = s.insert key value := by
  unfold insertNew at h
  split at h
  · cases h
  · rename_i hmem
    exact ⟨AList.lookup_eq_none.mpr hmem, (Option.some.inj h).symm⟩

theorem lookup_insertOrIgnore (key : κ) (value : ν) (s : UniqueTable κ ν) (other : κ) :
    (insertOrIgnore key value s).lookup other =
      (s.lookup other).or (if other = key then some value else none) := by
  unfold insertOrIgnore
  by_cases hmem : key ∈ s
  · rw [if_pos hmem]
    by_cases hkey : other = key
    · subst hkey
      obtain ⟨old, hold⟩ := Option.isSome_iff_exists.mp (AList.lookup_isSome.mpr hmem)
      rw [hold]
      rfl
    · simp [hkey]
  · rw [if_neg hmem]
    by_cases hkey : other = key
    · subst hkey
      simp [AList.lookup_eq_none.mpr hmem]
    · simp [hkey, AList.lookup_insert_ne hkey]

/-- Rows that are present win over the merged ones, and among these the first wins. -/
theorem lookup_merge (s : UniqueTable κ ν) (rows : List (κ × ν)) (key : κ) :
    (merge s rows).lookup key =
      (s.lookup key).or ((rows.find? fun row => row.1 = key).map Prod.snd) := by
  induction rows generalizing s with
  | nil => simp [merge]
  | cons row rows ih =>
      have hstep : merge s (row :: rows) = merge (insertOrIgnore row.1 row.2 s) rows := rfl
      rw [hstep, ih, lookup_insertOrIgnore, Option.or_assoc, List.find?_cons]
      by_cases hkey : row.1 = key
      · simp [hkey]
      · simp [hkey, Ne.symm hkey]

theorem find?_rows (t : UniqueTable κ ν) (key : κ) :
    ((rows t).find? fun row => row.1 = key).map Prod.snd = t.lookup key := by
  unfold rows AList.lookup
  induction t.entries with
  | nil => rfl
  | cons entry entries ih =>
      obtain ⟨other, value⟩ := entry
      rw [List.map_cons, List.find?_cons]
      by_cases hkey : other = key
      · subst hkey
        simp
      · simp only [hkey, decide_false, ih]
        rw [List.dlookup_cons_ne _ _ (Ne.symm hkey)]

/-- The union of two tables, in which the first one wins. -/
theorem lookup_merge_rows (s t : UniqueTable κ ν) (key : κ) :
    (merge s (rows t)).lookup key = (s.lookup key).or (t.lookup key) := by
  rw [lookup_merge, find?_rows]

theorem extends_insertNew {key : κ} {value : ν} {s t : UniqueTable κ ν}
    (h : insertNew key value s = some t) : Extends s t := by
  obtain ⟨hnone, rfl⟩ := lookup_insertNew h
  intro other old hold
  have hne : other ≠ key := by
    rintro rfl
    rw [hnone] at hold
    cases hold
  rw [AList.lookup_insert_ne hne, hold]

theorem extends_merge (s : UniqueTable κ ν) (rows : List (κ × ν)) : Extends s (merge s rows) := by
  intro key value hvalue
  rw [lookup_merge, hvalue]
  rfl

theorem Agrees.empty (s : UniqueTable κ ν) : Agrees s ∅ := by
  intro key value value' _ hvalue'
  cases hvalue'

theorem Agrees.insertNew {key : κ} {value : ν} {s t t' : UniqueTable κ ν} (h : Agrees s t)
    (hadd : ∀ value', s.lookup key = some value' → value = value')
    (hinsert : insertNew key value t = some t') : Agrees s t' := by
  obtain ⟨_, rfl⟩ := lookup_insertNew hinsert
  intro other kept new hkept hnew
  by_cases hkey : other = key
  · subst hkey
    rw [AList.lookup_insert] at hnew
    cases hnew
    exact hadd kept hkept
  · rw [AList.lookup_insert_ne hkey] at hnew
    exact h other kept new hkept hnew

theorem Agrees.merge {s t u : UniqueTable κ ν} (h : Agrees s t)
    (hadd : ∀ key value value', t.lookup key = none → s.lookup key = some value →
      u.lookup key = some value' → value' = value) : Agrees s (merge t (rows u)) := by
  intro key value value' hvalue hvalue'
  rw [lookup_merge_rows] at hvalue'
  cases hold : t.lookup key with
  | none =>
      rw [hold, Option.none_or] at hvalue'
      exact hadd key value value' hold hvalue hvalue'
  | some old =>
      rw [hold, Option.some_or] at hvalue'
      cases hvalue'
      exact h key value value' hvalue hold

/-- The union has all rows of the second table exactly if no row of the first is in their way. -/
theorem extends_merge_rows_iff {s t : UniqueTable κ ν} :
    Extends t (merge s (rows t)) ↔ Agrees t s := by
  constructor
  · intro h key value value' hvalue hvalue'
    have hkept := h key value hvalue
    rw [lookup_merge_rows, hvalue'] at hkept
    exact Option.some.inj hkept
  · intro h key value hvalue
    rw [lookup_merge_rows, hvalue]
    cases hold : s.lookup key with
    | none => rfl
    | some old => rw [h key value old hvalue hold, Option.some_or]

end UniqueTable

end StrideRunner.Library
