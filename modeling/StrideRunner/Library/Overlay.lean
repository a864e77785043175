import Mathlib.Data.List.Nodup
import Mathlib.Logic.Function.Basic

/-! # Bindings on top of an environment

An environment is a partial function on names. Bindings are laid over it one after the other, and
what they do not bind shows through. -/

namespace StrideRunner.Library

variable {α β : Type*}

/-- Each binding replaces what the name has been bound to. -/
def overlay [DecidableEq α] (base : α → Option β) (bindings : List (α × β)) : α → Option β :=
  bindings.foldl (fun env binding => Function.update env binding.1 (some binding.2)) base

/-- The bindings of the names that have a value. -/
def bound (entries : List (α × Option β)) : List (α × β) :=
  entries.flatMap fun entry => entry.2.toList.map fun value => (entry.1, value)

theorem bound_append (entries entries' : List (α × Option β)) :
    bound (entries ++ entries') = bound entries ++ bound entries' :=
  List.flatMap_append

theorem notMem_names {entries : List (α × Option β)} {name : α}
    (h : name ∉ entries.map Prod.fst) (value : Option β) : (name, value) ∉ entries := by
  intro hmem
  exact h (List.mem_map_of_mem hmem)

variable [DecidableEq α] {base base' : α → Option β} {entries entries' : List (α × Option β)}

theorem overlay_bound_cons (name : α) (value : Option β) :
    overlay base (bound ((name, value) :: entries)) =
      overlay (Function.update base name (value.or (base name))) (bound entries) := by
  cases value with
  | none => simp [overlay, bound]
  | some value => simp [overlay, bound]

theorem overlay_of_notMem {name : α} (h : name ∉ entries.map Prod.fst) :
    overlay base (bound entries) name = base name := by
  induction entries generalizing base with
  | nil => rfl
  | cons entry entries ih =>
      rw [List.map_cons, List.mem_cons, not_or] at h
      rw [overlay_bound_cons, ih h.2, Function.update_of_ne h.1]

theorem overlay_of_mem {name : α} {value : Option β} (hnodup : (entries.map Prod.fst).Nodup)
    (h : (name, value) ∈ entries) :
    overlay base (bound entries) name = value.or (base name) := by
  induction entries generalizing base with
  | nil => cases h
  | cons entry entries ih =>
      rw [List.map_cons, List.nodup_cons] at hnodup
      rw [overlay_bound_cons]
      rcases List.mem_cons.mp h with rfl | hmem
      · rw [overlay_of_notMem hnodup.1, Function.update_self]
      · have hne : name ≠ entry.1 := by
          rintro rfl
          exact notMem_names hnodup.1 value hmem
        rw [ih hnodup.2 hmem, Function.update_of_ne hne]

/-- If nothing shows through for the names without a value, then the entries can be read back. -/
theorem eq_map_overlay (hnodup : (entries.map Prod.fst).Nodup)
    (hbase : ∀ name, (name, none) ∈ entries → base name = none) :
    entries = (entries.map Prod.fst).map fun name => (name, overlay base (bound entries) name) := by
  rw [List.map_map]
  refine ((List.map_congr_left ?_).trans (List.map_id entries)).symm
  rintro ⟨name, value⟩ hmem
  have hread : overlay base (bound entries) name = value.or (base name) :=
    overlay_of_mem hnodup hmem
  cases value with
  | none => rw [Function.comp, hread, hbase name hmem]; rfl
  | some value => rw [Function.comp, hread]; rfl

theorem overlay_eq_iff (hnames : entries.map Prod.fst = entries'.map Prod.fst)
    (hnodup : (entries.map Prod.fst).Nodup)
    (hbase : ∀ name, (name, none) ∈ entries → base name = none)
    (hbase' : ∀ name, (name, none) ∈ entries' → base' name = none) :
    overlay base (bound entries) = overlay base' (bound entries') ↔
      entries = entries' ∧ ∀ name, name ∉ entries.map Prod.fst → base name = base' name := by
  constructor
  · intro h
    refine ⟨?_, ?_⟩
    · rw [eq_map_overlay hnodup hbase, h, hnames]
      exact (eq_map_overlay (hnames ▸ hnodup) hbase').symm
    · intro name hname
      have hvalue := congrFun h name
      rwa [overlay_of_notMem hname, overlay_of_notMem (hnames ▸ hname)] at hvalue
  · rintro ⟨rfl, hout⟩
    funext name
    by_cases hname : name ∈ entries.map Prod.fst
    · obtain ⟨⟨name, value⟩, hmem, rfl⟩ := List.mem_map.mp hname
      rw [overlay_of_mem hnodup hmem, overlay_of_mem hnodup hmem]
      cases value with
      | none => rw [hbase name hmem, hbase' name hmem]
      | some value => rfl
    · rw [overlay_of_notMem hname, overlay_of_notMem hname, hout name hname]

end StrideRunner.Library
