import Mathlib.Data.List.Nodup
import Mathlib.Data.List.Basic
import Mathlib.Data.List.MinMax

/-! # Priority queues with changing priorities

A queue maps its items to priorities. Of several items with the largest priority any one may be
popped, so a run of an algorithm comes with a choice for each step. -/

namespace StrideRunner.Library

abbrev PriorityQueue (α : Type*) := List (α × ℕ)

/-- The choice among the items with the largest priority. -/
structure TieBreak (α : Type*) where
  pick : PriorityQueue α → Option (α × ℕ)
  mem : ∀ {queue entry}, pick queue = some entry → entry ∈ queue
  max : ∀ {queue entry}, pick queue = some entry → ∀ other ∈ queue, other.2 ≤ entry.2
  isSome : ∀ {queue}, queue ≠ [] → (pick queue).isSome

/-- The first one of them. -/
def TieBreak.first {α : Type*} : TieBreak α where
  pick queue := queue.argmax Prod.snd
  mem h := List.argmax_mem h
  max h _ hother := List.le_of_mem_argmax hother h
  isSome hne := by
    rw [Option.isSome_iff_ne_none]
    exact fun hnone => hne (List.argmax_eq_none.mp hnone)

namespace PriorityQueue

variable {α : Type*} [DecidableEq α]

def push (queue : PriorityQueue α) (item : α) (priority : ℕ) : PriorityQueue α :=
  queue.filter (fun entry => entry.1 ≠ item) ++ [(item, priority)]

def pop (ties : TieBreak α) (queue : PriorityQueue α) : Option ((α × ℕ) × PriorityQueue α) :=
  (ties.pick queue).map fun entry => (entry, queue.erase entry)

def priority? (queue : PriorityQueue α) (item : α) : Option ℕ :=
  (queue.find? fun entry => entry.1 = item).map Prod.snd

/-- Gives the item, if it is there, another priority. -/
def setPriority (queue : PriorityQueue α) (item : α) (priority : ℕ) : PriorityQueue α :=
  queue.map fun entry => if entry.1 = item then (item, priority) else entry

/-- Each item is there at most once. -/
def Unique (queue : PriorityQueue α) : Prop := (queue.map Prod.fst).Nodup

variable {queue rest : PriorityQueue α} {ties : TieBreak α} {item : α} {priority : ℕ}
  {entry : α × ℕ}

theorem push_of_notMem (h : item ∉ queue.map Prod.fst) (priority : ℕ) :
    push queue item priority = queue ++ [(item, priority)] := by
  have hfilter : queue.filter (fun entry => entry.1 ≠ item) = queue := by
    rw [List.filter_eq_self]
    intro entry hentry
    have hne : entry.1 ≠ item := fun heq => h (heq ▸ List.mem_map_of_mem hentry)
    simpa using hne
  rw [push, hfilter]

/-- Items that are all different are queued one behind the other. -/
theorem foldl_push_eq {entries : PriorityQueue α} (h : Unique (queue ++ entries)) :
    entries.foldl (fun queue entry => push queue entry.1 entry.2) queue = queue ++ entries := by
  induction entries generalizing queue with
  | nil => rw [List.append_nil, List.foldl_nil]
  | cons entry entries ih =>
      have hnext : Unique ((queue ++ [entry]) ++ entries) := by
        rwa [List.append_assoc, List.singleton_append]
      have hnew : entry.1 ∉ queue.map Prod.fst := by
        rw [Unique, List.map_append, List.map_cons] at h
        exact fun hmem => (List.nodup_append.mp h).2.2 _ hmem _ List.mem_cons_self rfl
      rw [List.foldl_cons, push_of_notMem hnew, ih hnext, List.append_assoc, List.singleton_append]

theorem pop_eq_none_iff : pop ties queue = none ↔ queue = [] := by
  rw [pop, Option.map_eq_none_iff]
  constructor
  · intro hnone
    by_contra hne
    have hsome := ties.isSome hne
    rw [hnone] at hsome
    cases hsome
  · rintro rfl
    cases hpick : ties.pick [] with
    | none => rfl
    | some entry => cases ties.mem hpick

/-- A popped entry was in the queue, with a largest priority, and the others remain. -/
theorem of_pop (h : pop ties queue = some (entry, rest)) :
    entry ∈ queue ∧ (∀ other ∈ queue, other.2 ≤ entry.2) ∧ queue.Perm (entry :: rest) := by
  obtain ⟨picked, hpick, heq⟩ := Option.map_eq_some_iff.mp h
  cases heq
  exact ⟨ties.mem hpick, ties.max hpick, List.perm_cons_erase (ties.mem hpick)⟩

theorem length_of_pop (h : pop ties queue = some (entry, rest)) :
    rest.length + 1 = queue.length := by
  rw [(of_pop h).2.2.length_eq, List.length_cons]

@[simp] theorem length_setPriority : (setPriority queue item priority).length = queue.length :=
  List.length_map _

theorem priority?_eq_none_iff : priority? queue item = none ↔ item ∉ queue.map Prod.fst := by
  rw [priority?, Option.map_eq_none_iff, List.find?_eq_none, List.mem_map]
  simp only [decide_eq_true_eq, not_exists, not_and]

omit [DecidableEq α] in
theorem Unique.eq_of_mem (h : Unique queue) {priority' : ℕ} (hmem : (item, priority) ∈ queue)
    (hmem' : (item, priority') ∈ queue) : priority = priority' := by
  have hentry := List.inj_on_of_nodup_map h hmem hmem' rfl
  exact congrArg Prod.snd hentry

theorem Unique.priority?_eq_some_iff (h : Unique queue) :
    priority? queue item = some priority ↔ (item, priority) ∈ queue := by
  rw [priority?, Option.map_eq_some_iff]
  constructor
  · rintro ⟨⟨other, value⟩, hfind, rfl⟩
    have hother : other = item := by simpa using List.find?_some hfind
    exact hother ▸ List.mem_of_find?_eq_some hfind
  · intro hmem
    cases hfind : queue.find? fun entry => entry.1 = item with
    | none =>
        rw [List.find?_eq_none] at hfind
        exact (hfind _ hmem (by simp)).elim
    | some entry =>
        obtain ⟨other, value⟩ := entry
        have hother : other = item := by simpa using List.find?_some hfind
        subst hother
        exact ⟨_, rfl, h.eq_of_mem (List.mem_of_find?_eq_some hfind) hmem⟩

/-- Setting a priority changes the entry of the item only. -/
theorem setPriority_eq_map {f : α × ℕ → ℕ} (hitem : ∀ entry ∈ queue, entry.1 = item → f entry = priority)
    (hother : ∀ entry ∈ queue, entry.1 ≠ item → f entry = entry.2) :
    setPriority queue item priority = queue.map fun entry => (entry.1, f entry) := by
  apply List.map_congr_left
  rintro ⟨other, value⟩ hentry
  by_cases h : other = item
  · subst h
    rw [if_pos rfl, hitem _ hentry rfl]
  · rw [if_neg h, hother _ hentry h]

end PriorityQueue

end StrideRunner.Library
