import Mathlib.Data.List.TakeWhile
import TxPlatform.Lib.Dict

/-!
# First-in-first-out eviction

The bounded stores keep a dictionary and a queue of the keys in insertion order. When the
dictionary holds more than its capacity, the eviction loop dequeues keys and removes them until
it fits again or the queue is empty.
-/

namespace TxPlatform

variable {κ ν : Type} [DecidableEq κ]

/-- `while (count > capacity && queue.TryDequeue(out var oldest)) entries.Remove(oldest);` -/
def evict (capacity : Nat) : List κ → Dict κ ν → List κ × Dict κ ν
  | [], entries => ([], entries)
  | oldest :: queue, entries =>
    if capacity < entries.count then evict capacity queue (entries.remove oldest)
    else (oldest :: queue, entries)

/-- A store within its capacity evicts nothing. -/
theorem evict_of_count_le {capacity : Nat} {queue : List κ} {entries : Dict κ ν}
    (h : entries.count ≤ capacity) : evict capacity queue entries = (queue, entries) := by
  cases queue with
  | nil => rfl
  | cons oldest queue => simp [evict, Nat.not_lt.2 h]

/-- Eviction only ever removes entries. -/
theorem evict_get {capacity : Nat} {queue : List κ} {entries : Dict κ ν} {k : κ} {v : ν}
    (h : (evict capacity queue entries).2.get k = some v) : entries.get k = some v := by
  induction queue generalizing entries with
  | nil => exact h
  | cons oldest queue ih =>
    simp only [evict] at h
    split at h
    · have := ih h
      simp only [Dict.get_remove] at this
      split at this
      · cases this
      · exact this
    · exact h

/-- With non-negative weights, eviction never raises the sum over the entries. -/
theorem evict_sum_le {capacity : Nat} {queue : List κ} {entries : Dict κ ν} {w : κ → ν → Int}
    (h : ∀ k v, entries.get k = some v → 0 ≤ w k v) :
    (evict capacity queue entries).2.sum w ≤ entries.sum w := by
  induction queue generalizing entries with
  | nil => exact le_refl _
  | cons oldest queue ih =>
    simp only [evict]
    split
    · have hrest : ∀ k v, (entries.remove oldest).get k = some v → 0 ≤ w k v := by
        intro k v hk
        simp only [Dict.get_remove] at hk
        split at hk
        · cases hk
        · exact h k v hk
      refine (ih hrest).trans ?_
      cases hg : entries.get oldest with
      | none => rw [Dict.remove_of_get_none hg]
      | some v => rw [Dict.sum_remove w hg]; have := h oldest v hg; omega
    · exact le_refl _

/-! ## One insertion into a bounded store -/

/-- The queue holds exactly the stored keys, and there are at most `capacity` of them. -/
structure Bounded (capacity : Nat) (queue : List κ) (entries : Dict κ ν) : Prop where
  queued : queue.Perm entries.keys
  fits : entries.count ≤ capacity

/-- Inserting a new key evicts nothing while there is room, and otherwise exactly the oldest. -/
theorem evict_insert {capacity : Nat} {queue : List κ} {entries : Dict κ ν} {k : κ} (v : ν)
    (h : Bounded capacity queue entries) (hpos : 0 < capacity) (hnone : entries.get k = none) :
    (entries.count < capacity ∧
      evict capacity (queue ++ [k]) (entries.set k v) = (queue ++ [k], entries.set k v)) ∨
    (entries.count = capacity ∧ ∃ oldest rest, queue = oldest :: rest ∧ oldest ≠ k ∧
      evict capacity (queue ++ [k]) (entries.set k v) = (rest ++ [k], (entries.set k v).remove oldest) ∧
      ((entries.set k v).remove oldest).count = capacity) := by
  have hcount := Dict.count_set_new v hnone
  by_cases hroom : entries.count < capacity
  · exact .inl ⟨hroom, evict_of_count_le (by omega)⟩
  · right
    have hfull : entries.count = capacity := Nat.le_antisymm h.fits (Nat.not_lt.1 hroom)
    have hlength : queue.length = capacity := h.queued.length_eq.trans hfull
    cases queue with
    | nil => simp at hlength; omega
    | cons oldest rest =>
      have hmem : oldest ∈ entries.keys := h.queued.subset List.mem_cons_self
      have hne : oldest ≠ k := by rintro rfl; exact Dict.get_eq_none.1 hnone hmem
      obtain ⟨old, hold⟩ := Option.isSome_iff_exists.1 (Dict.isSome_get.2 hmem)
      have hset : (entries.set k v).get oldest = some old := by simp [hne, hold]
      have hremoved := Dict.count_remove hset
      have hlast : ((entries.set k v).remove oldest).count = capacity := by omega
      refine ⟨hfull, oldest, rest, rfl, hne, ?_, hlast⟩
      simp only [List.cons_append, evict]
      rw [if_pos (by omega), evict_of_count_le (by omega)]

theorem keys_remove (entries : Dict κ ν) (k : κ) : (entries.remove k).keys = entries.keys.filter (· ≠ k) := by
  rw [Dict.remove, AList.keys_erase, entries.keys_nodup.erase_eq_filter]
  exact List.filter_congr fun other _ => by by_cases h : other = k <;> simp [h]

/-- A queued key stays exactly if the keys that are not queued before it fit. -/
theorem evict_keeps_iff {capacity : Nat} {queue : List κ} {entries : Dict κ ν} {k : κ} {v : ν}
    (hget : entries.get k = some v) (hmem : k ∈ queue) :
    (evict capacity queue entries).2.get k = some v ↔
      (entries.keys.filter (· ∉ queue.takeWhile (· ≠ k))).length ≤ capacity := by
  induction queue generalizing entries with
  | nil => cases hmem
  | cons oldest queue ih =>
    by_cases holdest : oldest = k
    · subst holdest
      have hcount : (entries.keys.filter (· ∉ (oldest :: queue).takeWhile (· ≠ oldest))).length = entries.count := by
        simp [Dict.count]
      rw [hcount, evict]
      by_cases hfull : capacity < entries.count
      · rw [if_pos hfull]
        have hgone : (evict capacity queue (entries.remove oldest)).2.get oldest ≠ some v := by
          intro h
          simpa using evict_get h
        exact iff_of_false hgone (Nat.not_le.2 hfull)
      · rw [if_neg hfull]
        exact iff_of_true hget (Nat.not_lt.1 hfull)
    · have hqueue : k ∈ queue := (List.mem_cons.1 hmem).resolve_left (Ne.symm holdest)
      have hfilter : entries.keys.filter (· ∉ (oldest :: queue).takeWhile (· ≠ k)) =
          (entries.remove oldest).keys.filter (· ∉ queue.takeWhile (· ≠ k)) := by
        rw [keys_remove, List.filter_filter]
        refine List.filter_congr fun other _ => ?_
        simp [holdest, Bool.and_comm]
      rw [hfilter, evict]
      by_cases hfull : capacity < entries.count
      · rw [if_pos hfull]
        exact ih (by simp [Ne.symm holdest, hget]) hqueue
      · have hkeys : (entries.remove oldest).keys.length ≤ capacity := by
          rw [keys_remove]
          exact (List.length_filter_le _ _).trans (Nat.not_lt.1 hfull)
        rw [if_neg hfull]
        exact iff_of_true hget ((List.length_filter_le _ _).trans hkeys)

/-- How many other keys have an entry and are not queued before this one. -/
def queuedAfter (queue : List κ) (entries : Dict κ ν) (k : κ) : Nat :=
  (entries.keys.filter fun other => other ≠ k ∧ other ∉ queue.takeWhile (· ≠ k)).length

/-- A key that is inserted stays exactly if the other keys that are not queued before it leave room. -/
theorem evict_inserted_iff {capacity : Nat} {queue : List κ} {entries : Dict κ ν} {k : κ} {v : ν} :
    (evict capacity (queue ++ [k]) (entries.set k v)).2.get k = some v ↔ queuedAfter queue entries k < capacity := by
  have hbefore : (queue ++ [k]).takeWhile (· ≠ k) = queue.takeWhile (· ≠ k) := by
    induction queue with
    | nil => simp
    | cons first queue ih => simp only [List.cons_append, List.takeWhile_cons, ih]
  have hself : k ∉ queue.takeWhile (· ≠ k) := fun h => by simpa using List.mem_takeWhile_imp h
  have hkeys : ((entries.set k v).keys.filter (· ∉ queue.takeWhile (· ≠ k))).length =
      queuedAfter queue entries k + 1 := by
    have herase : entries.keys.erase k = entries.keys.filter (· ≠ k) := by rw [← keys_remove, Dict.remove, AList.keys_erase]
    rw [Dict.set, AList.keys_insert, herase, List.filter_cons_of_pos (by simpa using hself), List.filter_filter,
      List.length_cons, queuedAfter]
    congr 2
    refine List.filter_congr fun other _ => ?_
    simp [Bool.and_comm]
  rw [evict_keeps_iff (by simp) (by simp), hbefore, hkeys, Nat.succ_le_iff]

/-- Insertion keeps the store bounded and stores the new key. -/
theorem bounded_insert {capacity : Nat} {queue : List κ} {entries : Dict κ ν} {k : κ} (v : ν)
    (h : Bounded capacity queue entries) (hpos : 0 < capacity) (hnone : entries.get k = none) :
    Bounded capacity (evict capacity (queue ++ [k]) (entries.set k v)).1
      (evict capacity (queue ++ [k]) (entries.set k v)).2 ∧
    (evict capacity (queue ++ [k]) (entries.set k v)).2.get k = some v := by
  have hqueue : (queue ++ [k]).Perm (entries.set k v).keys := by
    rw [Dict.keys_set_new v hnone]
    exact (List.perm_append_singleton _ _).trans (h.queued.cons _)
  obtain ⟨hroom, he⟩ | ⟨_, oldest, rest, rfl, hne, he, hlast⟩ := evict_insert v h hpos hnone
  · rw [he]
    exact ⟨⟨hqueue, by simp only [Dict.count_set_new v hnone]; omega⟩, by simp⟩
  · rw [he]
    have hrest := hqueue.erase oldest
    simp only [List.cons_append, List.erase_cons_head] at hrest
    exact ⟨⟨by simpa [Dict.remove, AList.keys_erase] using hrest, hlast.le⟩, by simp [hne.symm]⟩

/-- Overwriting a stored key keeps the store bounded. -/
theorem bounded_overwrite {capacity : Nat} {queue : List κ} {entries : Dict κ ν} {k : κ} {v₀ : ν} (v : ν)
    (h : Bounded capacity queue entries) (hold : entries.get k = some v₀) :
    Bounded capacity queue (entries.set k v) := by
  refine ⟨?_, by rw [Dict.count_set_old v hold]; exact h.fits⟩
  have hmem : k ∈ entries.keys := Dict.isSome_get.1 (by simp [hold])
  rw [Dict.set, AList.keys_insert]
  exact h.queued.trans (List.perm_cons_erase hmem)

end TxPlatform
