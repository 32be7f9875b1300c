import TxPlatform.Lib.Fifo
import Mathlib.Data.List.DropRight

/-!
# What a bounded store remembers

`inserted` lists the keys in the order in which they were inserted (a key that comes back after
its eviction stands in it again) and `written` gives the last value written under each key. A
first-in-first-out store of capacity `capacity` remembers the last value of the `capacity` keys
inserted most recently and nothing else. `Recent` says so of a dictionary and its queue; the two
ways of writing, `Recent.insert` and `Recent.overwrite`, keep it.
-/

namespace TxPlatform

/-! ## The last keys of the history -/

section Window
variable {κ : Type} {capacity : Nat} {inserted : List κ}

/-- The window slides by one: while it is not full, nothing leaves it. -/
theorem rtake_room {k : κ} (h : (inserted.rtake capacity).length < capacity) :
    (inserted ++ [k]).rtake capacity = inserted.rtake capacity ++ [k] := by
  simp only [List.rtake, List.length_drop, List.length_append, List.length_singleton] at h ⊢
  have h0 : inserted.length - capacity = 0 := by omega
  have h1 : inserted.length + 1 - capacity = 0 := by omega
  simp [h0, h1]

/-- Once it is full, its oldest key leaves. -/
theorem rtake_full {k oldest : κ} {rest : List κ} (h : inserted.rtake capacity = oldest :: rest)
    (hfull : (oldest :: rest).length = capacity) :
    (inserted ++ [k]).rtake capacity = rest ++ [k] := by
  obtain ⟨n, rfl⟩ : ∃ n, capacity = n + 1 := ⟨rest.length, by simpa using hfull.symm⟩
  rw [List.rtake_concat_succ]
  congr 1
  have hlen := congrArg List.length h
  simp only [List.rtake, List.length_drop] at h hlen
  have hdrop : inserted.length - n = inserted.length - (n + 1) + 1 := by omega
  rw [List.rtake, hdrop, ← List.drop_drop, h]
  rfl

end Window

/-! ## The store -/

variable {κ ν : Type} [DecidableEq κ]

structure Recent (capacity : Nat) (inserted : List κ) (written : κ → Option ν) (queue : List κ)
    (entries : Dict κ ν) : Prop where
  window : queue = inserted.rtake capacity
  nodup : queue.Nodup
  lookup : ∀ k, entries.get k = if k ∈ queue then written k else none
  valued : ∀ k ∈ queue, (written k).isSome

namespace Recent

variable {capacity : Nat} {inserted queue : List κ} {written : κ → Option ν} {entries : Dict κ ν}

theorem empty : Recent capacity [] (fun _ => none) [] (∅ : Dict κ ν) :=
  ⟨by simp, List.nodup_nil, by simp, by simp⟩

theorem mem_queue (h : Recent capacity inserted written queue entries) (k : κ) :
    k ∈ queue ↔ (entries.get k).isSome := by
  rw [h.lookup]
  by_cases hk : k ∈ queue
  · simp [hk, h.valued k hk]
  · simp [hk]

theorem bounded (h : Recent capacity inserted written queue entries) :
    Bounded capacity queue entries := by
  have hperm : queue.Perm entries.keys := by
    rw [List.perm_ext_iff_of_nodup h.nodup entries.keys_nodup]
    intro k
    rw [h.mem_queue, Dict.isSome_get]
  refine ⟨hperm, ?_⟩
  have hlength : queue.length = entries.count := hperm.length_eq
  have hwindow : queue.length ≤ capacity := by
    rw [h.window, List.rtake]
    simp only [List.length_drop]
    omega
  omega

/-- Writing under a key that is not stored inserts it. -/
theorem insert {k : κ} (v : ν) (h : Recent capacity inserted written queue entries)
    (hpos : 0 < capacity) (hnone : entries.get k = none) :
    Recent capacity (inserted ++ [k]) (Function.update written k (some v))
      (evict capacity (queue ++ [k]) (entries.set k v)).1
      (evict capacity (queue ++ [k]) (entries.set k v)).2 := by
  have hfresh : k ∉ queue := by rw [h.mem_queue, hnone]; simp
  have hlength : queue.length = entries.count := h.bounded.queued.length_eq
  have hset : ∀ k', (entries.set k v).get k' =
      if k' ∈ queue ++ [k] then Function.update written k (some v) k' else none := by
    intro k'
    rw [Dict.get_set, h.lookup]
    by_cases hk : k' = k
    · simp [hk]
    · simp [hk]
  have hvalued : ∀ k' ∈ queue ++ [k], (Function.update written k (some v) k').isSome := by
    intro k' hk'
    by_cases hk : k' = k
    · simp [hk]
    · rw [Function.update_of_ne hk]
      exact h.valued k' (by simpa [hk] using hk')
  have hnodup : (queue ++ [k]).Nodup := by simpa using h.nodup.concat hfresh
  obtain ⟨hroom, he⟩ | ⟨hfull, oldest, rest, hq, _, he, _⟩ := evict_insert v h.bounded hpos hnone
  · rw [he]
    refine ⟨?_, hnodup, hset, hvalued⟩
    rw [h.window] at hlength ⊢
    exact (rtake_room (by omega)).symm
  · rw [he]
    have hcount : queue.length = capacity := hlength.trans hfull
    subst hq
    simp only [List.cons_append, List.nodup_cons] at hnodup
    refine ⟨(rtake_full h.window.symm hcount).symm, hnodup.2, ?_, ?_⟩
    · intro k'
      rw [Dict.get_remove, hset]
      by_cases hk : k' = oldest
      · simp only [hk, if_true]
        rw [if_neg hnodup.1]
      · simp [hk]
    · intro k' hk'
      exact hvalued k' (List.mem_cons_of_mem _ hk')

/-- Writing under a stored key only replaces its value. -/
theorem overwrite {k : κ} {v₀ : ν} (v : ν) (h : Recent capacity inserted written queue entries)
    (hold : entries.get k = some v₀) :
    Recent capacity inserted (Function.update written k (some v)) queue (entries.set k v) := by
  have hk : k ∈ queue := by rw [h.mem_queue, hold]; rfl
  refine ⟨h.window, h.nodup, ?_, ?_⟩
  · intro k'
    rw [Dict.get_set, h.lookup]
    by_cases he : k' = k
    · simp [he, hk]
    · simp [he]
  · intro k' hk'
    by_cases he : k' = k
    · simp [he]
    · rw [Function.update_of_ne he]
      exact h.valued k' hk'

end Recent

end TxPlatform
