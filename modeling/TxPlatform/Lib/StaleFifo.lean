import TxPlatform.Lib.Fifo

/-!
# Eviction with stale queue entries

A store that removes an entry without dequeuing its key, or enqueues a stored key again, keeps a
queue that still covers its dictionary but holds more than the stored keys: an entry is stale when
its key is gone or queued again further back. `Covers` is all that is left of `Bounded` then. It
still bounds the dictionary, but eviction takes the first queued key that is stored, which need not
be the key whose last entry comes first (`lastBefore`).
-/

namespace TxPlatform

variable {κ ν : Type} [DecidableEq κ]

/-- Every stored key is queued, possibly more than once, and at most `capacity` keys are stored. -/
structure Covers (capacity : Nat) (queue : List κ) (entries : Dict κ ν) : Prop where
  queued : ∀ k v, entries.get k = some v → k ∈ queue
  fits : entries.count ≤ capacity

namespace Covers

variable {capacity : Nat} {queue : List κ} {entries : Dict κ ν}

theorem remove (h : Covers capacity queue entries) (k : κ) :
    Covers capacity queue (entries.remove k) := by
  constructor
  · intro k' v hget
    rw [Dict.get_remove] at hget
    split at hget
    · cases hget
    · exact h.queued k' v hget
  · cases hk : entries.get k with
    | none => rw [Dict.remove_of_get_none hk]; exact h.fits
    | some v =>
      have := Dict.count_remove hk
      have := h.fits
      omega

theorem overwrite {k : κ} {v₀ : ν} (v : ν) (h : Covers capacity queue entries)
    (hold : entries.get k = some v₀) :
    Covers capacity queue (entries.set k v) := by
  refine ⟨?_, by rw [Dict.count_set_old v hold]; exact h.fits⟩
  intro k' v' hget
  rw [Dict.get_set] at hget
  split at hget
  · rename_i he
    rw [he]
    exact h.queued k v₀ hold
  · exact h.queued k' v' hget

theorem enqueue {k k' : κ} {v w : ν} (h : Covers capacity queue entries)
    (hget : (entries.set k v).get k' = some w) : k' ∈ queue ++ [k] := by
  rw [Dict.get_set] at hget
  split at hget
  · rename_i he
    simp [he]
  · exact List.mem_append_left _ (h.queued k' w hget)

end Covers

/-- One key too many: eviction skips the queued keys that are gone and removes the
first stored one. -/
theorem evict_one {capacity : Nat} {queue : List κ} {entries : Dict κ ν}
    (hqueued : ∀ k v, entries.get k = some v → k ∈ queue) (hcount : entries.count = capacity + 1) :
    ∃ skipped first rest, queue = skipped ++ first :: rest ∧ (∀ k ∈ skipped, entries.get k = none) ∧
      (entries.get first).isSome ∧ evict capacity queue entries = (rest, entries.remove first) ∧
      (entries.remove first).count = capacity := by
  induction queue with
  | nil =>
    have hempty : entries.keys = [] := List.eq_nil_iff_forall_not_mem.2 fun k hk => by
      obtain ⟨v, hv⟩ := Option.isSome_iff_exists.1 (Dict.isSome_get.2 hk)
      exact List.not_mem_nil (hqueued k v hv)
    simp [Dict.count, hempty] at hcount
  | cons oldest queue ih =>
    simp only [evict]
    rw [if_pos (by omega)]
    cases hold : entries.get oldest with
    | none =>
      rw [Dict.remove_of_get_none hold]
      have hrest : ∀ k v, entries.get k = some v → k ∈ queue := by
        intro k v hk
        have hne : k ≠ oldest := by rintro rfl; rw [hold] at hk; cases hk
        exact (List.mem_cons.1 (hqueued k v hk)).resolve_left hne
      obtain ⟨skipped, first, rest, rfl, hskipped, hfirst, he, hlast⟩ := ih hrest
      refine ⟨oldest :: skipped, first, rest, rfl, ?_, hfirst, he, hlast⟩
      intro k hk
      rcases List.mem_cons.1 hk with rfl | hk
      · exact hold
      · exact hskipped k hk
    | some v =>
      have hremoved := Dict.count_remove hold
      refine ⟨[], oldest, queue, rfl, by simp, by simp [hold], ?_, by omega⟩
      rw [evict_of_count_le (by omega)]

/-- Inserting one more key, or writing a stored one and queuing it again, keeps the store covered. -/
theorem covers_evict {capacity : Nat} {queue : List κ} {entries : Dict κ ν} {k : κ} (v : ν)
    (h : Covers capacity queue entries) :
    Covers capacity (evict capacity (queue ++ [k]) (entries.set k v)).1
      (evict capacity (queue ++ [k]) (entries.set k v)).2 := by
  have hqueued : ∀ k' w, (entries.set k v).get k' = some w → k' ∈ queue ++ [k] := fun _ _ => h.enqueue
  have hle := Dict.count_set_le entries k v
  have hfits := h.fits
  by_cases hroom : (entries.set k v).count ≤ capacity
  · rw [evict_of_count_le hroom]
    exact ⟨hqueued, hroom⟩
  · have hone : (entries.set k v).count = capacity + 1 := by omega
    obtain ⟨skipped, first, rest, hq, hskipped, _, he, hlast⟩ := evict_one hqueued hone
    rw [he]
    refine ⟨?_, hlast.le⟩
    intro k' w hget
    rw [Dict.get_remove] at hget
    split at hget
    · cases hget
    · rename_i hne
      have hmem := hqueued k' w hget
      rw [hq] at hmem
      rcases List.mem_append.1 hmem with hs | hs
      · rw [hskipped k' hs] at hget
        cases hget
      · exact (List.mem_cons.1 hs).resolve_left hne

/-! ## The order of the last entries -/

/-- The last entry of `a` stands before the last entry of `b`. -/
def lastBefore : List κ → κ → κ → Bool
  | [], _, _ => false
  | k :: queue, a, b => if a ∈ queue then lastBefore queue a b else k = a ∧ b ∈ queue

theorem mem_of_lastBefore {queue : List κ} {a b : κ} (h : lastBefore queue a b = true) :
    a ∈ queue ∧ b ∈ queue := by
  induction queue with
  | nil => simp [lastBefore] at h
  | cons k queue ih =>
    simp only [lastBefore] at h
    split at h
    · obtain ⟨ha, hb⟩ := ih h
      exact ⟨List.mem_cons_of_mem _ ha, List.mem_cons_of_mem _ hb⟩
    · obtain ⟨rfl, hb⟩ := of_decide_eq_true h
      exact ⟨List.mem_cons_self, List.mem_cons_of_mem _ hb⟩

/-- What stands in front of a key's first entry does not matter for its last one. -/
theorem lastBefore_append {skipped queue : List κ} {a b : κ} (h : a ∉ skipped) :
    lastBefore (skipped ++ queue) a b = lastBefore queue a b := by
  induction skipped with
  | nil => rfl
  | cons k skipped ih =>
    simp only [List.mem_cons, not_or] at h
    simp only [List.cons_append, lastBefore]
    split
    · exact ih h.2
    · rename_i hmem
      have hnone : lastBefore queue a b = false := by
        cases hq : lastBefore queue a b with
        | false => rfl
        | true => exact absurd (List.mem_append_right _ (mem_of_lastBefore hq).1) hmem
      rw [hnone]
      simp [Ne.symm h.1]

/-- Queuing a key puts its last entry behind all others. -/
theorem lastBefore_concat (queue : List κ) (k a b : κ) :
    lastBefore (queue ++ [k]) a b = if a = k then false else if b = k then decide
      (a ∈ queue) else lastBefore queue a b := by
  induction queue with
  | nil =>
    by_cases ha : a = k <;> simp [lastBefore, ha]
  | cons first queue ih =>
    simp only [List.cons_append, lastBefore, List.mem_append, List.mem_singleton]
    by_cases ha : a = k
    · simpa [ha] using ih
    · by_cases hmem : a ∈ queue
      · simp only [hmem, true_or, if_true, ih, ha, if_false]
        by_cases hb : b = k <;> simp [hb, hmem]
      · by_cases hb : b = k
        · simp [ha, hmem, hb, eq_comm]
        · simp [ha, hmem, hb]

end TxPlatform
