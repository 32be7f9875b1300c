import Mathlib.Data.List.AList
import Mathlib.Algebra.BigOperators.Group.List.Basic
import Mathlib.Algebra.Order.BigOperators.Group.List
import Mathlib.Tactic.Abel

/-!
# Dictionaries

A dictionary is a finite map: a list of key/value pairs in which no key occurs twice
(`AList`). This module fixes the four operations the stores use (`get`, `set`, `remove`,
`modify`), how each of them changes a lookup and the number of entries, and how a weighted
sum over all entries moves when one entry is written or removed.
-/

namespace TxPlatform

variable {κ ν M : Type} [DecidableEq κ]

abbrev Dict (κ ν : Type) := AList (fun _ : κ => ν)

namespace Dict

def get (d : Dict κ ν) (k : κ) : Option ν := d.lookup k

def set (d : Dict κ ν) (k : κ) (v : ν) : Dict κ ν := d.insert k v

def remove (d : Dict κ ν) (k : κ) : Dict κ ν := d.erase k

/-- Rewrites the value stored under `k`; a missing key stays missing. -/
def modify (d : Dict κ ν) (k : κ) (f : ν → ν) : Dict κ ν :=
  match d.get k with
  | some v => d.set k (f v)
  | none => d

def count (d : Dict κ ν) : Nat := d.keys.length

/-- Builds a dictionary from pairs; `none` when a key occurs twice. -/
def ofPairs : List (κ × ν) → Option (Dict κ ν)
  | [] => some ∅
  | (k, v) :: rest =>
    match ofPairs rest with
    | none => none
    | some d => if (d.get k).isSome then none else some (d.set k v)

/-! ## Lookups -/

@[simp] theorem get_empty (k : κ) : (∅ : Dict κ ν).get k = none := AList.lookup_empty k

@[simp, grind =] theorem get_set (d : Dict κ ν) (k k' : κ) (v : ν) :
    (d.set k v).get k' = if k' = k then some v else d.get k' := by
  unfold get set
  split
  · rename_i h; subst h; exact AList.lookup_insert d
  · rename_i h; exact AList.lookup_insert_ne h

@[simp, grind =] theorem get_remove (d : Dict κ ν) (k k' : κ) :
    (d.remove k).get k' = if k' = k then none else d.get k' := by
  unfold get remove
  split
  · rename_i h; subst h; exact AList.lookup_erase k' d
  · rename_i h; exact AList.lookup_erase_ne h

@[simp, grind =] theorem get_modify (d : Dict κ ν) (k k' : κ) (f : ν → ν) :
    (d.modify k f).get k' = if k' = k then (d.get k).map f else d.get k' := by
  unfold modify
  cases h : d.get k <;> simp only [get_set] <;> split <;> simp_all

theorem get_eq_none {d : Dict κ ν} {k : κ} : d.get k = none ↔ k ∉ d.keys :=
  AList.lookup_eq_none

theorem isSome_get {d : Dict κ ν} {k : κ} : (d.get k).isSome ↔ k ∈ d.keys := by
  rw [← not_iff_not, Bool.not_eq_true, Option.isSome_eq_false_iff, Option.isNone_iff_eq_none,
    get_eq_none]

theorem mem_of_ofPairs {pairs : List (κ × ν)} {d : Dict κ ν} {k : κ} {v : ν}
    (h : ofPairs pairs = some d) (hg : d.get k = some v) : (k, v) ∈ pairs := by
  induction pairs generalizing d with
  | nil => cases h; simp at hg
  | cons pair rest ih =>
    obtain ⟨k', v'⟩ := pair
    simp only [ofPairs] at h
    split at h
    · cases h
    · rename_i d' hd
      split at h
      · cases h
      · cases h
        simp only [get_set] at hg
        split at hg
        · rename_i hk; cases hg; simp [hk]
        · exact List.mem_cons_of_mem _ (ih hd hg)

/-! ## Number of entries -/

theorem count_set_new {d : Dict κ ν} {k : κ} (v : ν) (h : d.get k = none) :
    (d.set k v).count = d.count + 1 := by
  simp [count, set, AList.keys_insert, List.erase_of_not_mem (get_eq_none.1 h)]

theorem count_set_old {d : Dict κ ν} {k : κ} {v₀ : ν} (v : ν) (h : d.get k = some v₀) :
    (d.set k v).count = d.count := by
  have hk : k ∈ d.keys := isSome_get.1 (by simp [h])
  have hpos : 0 < d.keys.length := List.length_pos_of_mem hk
  simp only [count, set, AList.keys_insert, List.length_cons, List.length_erase_of_mem hk]
  omega

theorem count_set_le (d : Dict κ ν) (k : κ) (v : ν) : (d.set k v).count ≤ d.count + 1 := by
  cases h : d.get k with
  | none => exact (count_set_new v h).le
  | some old => rw [count_set_old v h]; omega

theorem count_remove {d : Dict κ ν} {k : κ} {v₀ : ν} (h : d.get k = some v₀) :
    (d.remove k).count + 1 = d.count := by
  have hk : k ∈ d.keys := isSome_get.1 (by simp [h])
  have hpos : 0 < d.keys.length := List.length_pos_of_mem hk
  simp only [count, remove, AList.keys_erase, List.length_erase_of_mem hk]
  omega

theorem remove_of_get_none {d : Dict κ ν} {k : κ} (h : d.get k = none) : d.remove k = d :=
  AList.ext (List.kerase_of_notMem_keys (get_eq_none.1 h))

/-- Writing twice under one key keeps the last value. -/
theorem set_set (d : Dict κ ν) (k : κ) (v v' : ν) : (d.set k v).set k v' = d.set k v' :=
  AList.insert_insert d

/-- Removing what was just added gives the dictionary back. -/
theorem remove_set_new {d : Dict κ ν} {k : κ} (v : ν) (h : d.get k = none) :
    (d.set k v).remove k = d := by
  have hset : (d.set k v).remove k = d.remove k := by
    refine AList.ext ?_
    change List.kerase k (List.kinsert k v d.entries) = List.kerase k d.entries
    simp [List.kinsert_def]
  rw [hset, remove_of_get_none h]

theorem keys_set_new {d : Dict κ ν} {k : κ} (v : ν) (h : d.get k = none) :
    (d.set k v).keys = k :: d.keys := by
  simp [set, AList.keys_insert, List.erase_of_not_mem (get_eq_none.1 h)]

/-! ## Weighted sums over the entries -/

section Sum
variable [AddCommGroup M]

def sum (d : Dict κ ν) (w : κ → ν → M) : M := (d.entries.map fun e => w e.1 e.2).sum

omit [DecidableEq κ] in
@[simp] theorem sum_empty (w : κ → ν → M) : (∅ : Dict κ ν).sum w = 0 := rfl

/-- Removing an entry takes exactly its weight out of the sum. -/
theorem sum_remove {d : Dict κ ν} {k : κ} {v : ν} (w : κ → ν → M) (h : d.get k = some v) :
    (d.remove k).sum w = d.sum w - w k v := by
  have hk : k ∈ d.entries.keys := isSome_get.1 (by simp [h])
  obtain ⟨b, l₁, l₂, hnot, hd, he⟩ := List.exists_of_kerase hk
  have hb : v = b := by
    have hl : List.dlookup k d.entries = some v := h
    rw [hd, List.dlookup_append, List.dlookup_eq_none.2 hnot] at hl
    simpa [eq_comm] using hl
  subst hb
  have hr : (d.remove k).entries = l₁ ++ l₂ := he
  simp only [sum, hr, hd, List.map_append, List.map_cons, List.sum_append, List.sum_cons]
  abel

theorem sum_set_new {d : Dict κ ν} {k : κ} (v : ν) (w : κ → ν → M) (h : d.get k = none) :
    (d.set k v).sum w = d.sum w + w k v := by
  have he : (d.set k v).entries = ⟨k, v⟩ :: (d.remove k).entries := rfl
  rw [remove_of_get_none h] at he
  simp only [sum, he, List.map_cons, List.sum_cons]
  abel

/-- Overwriting an entry replaces its old weight by the new one. -/
theorem sum_set_old {d : Dict κ ν} {k : κ} {v₀ : ν} (v : ν) (w : κ → ν → M)
    (h : d.get k = some v₀) : (d.set k v).sum w = d.sum w - w k v₀ + w k v := by
  have he : (d.set k v).entries = ⟨k, v⟩ :: (d.remove k).entries := rfl
  rw [← sum_remove w h]
  simp only [sum, he, List.map_cons, List.sum_cons]
  abel

end Sum

theorem sum_nonneg {d : Dict κ ν} {w : κ → ν → Int}
    (h : ∀ k v, d.get k = some v → 0 ≤ w k v) : 0 ≤ d.sum w := by
  refine List.sum_nonneg fun x hx => ?_
  obtain ⟨⟨k, v⟩, he, rfl⟩ := List.mem_map.1 hx
  exact h k v (AList.mem_lookup_iff.2 he)

end Dict

end TxPlatform
