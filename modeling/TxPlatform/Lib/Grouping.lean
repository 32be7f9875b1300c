import Mathlib.Data.List.Basic
import Mathlib.Data.List.Nodup
import Mathlib.Data.List.Induction

/-!
# Grouping by a key

`grouped key xs` collects the elements of a list under their keys, in the order in which the keys
first appear: in Python, `groups.setdefault(key(x), []).append(x)` for every `x`. Each group is the
list filtered by its key (`grouped_eq`), so every element is in exactly one group.
-/

namespace TxPlatform

variable {α κ : Type} [DecidableEq κ]

/-- `groups.setdefault(key, []).append(x)`. -/
def appendTo (key : κ) (x : α) : List (κ × List α) → List (κ × List α)
  | [] => [(key, [x])]
  | (k, xs) :: groups => if k = key then (k, xs ++ [x]) :: groups else (k, xs) :: appendTo key x groups

def grouped (key : α → κ) (xs : List α) : List (κ × List α) :=
  xs.foldl (fun groups x => appendTo (key x) x groups) []

/-- The keys in the order of their first appearance. -/
def firsts : List κ → List κ
  | [] => []
  | k :: ks => k :: (firsts ks).filter (· ≠ k)

theorem mem_firsts {ks : List κ} {k : κ} : k ∈ firsts ks ↔ k ∈ ks := by
  induction ks with
  | nil => simp [firsts]
  | cons k' ks ih =>
    by_cases h : k = k' <;> simp [firsts, ih, h]

theorem nodup_firsts (ks : List κ) : (firsts ks).Nodup := by
  induction ks with
  | nil => exact List.nodup_nil
  | cons k ks ih =>
    refine List.nodup_cons.2 ⟨by simp, ih.filter _⟩

theorem firsts_append_singleton (ks : List κ) (k : κ) :
    firsts (ks ++ [k]) = if k ∈ ks then firsts ks else firsts ks ++ [k] := by
  induction ks with
  | nil => simp [firsts]
  | cons k' ks ih =>
    simp only [List.cons_append, firsts, ih, List.mem_cons]
    by_cases hk : k = k'
    · subst hk
      by_cases hmem : k ∈ ks <;> simp [hmem]
    · by_cases hmem : k ∈ ks <;> simp [hk, hmem]

theorem appendTo_map {key : κ} {x : α} {ks : List κ} {group : κ → List α} (hnodup : ks.Nodup)
    (hempty : key ∉ ks → group key = []) :
    appendTo key x (ks.map fun k => (k, group k)) =
      (if key ∈ ks then ks else ks ++ [key]).map fun k =>
        (k, group k ++ if k = key then [x] else []) := by
  induction ks with
  | nil => simp [appendTo, hempty]
  | cons k ks ih =>
    obtain ⟨hk, hnodup⟩ := List.nodup_cons.1 hnodup
    simp only [List.map_cons, appendTo]
    by_cases hkey : k = key
    · subst hkey
      simp only [if_true, List.mem_cons, true_or, List.map_cons, List.cons.injEq, true_and]
      refine List.map_congr_left fun k' hk' => ?_
      have hne : k' ≠ k := fun h => hk (h ▸ hk')
      simp [hne]
    · have hkey' : key ≠ k := fun h => hkey h.symm
      rw [if_neg hkey, ih hnodup fun hnot => hempty (by simp [hkey', hnot])]
      by_cases hmem : key ∈ ks <;> simp [hmem, hkey, hkey']

/-- **The groups**: one for each key, in the order of first appearance, with the elements that have
it. -/
theorem grouped_eq (key : α → κ) (xs : List α) :
    grouped key xs = (firsts (xs.map key)).map fun k => (k, xs.filter fun x => key x = k) := by
  induction xs using List.reverseRecOn with
  | nil => rfl
  | append_singleton xs x ih =>
    rw [grouped, List.foldl_append, ← grouped, ih, List.foldl_cons, List.foldl_nil,
      appendTo_map (nodup_firsts _)]
    · rw [List.map_append, List.map_singleton, firsts_append_singleton]
      simp only [mem_firsts]
      refine List.map_congr_left fun k _ => ?_
      by_cases hk : key x = k
      · simp [hk]
      · have hk' : k ≠ key x := fun h => hk h.symm
        simp [hk, hk']
    · intro hnot
      rw [List.filter_eq_nil_iff]
      intro y hy hkey
      rw [mem_firsts] at hnot
      exact hnot (List.mem_map.2 ⟨y, hy, by simpa using hkey⟩)

/-- No key has two groups. -/
theorem nodup_keys_grouped (key : α → κ) (xs : List α) : ((grouped key xs).map (·.1)).Nodup := by
  rw [grouped_eq, List.map_map]
  simpa [Function.comp_def] using nodup_firsts (xs.map key)

/-- A group holds exactly the elements with its key, and there is one for the key of every element. -/
theorem mem_grouped {key : α → κ} {xs : List α} {k : κ} {group : List α} :
    (k, group) ∈ grouped key xs ↔ (∃ x ∈ xs, key x = k) ∧ group = xs.filter fun x => key x = k := by
  rw [grouped_eq]
  simp only [List.mem_map, mem_firsts, Prod.mk.injEq]
  constructor
  · rintro ⟨_, ⟨x, hx, rfl⟩, rfl, rfl⟩
    exact ⟨⟨x, hx, rfl⟩, rfl⟩
  · rintro ⟨⟨x, hx, rfl⟩, rfl⟩
    exact ⟨key x, ⟨x, hx, rfl⟩, rfl, rfl⟩

theorem flatMap_filter_perm (key : α → κ) {ks : List κ} (hnodup : ks.Nodup) :
    ∀ {xs : List α}, (∀ x ∈ xs, key x ∈ ks) → (ks.flatMap fun k => xs.filter fun x => key x = k).Perm xs := by
  induction ks with
  | nil =>
    intro xs hall
    have hnil : xs = [] := List.eq_nil_iff_forall_not_mem.2 fun x hx => by simpa using hall x hx
    rw [hnil]
    exact .refl _
  | cons k ks ih =>
    intro xs hall
    obtain ⟨hk, hnodup⟩ := List.nodup_cons.1 hnodup
    have hrest : (ks.flatMap fun k' => xs.filter fun x => key x = k') =
        ks.flatMap fun k' => (xs.filter fun x => !decide (key x = k)).filter fun x => key x = k' := by
      refine List.flatMap_congr fun k' hk' => ?_
      rw [List.filter_filter]
      refine List.filter_congr fun x _ => ?_
      have hne : k' ≠ k := fun h => hk (h ▸ hk')
      by_cases hx : key x = k' <;> simp [hx, hne]
    have hothers : ∀ x ∈ xs.filter (fun x => !decide (key x = k)), key x ∈ ks := by
      intro x hx
      obtain ⟨hx, hne⟩ := List.mem_filter.1 hx
      simpa [by simpa using hne] using hall x hx
    rw [List.flatMap_cons, hrest]
    exact ((ih hnodup hothers).append_left _).trans (List.filter_append_perm _ _)

/-- Every element is in exactly one group. -/
theorem grouped_perm (key : α → κ) (xs : List α) : ((grouped key xs).flatMap (·.2)).Perm xs := by
  rw [grouped_eq, List.flatMap_map]
  exact flatMap_filter_perm key (nodup_firsts _) fun x hx => mem_firsts.2 (List.mem_map_of_mem hx)

end TxPlatform
