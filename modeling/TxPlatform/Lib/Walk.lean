import Mathlib.Data.Fintype.Pigeonhole
import Mathlib.Data.Fintype.Card

/-!
# Walks under a partial function

`walk next n x` takes `n` steps from `x`. A walk that can go on from every element of a list but the
ones where it may stop, and never leaves the list, stops or comes back to an element it has passed
after at most as many steps as the list is long (`walk_ends`).
-/

namespace TxPlatform

variable {α : Type}

def walk (next : α → Option α) : Nat → α → Option α
  | 0, x => some x
  | n + 1, x => (walk next n x).bind next

section Ends
variable {next : α → Option α} {stop : α → Prop} {elements : List α}

/-- Unless it stops before, the walk is still inside the list. -/
theorem walk_inside (hnext : ∀ x ∈ elements, ¬ stop x → ∃ y ∈ elements, next x = some y) {x : α}
    (hx : x ∈ elements) (n : Nat) :
    (∃ m < n, ∃ y, walk next m x = some y ∧ stop y) ∨ ∃ y ∈ elements, walk next n x = some y := by
  induction n with
  | zero => exact .inr ⟨x, hx, rfl⟩
  | succ n ih =>
    obtain ⟨m, hm, y, hy, hstop⟩ | ⟨y, hmem, hy⟩ := ih
    · exact .inl ⟨m, by omega, y, hy, hstop⟩
    · by_cases hstop : stop y
      · exact .inl ⟨n, by omega, y, hy, hstop⟩
      · obtain ⟨z, hz, hstep⟩ := hnext y hmem hstop
        exact .inr ⟨z, hz, by simp [walk, hy, hstep]⟩

/-- More steps than elements: some element comes twice. -/
theorem exists_repeat {visit : Nat → α} (h : ∀ n ≤ elements.length, visit n ∈ elements) :
    ∃ m n, m < n ∧ n ≤ elements.length ∧ visit m = visit n := by
  have hplace : ∀ n : Fin (elements.length + 1), ∃ i : Fin elements.length, elements.get i = visit n := by
    intro n
    exact List.get_of_mem (h n (by omega))
  choose place hplace using hplace
  obtain ⟨a, b, hne, hsame⟩ := Fintype.exists_ne_map_eq_of_card_lt place (by simp)
  have hvisit : visit a = visit b := by
    rw [← hplace a, ← hplace b, hsame]
  rcases Nat.lt_or_ge a b with hlt | hge
  · exact ⟨a, b, hlt, by omega, hvisit⟩
  · have hne' : (a : Nat) ≠ b := fun heq => hne (Fin.ext heq)
    exact ⟨b, a, by omega, by omega, hvisit.symm⟩

theorem walk_ends (hnext : ∀ x ∈ elements, ¬ stop x → ∃ y ∈ elements, next x = some y) {x : α}
    (hx : x ∈ elements) :
    ∃ n top, n ≤ elements.length ∧ walk next n x = some top ∧
      (stop top ∨ ∃ m < n, walk next m x = some top) := by
  by_cases hstops : ∃ n ≤ elements.length, ∃ y, walk next n x = some y ∧ stop y
  · obtain ⟨n, hn, y, hy, hstop⟩ := hstops
    exact ⟨n, y, hn, hy, .inl hstop⟩
  · have hinside : ∀ n ≤ elements.length, ∃ y ∈ elements, walk next n x = some y := by
      intro n hn
      obtain ⟨m, hm, y, hy, hstop⟩ | hinside := walk_inside hnext hx n
      · exact absurd ⟨m, by omega, y, hy, hstop⟩ hstops
      · exact hinside
    have hvisit : ∀ n ≤ elements.length, (walk next n x).getD x ∈ elements := by
      intro n hn
      obtain ⟨y, hy, hwalk⟩ := hinside n hn
      simpa [hwalk] using hy
    obtain ⟨m, n, hlt, hn, hsame⟩ := exists_repeat hvisit
    obtain ⟨y, -, hy⟩ := hinside n hn
    obtain ⟨z, -, hz⟩ := hinside m (by omega)
    refine ⟨n, y, hn, hy, .inr ⟨m, hlt, ?_⟩⟩
    rw [hz]
    simpa [hy, hz] using hsame

end Ends

end TxPlatform
