import Mathlib.Data.List.Infix

/-!
# Words in a text

A word that does not reach over a border occurs in a text exactly when it occurs in one of the parts.
A text with a separator is cut in one way at its first and in one way at its last occurrence.
`find` gives the first occurrence; behind a border that can only end the word it is found in the part
where it starts (`find_skip`).
-/

namespace TxPlatform

/-! ## Words and borders -/

section Words
variable {α : Type} {word a b s : List α}

/-- A word does not start before a border and go on behind it. -/
theorem infix_append_iff (h : ∀ c ∈ b.head?, c ∉ word) : word <:+: a ++ b ↔ word <:+: a ∨ word <:+: b := by
  constructor
  · rintro ⟨before, after, heq⟩
    obtain ⟨m, rfl, -⟩ | ⟨m, hm, rfl⟩ := List.append_eq_append_iff.1 heq
    · exact .inl ⟨before, m, rfl⟩
    · obtain ⟨start, rfl, rfl⟩ | ⟨m, rfl, rfl⟩ := List.append_eq_append_iff.1 hm
      · cases m with
        | nil => exact .inl ⟨before, [], by simp⟩
        | cons c m => exact absurd (List.mem_append_right _ List.mem_cons_self) (h c rfl)
      · exact .inr ⟨m, after, rfl⟩
  · rintro (hword | hword)
    · exact List.infix_append_of_infix_left hword
    · exact List.infix_append_of_infix_right hword

theorem infix_borders_append (h : ∀ c ∈ s, c ∉ word) : word <:+: s ++ b ↔ word <:+: b := by
  induction s with
  | nil => rfl
  | cons c s ih =>
    rw [List.cons_append, List.infix_cons_iff, ih fun d hd => h d (by simp [hd])]
    constructor
    · rintro (hstart | hinfix)
      · cases word with
        | nil => exact List.nil_infix
        | cons d word =>
          obtain ⟨rfl, -⟩ := List.cons_prefix_cons.1 hstart
          exact absurd List.mem_cons_self (h d List.mem_cons_self)
      · exact hinfix
    · exact .inr

theorem infix_append_borders (h : ∀ c ∈ s, c ∉ word) (hne : word ≠ []) : word <:+: a ++ s ↔ word <:+: a := by
  have hnil : ¬ word <:+: s := by
    have hborders : word <:+: s ++ [] ↔ word <:+: [] := infix_borders_append h
    rw [List.append_nil, List.infix_nil] at hborders
    exact fun hs => hne (hborders.1 hs)
  rw [infix_append_iff fun c hc => h c (List.mem_of_mem_head? hc), or_iff_left hnil]

/-- Two parts between borders; the second begins with one. -/
theorem infix_between_borders {e : List α} (hs : ∀ c ∈ s, c ∉ word) (he : ∀ c ∈ e, c ∉ word)
    (hb : ∀ c ∈ b.head?, c ∉ word) (hne : word ≠ []) :
    word <:+: s ++ (a ++ b ++ e) ↔ word <:+: a ∨ word <:+: b := by
  rw [infix_borders_append hs, infix_append_borders he hne, infix_append_iff hb]

/-- A word that starts before a border that only its end can reach ends there. -/
theorem prefix_border {before text : List α} {c : α} (hborder : c ∉ word.dropLast)
    (h : word <+: before ++ c :: text) : word <+: before ++ [c] := by
  have hwhole : before ++ c :: text = (before ++ [c]) ++ text := by simp
  rw [hwhole] at h
  obtain hshort | ⟨rest, rfl⟩ := List.prefix_or_prefix_of_prefix h (List.prefix_append _ _)
  · exact hshort
  · cases rest with
    | nil => simp
    | cons d rest =>
      refine absurd ?_ hborder
      rw [List.append_assoc, List.singleton_append, List.dropLast_append_of_ne_nil (List.cons_ne_nil _ _)]
      simp

end Words

/-! ## Texts with a separator -/

/-- A text is cut in one way at the first occurrence of a character. -/
theorem append_cons_inj {α : Type} {a b x y : List α} {c : α} (ha : c ∉ a) (hb : c ∉ b) :
    a ++ c :: x = b ++ c :: y ↔ a = b ∧ x = y := by
  constructor
  · intro h
    obtain ⟨middle, rfl, hrest⟩ | ⟨middle, rfl, hrest⟩ := List.append_eq_append_iff.1 h
    · cases middle with
      | nil => simpa using hrest
      | cons d middle =>
        have hd : c = d := (List.cons.inj hrest).1
        exact absurd (by simp [hd]) hb
    · cases middle with
      | nil => simpa using hrest.symm
      | cons d middle =>
        have hd : c = d := (List.cons.inj hrest).1
        exact absurd (by simp [hd]) ha
  · rintro ⟨rfl, rfl⟩
    rfl

/-- Two texts of two parts are equal when the parts are, or when a part with a separator inside is
cut at another place. -/
theorem append_cons_eq_iff {α : Type} {a b x y : List α} {c : α} :
    a ++ c :: x = b ++ c :: y ↔ (a = b ∧ x = y) ∨
      (∃ middle, b = a ++ c :: middle ∧ x = middle ++ c :: y) ∨
      ∃ middle, a = b ++ c :: middle ∧ y = middle ++ c :: x := by
  constructor
  · intro h
    obtain ⟨middle, rfl, hrest⟩ | ⟨middle, rfl, hrest⟩ := List.append_eq_append_iff.1 h
    · cases middle with
      | nil => exact .inl (by simpa using hrest)
      | cons d middle =>
        obtain ⟨rfl, rfl⟩ := List.cons.inj hrest
        exact .inr (.inl ⟨middle, rfl, rfl⟩)
    · cases middle with
      | nil => exact .inl (by simpa using hrest.symm)
      | cons d middle =>
        obtain ⟨rfl, rfl⟩ := List.cons.inj hrest
        exact .inr (.inr ⟨middle, rfl, rfl⟩)
  · rintro (⟨rfl, rfl⟩ | ⟨middle, rfl, rfl⟩ | ⟨middle, rfl, rfl⟩) <;> simp

/-- It is cut in one way at the last occurrence, too. -/
theorem append_cons_last_inj {α : Type} {a b x y : List α} {c : α} (ha : c ∉ a) (hb : c ∉ b) :
    x ++ c :: a = y ++ c :: b ↔ x = y ∧ a = b := by
  rw [← List.reverse_inj, List.reverse_append, List.reverse_append, List.reverse_cons, List.reverse_cons,
    List.append_assoc, List.append_assoc, List.singleton_append, List.singleton_append,
    append_cons_inj (fun h => ha (List.mem_reverse.1 h)) (fun h => hb (List.mem_reverse.1 h)),
    List.reverse_inj, List.reverse_inj, and_comm]

/-- A word that ends with the border ends where the text does. -/
theorem suffix_of_infix_border {α : Type} {word before : List α} {c : α} (hbefore : c ∉ before)
    (h : word ++ [c] <:+: before ++ [c]) : word <:+ before := by
  obtain ⟨front, rest, heq⟩ := h
  rcases List.eq_nil_or_concat rest with rfl | ⟨rest, d, rfl⟩
  · rw [List.append_nil, ← List.append_assoc] at heq
    exact ⟨front, List.append_cancel_right heq⟩
  · refine absurd ?_ hbefore
    rw [List.concat_eq_append, ← List.append_assoc] at heq
    obtain ⟨rfl, -⟩ := List.append_inj' heq rfl
    simp

/-! ## The first occurrence -/

section Find
variable {α : Type} [DecidableEq α]

/-- Where the word first starts. -/
def find (word : List α) : List α → Option Nat
  | [] => if word = [] then some 0 else none
  | c :: text => if word.isPrefixOf (c :: text) then some 0 else (find word text).map (· + 1)

variable {word before text : List α} {c : α}

theorem find_of_prefix (h : word <+: text) : find word text = some 0 := by
  cases text with
  | nil => rw [find, if_pos (List.prefix_nil.1 h)]
  | cons c text => rw [find, if_pos (List.isPrefixOf_iff_prefix.2 h)]

/-- Nothing starts in a part that is closed by a border and does not hold the word. -/
theorem find_skip (hborder : c ∉ word.dropLast) (hnot : ¬ word <:+: before ++ [c]) :
    find word (before ++ c :: text) = (find word text).map (· + (before.length + 1)) := by
  have hstart : ¬ word.isPrefixOf (before ++ c :: text) = true := fun h =>
    hnot (prefix_border hborder (List.isPrefixOf_iff_prefix.1 h)).isInfix
  induction before with
  | nil =>
    rw [List.nil_append] at hstart ⊢
    rw [find, if_neg hstart]
    rfl
  | cons d before ih =>
    rw [List.cons_append] at hstart hnot ⊢
    have hnot' : ¬ word <:+: before ++ [c] := fun h => hnot (List.infix_cons h)
    have hstart' : ¬ word.isPrefixOf (before ++ c :: text) = true := fun h =>
      hnot' (prefix_border hborder (List.isPrefixOf_iff_prefix.1 h)).isInfix
    rw [find, if_neg hstart, ih hnot' hstart', Option.map_map, List.length_cons]
    congr 1

end Find

end TxPlatform
