import TxPlatform.Lib.JsonText
import TxPlatform.Lib.Words

/-!
# Searching a JSON text

A word without quotes, brackets, commas, colons and spaces cannot reach over the borders that
`write` puts between values. So it occurs in the text of a value exactly when it occurs in the text
of one key or one scalar in it, at whatever depth (`infix_write`).
-/

namespace TxPlatform

namespace Json

/-- What `write` puts around keys and scalars. -/
def isBorder (c : Char) : Bool :=
  isSpace c || c = '"' || c = '[' || c = ']' || c = '{' || c = '}' || c = ',' || c = ':'

/-- A value without items and members. -/
def IsScalar : Json → Prop
  | .arr _ => False
  | .obj _ => False
  | _ => True

/-- The word is in the text of a key or of a scalar of the value. -/
inductive Shows (word : List Char) : Json → Prop
  | scalar {json : Json} (hscalar : json.IsScalar) (h : word <:+: dumps compact json) : Shows word json
  | item {items : List Json} {item : Json} (hitem : item ∈ items) (h : Shows word item) :
      Shows word (.arr items)
  | key {members : List (String × Json)} {key : String} {value : Json} (hmember : (key, value) ∈ members)
      (h : word <:+: key.toList.flatMap escape) : Shows word (.obj members)
  | member {members : List (String × Json)} {key : String} {value : Json} (hmember : (key, value) ∈ members)
      (h : Shows word value) : Shows word (.obj members)

theorem shows_arr {word : List Char} {items : List Json} :
    Shows word (.arr items) ↔ ∃ item ∈ items, Shows word item := by
  constructor
  · rintro (hscalar | ⟨hitem, h⟩)
    · cases hscalar
    · exact ⟨_, hitem, h⟩
  · rintro ⟨item, hitem, h⟩
    exact .item hitem h

theorem shows_obj {word : List Char} {members : List (String × Json)} :
    Shows word (.obj members) ↔
      ∃ entry ∈ members, word <:+: entry.1.toList.flatMap escape ∨ Shows word entry.2 := by
  constructor
  · rintro (hscalar | _ | ⟨hmember, h⟩ | ⟨hmember, h⟩)
    · cases hscalar
    · exact ⟨_, hmember, .inl h⟩
    · exact ⟨_, hmember, .inr h⟩
  · rintro ⟨entry, hmember, h | h⟩
    · exact .key hmember h
    · exact .member hmember h

theorem shows_scalar {word : List Char} {json : Json} (hscalar : json.IsScalar) :
    Shows word json ↔ word <:+: dumps compact json := by
  constructor
  · intro h
    cases h with
    | scalar _ h => exact h
    | item => cases hscalar
    | key => cases hscalar
    | member => cases hscalar
  · exact .scalar hscalar

mutual

/-- Whether the word is shown, by looking through the whole value. -/
def search (word : List Char) : Json → Bool
  | .arr items => searchItems word items
  | .obj members => searchMembers word members
  | .null => decide (word <:+: dumps compact .null)
  | .bool value => decide (word <:+: dumps compact (.bool value))
  | .int value => decide (word <:+: dumps compact (.int value))
  | .real text => decide (word <:+: dumps compact (.real text))
  | .str text => decide (word <:+: dumps compact (.str text))

def searchItems (word : List Char) : List Json → Bool
  | [] => false
  | item :: items => search word item || searchItems word items

def searchMembers (word : List Char) : List (String × Json) → Bool
  | [] => false
  | (key, value) :: members =>
    decide (word <:+: key.toList.flatMap escape) || search word value || searchMembers word members

end

mutual

theorem search_iff {word : List Char} {json : Json} : search word json = true ↔ Shows word json := by
  cases json with
  | arr items => rw [search, searchItems_iff, shows_arr]
  | obj members => rw [search, searchMembers_iff, shows_obj]
  | _ =>
    rw [search, decide_eq_true_eq]
    refine (shows_scalar ?_).symm
    trivial

theorem searchItems_iff {word : List Char} {items : List Json} :
    searchItems word items = true ↔ ∃ item ∈ items, Shows word item := by
  cases items with
  | nil => simp [searchItems]
  | cons item items => simp [searchItems, search_iff, searchItems_iff]

theorem searchMembers_iff {word : List Char} {members : List (String × Json)} :
    searchMembers word members = true ↔
      ∃ entry ∈ members, word <:+: entry.1.toList.flatMap escape ∨ Shows word entry.2 := by
  cases members with
  | nil => simp [searchMembers]
  | cons entry members => simp [searchMembers, search_iff, searchMembers_iff]

end

instance (word : List Char) (json : Json) : Decidable (Shows word json) := decidable_of_iff _ search_iff

theorem write_scalar {json : Json} (h : json.IsScalar) (layout : Layout) (depth : Nat) :
    write layout depth json = dumps compact json := by
  cases json with
  | arr items => cases h
  | obj members => cases h
  | bool value => cases value <;> rfl
  | _ => rfl

theorem infix_write_scalar {word : List Char} {json : Json} (h : json.IsScalar) (layout : Layout) (depth : Nat) :
    word <:+: write layout depth json ↔ Shows word json := by
  rw [shows_scalar h, write_scalar h]

theorem head_writeItems (layout : Layout) (depth : Nat) (items : List Json) :
    ∀ c ∈ (writeItems layout depth items).head?, c = ',' := by
  cases items <;> simp [writeItems]

theorem head_writeMembers (layout : Layout) (depth : Nat) (members : List (String × Json)) :
    ∀ c ∈ (writeMembers layout depth members).head?, c = ',' := by
  cases members <;> simp [writeMembers]

section Search
variable {word : List Char} (hword : ∀ c ∈ word, isBorder c = false) (hne : word ≠ [])
include hword

theorem not_mem_of_isBorder {c : Char} (h : isBorder c = true) : c ∉ word := by
  intro hc
  rw [hword c hc] at h
  cases h

theorem not_mem_of_isSpace {c : Char} (h : isSpace c = true) : c ∉ word :=
  not_mem_of_isBorder hword (by simp [isBorder, h])

theorem not_mem_head_of_comma {cs : List Char} (h : ∀ c ∈ cs.head?, c = ',') : ∀ c ∈ cs.head?, c ∉ word :=
  fun c hc => not_mem_of_isBorder hword (h c hc ▸ rfl)

theorem not_mem_cons_spaces {c : Char} {spaces : List Char} (hc : isBorder c = true)
    (h : ∀ d ∈ spaces, isSpace d) : ∀ d ∈ c :: spaces, d ∉ word := by
  intro d hd
  obtain rfl | hd := List.mem_cons.1 hd
  · exact not_mem_of_isBorder hword hc
  · exact not_mem_of_isSpace hword (h d hd)

theorem not_mem_spaces_append {c : Char} {spaces : List Char} (hc : isBorder c = true)
    (h : ∀ d ∈ spaces, isSpace d) : ∀ d ∈ spaces ++ [c], d ∉ word := by
  intro d hd
  obtain hd | hd := List.mem_append.1 hd
  · exact not_mem_of_isSpace hword (h d hd)
  · exact List.mem_singleton.1 hd ▸ not_mem_of_isBorder hword hc

include hne

theorem infix_quote (text : String) : word <:+: quote text ↔ word <:+: text.toList.flatMap escape := by
  have hquote : ∀ c ∈ ['"'], c ∉ word := by simpa using not_mem_of_isBorder hword rfl
  have hsplit : quote text = ['"'] ++ (text.toList.flatMap escape ++ ['"']) := rfl
  rw [hsplit, infix_borders_append hquote, infix_append_borders hquote hne]

/-- A key and its value. -/
theorem infix_member (key : String) (value : List Char) :
    word <:+: quote key ++ ([':', ' '] ++ value) ↔
      word <:+: key.toList.flatMap escape ∨ word <:+: value := by
  have hcolon : ∀ c ∈ [':', ' '], c ∉ word := not_mem_cons_spaces hword rfl (by simp [isSpace])
  rw [infix_append_iff (by simpa using not_mem_of_isBorder hword rfl), infix_borders_append hcolon,
    infix_quote hword hne]

mutual

/-- **Searching a text** is searching its keys and scalars. -/
theorem infix_write (layout : Layout) (depth : Nat) (json : Json) :
    word <:+: write layout depth json ↔ Shows word json := by
  cases json with
  | arr items =>
    rw [shows_arr]
    cases items with
    | nil =>
      have hborders : ∀ c ∈ ['[', ']'], c ∉ word := by
        simpa using ⟨not_mem_of_isBorder hword rfl, not_mem_of_isBorder hword rfl⟩
      simpa [write] using (infix_append_borders (a := []) hborders hne).not.2 (by simpa using hne)
    | cons item items =>
      have hitem := infix_write layout (depth + 1) item
      have hitems := infix_writeItems layout (depth + 1) items
      have hsplit : write layout depth (.arr (item :: items)) = ('[' :: layout.inside (depth + 1)) ++
          (write layout (depth + 1) item ++ writeItems layout (depth + 1) items
            ++ (layout.inside depth ++ [']'])) := by
        simp [write]
      rw [hsplit, infix_between_borders (not_mem_cons_spaces hword rfl (layout.inside_space _))
        (not_mem_spaces_append hword rfl (layout.inside_space _))
        (not_mem_head_of_comma hword (head_writeItems _ _ _)) hne, hitem, hitems]
      simp
  | obj members =>
    rw [shows_obj]
    cases members with
    | nil =>
      have hborders : ∀ c ∈ ['{', '}'], c ∉ word := by
        simpa using ⟨not_mem_of_isBorder hword rfl, not_mem_of_isBorder hword rfl⟩
      simpa [write] using (infix_append_borders (a := []) hborders hne).not.2 (by simpa using hne)
    | cons entry members =>
      obtain ⟨key, item⟩ := entry
      have hitem := infix_write layout (depth + 1) item
      have hmembers := infix_writeMembers layout (depth + 1) members
      have hsplit : write layout depth (.obj ((key, item) :: members)) = ('{' :: layout.inside (depth + 1)) ++
          (quote key ++ ([':', ' '] ++ write layout (depth + 1) item)
            ++ writeMembers layout (depth + 1) members ++ (layout.inside depth ++ ['}'])) := by
        simp [write]
      rw [hsplit, infix_between_borders (not_mem_cons_spaces hword rfl (layout.inside_space _))
        (not_mem_spaces_append hword rfl (layout.inside_space _))
        (not_mem_head_of_comma hword (head_writeMembers _ _ _)) hne, infix_member hword hne, hitem, hmembers]
      simp
  | null => exact infix_write_scalar (by trivial) layout depth
  | bool value => exact infix_write_scalar (by trivial) layout depth
  | int value => exact infix_write_scalar (by trivial) layout depth
  | real text => exact infix_write_scalar (by trivial) layout depth
  | str text => exact infix_write_scalar (by trivial) layout depth

theorem infix_writeItems (layout : Layout) (depth : Nat) (items : List Json) :
    word <:+: writeItems layout depth items ↔ ∃ item ∈ items, Shows word item := by
  cases items with
  | nil => simp [writeItems, hne]
  | cons item items =>
    have hitem := infix_write layout depth item
    have hitems := infix_writeItems layout depth items
    have hsplit : writeItems layout depth (item :: items) = (',' :: layout.between depth) ++
        (write layout depth item ++ writeItems layout depth items ++ []) := by
      simp [writeItems]
    rw [hsplit, infix_between_borders (not_mem_cons_spaces hword rfl (layout.between_space _)) (by simp)
      (not_mem_head_of_comma hword (head_writeItems _ _ _)) hne, hitem, hitems]
    simp

theorem infix_writeMembers (layout : Layout) (depth : Nat) (members : List (String × Json)) :
    word <:+: writeMembers layout depth members ↔
      ∃ entry ∈ members, word <:+: entry.1.toList.flatMap escape ∨ Shows word entry.2 := by
  cases members with
  | nil => simp [writeMembers, hne]
  | cons entry members =>
    obtain ⟨key, item⟩ := entry
    have hitem := infix_write layout depth item
    have hmembers := infix_writeMembers layout depth members
    have hsplit : writeMembers layout depth ((key, item) :: members) = (',' :: layout.between depth) ++
        (quote key ++ ([':', ' '] ++ write layout depth item) ++ writeMembers layout depth members ++ []) := by
      simp [writeMembers]
    rw [hsplit, infix_between_borders (not_mem_cons_spaces hword rfl (layout.between_space _)) (by simp)
      (not_mem_head_of_comma hword (head_writeMembers _ _ _)) hne, infix_member hword hne, hitem, hmembers]
    simp

end

end Search

end Json

end TxPlatform
