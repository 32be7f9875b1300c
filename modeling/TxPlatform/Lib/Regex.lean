import Mathlib.Data.List.Basic
import Mathlib.Data.List.Forall2

/-!
# Regular expressions with anchors

The part of the regular expressions of .NET and Python that needs no captures: character classes,
sequences, alternatives, bounded repetition, `^` and `$`. `r.ends p` lists the positions at which a
match that starts at `p` can end; `isMatch` looks for a match anywhere in the text. `$` holds at the
end of the text and also before a final line feed.

The rules `mem_ends_*` read a pattern as a statement about the text; `isMatch_anchored` and
`isMatch_floating` start from the two kinds of search.
-/

namespace TxPlatform

/-- A place in a text: what follows it, and whether nothing precedes it. -/
structure Position where
  atStart : Bool
  rest : List Char
  deriving DecidableEq

inductive Regex where
  | empty
  | set (accepts : Char → Bool)
  | seq (first second : Regex)
  | alt (first second : Regex)
  | times (inner : Regex) (least most : Nat)
  /-- `^` -/
  | start
  /-- `$` -/
  | finish

namespace Regex

/-- What can follow `$`. -/
def FinalLineFeed (rest : List Char) : Prop := rest = [] ∨ rest = ['\n']

instance (rest : List Char) : Decidable (FinalLineFeed rest) := inferInstanceAs (Decidable (_ ∨ _))

/-- `n` matches in a row. -/
def power (ends : Position → List Position) : Nat → Position → List Position
  | 0, p => [p]
  | n + 1, p => (ends p).flatMap (power ends n)

def ends : Regex → Position → List Position
  | .empty, p => [p]
  | .set _, ⟨_, []⟩ => []
  | .set accepts, ⟨_, c :: rest⟩ => if accepts c then [⟨false, rest⟩] else []
  | .seq first second, p => (first.ends p).flatMap second.ends
  | .alt first second, p => first.ends p ++ second.ends p
  | .times inner least most, p =>
    (List.range (most + 1 - least)).flatMap fun extra => power inner.ends (least + extra) p
  | .start, p => if p.atStart then [p] else []
  | .finish, p => if FinalLineFeed p.rest then [p] else []

def isMatchFrom (r : Regex) : Bool → List Char → Bool
  | atStart, [] => !(r.ends ⟨atStart, []⟩).isEmpty
  | atStart, c :: rest => !(r.ends ⟨atStart, c :: rest⟩).isEmpty || isMatchFrom r false rest

/-- A match anywhere in the text. -/
def isMatch (r : Regex) (text : String) : Bool := r.isMatchFrom true text.toList

/-- One character after the other. -/
def classes : List (Char → Bool) → Regex
  | [] => .empty
  | accepts :: rest => .seq (.set accepts) (classes rest)

/-- The text itself. -/
def word (text : String) : Regex := classes (text.toList.map fun c => (· == c))

/-! ## Rules -/

section Rules
variable {p q : Position}

attribute [local simp] ends

theorem mem_ends_set {accepts : Char → Bool} :
    q ∈ (set accepts).ends p ↔ ∃ c, accepts c = true ∧ p.rest = c :: q.rest ∧ q.atStart = false := by
  obtain ⟨atStart, rest⟩ := p
  cases rest with
  | nil => simp [ends]
  | cons c rest =>
    simp only [ends]
    split
    · rename_i hc
      simp only [List.mem_singleton]
      constructor
      · rintro rfl
        exact ⟨c, hc, rfl, rfl⟩
      · rintro ⟨d, -, hrest, hstart⟩
        cases q
        simp_all
    · rename_i hc
      simp only [List.not_mem_nil, List.cons.injEq, false_iff, not_exists, not_and]
      rintro d hd ⟨rfl, -⟩
      exact absurd hd hc

theorem mem_ends_seq {first second : Regex} :
    q ∈ (seq first second).ends p ↔ ∃ m, m ∈ first.ends p ∧ q ∈ second.ends m := by
  simp [ends]

theorem mem_ends_times {inner : Regex} {least most : Nat} :
    q ∈ (times inner least most).ends p ↔
      ∃ n, least ≤ n ∧ n ≤ most ∧ q ∈ power inner.ends n p := by
  simp only [ends, List.mem_flatMap, List.mem_range]
  constructor
  · rintro ⟨extra, hextra, hq⟩
    exact ⟨least + extra, by omega, by omega, hq⟩
  · rintro ⟨n, hleast, hmost, hq⟩
    refine ⟨n - least, by omega, ?_⟩
    rwa [Nat.add_sub_cancel' hleast]

theorem mem_ends_start : q ∈ start.ends p ↔ p.atStart = true ∧ q = p := by
  by_cases h : p.atStart = true <;> simp [ends, h]

theorem mem_ends_finish : q ∈ finish.ends p ↔ FinalLineFeed p.rest ∧ q = p := by
  by_cases h : FinalLineFeed p.rest <;> simp [ends, h]

/-- A repeated class consumes characters of the class. -/
theorem mem_power_set {accepts : Char → Bool} {n : Nat} :
    q ∈ power (set accepts).ends n p ↔ ∃ chars : List Char, chars.length = n ∧
      (∀ c ∈ chars, accepts c = true) ∧ p.rest = chars ++ q.rest ∧
        q.atStart = (p.atStart && chars.isEmpty) := by
  induction n generalizing p with
  | zero =>
    simp only [power, List.mem_singleton, List.length_eq_zero_iff]
    constructor
    · rintro rfl
      exact ⟨[], rfl, by simp, rfl, by simp⟩
    · rintro ⟨chars, rfl, -, hrest, hstart⟩
      cases p
      cases q
      simp_all
  | succ n ih =>
    simp only [power, List.mem_flatMap, mem_ends_set, ih]
    constructor
    · rintro ⟨m, ⟨c, hc, hrest, hstart⟩, chars, hlength, hchars, hrest', hstart'⟩
      refine ⟨c :: chars, by simp [hlength], ?_, by simp [hrest, hrest'], by simp [hstart', hstart]⟩
      simpa [hc] using hchars
    · rintro ⟨chars, hlength, hchars, hrest, hstart⟩
      cases chars with
      | nil => simp at hlength
      | cons c chars =>
        refine ⟨⟨false, chars ++ q.rest⟩, ⟨c, hchars c (by simp), hrest, rfl⟩, chars, ?_, ?_, rfl, ?_⟩
        · simpa using hlength
        · exact fun d hd => hchars d (by simp [hd])
        · simpa using hstart

theorem mem_ends_classes {sets : List (Char → Bool)} :
    q ∈ (classes sets).ends p ↔ ∃ chars : List Char,
      List.Forall₂ (fun accepts c => accepts c = true) sets chars ∧ p.rest = chars ++ q.rest ∧
        q.atStart = (p.atStart && chars.isEmpty) := by
  induction sets generalizing p with
  | nil =>
    simp only [classes, ends, List.mem_singleton, List.forall₂_nil_left_iff]
    constructor
    · rintro rfl
      exact ⟨[], rfl, rfl, by simp⟩
    · rintro ⟨chars, rfl, hrest, hstart⟩
      cases p
      cases q
      simp_all
  | cons accepts sets ih =>
    simp only [classes, mem_ends_seq, mem_ends_set, ih]
    constructor
    · rintro ⟨m, ⟨c, hc, hrest, hstart⟩, chars, hchars, hrest', hstart'⟩
      exact ⟨c :: chars, .cons hc hchars, by simp [hrest, hrest'], by simp [hstart', hstart]⟩
    · rintro ⟨chars, hchars, hrest, hstart⟩
      obtain ⟨c, tail, hc, htail, rfl⟩ := List.forall₂_cons_left_iff.1 hchars
      exact ⟨⟨false, tail ++ q.rest⟩, ⟨c, hc, hrest, rfl⟩, tail, htail, rfl, by simpa using hstart⟩

theorem mem_ends_word {text : String} :
    q ∈ (word text).ends p ↔ p.rest = text.toList ++ q.rest ∧
      q.atStart = (p.atStart && text.toList.isEmpty) := by
  have hsame : ∀ chars : List Char, List.Forall₂ (fun accepts c => accepts c = true)
      (text.toList.map fun c => (· == c)) chars ↔ chars = text.toList := by
    intro chars
    rw [List.forall₂_map_left_iff]
    simp only [beq_iff_eq]
    rw [← List.forall₂_eq_eq_eq]
    exact ⟨fun h => h.flip, fun h => h.flip⟩
  simp only [word, mem_ends_classes, hsame]
  constructor
  · rintro ⟨chars, rfl, hrest, hstart⟩
    exact ⟨hrest, hstart⟩
  · rintro ⟨hrest, hstart⟩
    exact ⟨_, rfl, hrest, hstart⟩

end Rules

/-! ## Searches -/

theorem isMatchFrom_iff {r : Regex} {atStart : Bool} {text : List Char} :
    r.isMatchFrom atStart text = true ↔ ∃ before rest q, text = before ++ rest ∧
      q ∈ r.ends ⟨atStart && before.isEmpty, rest⟩ := by
  have hends : ∀ p, (!(r.ends p).isEmpty) = true ↔ ∃ q, q ∈ r.ends p := by
    intro p
    simp [List.eq_nil_iff_forall_not_mem]
  induction text generalizing atStart with
  | nil =>
    simp only [isMatchFrom, hends, List.nil_eq, List.append_eq_nil_iff]
    constructor
    · rintro ⟨q, hq⟩
      exact ⟨[], [], q, ⟨rfl, rfl⟩, by simpa using hq⟩
    · rintro ⟨before, rest, q, ⟨rfl, rfl⟩, hq⟩
      exact ⟨q, by simpa using hq⟩
  | cons c text ih =>
    simp only [isMatchFrom, Bool.or_eq_true, hends, ih]
    constructor
    · rintro (⟨q, hq⟩ | ⟨before, rest, q, rfl, hq⟩)
      · exact ⟨[], c :: text, q, rfl, by simpa using hq⟩
      · exact ⟨c :: before, rest, q, rfl, by simpa using hq⟩
    · rintro ⟨before, rest, q, htext, hq⟩
      cases before with
      | nil =>
        cases htext
        exact .inl ⟨q, by simpa using hq⟩
      | cons d before =>
        obtain ⟨rfl, rfl⟩ := List.cons.inj htext
        exact .inr ⟨before, rest, q, rfl, by simpa using hq⟩

/-- A pattern matches when it does at some place of the text. -/
theorem isMatch_iff {r : Regex} {text : String} :
    r.isMatch text = true ↔ ∃ before rest q, text.toList = before ++ rest ∧
      q ∈ r.ends ⟨before.isEmpty, rest⟩ := by
  simpa [isMatch] using @isMatchFrom_iff r true text.toList

/-- A pattern behind `^` has to match from the first character on. -/
theorem isMatch_anchored {r : Regex} {text : String} :
    (seq start r).isMatch text = true ↔ ∃ q, q ∈ r.ends ⟨true, text.toList⟩ := by
  simp only [isMatch_iff, mem_ends_seq, mem_ends_start]
  constructor
  · rintro ⟨before, rest, q, htext, m, ⟨hstart, rfl⟩, hq⟩
    rw [List.isEmpty_iff] at hstart
    subst hstart
    rw [htext]
    exact ⟨q, hq⟩
  · rintro ⟨q, hq⟩
    exact ⟨[], text.toList, q, rfl, _, ⟨rfl, rfl⟩, hq⟩

/-- `^word[class]{least,most}$`: the word, a run of the class, and perhaps a final line feed. -/
theorem isMatch_word_times {start : String} {accepts : Char → Bool} {least most : Nat} {text : String} :
    (seq .start (seq (word start) (seq (times (set accepts) least most) finish))).isMatch text = true ↔
      ∃ body rest, text.toList = start.toList ++ body ++ rest ∧ least ≤ body.length ∧
        body.length ≤ most ∧ (∀ c ∈ body, accepts c = true) ∧ FinalLineFeed rest := by
  simp only [isMatch_anchored, mem_ends_seq, mem_ends_word, mem_ends_times, mem_power_set, mem_ends_finish]
  constructor
  · rintro ⟨q, m, ⟨htext, -⟩, m', ⟨n, hleast, hmost, body, rfl, hbody, hrest, -⟩, hfinal, rfl⟩
    exact ⟨body, q.rest, by rw [htext, hrest, List.append_assoc], hleast, hmost, hbody, hfinal⟩
  · rintro ⟨body, rest, htext, hleast, hmost, hbody, hfinal⟩
    refine ⟨⟨_, rest⟩, ⟨_, body ++ rest⟩, ⟨by simpa using htext, rfl⟩, ⟨_, rest⟩,
      ⟨body.length, hleast, hmost, body, rfl, hbody, rfl, rfl⟩, hfinal, rfl⟩

/-- `[class]{least,most}` without anchors only asks for a run that is long enough. -/
theorem isMatch_times {accepts : Char → Bool} {least most : Nat} (h : least ≤ most) {text : String} :
    (times (set accepts) least most).isMatch text = true ↔
      ∃ before body after, text.toList = before ++ body ++ after ∧ least ≤ body.length ∧
        ∀ c ∈ body, accepts c = true := by
  simp only [isMatch_iff, mem_ends_times, mem_power_set]
  constructor
  · rintro ⟨before, rest, q, htext, n, hleast, -, body, rfl, hbody, hrest, -⟩
    exact ⟨before, body, q.rest, by rw [htext, hrest, List.append_assoc], hleast, hbody⟩
  · rintro ⟨before, body, after, htext, hleast, hbody⟩
    refine ⟨before, body ++ after, ⟨_, body.drop least ++ after⟩, by simpa using htext, least, Nat.le_refl _, h,
      body.take least, List.length_take_of_le hleast, fun c hc => hbody c (List.mem_of_mem_take hc), ?_, rfl⟩
    rw [← List.append_assoc, List.take_append_drop]

end Regex

/-! ## Characters -/

/-- Letters and digits are ASCII characters. -/
theorem toNat_lt_of_isAlphanum {c : Char} (h : c.isAlphanum = true) : c.toNat < 128 := by
  delta Char.isAlphanum Char.isAlpha Char.isUpper Char.isLower Char.isDigit at h
  simp only [Bool.or_eq_true, Bool.and_eq_true, decide_eq_true_eq] at h
  obtain ((⟨-, hmax⟩ | ⟨-, hmax⟩) | ⟨-, hmax⟩) := h
  · exact Nat.lt_of_le_of_lt (m := 90) hmax (by decide)
  · exact Nat.lt_of_le_of_lt (m := 122) hmax (by decide)
  · exact Nat.lt_of_le_of_lt (m := 57) hmax (by decide)

end TxPlatform
