import TxPlatform.Lib.JsonText
import Mathlib.Data.List.TakeWhile

/-!
# What reading and writing JSON texts guarantee

Stability first, reader by reader, then the round trip, then what both say about a text that was
cut off.
-/

namespace TxPlatform

namespace Json

/-- The text that follows does not go on with a number. -/
def Ends (cs : List Char) : Prop :=
  ∀ c ∈ cs.head?, c.isDigit = false ∧ c ≠ '.' ∧ c ≠ 'e' ∧ c ≠ 'E'

/-! ## Stability -/

section Stability
variable {cs rest more : List Char}

/-- A span that ended stays as it is, whatever is added behind it. -/
theorem span_append {p : Char → Bool} (hstop : ∀ c ∈ (cs.dropWhile p ++ more).head?, p c = false) :
    (cs ++ more).takeWhile p = cs.takeWhile p ∧ (cs ++ more).dropWhile p = cs.dropWhile p ++ more := by
  induction cs with
  | nil =>
    cases more with
    | nil => exact ⟨rfl, rfl⟩
    | cons c more =>
      have hc : p c = false := hstop c rfl
      simp [hc]
  | cons c cs ih =>
    cases hc : p c with
    | true =>
      simp only [List.dropWhile_cons, hc, if_true] at hstop
      simp [hc, ih hstop]
    | false => simp [hc]

theorem skipSpace_append {c : Char} (h : skipSpace cs = c :: rest) :
    skipSpace (cs ++ more) = c :: (rest ++ more) := by
  have hstop : ∀ d ∈ (cs.dropWhile isSpace ++ more).head?, isSpace d = false := by
    intro d hd
    have hc : cs.dropWhile isSpace = c :: rest := h
    rw [hc] at hd
    cases hd
    have hnot := List.head?_dropWhile_not isSpace cs
    rw [hc] at hnot
    simpa using hnot
  have := (span_append hstop).2
  unfold skipSpace at h ⊢
  rw [this, h]
  rfl

theorem expect_append {word : List Char} (h : expect word cs = some rest) :
    expect word (cs ++ more) = some (rest ++ more) := by
  induction word generalizing cs with
  | nil => cases h; rfl
  | cons w ws ih =>
    cases cs with
    | nil => cases h
    | cons c cs =>
      simp only [expect, List.cons_append] at h ⊢
      split at h
      · rename_i hw
        rw [if_pos hw]
        exact ih h
      · cases h

/-! ### Strings -/

theorem scanUnits_quote : scanUnits ('"' :: cs) = some ([], cs) := by
  rw [scanUnits.eq_def]
  simp

theorem scanUnits_unicode (h₁ h₂ h₃ h₄ : Char) :
    scanUnits ('\\' :: 'u' :: h₁ :: h₂ :: h₃ :: h₄ :: cs) =
      match hexUnit h₁ h₂ h₃ h₄, scanUnits cs with
      | some unit, some (units, rest) => some (unit :: units, rest)
      | _, _ => none := by
  rw [scanUnits.eq_def]
  exact (if_neg (by decide)).trans ((if_pos rfl).trans (if_pos rfl))

theorem scanUnits_simple {e : Char} (he : e ≠ 'u') :
    scanUnits ('\\' :: e :: cs) =
      match simpleEscape e, scanUnits cs with
      | some char, some (units, rest) => some (char.toNat :: units, rest)
      | _, _ => none := by
  rw [scanUnits.eq_def]
  exact (if_neg (by decide)).trans ((if_pos rfl).trans (if_neg he))

theorem scanUnits_plain {c : Char} (hquote : c ≠ '"') (hback : c ≠ '\\') (hc : ¬ c.toNat < 0x20) :
    scanUnits (c :: cs) =
      match scanUnits cs with
      | some (units, rest) => some (c.toNat :: units, rest)
      | none => none := by
  rw [scanUnits.eq_def]
  exact (if_neg hquote).trans ((if_neg hback).trans (if_neg hc))

theorem scanUnits_append {units : List Nat} (h : scanUnits cs = some (units, rest)) :
    scanUnits (cs ++ more) = some (units, rest ++ more) := by
  induction cs using scanUnits.induct generalizing units with
  | case1 => cases h
  | case2 cs =>
    rw [scanUnits_quote] at h
    cases h
    exact scanUnits_quote
  | case3 => cases h
  | case4 h₁ h₂ h₃ h₄ cs unit us r hcs hunit _ ih =>
    rw [scanUnits_unicode, hunit, hcs] at h
    cases h
    simp only [List.cons_append, scanUnits_unicode, hunit, ih hcs]
  | case5 h₁ h₂ h₃ h₄ cs hfail _ ih =>
    rw [scanUnits_unicode] at h
    split at h
    · rename_i unit us r hunit hcs
      exact (hfail unit us r hunit hcs).elim
    · cases h
  | case6 cs hshort _ =>
    rw [scanUnits.eq_def] at h
    simp only [Char.reduceEq, if_false, if_true] at h
    cases h
  | case7 e cs he char us r hcs hchar _ ih =>
    rw [scanUnits_simple he, hchar, hcs] at h
    cases h
    simp only [List.cons_append, scanUnits_simple he, hchar, ih hcs]
  | case8 e cs he hfail _ ih =>
    rw [scanUnits_simple he] at h
    split at h
    · rename_i char us r hchar hcs
      exact (hfail char us r hchar hcs).elim
    · cases h
  | case9 e cs hquote hback hlow =>
    rw [scanUnits.eq_def] at h
    simp only [hquote, hback, hlow, if_false, if_true] at h
    cases h
  | case10 e cs hquote hback hlow us r hcs ih =>
    rw [scanUnits_plain hquote hback hlow, hcs] at h
    cases h
    simp only [List.cons_append, scanUnits_plain hquote hback hlow, ih hcs]
  | case11 e cs hquote hback hlow hcs ih =>
    rw [scanUnits_plain hquote hback hlow, hcs] at h
    cases h

theorem scanString_append {text : String} (h : scanString cs = some (text, rest)) :
    scanString (cs ++ more) = some (text, rest ++ more) := by
  unfold scanString at h ⊢
  split at h
  · cases h
  · rename_i units r hunits
    obtain ⟨chars, hchars, heq⟩ := Option.map_eq_some_iff.1 h
    cases heq
    simp only [scanUnits_append hunits, hchars, Option.map_some]

/-! ### Numbers -/

theorem scanWhole_append {whole : List Char} (h : scanWhole cs = some (whole, rest))
    (hstop : ∀ c ∈ (rest ++ more).head?, c.isDigit = false) :
    scanWhole (cs ++ more) = some (whole, rest ++ more) := by
  cases cs with
  | nil => cases h
  | cons c cs =>
    simp only [scanWhole, List.cons_append] at h ⊢
    split at h
    · rename_i hc
      cases h
      rw [if_pos hc]
    · rename_i hc
      rw [if_neg hc]
      split at h
      · rename_i hdigit
        cases h
        obtain ⟨htake, hdrop⟩ := span_append hstop
        rw [if_pos hdigit, htake, hdrop]
      · cases h

theorem scanFraction_append {fraction : List Char} (h : scanFraction cs = (fraction, rest))
    (hstop : ∀ c ∈ (rest ++ more).head?, c.isDigit = false ∧ c ≠ '.') :
    scanFraction (cs ++ more) = (fraction, rest ++ more) := by
  cases cs with
  | nil =>
    cases h
    cases more with
    | nil => rfl
    | cons c more =>
      have hc : c ≠ '.' := (hstop c rfl).2
      simp [scanFraction, hc]
  | cons c cs =>
    simp only [scanFraction, List.cons_append] at h ⊢
    split at h
    · rename_i hc
      cases h
      obtain ⟨htake, hdrop⟩ := span_append fun d hd => (hstop d hd).1
      rw [htake, hdrop, if_pos hc]
    · cases h
      have hc : c ≠ '.' := (hstop c rfl).2
      rw [if_neg fun h => hc h.1]
      rfl

theorem scanFraction_cases (cs : List Char) :
    scanFraction cs = ([], cs) ∨ ∃ cs', cs = '.' :: cs' := by
  cases cs with
  | nil => exact .inl rfl
  | cons c cs =>
    simp only [scanFraction]
    split
    · rename_i h; exact .inr ⟨cs, by rw [h.1]⟩
    · exact .inl rfl

theorem scanExponent_append {exponent : List Char} (h : scanExponent cs = (exponent, rest))
    (hstop : ∀ c ∈ (rest ++ more).head?, c.isDigit = false ∧ c ≠ 'e' ∧ c ≠ 'E') :
    scanExponent (cs ++ more) = (exponent, rest ++ more) := by
  cases cs with
  | nil =>
    cases h
    cases more with
    | nil => rfl
    | cons c more =>
      have hc := (hstop c rfl).2
      simp [scanExponent, hc]
  | cons c cs =>
    simp only [scanExponent, List.cons_append] at h ⊢
    split at h
    · rename_i hc
      cases h
      cases cs with
      | nil => exact absurd rfl hc.2
      | cons d cs =>
        have hsign : scanExponentSign (d :: cs ++ more) =
            ((scanExponentSign (d :: cs)).1, (scanExponentSign (d :: cs)).2 ++ more) := by
          simp only [scanExponentSign, List.cons_append]
          split <;> rfl
        obtain ⟨htake, hdrop⟩ := span_append fun d hd => (hstop d hd).1
        rw [hsign, htake, hdrop, if_pos hc]
    · cases h
      have hc := (hstop c rfl).2
      rw [if_neg fun h => h.1.elim hc.1 hc.2]
      rfl

theorem scanExponent_cases (cs : List Char) :
    scanExponent cs = ([], cs) ∨ ∃ c cs', cs = c :: cs' ∧ (c = 'e' ∨ c = 'E') := by
  cases cs with
  | nil => exact .inl rfl
  | cons c cs =>
    simp only [scanExponent]
    split
    · rename_i h; exact .inr ⟨c, cs, rfl, h.1⟩
    · exact .inl rfl

theorem scanNumber_append {json : Json} (h : scanNumber cs = some (json, rest))
    (hends : Ends (rest ++ more)) :
    scanNumber (cs ++ more) = some (json, rest ++ more) := by
  have hsign : cs ≠ [] → scanSign (cs ++ more) = ((scanSign cs).1, (scanSign cs).2 ++ more) := by
    intro hne
    cases cs with
    | nil => exact absurd rfl hne
    | cons c cs =>
      by_cases hc : c = '-'
      · subst hc; rfl
      · simp [scanSign, hc]
  have hne : cs ≠ [] := by
    rintro rfl
    cases h
  simp only [scanNumber] at h ⊢
  rw [hsign hne]
  split at h
  · cases h
  · rename_i whole afterWhole hwhole
    cases hfraction : scanFraction afterWhole with | mk fraction afterFraction =>
    cases hexponent : scanExponent afterFraction with | mk exponent afterExponent =>
    simp only [hfraction, hexponent, Option.some.injEq, Prod.mk.injEq] at h
    rw [← h.2] at hends ⊢
    have hstopExponent : ∀ c ∈ (afterExponent ++ more).head?, c.isDigit = false ∧ c ≠ 'e' ∧ c ≠ 'E' :=
      fun c hc => ⟨(hends c hc).1, (hends c hc).2.2⟩
    -- what follows the fraction begins with the exponent or with what follows that
    have hstopFraction : ∀ c ∈ (afterFraction ++ more).head?, c.isDigit = false ∧ c ≠ '.' := by
      rcases scanExponent_cases afterFraction with heq | ⟨e, cs', rfl, he⟩
      · rw [hexponent] at heq
        cases heq
        exact fun c hc => ⟨(hends c hc).1, (hends c hc).2.1⟩
      · intro c hc
        cases hc
        rcases he with rfl | rfl <;> decide
    have hstopWhole : ∀ c ∈ (afterWhole ++ more).head?, c.isDigit = false := by
      rcases scanFraction_cases afterWhole with heq | ⟨cs', rfl⟩
      · rw [hfraction] at heq
        cases heq
        exact fun c hc => (hstopFraction c hc).1
      · intro c hc
        cases hc
        decide
    simp only [scanWhole_append hwhole hstopWhole, scanFraction_append hfraction hstopFraction,
      scanExponent_append hexponent hstopExponent, h.1]

/-! ### Values -/

theorem scanScalar_number {c : Char} (hc : c ≠ 'n' ∧ c ≠ 't' ∧ c ≠ 'f' ∧ c ≠ 'N' ∧ c ≠ 'I')
    (hminus : c = '-' → ∀ tail, cs ≠ 'I' :: tail) : scanScalar (c :: cs) = scanNumber (c :: cs) := by
  unfold scanScalar
  split
  · rename_i heq; cases heq; exact absurd rfl hc.1
  · rename_i heq; cases heq; exact absurd rfl hc.2.1
  · rename_i heq; cases heq; exact absurd rfl hc.2.2.1
  · rename_i heq; cases heq; exact absurd rfl hc.2.2.2.1
  · rename_i heq; cases heq; exact absurd rfl hc.2.2.2.2
  · rename_i heq; cases heq; exact absurd rfl (hminus rfl _)
  · rfl

theorem scanScalar_append {json : Json} (h : scanScalar cs = some (json, rest))
    (hends : Ends (rest ++ more)) :
    scanScalar (cs ++ more) = some (json, rest ++ more) := by
  have hword {word tail : List Char} {v : Json} (h : (expect word tail).map (v, ·) = some (json, rest)) :
      (expect word (tail ++ more)).map (v, ·) = some (json, rest ++ more) := by
    obtain ⟨r, hr, heq⟩ := Option.map_eq_some_iff.1 h
    cases heq
    rw [expect_append hr, Option.map_some]
  unfold scanScalar at h
  split at h
  · exact hword h
  · exact hword h
  · exact hword h
  · exact hword h
  · exact hword h
  · exact hword h
  · rename_i hn ht hf hN hI hminus
    have hnumber := scanNumber_append h hends
    cases cs with
    | nil => cases h
    | cons c cs =>
      rw [List.cons_append, scanScalar_number]
      · exact hnumber
      · refine ⟨?_, ?_, ?_, ?_, ?_⟩
        · rintro rfl; exact hn cs rfl
        · rintro rfl; exact ht cs rfl
        · rintro rfl; exact hf cs rfl
        · rintro rfl; exact hN cs rfl
        · rintro rfl; exact hI cs rfl
      · rintro rfl tail heq
        -- a sign on its own was no number
        cases cs with
        | nil => cases h
        | cons d cs =>
          cases heq
          exact hminus cs rfl

/-- What follows a value in an array or object does not go on with a number. -/
theorem ends_of_skipSpace {c : Char} (h : skipSpace cs = c :: rest)
    (hc : c.isDigit = false ∧ c ≠ '.' ∧ c ≠ 'e' ∧ c ≠ 'E') : Ends (cs ++ more) := by
  cases cs with
  | nil => cases h
  | cons d cs =>
    intro d' hd'
    cases hd'
    unfold skipSpace at h
    rw [List.dropWhile_cons] at h
    split at h
    · rename_i hspace
      simp only [isSpace, Bool.or_eq_true, decide_eq_true_eq] at hspace
      rcases hspace with ((rfl | rfl) | rfl) | rfl <;> decide
    · cases h
      exact hc

/-! ### Arrays and objects, turn by turn -/

section Turns
variable {fuel : Nat} {afterItem afterComma afterKey : List Char} {json item : Json} {key : String}
    {xs : List Json}
  {ms : List (String × Json)}

attribute [local simp] value items members

theorem value_nil (fuel : Nat) : value fuel [] = none := by
  cases fuel <;> rfl

theorem value_array_nil (h : skipSpace cs = ']' :: rest) :
    value (fuel + 1) ('[' :: cs) = some (.arr [], rest) := by
  simp only [value, h]

theorem value_array (hne : ∀ tail, skipSpace cs ≠ ']' :: tail)
    (h : items fuel (skipSpace cs) = some (xs, rest)) :
    value (fuel + 1) ('[' :: cs) = some (.arr xs, rest) := by
  simp only [value, h, Option.map_some]

theorem value_object_nil (h : skipSpace cs = '}' :: rest) :
    value (fuel + 1) ('{' :: cs) = some (.obj [], rest) := by
  simp only [value, h]

theorem value_object (hne : ∀ tail, skipSpace cs ≠ '}' :: tail)
    (h : members fuel (skipSpace cs) = some (ms, rest)) :
    value (fuel + 1) ('{' :: cs) = some (.obj ms, rest) := by
  simp only [value, h, Option.map_some]

/-- How a value can have been read. -/
theorem value_cases (h : value (fuel + 1) cs = some (json, rest)) :
    (∃ tail text, cs = '"' :: tail ∧ scanString tail = some (text, rest) ∧ json = .str text) ∨
    (∃ tail, cs = '[' :: tail ∧ ((skipSpace tail = ']' :: rest ∧ json = .arr []) ∨
      ((∀ t, skipSpace tail ≠ ']' :: t) ∧ ∃ xs, items fuel (skipSpace tail) = some (xs, rest) ∧
        json = .arr xs))) ∨
    (∃ tail, cs = '{' :: tail ∧ ((skipSpace tail = '}' :: rest ∧ json = .obj []) ∨
      ((∀ t, skipSpace tail ≠ '}' :: t) ∧ ∃ ms, members fuel (skipSpace tail) = some (ms, rest) ∧
        json = .obj ms))) ∨
    ((∀ c tail, cs = c :: tail → c ≠ '"' ∧ c ≠ '[' ∧ c ≠ '{') ∧ scanScalar cs = some (json, rest)) := by
  simp only [value] at h
  split at h
  · rename_i tail
    obtain ⟨⟨text, r⟩, hs, heq⟩ := Option.map_eq_some_iff.1 h
    cases heq
    exact .inl ⟨tail, text, rfl, hs, rfl⟩
  · rename_i tail
    refine .inr (.inl ⟨tail, rfl, ?_⟩)
    split at h
    · rename_i r hr
      cases h
      exact .inl ⟨hr, rfl⟩
    · rename_i hne
      obtain ⟨⟨xs, r⟩, hi, heq⟩ := Option.map_eq_some_iff.1 h
      cases heq
      exact .inr ⟨fun t ht => hne t ht, xs, hi, rfl⟩
  · rename_i tail
    refine .inr (.inr (.inl ⟨tail, rfl, ?_⟩))
    split at h
    · rename_i r hr
      cases h
      exact .inl ⟨hr, rfl⟩
    · rename_i hne
      obtain ⟨⟨ms, r⟩, hm, heq⟩ := Option.map_eq_some_iff.1 h
      cases heq
      exact .inr ⟨fun t ht => hne t ht, ms, hm, rfl⟩
  · rename_i hquote hbracket hbrace
    refine .inr (.inr (.inr ⟨?_, h⟩))
    rintro c tail rfl
    refine ⟨?_, ?_, ?_⟩
    · rintro rfl; exact hquote tail rfl
    · rintro rfl; exact hbracket tail rfl
    · rintro rfl; exact hbrace tail rfl

theorem value_scalar (hne : ∀ c tail, cs = c :: tail → c ≠ '"' ∧ c ≠ '[' ∧ c ≠ '{') :
    value (fuel + 1) cs = scanScalar cs := by
  simp only [value]
  split
  · exact absurd rfl (hne _ _ rfl).1
  · exact absurd rfl (hne _ _ rfl).2.1
  · exact absurd rfl (hne _ _ rfl).2.2
  · rfl

theorem items_comma (hitem : value fuel cs = some (item, afterItem))
    (hcomma : skipSpace afterItem = ',' :: afterComma)
    (hitems : items fuel (skipSpace afterComma) = some (xs, rest)) :
    items (fuel + 1) cs = some (item :: xs, rest) := by
  simp only [items, hitem, hcomma, hitems, Option.map_some]

theorem items_last (hitem : value fuel cs = some (item, afterItem))
    (hclose : skipSpace afterItem = ']' :: rest) :
    items (fuel + 1) cs = some ([item], rest) := by
  simp only [items, hitem, hclose]

theorem items_cases (h : items (fuel + 1) cs = some (xs, rest)) :
    ∃ item afterItem, value fuel cs = some (item, afterItem) ∧
      ((∃ afterComma ys, skipSpace afterItem = ',' :: afterComma ∧
        items fuel (skipSpace afterComma) = some (ys, rest) ∧ xs = item :: ys) ∨
      (skipSpace afterItem = ']' :: rest ∧ xs = [item])) := by
  simp only [items] at h
  split at h
  · cases h
  · rename_i item afterItem hitem
    refine ⟨item, afterItem, hitem, ?_⟩
    split at h
    · rename_i afterComma hcomma
      obtain ⟨⟨ys, r⟩, hitems, heq⟩ := Option.map_eq_some_iff.1 h
      cases heq
      exact .inl ⟨afterComma, ys, hcomma, hitems, rfl⟩
    · rename_i r hclose
      cases h
      exact .inr ⟨hclose, rfl⟩
    · cases h

theorem members_comma {tail afterColon : List Char} (hkey : scanString tail = some (key, afterKey))
    (hcolon : skipSpace afterKey = ':' :: afterColon)
    (hitem : value fuel (skipSpace afterColon) = some (item, afterItem))
    (hcomma : skipSpace afterItem = ',' :: afterComma)
    (hmembers : members fuel (skipSpace afterComma) = some (ms, rest)) :
    members (fuel + 1) ('"' :: tail) = some ((key, item) :: ms, rest) := by
  simp only [members, hkey, hcolon, hitem, hcomma, hmembers, Option.map_some]

theorem members_last {tail afterColon : List Char} (hkey : scanString tail = some (key, afterKey))
    (hcolon : skipSpace afterKey = ':' :: afterColon)
    (hitem : value fuel (skipSpace afterColon) = some (item, afterItem))
    (hclose : skipSpace afterItem = '}' :: rest) :
    members (fuel + 1) ('"' :: tail) = some ([(key, item)], rest) := by
  simp only [members, hkey, hcolon, hitem, hclose]

theorem members_cases (h : members (fuel + 1) cs = some (ms, rest)) :
    ∃ tail key afterKey afterColon item afterItem, cs = '"' :: tail ∧
      scanString tail = some (key, afterKey) ∧
      skipSpace afterKey = ':' :: afterColon ∧
        value fuel (skipSpace afterColon) = some (item, afterItem) ∧
      ((∃ afterComma others, skipSpace afterItem = ',' :: afterComma ∧
        members fuel (skipSpace afterComma) = some (others, rest) ∧ ms = (key, item) :: others) ∨
      (skipSpace afterItem = '}' :: rest ∧ ms = [(key, item)])) := by
  simp only [members] at h
  split at h
  · rename_i tail
    split at h
    · cases h
    · rename_i key afterKey hkey
      split at h
      · rename_i afterColon hcolon
        split at h
        · cases h
        · rename_i item afterItem hitem
          refine ⟨tail, key, afterKey, afterColon, item, afterItem, rfl, hkey, hcolon, hitem, ?_⟩
          split at h
          · rename_i afterComma hcomma
            obtain ⟨⟨others, r⟩, hmembers, heq⟩ := Option.map_eq_some_iff.1 h
            cases heq
            exact .inl ⟨afterComma, others, hcomma, hmembers, rfl⟩
          · rename_i r hclose
            cases h
            exact .inr ⟨hclose, rfl⟩
          · cases h
      · cases h
  · cases h

end Turns

theorem skipSpace_append_of_ne_nil (h : skipSpace cs ≠ []) :
    skipSpace (cs ++ more) = skipSpace cs ++ more := by
  cases hs : skipSpace cs with
  | nil => exact absurd hs h
  | cons c tail => exact skipSpace_append hs

theorem items_nil (fuel : Nat) : items fuel [] = none := by
  cases fuel with
  | zero => rfl
  | succ fuel => simp only [items, value_nil]

theorem members_nil (fuel : Nat) : members fuel [] = none := by
  cases fuel <;> rfl

/-- **Reading is stable.** With more fuel and more characters behind it, a reader reads the same. -/
theorem stable (fuel : Nat) :
    (∀ {cs rest more : List Char} {json : Json} {fuel' : Nat}, fuel ≤ fuel' →
      value fuel cs = some (json, rest) →
      Ends (rest ++ more) → value fuel' (cs ++ more) = some (json, rest ++ more)) ∧
    (∀ {cs rest more : List Char} {xs : List Json} {fuel' : Nat}, fuel ≤ fuel' →
      items fuel cs = some (xs, rest) →
      items fuel' (cs ++ more) = some (xs, rest ++ more)) ∧
    (∀ {cs rest more : List Char} {ms : List (String × Json)} {fuel' : Nat}, fuel ≤ fuel' →
      members fuel cs = some (ms, rest) → members fuel' (cs ++ more) = some (ms, rest ++ more)) := by
  induction fuel with
  | zero => exact ⟨fun _ h => (nomatch h), fun _ h => (nomatch h), fun _ h => (nomatch h)⟩
  | succ fuel ih =>
    obtain ⟨ihValue, ihItems, ihMembers⟩ := ih
    refine ⟨fun {cs rest more json fuel'} hle h hends => ?_, fun {cs rest more xs fuel'} hle h => ?_,
      fun {cs rest more ms fuel'} hle h => ?_⟩
    all_goals
      obtain ⟨fuel', rfl⟩ : ∃ n, fuel' = n + 1 := ⟨fuel' - 1, by omega⟩
      have hle := Nat.le_of_succ_le_succ hle
    · obtain ⟨tail, text, rfl, hs, rfl⟩ | ⟨tail, rfl, ⟨hclose, rfl⟩ | ⟨hne, xs, hitems, rfl⟩⟩ |
        ⟨tail, rfl, ⟨hclose, rfl⟩ | ⟨hne, ms, hmembers, rfl⟩⟩ | ⟨hne, hscalar⟩ := value_cases h
      · simp only [List.cons_append, value, scanString_append hs, Option.map_some]
      · exact value_array_nil (skipSpace_append hclose)
      · cases hs : skipSpace tail with
        | nil => rw [hs, items_nil] at hitems; cases hitems
        | cons c t =>
          have happend : skipSpace (tail ++ more) = c :: (t ++ more) := skipSpace_append hs
          rw [List.cons_append]
          refine value_array (fun t' ht' => ?_) ?_
          · rw [happend] at ht'
            cases ht'
            exact hne t hs
          · rw [happend]
            rw [hs] at hitems
            exact ihItems hle hitems
      · exact value_object_nil (skipSpace_append hclose)
      · cases hs : skipSpace tail with
        | nil => rw [hs, members_nil] at hmembers; cases hmembers
        | cons c t =>
          have happend : skipSpace (tail ++ more) = c :: (t ++ more) := skipSpace_append hs
          rw [List.cons_append]
          refine value_object (fun t' ht' => ?_) ?_
          · rw [happend] at ht'
            cases ht'
            exact hne t hs
          · rw [happend]
            rw [hs] at hmembers
            exact ihMembers hle hmembers
      · cases cs with
        | nil => cases hscalar
        | cons c tail =>
          rw [value_scalar fun c' tail' heq => ?_]
          · exact scanScalar_append hscalar hends
          · cases heq
            exact hne c tail rfl
    · obtain ⟨item, afterItem, hitem,
        ⟨afterComma, ys, hcomma, hitems, rfl⟩ | ⟨hclose, rfl⟩⟩ := items_cases h
      · have hends : Ends (afterItem ++ more) := ends_of_skipSpace hcomma (by decide)
        refine items_comma (ihValue hle hitem hends) (skipSpace_append hcomma) ?_
        rw [skipSpace_append_of_ne_nil]
        · exact ihItems hle hitems
        · intro hnil
          rw [hnil, items_nil] at hitems
          cases hitems
      · have hends : Ends (afterItem ++ more) := ends_of_skipSpace hclose (by decide)
        exact items_last (ihValue hle hitem hends) (skipSpace_append hclose)
    · obtain ⟨tail, key, afterKey, afterColon, item, afterItem, rfl, hkey, hcolon, hitem, hrest⟩ :=
        members_cases h
      have hcolon' : skipSpace (afterColon ++ more) = skipSpace afterColon ++ more := by
        refine skipSpace_append_of_ne_nil fun hnil => ?_
        rw [hnil, value_nil] at hitem
        cases hitem
      obtain ⟨afterComma, others, hcomma, hmembers, rfl⟩ | ⟨hclose, rfl⟩ := hrest
      · have hends : Ends (afterItem ++ more) := ends_of_skipSpace hcomma (by decide)
        have hvalue := ihValue hle hitem hends
        rw [← hcolon'] at hvalue
        refine members_comma (scanString_append hkey) (skipSpace_append hcolon) hvalue
          (skipSpace_append hcomma) ?_
        rw [skipSpace_append_of_ne_nil]
        · exact ihMembers hle hmembers
        · intro hnil
          rw [hnil, members_nil] at hmembers
          cases hmembers
      · have hends : Ends (afterItem ++ more) := ends_of_skipSpace hclose (by decide)
        have hvalue := ihValue hle hitem hends
        rw [← hcolon'] at hvalue
        exact members_last (scanString_append hkey) (skipSpace_append hcolon) hvalue
          (skipSpace_append hclose)

end Stability

/-! ## The round trip -/

/-! ### Strings -/

theorem hexValue_digitChar {n : Nat} (h : n < 16) : hexValue (Nat.digitChar n) = some n := by
  have key : ∀ d : Fin 16, hexValue (Nat.digitChar d) = some d := by decide
  exact key ⟨n, h⟩

theorem scanUnits_escapeUnit {unit : Nat} (h : unit < 0x10000) (cs : List Char) :
    scanUnits (escapeUnit unit ++ cs) = (scanUnits cs).map fun (units, rest) =>
      (unit :: units, rest) := by
  have hunit : (((unit / 4096 % 16 * 16 + unit / 256 % 16) * 16 + unit / 16 % 16) * 16 + unit % 16) = unit := by omega
  have hhex : hexUnit (Nat.digitChar (unit / 4096 % 16)) (Nat.digitChar (unit / 256 % 16))
      (Nat.digitChar (unit / 16 % 16)) (Nat.digitChar (unit % 16)) = some unit := by
    simp only [hexUnit, hexValue_digitChar (Nat.mod_lt _ (Nat.succ_pos 15)), hunit]
  simp only [escapeUnit, List.cons_append, List.nil_append, scanUnits_unicode, hhex]
  cases scanUnits cs <;> rfl

theorem scanUnits_escapeSimple {e : Char} (he : e ≠ 'u') {char : Char}
    (h : simpleEscape e = some char) (cs : List Char) :
    scanUnits ('\\' :: e :: cs) = (scanUnits cs).map fun (units, rest) =>
      (char.toNat :: units, rest) := by
  rw [scanUnits_simple he, h]
  cases scanUnits cs <;> rfl

/-- The code points `escape` writes: the character's own, or its surrogate pair. -/
def unitsOf (c : Char) : List Nat :=
  if c.toNat < 0x10000 then [c.toNat]
  else [0xd800 + (c.toNat - 0x10000) / 0x400, 0xdc00 + (c.toNat - 0x10000) % 0x400]

theorem toNat_valid (c : Char) : c.toNat < 0xd800 ∨ 0xdfff < c.toNat ∧ c.toNat < 0x110000 := c.valid

theorem scanUnits_escape (c : Char) (cs : List Char) :
    scanUnits (escape c ++ cs) = (scanUnits cs).map fun (units, rest) => (unitsOf c ++ units, rest) := by
  unfold escape
  split
  · rename_i h; subst h; exact scanUnits_escapeSimple (by decide) (by decide) cs
  split
  · rename_i h; subst h; exact scanUnits_escapeSimple (by decide) (by decide) cs
  split
  · rename_i h; subst h; exact scanUnits_escapeSimple (by decide) (by decide) cs
  split
  · rename_i h; subst h; exact scanUnits_escapeSimple (by decide) (by decide) cs
  split
  · rename_i h; subst h; exact scanUnits_escapeSimple (by decide) (by decide) cs
  split
  · rename_i h; subst h; exact scanUnits_escapeSimple (by decide) (by decide) cs
  split
  · rename_i h; subst h; exact scanUnits_escapeSimple (by decide) (by decide) cs
  split
  · rename_i hquote hback _ _ _ _ _ hplain
    have hunits : unitsOf c = [c.toNat] := if_pos (by omega)
    rw [List.singleton_append, scanUnits_plain hquote hback (by omega), hunits]
    cases scanUnits cs <;> rfl
  split
  · rename_i hshort
    rw [scanUnits_escapeUnit hshort]
    simp only [unitsOf, if_pos hshort, List.singleton_append]
  · rename_i hlong
    have hvalid := toNat_valid c
    rw [List.append_assoc, scanUnits_escapeUnit (by omega), scanUnits_escapeUnit (by omega)]
    simp only [unitsOf, if_neg hlong, Option.map_map]
    rfl

theorem joinUnits_unitsOf (c : Char) (units : List Nat) :
    joinUnits (unitsOf c ++ units) = (joinUnits units).map (c :: ·) := by
  have hvalid := toNat_valid c
  unfold unitsOf
  split
  · have hhigh : ¬ (0xd800 ≤ c.toNat ∧ c.toNat ≤ 0xdbff) := by omega
    have hlow : ¬ (0xdc00 ≤ c.toNat ∧ c.toNat ≤ 0xdfff) := by omega
    rw [List.singleton_append, joinUnits.eq_def]
    simp only [hhigh, hlow, if_false, Char.ofNat_toNat]
  · have hhigh : 0xd800 ≤ 0xd800 + (c.toNat - 0x10000) / 0x400 ∧
      0xd800 + (c.toNat - 0x10000) / 0x400 ≤ 0xdbff := by
      omega
    have hlow : 0xdc00 ≤ 0xdc00 + (c.toNat - 0x10000) % 0x400 ∧
      0xdc00 + (c.toNat - 0x10000) % 0x400 ≤ 0xdfff := by
      omega
    have hjoined : 0x10000 + (0xd800 + (c.toNat - 0x10000) / 0x400 - 0xd800) * 0x400
        + (0xdc00 + (c.toNat - 0x10000) % 0x400 - 0xdc00) = c.toNat := by omega
    rw [List.cons_append, List.cons_append, List.nil_append, joinUnits.eq_def]
    simp only [hhigh, hlow, and_self, if_true, hjoined, Char.ofNat_toNat]

theorem scanString_quote (text : String) (rest : List Char) :
    scanString (text.toList.flatMap escape ++ '"' :: rest) = some (text, rest) := by
  have hunits (chars : List Char) :
    scanUnits (chars.flatMap escape ++ '"' :: rest) = some (chars.flatMap unitsOf, rest) := by
    induction chars with
    | nil => exact scanUnits_quote
    | cons c chars ih =>
      rw [List.flatMap_cons, List.append_assoc, scanUnits_escape, ih]
      rfl
  have hjoin (chars : List Char) : joinUnits (chars.flatMap unitsOf) = some chars := by
    induction chars with
    | nil => rfl
    | cons c chars ih => rw [List.flatMap_cons, joinUnits_unitsOf, ih, Option.map_some]
  simp only [scanString, hunits, hjoin, Option.map_some, String.ofList_toList]

/-! ### Numbers -/

theorem toDigits_head {n : Nat} (h : 0 < n) : ∃ c cs, Nat.toDigits 10 n = c :: cs ∧ c ≠ '0' := by
  induction n using Nat.strongRecOn with
  | ind n ih =>
    by_cases hlt : n < 10
    · refine ⟨n.digitChar, [], Nat.toDigits_of_lt_base hlt, ?_⟩
      have key : ∀ d : Fin 10, 0 < d.val → Nat.digitChar d ≠ '0' := by decide
      exact key ⟨n, hlt⟩ h
    · obtain ⟨c, cs, hcs, hc⟩ := ih (n / 10) (by omega) (by omega)
      rw [Nat.toDigits_of_base_le (by omega) (by omega), hcs]
      exact ⟨c, _, rfl, hc⟩

theorem scanWhole_toDigits (n : Nat) {rest : List Char} (hends : Ends rest) :
    scanWhole (Nat.toDigits 10 n ++ rest) = some (Nat.toDigits 10 n, rest) := by
  rcases Nat.eq_zero_or_pos n with rfl | hpos
  · rw [Nat.toDigits_zero]
    rfl
  · obtain ⟨c, cs, hcs, hc⟩ := toDigits_head hpos
    have hdigits : ∀ d ∈ c :: cs, d.isDigit = true := fun d hd =>
      Nat.isDigit_of_mem_toDigits (by omega) (by omega) (hcs ▸ hd)
    have htake : cs.takeWhile Char.isDigit = cs :=
      List.takeWhile_eq_self_iff.2 fun d hd => hdigits d (List.mem_cons_of_mem _ hd)
    have hdrop : cs.dropWhile Char.isDigit = [] :=
      List.dropWhile_eq_nil_iff.2 fun d hd => hdigits d (List.mem_cons_of_mem _ hd)
    obtain ⟨htake', hdrop'⟩ : (cs ++ rest).takeWhile Char.isDigit = cs.takeWhile Char.isDigit ∧
        (cs ++ rest).dropWhile Char.isDigit = cs.dropWhile Char.isDigit ++ rest :=
      span_append fun d hd => by
        rw [hdrop] at hd
        exact (hends d hd).1
    rw [hcs, List.cons_append]
    simp only [scanWhole, hc, if_false, hdigits c List.mem_cons_self, if_true, htake', htake,
      hdrop', hdrop, List.nil_append]

theorem scanNumber_intText (n : Int) {rest : List Char} (hends : Ends rest) :
    scanNumber (intText n ++ rest) = some (.int n, rest) := by
  have hfraction : scanFraction rest = ([], rest) := by
    rcases scanFraction_cases rest with h | ⟨_, rfl⟩
    · exact h
    · exact absurd rfl (hends '.' rfl).2.1
  have hexponent : scanExponent rest = ([], rest) := by
    rcases scanExponent_cases rest with h | ⟨c, _, rfl, hc⟩
    · exact h
    · exact (hc.elim (hends c rfl).2.2.1 (hends c rfl).2.2.2).elim
  have hvalue : Nat.ofDigitChars 10 (Nat.toDigits 10 n.natAbs) 0 = n.natAbs :=
    Nat.ofDigitChars_ten_toDigits
  unfold intText
  split
  · rename_i hneg
    have hsign : scanSign (['-'] ++ Nat.toDigits 10 n.natAbs ++ rest) =
      (['-'], Nat.toDigits 10 n.natAbs ++ rest) := rfl
    simp only [scanNumber, hsign, scanWhole_toDigits _ hends, hfraction, hexponent, numberValue,
      and_self, if_true, List.cons_ne_nil, if_false, hvalue]
    rw [show -(n.natAbs : Int) = n by omega]
  · rename_i hpos
    have hsign : scanSign (Nat.toDigits 10 n.natAbs ++ rest) =
      ([], Nat.toDigits 10 n.natAbs ++ rest) := by
      cases hdigits : Nat.toDigits 10 n.natAbs with
      | nil => exact absurd hdigits Nat.toDigits_ne_nil
      | cons c cs =>
        have hc : c.isDigit = true :=
          Nat.isDigit_of_mem_toDigits (b := 10) (n := n.natAbs) (by omega) (by omega)
            (hdigits ▸ List.mem_cons_self)
        have hne : c ≠ '-' := by rintro rfl; cases hc
        simp [scanSign, hne]
    simp only [List.nil_append, scanNumber, hsign, scanWhole_toDigits _ hends, hfraction,
      hexponent, numberValue, and_self, if_true, hvalue]
    rw [show (n.natAbs : Int) = n by omega]

/-! ### Values -/

/-- A text Python prints for a number that is no integer. -/
def IsReal (text : String) : Prop := value 1 text.toList = some (.real text, [])

mutual

/-- Every number in the value is one that Python prints. -/
def Printable : Json → Prop
  | .real text => IsReal text
  | .arr items => PrintableItems items
  | .obj members => PrintableMembers members
  | _ => True

def PrintableItems : List Json → Prop
  | [] => True
  | item :: items => item.Printable ∧ PrintableItems items

def PrintableMembers : List (String × Json) → Prop
  | [] => True
  | (_, item) :: members => item.Printable ∧ PrintableMembers members

end

theorem skipSpace_spaces {spaces cs : List Char} (h : ∀ c ∈ spaces, isSpace c) :
    skipSpace (spaces ++ cs) = skipSpace cs := by
  induction spaces with
  | nil => rfl
  | cons c spaces ih =>
    have hc : isSpace c = true := h c List.mem_cons_self
    rw [List.cons_append, skipSpace, List.dropWhile_cons_of_pos hc]
    exact ih fun d hd => h d (List.mem_cons_of_mem _ hd)

theorem skipSpace_cons {c : Char} {cs : List Char} (h : isSpace c = false) :
    skipSpace (c :: cs) = c :: cs := by
  rw [skipSpace, List.dropWhile_cons_of_neg (by simp [h])]

theorem skipSpace_space (cs : List Char) : skipSpace (' ' :: cs) = skipSpace cs := rfl

/-- A value begins neither with a space nor with a closing bracket. -/
theorem value_head {fuel : Nat} {cs rest : List Char} {json : Json}
    (h : value fuel cs = some (json, rest)) :
    skipSpace cs = cs ∧ ∀ tail, cs ≠ ']' :: tail := by
  cases fuel with
  | zero => cases h
  | succ fuel =>
    cases cs with
    | nil => exact ⟨rfl, fun _ h => nomatch h⟩
    | cons c cs =>
      have hnot : ∀ d ∈ [' ', '\t', '\n', '\r', ']'], ∀ tail, value (fuel + 1) (d :: tail) = none := by
        intro d hd tail
        simp only [List.mem_cons, List.not_mem_nil, or_false] at hd
        rcases hd with rfl | rfl | rfl | rfl | rfl <;> rfl
      have hc : c ∉ [' ', '\t', '\n', '\r', ']'] := fun hc => by
        rw [hnot c hc] at h
        cases h
      simp only [List.mem_cons, List.not_mem_nil, or_false, not_or] at hc
      refine ⟨skipSpace_cons ?_, fun tail heq => ?_⟩
      · simp [isSpace, hc]
      · cases heq
        exact hc.2.2.2.2 rfl

theorem items_head {fuel : Nat} {cs rest : List Char} {xs : List Json}
    (h : items fuel cs = some (xs, rest)) :
    skipSpace cs = cs ∧ ∀ tail, cs ≠ ']' :: tail := by
  cases fuel with
  | zero => cases h
  | succ fuel =>
    obtain ⟨item, afterItem, hitem, _⟩ := items_cases h
    exact value_head hitem

theorem ends_nil : Ends [] := fun _ h => nomatch h

theorem ends_cons {c : Char} {cs : List Char}
    (h : c.isDigit = false ∧ c ≠ '.' ∧ c ≠ 'e' ∧ c ≠ 'E') : Ends (c :: cs) := by
  intro d hd
  cases hd
  exact h

theorem ends_spaces {spaces cs : List Char} (h : ∀ c ∈ spaces, isSpace c) (hcs : Ends cs) :
    Ends (spaces ++ cs) := by
  cases spaces with
  | nil => exact hcs
  | cons c spaces =>
    have hc := h c List.mem_cons_self
    simp only [isSpace, Bool.or_eq_true, decide_eq_true_eq] at hc
    exact ends_cons (by rcases hc with ((rfl | rfl) | rfl) | rfl <;> decide)

theorem value_intText (fuel : Nat) (n : Int) {rest : List Char} (hends : Ends rest) :
    value (fuel + 1) (intText n ++ rest) = some (.int n, rest) := by
  have hnumber := scanNumber_intText n hends
  have hdigit : ∀ {c cs}, Nat.toDigits 10 n.natAbs = c :: cs → c.isDigit = true := fun heq =>
    Nat.isDigit_of_mem_toDigits (b := 10) (n := n.natAbs) (by omega) (by omega) (heq ▸ List.mem_cons_self)
  cases hdigits : Nat.toDigits 10 n.natAbs with
  | nil => exact absurd hdigits Nat.toDigits_ne_nil
  | cons d ds =>
    have hd := hdigit hdigits
    have hne : ∀ c : Char, c.isDigit = false → d ≠ c := by
      rintro c hc rfl
      rw [hd] at hc
      cases hc
    unfold intText at hnumber ⊢
    split at hnumber
    · rename_i hneg
      rw [if_pos hneg, hdigits] at *
      simp only [List.cons_append, List.nil_append] at hnumber ⊢
      rw [value_scalar fun c tail heq => by cases heq; decide, scanScalar_number (by decide)]
      · exact hnumber
      · rintro - tail heq
        cases heq
        exact hne 'I' (by decide) rfl
    · rename_i hneg
      rw [if_neg hneg, hdigits] at *
      simp only [List.nil_append, List.cons_append] at hnumber ⊢
      rw [value_scalar, scanScalar_number]
      · exact hnumber
      · exact ⟨hne _ (by decide), hne _ (by decide), hne _ (by decide), hne _ (by decide),
          hne _ (by decide)⟩
      · exact fun heq => absurd heq (hne _ (by decide))
      · rintro c tail heq
        cases heq
        exact ⟨hne _ (by decide), hne _ (by decide), hne _ (by decide)⟩

/-- The text of an item or member that is followed by another, or by the closing bracket. -/
theorem ends_writeItems (layout : Layout) (depth depth' : Nat) (items : List Json) (rest : List Char) :
    Ends (writeItems layout depth items ++ (layout.inside depth' ++ ']' :: rest)) := by
  cases items with
  | nil =>
    rw [writeItems, List.nil_append]
    exact ends_spaces (layout.inside_space depth') (ends_cons (by decide))
  | cons item items =>
    rw [writeItems, List.cons_append]
    exact ends_cons (by decide)

theorem ends_writeMembers (layout : Layout) (depth depth' : Nat) (members : List (String × Json))
    (rest : List Char) :
    Ends (writeMembers layout depth members ++ (layout.inside depth' ++ '}' :: rest)) := by
  cases members with
  | nil =>
    rw [writeMembers, List.nil_append]
    exact ends_spaces (layout.inside_space depth') (ends_cons (by decide))
  | cons member members =>
    obtain ⟨key, item⟩ := member
    rw [writeMembers, List.cons_append]
    exact ends_cons (by decide)

mutual

/-- **What was written is read back**, in either layout and at any depth. -/
theorem value_write (layout : Layout) (depth : Nat) :
    ∀ (json : Json) (fuel : Nat) (rest : List Char), json.Printable →
      (write layout depth json).length < fuel →
      Ends rest → value fuel (write layout depth json ++ rest) = some (json, rest)
  | _, 0, _, _, hfuel, _ => absurd hfuel (Nat.not_lt_zero _)
  | .null, fuel + 1, rest, _, _, _ => rfl
  | .bool true, fuel + 1, rest, _, _, _ => rfl
  | .bool false, fuel + 1, rest, _, _, _ => rfl
  | .int n, fuel + 1, rest, _, _, hends => by
    rw [write]
    exact value_intText fuel n hends
  | .real text, fuel + 1, rest, hprint, _, hends => by
    rw [Printable] at hprint
    rw [write]
    exact (stable 1).1 (Nat.le_add_left 1 fuel) hprint hends
  | .str text, fuel + 1, rest, _, _, _ => by
    simp only [write, quote, List.cons_append, List.append_assoc, List.nil_append, value,
      scanString_quote, Option.map_some]
  | .arr [], fuel + 1, rest, _, _, _ => rfl
  | .arr (item :: items), fuel + 1, rest, hprint, hfuel, _ => by
    rw [Printable, PrintableItems] at hprint
    rw [write] at hfuel ⊢
    simp only [List.length_cons, List.length_append, List.length_nil] at hfuel
    have hitems := items_write layout (depth + 1) depth item items fuel rest hprint.1 hprint.2 (by omega)
    have hhead := items_head hitems
    simp only [List.cons_append, List.append_assoc, List.nil_append]
    have hskip : skipSpace (layout.inside (depth + 1) ++ (write layout (depth + 1) item
        ++ (writeItems layout (depth + 1) items ++ (layout.inside depth ++ ']' :: rest)))) =
        write layout (depth + 1) item ++
          (writeItems layout (depth + 1) items ++ (layout.inside depth ++ ']' :: rest)) := by
      rw [skipSpace_spaces (layout.inside_space _), hhead.1]
    refine value_array (fun tail heq => hhead.2 tail (hskip.symm.trans heq)) ?_
    rw [hskip]
    exact hitems
  | .obj [], fuel + 1, rest, _, _, _ => rfl
  | .obj ((key, item) :: members), fuel + 1, rest, hprint, hfuel, _ => by
    rw [Printable, PrintableMembers] at hprint
    rw [write] at hfuel ⊢
    simp only [List.length_cons, List.length_append, List.length_nil] at hfuel
    have hmembers := members_write layout
      (depth + 1) depth key item members fuel rest hprint.1 hprint.2 (by omega)
    simp only [List.cons_append, List.append_assoc, List.nil_append, quote] at hmembers ⊢
    have hskip : ∀ cs, skipSpace (layout.inside (depth + 1) ++ '"' :: cs) = '"' :: cs := fun cs => by
      rw [skipSpace_spaces (layout.inside_space _), skipSpace_cons (by decide)]
    refine value_object (fun tail heq => ?_) ?_
    · rw [hskip] at heq
      cases heq
    · rw [hskip]
      exact hmembers
termination_by _ fuel => fuel

theorem items_write (layout : Layout) (depth depth' : Nat) :
    ∀ (item : Json) (others : List Json) (fuel : Nat) (rest : List Char), item.Printable →
      PrintableItems others →
      (write layout depth item).length + (writeItems layout depth others).length + 1 < fuel →
      items fuel (write layout depth item ++
        (writeItems layout depth others ++ (layout.inside depth' ++ ']' :: rest)))
        = some (item :: others, rest)
  | _, _, 0, _, _, _, hfuel => absurd hfuel (Nat.not_lt_zero _)
  | item, [], fuel + 1, rest, hprint, _, hfuel => by
    refine items_last (value_write layout depth item fuel _ hprint (by omega)
      (ends_writeItems layout depth depth' _ rest)) ?_
    rw [writeItems, List.nil_append, skipSpace_spaces (layout.inside_space _), skipSpace_cons (by decide)]
  | item, next :: others, fuel + 1, rest, hprint, hothers, hfuel => by
    rw [PrintableItems] at hothers
    have hlength : (writeItems layout depth (next :: others)).length =
        (layout.between depth).length + (write layout depth next).length +
          (writeItems layout depth others).length + 1 := by
      simp only [writeItems, List.length_cons, List.length_append]
    have hitems := items_write layout depth depth' next others fuel rest hothers.1 hothers.2 (by omega)
    have hcomma : skipSpace (writeItems layout depth (next :: others) ++ (layout.inside depth' ++ ']' :: rest)) =
        ',' :: (layout.between depth ++ (write layout depth next ++ (writeItems layout depth others
          ++ (layout.inside depth' ++ ']' :: rest)))) := by
      rw [writeItems, List.cons_append, skipSpace_cons (by decide)]
      simp only [List.append_assoc]
    refine items_comma (value_write layout depth item fuel _ hprint (by omega)
      (ends_writeItems layout depth depth' _ rest)) hcomma ?_
    rw [skipSpace_spaces (layout.between_space _), (items_head hitems).1]
    exact hitems
termination_by _ _ fuel => fuel

theorem members_write (layout : Layout) (depth depth' : Nat) :
    ∀ (key : String) (item : Json) (others : List (String × Json)) (fuel : Nat) (rest : List Char),
      item.Printable →
      PrintableMembers others →
      (write layout depth item).length + (writeMembers layout depth others).length + 1 < fuel →
      members fuel (quote key ++ ([':', ' '] ++ (write layout depth item ++ (writeMembers layout depth others
        ++ (layout.inside depth' ++ '}' :: rest))))) = some ((key, item) :: others, rest)
  | _, _, _, 0, _, _, _, hfuel => absurd hfuel (Nat.not_lt_zero _)
  | key, item, [], fuel + 1, rest, hprint, _, hfuel => by
    have hitem := value_write layout depth item fuel _ hprint (by omega)
      (ends_writeMembers layout depth depth' [] rest)
    have hclose : skipSpace (writeMembers layout depth [] ++
      (layout.inside depth' ++ '}' :: rest)) = '}' :: rest := by
      rw [writeMembers, List.nil_append, skipSpace_spaces (layout.inside_space _),
        skipSpace_cons (by decide)]
    simp only [quote, List.cons_append, List.append_assoc, List.nil_append]
    refine members_last (scanString_quote key _) (skipSpace_cons (by decide)) ?_ hclose
    rw [skipSpace_space, (value_head hitem).1]
    exact hitem
  | key, item, (next, nextItem) :: others, fuel + 1, rest, hprint, hothers, hfuel => by
    rw [PrintableMembers] at hothers
    have hlength : (writeMembers layout depth ((next, nextItem) :: others)).length =
        (layout.between depth).length + (quote next).length + 2 + (write layout depth nextItem).length
          + (writeMembers layout depth others).length + 1 := by
      simp only [writeMembers, List.length_cons, List.length_append, List.length_nil]
    have hitem := value_write layout depth item fuel _ hprint (by omega)
      (ends_writeMembers layout depth depth' ((next, nextItem) :: others) rest)
    have hmembers := members_write layout depth depth' next nextItem others fuel rest hothers.1 hothers.2 (by omega)
    have hcomma : skipSpace (writeMembers layout depth ((next, nextItem) :: others)
        ++ (layout.inside depth' ++ '}' :: rest)) =
        ',' :: (layout.between depth ++ '"' :: (next.toList.flatMap escape ++ '"' :: ':' :: ' ' ::
          (write layout depth nextItem ++ (writeMembers layout depth others
            ++ (layout.inside depth' ++ '}' :: rest))))) := by
      rw [writeMembers, List.cons_append, skipSpace_cons (by decide)]
      simp only [quote, List.cons_append, List.append_assoc, List.nil_append]
    simp only [quote, List.cons_append, List.append_assoc, List.nil_append] at hmembers ⊢
    refine members_comma (scanString_quote key _) (skipSpace_cons (by decide)) ?_ hcomma ?_
    · rw [skipSpace_space, (value_head hitem).1]
      exact hitem
    · rw [skipSpace_spaces (layout.between_space _), skipSpace_cons (by decide)]
      exact hmembers
termination_by _ _ _ fuel => fuel

end

/-! ## Whole texts and texts that were cut off -/

theorem loads_dumps (layout : Layout) {json : Json} (hprint : json.Printable) :
    loads (dumps layout json) = some json := by
  have hvalue := value_write layout 0 json ((dumps layout json).length + 1) [] hprint
    (Nat.lt_succ_self _) ends_nil
  rw [List.append_nil, ← dumps] at hvalue
  have hhead : skipSpace (dumps layout json) = dumps layout json := (value_head hvalue).1
  rw [loads, hhead, hvalue]
  rfl

/-- **A proper beginning of an object's text is no JSON text.** -/
theorem loads_object_torn (layout : Layout) {members : List (String × Json)}
    (hprint : (Json.obj members).Printable) {torn rest : List Char}
    (hsplit : dumps layout (.obj members) = torn ++ rest) (hrest : rest ≠ []) :
    loads torn = none := by
  cases hloads : loads torn with
  | none => rfl
  | some json =>
    exfalso
    obtain ⟨tail, htail⟩ : ∃ tail, dumps layout (.obj members) = '{' :: tail := by
      rcases members with _ | ⟨⟨key, item⟩, members⟩
      · exact ⟨['}'], rfl⟩
      · exact ⟨_, by rw [dumps, write]⟩
    cases torn with
    | nil => cases hloads
    | cons c torn =>
      obtain rfl : c = '{' := by
        rw [htail] at hsplit
        exact (List.cons.inj hsplit).1.symm
      unfold loads at hloads
      rw [skipSpace_cons (by decide)] at hloads
      split at hloads
      · cases hloads
      · rename_i v left hvalue
        -- what was read of the beginning is read of the whole text as well, with `rest` left over
        have hwhole : value ((dumps layout (.obj members)).length + 1) ('{' :: torn ++ rest) =
          some (v, left ++ rest) := by
          have hle : ('{' :: torn).length ≤ (dumps layout (.obj members)).length := by
            rw [hsplit, List.length_append]
            exact Nat.le_add_right _ _
          obtain ⟨t, text, h, _⟩ | ⟨t, h, _⟩ | ⟨t, h,
            ⟨hclose, rfl⟩ | ⟨hne, ms, hmembers, rfl⟩⟩ | ⟨hne, _⟩ :=
            value_cases hvalue
          · cases h
          · cases h
          · cases h
            exact value_object_nil (skipSpace_append hclose)
          · cases h
            cases hs : skipSpace torn with
            | nil => rw [hs, members_nil] at hmembers; cases hmembers
            | cons d t =>
              have happend : skipSpace (torn ++ rest) = d :: (t ++ rest) := skipSpace_append hs
              rw [hs] at hmembers
              rw [List.cons_append]
              refine value_object (fun t' ht' => ?_) ?_
              · rw [happend] at ht'
                cases ht'
                exact hne t hs
              · rw [happend]
                exact (stable _).2.2 hle hmembers
          · exact absurd rfl (hne '{' torn rfl).2.2
        have hround := value_write layout 0 (.obj members)
          ((dumps layout (.obj members)).length + 1) [] hprint
          (Nat.lt_succ_self _) ends_nil
        rw [List.append_nil, ← dumps, hsplit] at hround
        rw [hsplit, hround] at hwhole
        simp only [Option.some.injEq, Prod.mk.injEq] at hwhole
        exact hrest (List.append_eq_nil_iff.1 hwhole.2.symm).2

end Json

end TxPlatform
