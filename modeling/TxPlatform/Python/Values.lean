import Mathlib.Algebra.Group.Nat.Defs
import Mathlib.Data.List.Induction
import Mathlib.Tactic.Common
import TxPlatform.Lib.Json

/-!
# Python values

A Python value that came out of a JSON document is a `Json`: a list, a dict in the order of its
insertions, a text, a bool, `None`, an int, or a float as the text `json.dumps` writes for it. `Python`
lists what the model takes from the runtime: float arithmetic, `repr` of a text, and the decimal
digits of Unicode outside ASCII. An operation that raises has no result.
-/

namespace TxPlatform

class Python where
  /-- `repr` of a text. -/
  repr : String → String
  /-- The value of a decimal digit outside ASCII. -/
  decimalDigit : Char → Option Nat
  /-- `float(value)`; the result is the text of the float. -/
  float : Json → Option String
  /-- `int` of a float; infinities and NaN have none. -/
  truncate : String → Option Int
  isZero : String → Bool
  floatEq : String → String → Bool
  floatEqInt : String → Int → Bool

namespace Python

/-- A runtime for values without floats, with digits in ASCII and with texts that need no escapes. -/
@[reducible] def plain : Python where
  repr text := "'" ++ text ++ "'"
  decimalDigit _ := none
  float _ := none
  truncate _ := none
  isZero _ := false
  floatEq _ _ := false
  floatEqInt _ _ := false

/-- `dict.get(key)`: `None` for a missing key. -/
def get (members : List (String × Json)) (key : String) : Json := (members.lookup key).getD .null

/-- `members[key] = value`: a key that is there keeps its place. -/
def insert (key : String) (value : Json) : List (String × Json) → List (String × Json)
  | [] => [(key, value)]
  | (k, v) :: members => if k = key then (k, value) :: members else (k, v) :: insert key value members

/-- `{key: value for key, value in items}`. -/
def dict (items : List (String × Json)) : List (String × Json) :=
  items.foldl (fun members item => insert item.1 item.2 members) []

/-! ## Dicts -/

section Dicts
variable {items members : List (String × Json)} {key key' : String} {value value' : Json}

/-- The value is the last one with its key. -/
def IsLast {α : Type} (items : List (String × α)) (key : String) (value : α) : Prop :=
  ∃ before after, items = before ++ (key, value) :: after ∧ ∀ entry ∈ after, entry.1 ≠ key

theorem IsLast.mem {α : Type} {items : List (String × α)} {value : α} (h : IsLast items key value) :
    (key, value) ∈ items := by
  obtain ⟨before, after, rfl, -⟩ := h
  simp

theorem isLast_append_singleton {α : Type} {items : List (String × α)} {value value' : α} :
    IsLast (items ++ [(key', value')]) key value ↔
      (key = key' ∧ value = value') ∨ (key ≠ key' ∧ IsLast items key value) := by
  constructor
  · rintro ⟨before, after, hitems, hafter⟩
    obtain rfl | ⟨after, last, rfl⟩ := List.eq_nil_or_concat after
    · obtain ⟨-, hlast⟩ := List.append_inj' hitems rfl
      simp only [List.cons.injEq, Prod.mk.injEq, and_true] at hlast
      exact .inl ⟨hlast.1.symm, hlast.2.symm⟩
    · have hsplit : items ++ [(key', value')] = before ++ (key, value) :: after ++ [last] := by simpa using hitems
      obtain ⟨rfl, hlast⟩ := List.append_inj' hsplit rfl
      simp only [List.cons.injEq, and_true] at hlast
      subst hlast
      refine .inr ⟨fun h => hafter (key', value') (by simp) h.symm, before, after, rfl, fun entry hentry => ?_⟩
      exact hafter entry (by simp [hentry])
  · rintro (⟨rfl, rfl⟩ | ⟨hne, before, after, rfl, hafter⟩)
    · exact ⟨items, [], rfl, by simp⟩
    · refine ⟨before, after ++ [(key', value')], by simp, fun entry hentry => ?_⟩
      obtain hentry | hentry := List.mem_append.1 hentry
      · exact hafter entry hentry
      · rw [List.mem_singleton.1 hentry]
        exact hne.symm

/-- Every key has a last value. -/
theorem exists_isLast {α : Type} {items : List (String × α)} {value : α} (h : (key, value) ∈ items) :
    ∃ last, IsLast items key last := by
  induction items using List.reverseRecOn with
  | nil => cases h
  | append_singleton items entry ih =>
    obtain ⟨key', value'⟩ := entry
    by_cases hkey : key = key'
    · exact ⟨value', isLast_append_singleton.2 (.inl ⟨hkey, rfl⟩)⟩
    · have hmem : (key, value) ∈ items := by simpa [hkey] using h
      obtain ⟨last, hlast⟩ := ih hmem
      exact ⟨last, isLast_append_singleton.2 (.inr ⟨hkey, hlast⟩)⟩

theorem isLast_of_nodup {α : Type} {items : List (String × α)} {value : α} (hnodup : (items.map (·.1)).Nodup)
    (h : (key, value) ∈ items) : IsLast items key value := by
  obtain ⟨before, after, rfl⟩ := List.append_of_mem h
  refine ⟨before, after, rfl, fun entry hentry hkey => ?_⟩
  rw [List.map_append, List.map_cons] at hnodup
  exact (List.nodup_cons.1 (List.nodup_append.1 hnodup).2.1).1 (List.mem_map.2 ⟨entry, hentry, hkey⟩)

theorem isLast_map {α β : Type} {items : List (String × α)} {f : α → β} {result : β} :
    IsLast (items.map fun entry => (entry.1, f entry.2)) key result ↔
      ∃ value, IsLast items key value ∧ f value = result := by
  constructor
  · rintro ⟨before, after, hitems, hafter⟩
    obtain ⟨start, rest, rfl, rfl, hrest⟩ := List.map_eq_append_iff.1 hitems
    obtain ⟨⟨key', value⟩, tail, rfl, hentry, rfl⟩ := List.map_eq_cons_iff.1 hrest
    obtain ⟨rfl, rfl⟩ := Prod.mk.inj hentry
    exact ⟨value, ⟨start, tail, rfl, fun entry hentry => hafter _ (List.mem_map_of_mem hentry)⟩, rfl⟩
  · rintro ⟨value, ⟨before, after, rfl, hafter⟩, rfl⟩
    refine ⟨_, _, List.map_append.trans (congrArg _ (List.map_cons ..)), fun entry hentry => ?_⟩
    obtain ⟨found, hfound, rfl⟩ := List.mem_map.1 hentry
    exact hafter found hfound

theorem keys_insert :
    (insert key value members).map (·.1) =
      if key ∈ members.map (·.1) then members.map (·.1) else members.map (·.1) ++ [key] := by
  induction members with
  | nil => simp [insert]
  | cons entry members ih =>
    obtain ⟨first, found⟩ := entry
    by_cases hfirst : first = key
    · simp [insert, hfirst]
    · have hkey : key ≠ first := fun h => hfirst h.symm
      simp only [insert, hfirst, if_false, List.map_cons, ih, List.mem_cons, hkey, false_or]
      split <;> rfl

theorem insert_of_not_mem (h : key ∉ members.map (·.1)) : insert key value members = members ++ [(key, value)] := by
  induction members with
  | nil => rfl
  | cons entry members ih =>
    obtain ⟨first, found⟩ := entry
    rw [List.map_cons, List.mem_cons, not_or] at h
    rw [insert, if_neg fun heq => h.1 heq.symm, ih h.2, List.cons_append]

theorem mem_insert (hnodup : (members.map (·.1)).Nodup) :
    (key, value) ∈ insert key' value' members ↔
      (key = key' ∧ value = value') ∨ (key ≠ key' ∧ (key, value) ∈ members) := by
  induction members with
  | nil => simp [insert]
  | cons entry members ih =>
    obtain ⟨first, found⟩ := entry
    obtain ⟨hfirst, hnodup⟩ := List.nodup_cons.1 hnodup
    simp only [insert]
    split
    · rename_i hkey
      subst hkey
      have hne : (key, value) ∈ members → key ≠ first := fun hmem h =>
        hfirst (List.mem_map.2 ⟨_, hmem, h⟩)
      simp only [List.mem_cons, Prod.mk.injEq]
      tauto
    · rename_i hkey
      simp only [List.mem_cons, Prod.mk.injEq, ih hnodup]
      constructor
      · rintro (⟨rfl, rfl⟩ | hsame | ⟨hne, hmem⟩)
        · exact .inr ⟨hkey, .inl ⟨rfl, rfl⟩⟩
        · exact .inl hsame
        · exact .inr ⟨hne, .inr hmem⟩
      · rintro (hsame | ⟨hne, hfound | hmem⟩)
        · exact .inr (.inl hsame)
        · exact .inl hfound
        · exact .inr (.inr ⟨hne, hmem⟩)

theorem dict_append_singleton : dict (items ++ [(key, value)]) = insert key value (dict items) := by
  simp [dict]

theorem nodup_keys_dict : ((dict items).map (·.1)).Nodup := by
  induction items using List.reverseRecOn with
  | nil => simp [dict]
  | append_singleton items entry ih =>
    obtain ⟨key, value⟩ := entry
    rw [dict_append_singleton, keys_insert]
    split
    · exact ih
    · rename_i hkey
      exact List.nodup_append_comm.1 (List.nodup_cons.2 ⟨hkey, ih⟩)

/-- Of the values of a key the last one is kept. -/
theorem mem_dict : (key, value) ∈ dict items ↔ IsLast items key value := by
  induction items using List.reverseRecOn with
  | nil => simp [dict, IsLast]
  | append_singleton items entry ih =>
    obtain ⟨key', value'⟩ := entry
    rw [dict_append_singleton, mem_insert nodup_keys_dict, ih, isLast_append_singleton]

/-- Without a repeated key nothing changes. -/
theorem dict_eq_self (hnodup : (items.map (·.1)).Nodup) : dict items = items := by
  induction items using List.reverseRecOn with
  | nil => rfl
  | append_singleton items entry ih =>
    obtain ⟨key, value⟩ := entry
    rw [List.map_append, List.nodup_append_comm] at hnodup
    obtain ⟨hkey, hnodup⟩ := List.nodup_cons.1 hnodup
    rw [dict_append_singleton, ih hnodup, insert_of_not_mem hkey]

end Dicts

section Runtime
variable [Python]

/-! ## Texts -/

/-- `repr` of a float: `json` has its own names for infinities and NaN. -/
def floatRepr (text : String) : String :=
  if text = "NaN" then "nan" else if text = "Infinity" then "inf" else if text = "-Infinity" then "-inf"
  else text

mutual

def reprOf : Json → String
  | .null => "None"
  | .bool true => "True"
  | .bool false => "False"
  | .int value => toString value
  | .real text => floatRepr text
  | .str text => repr text
  | .arr items => "[" ++ ", ".intercalate (reprItems items) ++ "]"
  | .obj members => "\x7b" ++ ", ".intercalate (reprMembers members) ++ "\x7d"

def reprItems : List Json → List String
  | [] => []
  | item :: items => reprOf item :: reprItems items

def reprMembers : List (String × Json) → List String
  | [] => []
  | (key, value) :: members => (repr key ++ ": " ++ reprOf value) :: reprMembers members

end

def str : Json → String
  | .str text => text
  | value => reprOf value

def truthy : Json → Bool
  | .null => false
  | .bool value => value
  | .int value => value ≠ 0
  | .real text => !isZero text
  | .str text => text ≠ ""
  | .arr items => !items.isEmpty
  | .obj members => !members.isEmpty

/-! ## Equality -/

/-- A bool is a number. -/
def asInt : Json → Option Int
  | .bool value => some (if value then 1 else 0)
  | .int value => some value
  | _ => none

def eqScalar : Json → Json → Bool
  | .null, .null => true
  | .str text, .str text' => text = text'
  | .real text, .real text' => floatEq text text'
  | .real text, value => (asInt value).any (floatEqInt text)
  | value, .real text => (asInt value).any (floatEqInt text)
  | value, value' =>
    match asInt value, asInt value' with
    | some n, some n' => n = n'
    | _, _ => false

mutual

/-- `==`. -/
def eq : Json → Json → Bool
  | .arr items, .arr items' => eqItems items items'
  | .obj members, .obj members' => members.length = members'.length && eqMembers members members'
  | value, value' => eqScalar value value'

def eqItems : List Json → List Json → Bool
  | [], [] => true
  | item :: items, item' :: items' => eq item item' && eqItems items items'
  | _, _ => false

/-- Every member is in the other dict with an equal value. -/
def eqMembers : List (String × Json) → List (String × Json) → Bool
  | [], _ => true
  | (key, value) :: members, members' =>
    (match members'.lookup key with
      | some value' => eq value value'
      | none => false) && eqMembers members members'

end

/-! ## Integers -/

/-- `str.isspace`, for one character. -/
def isSpace (c : Char) : Bool :=
  let v := c.val
  (9 ≤ v && v ≤ 13) || (28 ≤ v && v ≤ 32) || v == 0x85 || v == 0xA0 || v == 0x1680
    || (0x2000 ≤ v && v ≤ 0x200A) || v == 0x2028 || v == 0x2029 || v == 0x202F || v == 0x205F
    || v == 0x3000

def digitOf (c : Char) : Option Nat :=
  if c.isDigit then some (c.toNat - '0'.toNat) else if c.toNat < 128 then none else decimalDigit c

/-- Digits with single underscores between them; `after` says whether a digit came just before. -/
def digitsOf : Bool → List Char → Option (List Nat)
  | after, [] => if after then some [] else none
  | after, c :: rest =>
    if c = '_' ∧ after then digitsOf false rest
    else
      match digitOf c with
      | some digit => (digitsOf true rest).map (digit :: ·)
      | none => none

/-- `sys.get_int_max_str_digits()`. -/
def maxDigits : Nat := 4300

def trim (text : List Char) : List Char :=
  ((text.dropWhile isSpace).reverse.dropWhile isSpace).reverse

def unsigned (text : List Char) : Option Int :=
  match digitsOf false text with
  | none => none
  | some digits => if maxDigits < digits.length then none else some (digits.foldl (fun n d => 10 * n + d) 0 : Nat)

/-- `str` of an int. -/
def strOfInt (n : Int) : Option String :=
  if maxDigits < (Nat.toDigits 10 n.natAbs).length then none else some (toString n)

/-- `int` of a text. -/
def intOfText (text : String) : Option Int :=
  match trim text.toList with
  | '-' :: rest => (unsigned rest).map fun n => -n
  | '+' :: rest => unsigned rest
  | rest => unsigned rest

/-- `int(value)`. -/
def int : Json → Option Int
  | .real text => truncate text
  | .str text => intOfText text
  | value => asInt value

end Runtime

/-! ## `int` undoes `str` -/

theorem trim_eq {text : List Char} (h : ∀ c ∈ text, isSpace c = false) : trim text = text := by
  have hdrop : ∀ {cs : List Char}, (∀ c ∈ cs, isSpace c = false) → cs.dropWhile isSpace = cs := by
    intro cs hcs
    cases cs with
    | nil => rfl
    | cons c cs => rw [List.dropWhile_cons, if_neg (by simp [hcs c])]
  rw [trim, hdrop h, hdrop fun c hc => h c (List.mem_reverse.1 hc), List.reverse_reverse]

theorem digit_cases {c : Char} (h : c.isDigit = true) : ∃ v < 10, c = Nat.digitChar v := by
  have key : ∀ v : Fin 10, Char.ofNat (48 + v) = Nat.digitChar v := by decide
  have hdigit : 48 ≤ c.toNat ∧ c.toNat ≤ 57 := Char.isDigit_iff_toNat.1 h
  refine ⟨c.toNat - 48, by omega, ?_⟩
  have hc := key ⟨c.toNat - 48, by omega⟩
  simp only at hc
  rw [← hc, Nat.add_sub_cancel' hdigit.1, Char.ofNat_toNat]

theorem isSpace_digit {c : Char} (h : c.isDigit = true) : isSpace c = false := by
  have key : ∀ v : Fin 10, isSpace (Nat.digitChar v) = false := by decide
  obtain ⟨v, hv, rfl⟩ := digit_cases h
  exact key ⟨v, hv⟩

/-- An int that `str` writes and `int` reads again. -/
def Writable (n : Int) : Prop := (Nat.toDigits 10 n.natAbs).length ≤ maxDigits

theorem writable_of_lt {n : Int} (h : n.natAbs < 2 ^ 64) : Writable n := by
  have hlength : (Nat.toDigits 10 n.natAbs).length ≤ 20 := by
    rw [Nat.length_toDigits_le_iff (by omega) (by omega)]
    omega
  exact Nat.le_trans hlength (by decide)

theorem strOfInt_eq_some {n : Int} {text : String} :
    strOfInt n = some text ↔ Writable n ∧ text = toString n := by
  simp only [strOfInt, Writable]
  split
  · rename_i h
    simp [Nat.not_le.2 h]
  · rename_i h
    simp [Nat.not_lt.1 h, eq_comm]

section Integers
variable [Python]

theorem digitsOf_digits {after : Bool} {cs : List Char} (h : ∀ c ∈ cs, c.isDigit = true)
    (hne : after = true ∨ cs ≠ []) : digitsOf after cs = some (cs.map fun c => c.toNat - '0'.toNat) := by
  induction cs generalizing after with
  | nil => simpa [digitsOf] using hne
  | cons c cs ih =>
    have hc : c.isDigit = true := h c (by simp)
    have hunderscore : c ≠ '_' := by rintro rfl; cases hc
    rw [digitsOf, if_neg fun hboth => hunderscore hboth.1]
    simp [digitOf, hc, ih (fun d hd => h d (by simp [hd])) (.inl rfl)]

theorem unsigned_toDigits {n : Nat} (h : (Nat.toDigits 10 n).length ≤ maxDigits) :
    unsigned (Nat.toDigits 10 n) = some (n : Int) := by
  have hdigits : ∀ c ∈ Nat.toDigits 10 n, c.isDigit = true := fun c hc =>
    Nat.isDigit_of_mem_toDigits (by omega) (by omega) hc
  have hvalue : Nat.ofDigitChars 10 (Nat.toDigits 10 n) 0 = n := Nat.ofDigitChars_ten_toDigits
  rw [unsigned, digitsOf_digits hdigits (.inr Nat.toDigits_ne_nil)]
  simp only [List.length_map, Nat.not_lt.2 h, if_false, List.foldl_map, Option.some.injEq]
  rw [← Nat.ofDigitChars_eq_foldl, hvalue]

/-- **`int` undoes `str`**, within the limit on the number of digits. -/
theorem intOfText_toString {n : Int} (h : Writable n) : intOfText (toString n) = some n := by
  have hdigits : ∀ c ∈ Nat.toDigits 10 n.natAbs, c.isDigit = true := fun c hc =>
    Nat.isDigit_of_mem_toDigits (by omega) (by omega) hc
  obtain m | m := n
  · have htext : (toString (Int.ofNat m)).toList = Nat.toDigits 10 m := Nat.toList_repr
    have hspace : trim (Nat.toDigits 10 m) = Nat.toDigits 10 m :=
      trim_eq fun c hc => isSpace_digit (hdigits c hc)
    have hm := unsigned_toDigits (n := m) h
    rw [intOfText, htext, hspace]
    split
    · rename_i heq
      exact absurd (hdigits '-' (by simp [heq])) (by decide)
    · rename_i heq
      exact absurd (hdigits '+' (by simp [heq])) (by decide)
    · exact hm
  · have htext : (toString (Int.negSucc m)).toList = '-' :: Nat.toDigits 10 (m + 1) := by
      show ("-" ++ (m + 1).repr).toList = _
      rw [String.toList_append, Nat.toList_repr]
      rfl
    have hspace : trim ('-' :: Nat.toDigits 10 (m + 1)) = '-' :: Nat.toDigits 10 (m + 1) := by
      refine trim_eq fun c hc => ?_
      obtain rfl | hc := List.mem_cons.1 hc
      · decide
      · exact isSpace_digit (hdigits c hc)
    rw [intOfText, htext, hspace]
    simp only [unsigned_toDigits (n := m + 1) h, Option.map_some]
    rfl

end Integers

end Python

end TxPlatform
