import Mathlib.Tactic.Common

/-!
# Base64 and hexadecimal bytes

`a2bBase64` is the decoder behind `base64.b64decode`: it skips characters outside the alphabet,
stops at a complete padding and otherwise wants a whole number of quads. A byte is a number below
256. `encode` is the standard encoding, `bare` the same without its padding; the decoder undoes
both once the padding is put back (`b64decode_repad`).
-/

namespace TxPlatform

namespace Base64

/-- The character of six bits. -/
def digit (v : Nat) : Char :=
  if v < 26 then Char.ofNat ('A'.toNat + v)
  else if v < 52 then Char.ofNat ('a'.toNat + (v - 26))
  else if v < 62 then Char.ofNat ('0'.toNat + (v - 52))
  else if v = 62 then '+'
  else '/'

def valueOf (c : Char) : Option Nat :=
  if 'A' ≤ c ∧ c ≤ 'Z' then some (c.toNat - 'A'.toNat)
  else if 'a' ≤ c ∧ c ≤ 'z' then some (c.toNat - 'a'.toNat + 26)
  else if '0' ≤ c ∧ c ≤ '9' then some (c.toNat - '0'.toNat + 52)
  else if c = '+' then some 62
  else if c = '/' then some 63
  else none

/-- `binascii.a2b_base64`: `quad` characters of the current group have been read, `left` is what is
left of their bits, `pads` counts the `=` since. -/
def a2bBase64 : List Char → Nat → Nat → Nat → Option (List Nat)
  | [], quad, _, _ => if quad = 0 then some [] else none
  | c :: cs, quad, left, pads =>
    if c = '=' then
      if 2 ≤ quad ∧ 4 ≤ quad + (pads + 1) then some []
      else a2bBase64 cs quad left (if 2 ≤ quad then pads + 1 else pads)
    else
      match valueOf c with
      | none => a2bBase64 cs quad left pads
      | some v =>
        match quad with
        | 0 => a2bBase64 cs 1 v 0
        | 1 => (a2bBase64 cs 2 (v % 16) 0).map ((left * 4 + v / 16) :: ·)
        | 2 => (a2bBase64 cs 3 (v % 4) 0).map ((left * 16 + v / 4) :: ·)
        | _ => (a2bBase64 cs 0 0 0).map ((left * 64 + v) :: ·)

/-- `base64.b64decode` of a text: `none` for characters outside ASCII and for broken input. -/
def b64decode (text : List Char) : Option (List Nat) :=
  if text.all fun c => c.toNat < 128 then a2bBase64 text 0 0 0 else none

/-! ## Encoding -/

/-- The characters of the bytes, without padding. -/
def bare : List Nat → List Char
  | [] => []
  | [a] => [digit (a / 4), digit (a % 4 * 16)]
  | [a, b] => [digit (a / 4), digit (a % 4 * 16 + b / 16), digit (b % 16 * 4)]
  | a :: b :: c :: rest => digit (a / 4) :: digit (a % 4 * 16 + b / 16) :: digit (b % 16 * 4 + c / 64) ::
      digit (c % 64) :: bare rest

/-- The `=` that make the length a multiple of four. -/
def padding (length : Nat) : List Char := List.replicate ((4 - length % 4) % 4) '='

/-- The standard encoding. -/
def encode (bytes : List Nat) : List Char := bare bytes ++ padding (bare bytes).length

theorem valueOf_digit {v : Nat} (h : v < 64) : valueOf (digit v) = some v := by
  have key : ∀ v : Fin 64, valueOf (digit v) = some v.val := by decide
  exact key ⟨v, h⟩

theorem digit_ne_pad {v : Nat} (h : v < 64) : digit v ≠ '=' := by
  have key : ∀ v : Fin 64, digit v ≠ '=' := by decide
  exact key ⟨v, h⟩

theorem digit_ascii {v : Nat} (h : v < 64) : (digit v).toNat < 128 := by
  have key : ∀ v : Fin 64, (digit v).toNat < 128 := by decide
  exact key ⟨v, h⟩

/-! ## The decoder undoes the encoder -/

section Step
variable {v left pads : Nat} {cs : List Char}

theorem a2b_first (h : v < 64) : a2bBase64 (digit v :: cs) 0 left pads = a2bBase64 cs 1 v 0 := by
  simp [a2bBase64, digit_ne_pad h, valueOf_digit h]

theorem a2b_second (h : v < 64) : a2bBase64 (digit v :: cs) 1 left pads =
    (a2bBase64 cs 2 (v % 16) 0).map ((left * 4 + v / 16) :: ·) := by
  simp [a2bBase64, digit_ne_pad h, valueOf_digit h]

theorem a2b_third (h : v < 64) : a2bBase64 (digit v :: cs) 2 left pads =
    (a2bBase64 cs 3 (v % 4) 0).map ((left * 16 + v / 4) :: ·) := by
  simp [a2bBase64, digit_ne_pad h, valueOf_digit h]

theorem a2b_fourth (h : v < 64) : a2bBase64 (digit v :: cs) 3 left pads =
    (a2bBase64 cs 0 0 0).map ((left * 64 + v) :: ·) := by
  simp [a2bBase64, digit_ne_pad h, valueOf_digit h]

end Step

/-- A full group adds nothing to the padding. -/
theorem padding_add_four (n : Nat) : padding (n + 4) = padding n := by
  rw [padding, padding, Nat.add_mod_right]

theorem encode_group (a b c : Nat) (rest : List Nat) :
    encode (a :: b :: c :: rest) = digit (a / 4) :: digit (a % 4 * 16 + b / 16) ::
      digit (b % 16 * 4 + c / 64) :: digit (c % 64) :: encode rest := by
  have hpadding : padding (bare (a :: b :: c :: rest)).length = padding (bare rest).length :=
    padding_add_four _
  rw [encode, hpadding]
  rfl

theorem a2bBase64_encode : ∀ {bytes : List Nat}, (∀ b ∈ bytes, b < 256) →
    a2bBase64 (encode bytes) 0 0 0 = some bytes
  | [], _ => rfl
  | [a], h => by
    have ha : a < 256 := h a (by simp)
    have hencode : encode [a] = [digit (a / 4), digit (a % 4 * 16), '=', '='] := rfl
    rw [hencode, a2b_first (by omega), a2b_second (by omega)]
    simp [a2bBase64]
    omega
  | [a, b], h => by
    have ha : a < 256 := h a (by simp)
    have hb : b < 256 := h b (by simp)
    have hencode : encode [a, b] =
        [digit (a / 4), digit (a % 4 * 16 + b / 16), digit (b % 16 * 4), '='] := rfl
    rw [hencode, a2b_first (by omega), a2b_second (by omega), a2b_third (by omega)]
    simp [a2bBase64]
    omega
  | a :: b :: c :: rest, h => by
    have ha : a < 256 := h a (by simp)
    have hb : b < 256 := h b (by simp)
    have hc : c < 256 := h c (by simp)
    have ih : a2bBase64 (encode rest) 0 0 0 = some rest :=
      a2bBase64_encode fun d hd => h d (by simp [hd])
    rw [encode_group, a2b_first (by omega), a2b_second (by omega), a2b_third (by omega),
      a2b_fourth (by omega), ih]
    simp only [Option.map_some, Option.some.injEq, List.cons.injEq, and_true]
    omega

theorem length_encode : ∀ bytes : List Nat, (encode bytes).length = (bytes.length + 2) / 3 * 4
  | [] => rfl
  | [_] => by simp [encode, bare, padding]
  | [_, _] => by simp [encode, bare, padding]
  | a :: b :: c :: rest => by
    simp only [encode_group, List.length_cons, length_encode rest]
    omega

theorem length_bare : ∀ bytes : List Nat, (bare bytes).length = (bytes.length * 4 + 2) / 3
  | [] => rfl
  | [_] => by simp [bare]
  | [_, _] => by simp [bare]
  | a :: b :: c :: rest => by
    simp only [bare, List.length_cons, length_bare rest]
    omega

/-- Putting the padding back changes nothing when it is there already. -/
theorem repad_encode (bytes : List Nat) : encode bytes ++ padding (encode bytes).length = encode bytes := by
  rw [length_encode]
  simp [padding]

theorem mem_bare : ∀ {bytes : List Nat}, (∀ b ∈ bytes, b < 256) → ∀ c ∈ bare bytes, ∃ v < 64, c = digit v
  | [], _ => by simp [bare]
  | [a], h => by
    have ha : a < 256 := h a (by simp)
    rintro c hc
    simp only [bare, List.mem_cons, List.not_mem_nil, or_false] at hc
    obtain rfl | rfl := hc
    · exact ⟨_, by omega, rfl⟩
    · exact ⟨_, by omega, rfl⟩
  | [a, b], h => by
    have ha : a < 256 := h a (by simp)
    have hb : b < 256 := h b (by simp)
    rintro c hc
    simp only [bare, List.mem_cons, List.not_mem_nil, or_false] at hc
    obtain rfl | rfl | rfl := hc
    · exact ⟨_, by omega, rfl⟩
    · exact ⟨_, by omega, rfl⟩
    · exact ⟨_, by omega, rfl⟩
  | a :: b :: d :: rest, h => by
    have ha : a < 256 := h a (by simp)
    have hb : b < 256 := h b (by simp)
    have hd : d < 256 := h d (by simp)
    rintro c hc
    simp only [bare, List.mem_cons] at hc
    obtain rfl | rfl | rfl | rfl | hc := hc
    · exact ⟨_, by omega, rfl⟩
    · exact ⟨_, by omega, rfl⟩
    · exact ⟨_, by omega, rfl⟩
    · exact ⟨_, by omega, rfl⟩
    · exact mem_bare (fun e he => h e (by simp [he])) c hc

/-- Digits and padding are ASCII. -/
theorem ascii_padded {text : List Char} (h : ∀ c ∈ text, ∃ v < 64, c = digit v) (length : Nat) :
    ((text ++ padding length).all fun c => c.toNat < 128) = true := by
  rw [List.all_eq_true]
  intro c hc
  obtain hc | hc := List.mem_append.1 hc
  · obtain ⟨v, hv, rfl⟩ := h c hc
    simpa using digit_ascii hv
  · rw [List.eq_of_mem_replicate hc]
    decide

/-- **Base64 round trip**, as the caller pads: with or without its padding, an encoding decodes to
the bytes. -/
theorem b64decode_repad {bytes : List Nat} (h : ∀ b ∈ bytes, b < 256) {text : List Char}
    (htext : text = bare bytes ∨ text = encode bytes) :
    b64decode (text ++ padding text.length) = some bytes := by
  have hencode : text ++ padding text.length = encode bytes := by
    obtain rfl | rfl := htext
    · rfl
    · exact repad_encode bytes
  rw [hencode, b64decode, if_pos (show ((encode bytes).all fun c => c.toNat < 128) = true from
    ascii_padded (mem_bare h) _)]
  exact a2bBase64_encode h

/-! ## The alphabet for URLs -/

def toUrlsafe (c : Char) : Char := if c = '+' then '-' else if c = '/' then '_' else c

def fromUrlsafe (c : Char) : Char := if c = '-' then '+' else if c = '_' then '/' else c

/-- `base64.urlsafe_b64decode`. -/
def urlsafeB64decode (text : List Char) : Option (List Nat) := b64decode (text.map fromUrlsafe)

theorem fromUrlsafe_toUrlsafe_digit {v : Nat} (h : v < 64) : fromUrlsafe (toUrlsafe (digit v)) = digit v := by
  have key : ∀ v : Fin 64, fromUrlsafe (toUrlsafe (digit v)) = digit v := by decide
  exact key ⟨v, h⟩

theorem toUrlsafe_eq_A_iff (c : Char) : toUrlsafe c = 'A' ↔ c = 'A' := by
  rw [toUrlsafe]
  split
  · rename_i hplus
    simp [hplus]
  · split
    · rename_i hslash
      simp [hslash]
    · rfl

/-- Digits in the alphabet for URLs, padded, decode as the digits do. -/
theorem urlsafeB64decode_toUrlsafe {text : List Char} (h : ∀ c ∈ text, ∃ v < 64, c = digit v) :
    urlsafeB64decode (text.map toUrlsafe ++ padding text.length) =
      a2bBase64 (text ++ padding text.length) 0 0 0 := by
  have hback : (text.map toUrlsafe).map fromUrlsafe = text := by
    rw [List.map_map]
    refine (List.map_congr_left fun c hc => ?_).trans (List.map_id text)
    obtain ⟨v, hv, rfl⟩ := h c hc
    exact fromUrlsafe_toUrlsafe_digit hv
  have hpads : (padding text.length).map fromUrlsafe = padding text.length := by
    rw [padding, List.map_replicate]
    rfl
  rw [urlsafeB64decode, List.map_append, hback, hpads, b64decode, if_pos (ascii_padded h _)]

/-! ## Hexadecimal -/

/-- `bytes.hex()`. -/
def hex (bytes : List Nat) : List Char :=
  bytes.flatMap fun b => [Nat.digitChar (b / 16), Nat.digitChar (b % 16)]

/-- `c in "0123456789abcdefABCDEF"`. -/
def isHexDigit (c : Char) : Bool := c ∈ "0123456789abcdefABCDEF".toList

theorem length_hex (bytes : List Nat) : (hex bytes).length = 2 * bytes.length := by
  induction bytes with
  | nil => rfl
  | cons b bytes ih =>
    simp only [hex, List.flatMap_cons, List.length_append] at ih ⊢
    simp only [ih, List.length_cons, List.length_nil]
    omega

theorem mem_hex {bytes : List Nat} (h : ∀ b ∈ bytes, b < 256) {c : Char} (hc : c ∈ hex bytes) :
    ∃ v < 16, c = Nat.digitChar v := by
  simp only [hex, List.mem_flatMap, List.mem_cons, List.not_mem_nil, or_false] at hc
  obtain ⟨b, hb, rfl | rfl⟩ := hc
  · exact ⟨b / 16, by have := h b hb; omega, rfl⟩
  · exact ⟨b % 16, by omega, rfl⟩

theorem isHexDigit_digitChar {v : Nat} (h : v < 16) : isHexDigit (Nat.digitChar v) = true := by
  have key : ∀ v : Fin 16, isHexDigit (Nat.digitChar v) = true := by decide
  exact key ⟨v, h⟩

/-- Only the letters of A to Z change in lower case. -/
theorem toLower_eq_or_upper (c : Char) : c.toLower = c ∨ ∃ k : Fin 26, c = Char.ofNat (65 + k) := by
  by_cases hupper : 'A' ≤ c ∧ c ≤ 'Z'
  · have hlow : 65 ≤ c.toNat := hupper.1
    have hhigh : c.toNat ≤ 90 := hupper.2
    have hc : Char.ofNat (65 + (c.toNat - 65)) = c := by
      rw [Nat.add_sub_cancel' hlow, Char.ofNat_toNat]
    exact .inr ⟨⟨c.toNat - 65, by omega⟩, hc.symm⟩
  · exact .inl (dif_neg hupper)

/-- A character that is a digit in lower case is one in either case. -/
theorem isHexDigit_of_toLower {c : Char} {v : Nat} (hv : v < 16) (h : c.toLower = Nat.digitChar v) :
    isHexDigit c = true := by
  obtain hsame | ⟨k, rfl⟩ := toLower_eq_or_upper c
  · rw [hsame] at h
    rw [h]
    exact isHexDigit_digitChar hv
  · have key : ∀ k : Fin 26, ∀ v : Fin 16, (Char.ofNat (65 + k)).toLower = Nat.digitChar v →
        isHexDigit (Char.ofNat (65 + k)) = true := by decide
    exact key k ⟨v, hv⟩ h

/-- A text of hexadecimal digits in either case, compared in lower case. -/
theorem all_isHexDigit {bytes : List Nat} (h : ∀ b ∈ bytes, b < 256) {text : List Char}
    (htext : text.map Char.toLower = hex bytes) : text.all isHexDigit = true := by
  rw [List.all_eq_true]
  intro c hc
  obtain ⟨v, hv, hdigit⟩ := mem_hex h (htext ▸ List.mem_map_of_mem hc)
  exact isHexDigit_of_toLower hv hdigit

theorem hex_zeros {bytes : List Nat} (h : ∀ b ∈ bytes, b = 0) :
    hex bytes = List.replicate (2 * bytes.length) '0' := by
  refine List.eq_replicate_iff.2 ⟨length_hex bytes, fun c hc => ?_⟩
  simp only [hex, List.mem_flatMap] at hc
  obtain ⟨b, hb, hc⟩ := hc
  rw [h b hb] at hc
  simpa [Nat.digitChar] using hc

theorem zeros_of_hex {bytes : List Nat} (h : ∀ b ∈ bytes, b < 256) (hzero : ∀ c ∈ hex bytes, c = '0') :
    ∀ b ∈ bytes, b = 0 := by
  intro b hb
  have key : ∀ v : Fin 16, Nat.digitChar v = '0' → v.val = 0 := by decide
  have hlt := h b hb
  have hmem : ∀ c ∈ [Nat.digitChar (b / 16), Nat.digitChar (b % 16)], c = '0' := fun c hc =>
    hzero c (List.mem_flatMap.2 ⟨b, hb, hc⟩)
  have hhigh : b / 16 = 0 := key ⟨b / 16, by omega⟩ (hmem _ (by simp))
  have hlow : b % 16 = 0 := key ⟨b % 16, by omega⟩ (hmem _ (by simp))
  omega

theorem eq_zero_of_toLower {c : Char} (h : c.toLower = '0') : c = '0' := by
  obtain hsame | ⟨k, rfl⟩ := toLower_eq_or_upper c
  · rwa [hsame] at h
  · have key : ∀ k : Fin 26, (Char.ofNat (65 + k)).toLower ≠ '0' := by decide
    exact absurd h (key k)

/-- A zero has one spelling. -/
theorem eq_zeros_of_map_toLower {bytes : List Nat} (h : ∀ b ∈ bytes, b = 0) {text : List Char}
    (htext : text.map Char.toLower = hex bytes) : text = List.replicate (2 * bytes.length) '0' := by
  have hlength : text.length = 2 * bytes.length := by
    rw [← length_hex, ← htext, List.length_map]
  refine List.eq_replicate_iff.2 ⟨hlength, fun c hc => ?_⟩
  have hlower : c.toLower ∈ hex bytes := htext ▸ List.mem_map_of_mem hc
  rw [hex_zeros h] at hlower
  exact eq_zero_of_toLower (List.eq_of_mem_replicate hlower)

end Base64

end TxPlatform
