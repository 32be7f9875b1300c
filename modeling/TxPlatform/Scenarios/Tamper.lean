import TxPlatform.Python.Base64

/-! # Tampered tokens (workload.py:57-61, identity.py:41-45)

A token is the list of its characters. `tamper` changes the last character of the signature, in
text. The bytes of the signature change with it only if the character carries bits of the last byte
that its replacement does not have: of an encoding that ends in a group of two or three characters
the last one holds spare bits, which decoders ignore.
-/

namespace TxPlatform

namespace Token

open Base64

/-- What follows the last dot. -/
def signaturePart (token : List Char) : List Char := (token.reverse.takeWhile (· ≠ '.')).reverse

/-- What stands before it, the dot included. -/
def beforeSignature (token : List Char) : List Char := (token.reverse.dropWhile (· ≠ '.')).reverse

/-- `token.rpartition(".")`. -/
def rpartition (token : List Char) : List Char × List Char × List Char :=
  if '.' ∈ token then ((beforeSignature token).dropLast, ['.'], signaturePart token) else ([], [], token)

/-- `signature[:-1]` and the replacement of `signature[-1]`; `none` is the `IndexError`. -/
def replaceLast (signature : List Char) : Option (List Char) :=
  signature.getLast?.map fun last => signature.dropLast ++ [if last ≠ 'A' then 'A' else 'B']

def tamper (token : List Char) : Option (List Char) :=
  let (head, _, signature) := rpartition token
  (replaceLast signature).map fun replaced => head ++ '.' :: replaced

/-- How `decode_claims` reads a part: padded, then decoded. -/
def decodePart (part : List Char) : Option (List Nat) := urlsafeB64decode (part ++ padding part.length)

/-- A token whose last part encodes a signature. -/
structure SignedToken where
  token : List Char
  signature : List Nat
  bytes : ∀ b ∈ signature, b < 256
  nonempty : signature ≠ []
  encoded : signaturePart token = (bare signature).map toUrlsafe

/-- What `tamper` owes a token: a token of the same length, the same up to the signature, whose
signature decodes to other bytes. -/
def Forges (signed : SignedToken) : Prop :=
  ∃ forged bytes, tamper signed.token = some forged ∧ forged.length = signed.token.length ∧
    beforeSignature forged = beforeSignature signed.token ∧
    decodePart (signaturePart forged) = some bytes ∧ bytes ≠ signed.signature

/-- The last character of the encoding holds bits of the last byte, and not all of them are zero. -/
def LastCharacterCounts (signature : List Nat) : Prop :=
  (signature.length % 3 = 1 → ∀ last, signature.getLast? = some last → last % 4 ≠ 0) ∧
    (signature.length % 3 = 2 → ∀ last, signature.getLast? = some last → last % 16 ≠ 0)

/-! ## Parts -/

section Parts
variable {head signature : List Char}

theorem signaturePart_append (h : '.' ∉ signature) : signaturePart (head ++ '.' :: signature) = signature := by
  have hsig : ∀ c ∈ signature.reverse, (decide (c ≠ '.')) = true := fun c hc =>
    decide_eq_true fun hdot => h (hdot ▸ List.mem_reverse.1 hc)
  rw [signaturePart, List.reverse_append, List.reverse_cons, List.append_assoc,
    List.takeWhile_append_of_pos hsig]
  simp

theorem beforeSignature_append (h : '.' ∉ signature) :
    beforeSignature (head ++ '.' :: signature) = head ++ ['.'] := by
  have hsig : ∀ c ∈ signature.reverse, (decide (c ≠ '.')) = true := fun c hc =>
    decide_eq_true fun hdot => h (hdot ▸ List.mem_reverse.1 hc)
  rw [beforeSignature, List.reverse_append, List.reverse_cons, List.append_assoc,
    List.dropWhile_append_of_pos hsig]
  simp

/-- A token with a dot is cut at its last one. -/
theorem exists_head {token : List Char} (h : '.' ∈ token) :
    ∃ head signature, token = head ++ '.' :: signature ∧ '.' ∉ signature := by
  obtain ⟨after, before, hreverse, hafter⟩ := List.eq_append_cons_of_mem (List.mem_reverse.2 h)
  refine ⟨before.reverse, after.reverse, ?_, fun hdot => hafter (List.mem_reverse.1 hdot)⟩
  rw [← List.reverse_reverse token, hreverse]
  simp

theorem rpartition_append (h : '.' ∉ signature) : rpartition (head ++ '.' :: signature) = (head, ['.'], signature) := by
  rw [rpartition, if_pos (by simp), beforeSignature_append h, signaturePart_append h, List.dropLast_concat]

end Parts

/-! ## The bytes of the replaced character -/

theorem digit_eq_A_iff {v : Nat} (h : v < 64) : digit v = 'A' ↔ v = 0 := by
  have key : ∀ v : Fin 64, digit v = 'A' ↔ v.val = 0 := by decide
  exact key ⟨v, h⟩

/-- The number behind the replacement of a digit. -/
def other (v : Nat) : Nat := if v = 0 then 1 else 0

theorem replaceLast_digit (text : List Char) {v : Nat} (h : v < 64) :
    replaceLast (text ++ [digit v]) = some (text ++ [digit (other v)]) := by
  rw [replaceLast, List.getLast?_concat, Option.map_some, List.dropLast_concat, other]
  by_cases hv : v = 0
  · rw [if_neg (not_not.2 ((digit_eq_A_iff h).2 hv)), if_pos hv]
    rfl
  · rw [if_pos fun hA => hv ((digit_eq_A_iff h).1 hA), if_neg hv]
    rfl

/-- The characters of a signature are replaced as the digits of its bytes are. -/
theorem replaceLast_toUrlsafe (text : List Char) :
    replaceLast (text.map toUrlsafe) = (replaceLast text).map (List.map toUrlsafe) := by
  rw [replaceLast, replaceLast, List.getLast?_map, Option.map_map, Option.map_map]
  congr 1
  funext last
  simp only [Function.comp_apply, List.map_append, List.map_dropLast, List.map_cons, List.map_nil, ne_eq,
    toUrlsafe_eq_A_iff]
  split <;> rfl

/-- The replacement in front of which a group stands. -/
theorem replaceLast_append (group : List Char) {text replaced : List Char} (h : replaceLast text = some replaced) :
    replaceLast (group ++ text) = some (group ++ replaced) := by
  rw [replaceLast, Option.map_eq_some_iff] at h
  obtain ⟨last, hlast, rfl⟩ := h
  have hne : text ≠ [] := fun hnil => by simp [hnil] at hlast
  rw [replaceLast, List.getLast?_append, hlast, List.dropLast_append_of_ne_nil hne]
  simp

theorem length_replaceLast {text replaced : List Char} (h : replaceLast text = some replaced) :
    replaced.length = text.length := by
  obtain ⟨last, hlast, rfl⟩ := Option.map_eq_some_iff.1 h
  have hpos : 0 < text.length := List.length_pos_iff.2 fun hnil => by simp [hnil] at hlast
  rw [List.length_append, List.length_dropLast, List.length_singleton]
  omega

theorem lastCharacterCounts_one (a : Nat) : LastCharacterCounts [a] ↔ a % 4 ≠ 0 := by
  simp [LastCharacterCounts]

theorem lastCharacterCounts_two (a b : Nat) : LastCharacterCounts [a, b] ↔ b % 16 ≠ 0 := by
  simp [LastCharacterCounts]

theorem lastCharacterCounts_three (a b c : Nat) : LastCharacterCounts [a, b, c] := by
  simp [LastCharacterCounts]

theorem lastCharacterCounts_group (a b c d : Nat) (rest : List Nat) :
    LastCharacterCounts (a :: b :: c :: d :: rest) ↔ LastCharacterCounts (d :: rest) := by
  have hlength : (a :: b :: c :: d :: rest).length % 3 = (d :: rest).length % 3 := by
    simp only [List.length_cons]
    omega
  simp only [LastCharacterCounts, hlength, List.getLast?_cons_cons]

/-- The replaced encoding, and what it decodes to: other bytes exactly if the last character counts. -/
structure Replaced (bytes : List Nat) (replaced : List Char) (bytes' : List Nat) : Prop where
  replaces : replaceLast (bare bytes) = some replaced
  digits : ∀ c ∈ replaced, ∃ v < 64, c = digit v
  decodes : a2bBase64 (replaced ++ padding replaced.length) 0 0 0 = some bytes'
  counts : bytes' ≠ bytes ↔ LastCharacterCounts bytes

theorem replaced_one {a : Nat} (ha : a < 256) :
    Replaced [a] [digit (a / 4), digit (other (a % 4 * 16))] [a / 4 * 4] := by
  have hv : other (a % 4 * 16) < 64 ∧ other (a % 4 * 16) / 16 = 0 := by rw [other]; split <;> omega
  refine ⟨replaceLast_digit [_] (by omega), ?_, ?_, ?_⟩
  · simp only [List.mem_cons, List.not_mem_nil, or_false, forall_eq_or_imp, forall_eq]
    exact ⟨⟨_, by omega, rfl⟩, ⟨_, hv.1, rfl⟩⟩
  · have hpads : padding [digit (a / 4), digit (other (a % 4 * 16))].length = ['=', '='] := rfl
    rw [hpads, List.cons_append, List.cons_append, List.nil_append, a2b_first (by omega), a2b_second hv.1, hv.2]
    simp [a2bBase64]
  · rw [lastCharacterCounts_one, ne_eq, List.cons.injEq, and_iff_left rfl]
    omega

theorem replaced_two {a b : Nat} (ha : a < 256) (hb : b < 256) :
    Replaced [a, b] [digit (a / 4), digit (a % 4 * 16 + b / 16), digit (other (b % 16 * 4))] [a, b / 16 * 16] := by
  have hv : other (b % 16 * 4) < 64 ∧ other (b % 16 * 4) / 4 = 0 := by rw [other]; split <;> omega
  refine ⟨replaceLast_digit [_, _] (by omega), ?_, ?_, ?_⟩
  · simp only [List.mem_cons, List.not_mem_nil, or_false, forall_eq_or_imp, forall_eq]
    exact ⟨⟨_, by omega, rfl⟩, ⟨_, by omega, rfl⟩, ⟨_, hv.1, rfl⟩⟩
  · have hpads : padding [digit (a / 4), digit (a % 4 * 16 + b / 16), digit (other (b % 16 * 4))].length =
        ['='] := rfl
    rw [hpads, List.cons_append, List.cons_append, List.cons_append, List.nil_append, a2b_first (by omega),
      a2b_second (by omega), a2b_third hv.1, hv.2]
    simp [a2bBase64]
    omega
  · rw [lastCharacterCounts_two]
    simp only [ne_eq, List.cons.injEq, true_and, and_true]
    omega

theorem replaced_three {a b c : Nat} (ha : a < 256) (hb : b < 256) (hc : c < 256) :
    Replaced [a, b, c]
      [digit (a / 4), digit (a % 4 * 16 + b / 16), digit (b % 16 * 4 + c / 64), digit (other (c % 64))]
      [a, b, c / 64 * 64 + other (c % 64)] := by
  have hv : other (c % 64) < 64 ∧ other (c % 64) ≠ c % 64 := by rw [other]; split <;> omega
  refine ⟨replaceLast_digit [_, _, _] (by omega), ?_, ?_, ?_⟩
  · simp only [List.mem_cons, List.not_mem_nil, or_false, forall_eq_or_imp, forall_eq]
    exact ⟨⟨_, by omega, rfl⟩, ⟨_, by omega, rfl⟩, ⟨_, by omega, rfl⟩, ⟨_, hv.1, rfl⟩⟩
  · rw [List.length_cons, List.length_cons, List.length_cons, List.length_singleton, padding,
      List.cons_append, List.cons_append, List.cons_append, List.cons_append, a2b_first (by omega),
      a2b_second (by omega), a2b_third (by omega), a2b_fourth hv.1]
    simp [a2bBase64]
    omega
  · refine iff_of_true ?_ (lastCharacterCounts_three a b c)
    simp only [ne_eq, List.cons.injEq, true_and, and_true]
    omega

/-- A whole group in front stays as it is. -/
theorem Replaced.group {a b c d : Nat} {rest bytes' : List Nat} {replaced : List Char} (ha : a < 256) (hb : b < 256)
    (hc : c < 256) (h : Replaced (d :: rest) replaced bytes') :
    Replaced (a :: b :: c :: d :: rest)
      ([digit (a / 4), digit (a % 4 * 16 + b / 16), digit (b % 16 * 4 + c / 64), digit (c % 64)] ++ replaced)
      (a :: b :: c :: bytes') := by
  refine ⟨by rw [bare]; exact replaceLast_append [_, _, _, _] h.replaces, ?_, ?_, ?_⟩
  · simp only [List.cons_append, List.nil_append, List.mem_cons, forall_eq_or_imp]
    exact ⟨⟨_, by omega, rfl⟩, ⟨_, by omega, rfl⟩, ⟨_, by omega, rfl⟩, ⟨_, by omega, rfl⟩, h.digits⟩
  · have hpads : padding ([digit (a / 4), digit (a % 4 * 16 + b / 16), digit (b % 16 * 4 + c / 64),
        digit (c % 64)] ++ replaced).length = padding replaced.length := by
      rw [List.length_append, Nat.add_comm]
      exact padding_add_four _
    rw [hpads]
    simp only [List.cons_append, List.nil_append]
    rw [a2b_first (by omega), a2b_second (by omega), a2b_third (by omega), a2b_fourth (by omega), h.decodes]
    simp only [Option.map_some, Option.some.injEq, List.cons.injEq, and_true]
    omega
  · rw [lastCharacterCounts_group, ← h.counts]
    simp only [ne_eq, List.cons.injEq, true_and]

theorem exists_replaced : ∀ {bytes : List Nat}, (∀ b ∈ bytes, b < 256) → bytes ≠ [] →
    ∃ replaced bytes', Replaced bytes replaced bytes'
  | [], _, h => absurd rfl h
  | [a], h, _ => ⟨_, _, replaced_one (h a (by simp))⟩
  | [a, b], h, _ => ⟨_, _, replaced_two (h a (by simp)) (h b (by simp))⟩
  | [a, b, c], h, _ => ⟨_, _, replaced_three (h a (by simp)) (h b (by simp)) (h c (by simp))⟩
  | a :: b :: c :: d :: rest, h, _ => by
    have hrest : ∀ e ∈ d :: rest, e < 256 := fun e he =>
      h e (List.mem_cons_of_mem _ (List.mem_cons_of_mem _ (List.mem_cons_of_mem _ he)))
    obtain ⟨replaced, bytes', hreplaced⟩ := exists_replaced hrest (List.cons_ne_nil d rest)
    exact ⟨_, _, hreplaced.group (h a (by simp)) (h b (by simp)) (h c (by simp))⟩

/-! ## Every token -/

theorem dot_ne_toUrlsafe_digit {v : Nat} (h : v < 64) : toUrlsafe (digit v) ≠ '.' := by
  have key : ∀ v : Fin 64, toUrlsafe (digit v) ≠ '.' := by decide
  exact key ⟨v, h⟩

/-- There is no dot in an encoding. -/
theorem dot_notMem {text : List Char} (h : ∀ c ∈ text, ∃ v < 64, c = digit v) : '.' ∉ text.map toUrlsafe := by
  rw [List.mem_map]
  rintro ⟨c, hc, hdot⟩
  obtain ⟨v, hv, rfl⟩ := h c hc
  exact dot_ne_toUrlsafe_digit hv hdot

/-- A token is forged exactly if it has a dot and the last character of its signature counts. -/
theorem forges_iff (signed : SignedToken) :
    Forges signed ↔ '.' ∈ signed.token ∧ LastCharacterCounts signed.signature := by
  obtain ⟨token, signature, hbytes, hne, hencoded⟩ := signed
  obtain ⟨replaced, bytes, hreplaced, hdigits, hdecoded, hcounts⟩ := exists_replaced hbytes hne
  have hurlsafe : replaceLast ((bare signature).map toUrlsafe) = some (replaced.map toUrlsafe) := by
    rw [replaceLast_toUrlsafe, hreplaced, Option.map_some]
  have hdecode : decodePart (replaced.map toUrlsafe) = some bytes := by
    rw [decodePart, List.length_map, urlsafeB64decode_toUrlsafe hdigits, hdecoded]
  by_cases hdot : '.' ∈ token
  · obtain ⟨head, part, rfl, hpart⟩ := exists_head hdot
    rw [signaturePart_append hpart] at hencoded
    have htamper : tamper (head ++ '.' :: part) = some (head ++ '.' :: replaced.map toUrlsafe) := by
      rw [tamper, rpartition_append hpart, hencoded]
      simp only [hurlsafe, Option.map_some]
    have hforged : (head ++ '.' :: replaced.map toUrlsafe).length = (head ++ '.' :: part).length := by
      simp [hencoded, length_replaceLast hreplaced]
    simp only [Forges, htamper, Option.some.injEq, hdot, true_and, ← hcounts]
    constructor
    · rintro ⟨_, other, rfl, -, -, hother, hdiffer⟩
      rw [signaturePart_append (dot_notMem hdigits), hdecode] at hother
      cases hother
      exact hdiffer
    · intro hdiffer
      refine ⟨_, bytes, rfl, hforged, ?_, ?_, hdiffer⟩
      · rw [beforeSignature_append (dot_notMem hdigits), beforeSignature_append hpart]
      · rw [signaturePart_append (dot_notMem hdigits), hdecode]
  · -- without a dot the forged token starts with one
    refine iff_of_false ?_ fun h => hdot h.1
    rintro ⟨forged, _, htamper, hforged, -⟩
    rw [tamper, rpartition, if_neg hdot] at htamper
    obtain ⟨replaced, hreplaced, rfl⟩ := Option.map_eq_some_iff.1 htamper
    rw [List.nil_append, List.length_cons, length_replaceLast hreplaced] at hforged
    omega

/-- The header and the payload are one letter each, the signature is one zero byte. -/
def zeroSigned : SignedToken := ⟨"h.p.AA".toList, [0], by decide, by decide, by decide⟩

/-- Forging it changes the text to `h.p.AB`, and the signature stays the zero byte. -/
theorem zeroSigned_not_forged :
    tamper zeroSigned.token = some "h.p.AB".toList ∧ decodePart "AB".toList = some [0] ∧
    ¬ ∀ signed : SignedToken, Forges signed := by
  have htamper : tamper zeroSigned.token = some "h.p.AB".toList := by decide
  refine ⟨htamper, by decide, fun hall => ?_⟩
  obtain ⟨forged, bytes, hforged, -, -, hdecoded, hdiffer⟩ := hall zeroSigned
  rw [htamper] at hforged
  cases hforged
  have hzero : decodePart (signaturePart "h.p.AB".toList) = some [0] := by decide
  exact hdiffer (Option.some.inj (hdecoded.symm.trans hzero))

end Token

end TxPlatform
