import Mathlib.Data.Rat.Floor
import Mathlib.Tactic.FieldSimp
import Mathlib.Tactic.Ring
import Std.Data.String.ToNat
import TxPlatform.Dotnet.DecimalArithmetic
import TxPlatform.Lib.Words
import TxPlatform.Payment.Endpoints

/-! # What the fingerprint of a payment tells apart (PaymentRules.cs:62-66)

The canonical text is `{orderId:N}|{amount:0.00}|{currency}|{paymentToken}`. The order id has 32
digits and the amount no separator, so the text gives back the order id, the amount in hundredths
and the rest. It does not give back the amount beyond the second place, and it does not say which
of the separators in the rest is the one between currency and token: `Clash` is the exact list of
the pairs of different payments it takes for one.
-/

namespace TxPlatform

/-! ## The amount in hundredths -/

namespace Decimal

/-- The amount in hundredths, halves rounded up. -/
def cents (a : Decimal) : Int := ⌊100 * a.value + 1 / 2⌋

/-- The number of hundredths `format00` prints. -/
def hundredths (a : Decimal) : Nat := (200 * a.coefficient.natAbs + 10 ^ a.scale) / (2 * 10 ^ a.scale)

theorem hundredths_eq_cents {a : Decimal} (h : a.isPositive = true) : (a.hundredths : Int) = a.cents := by
  have hpos : 0 < a.coefficient := by simpa [isPositive] using h
  have hcoe : (a.coefficient.natAbs : ℚ) = a.coefficient := by
    rw [← Int.cast_natCast, Int.natAbs_of_nonneg hpos.le]
  have hpow : (10 : ℚ) ^ a.scale ≠ 0 := pow_ne_zero _ (by norm_num)
  have hquot : 100 * a.value + 1 / 2 =
      ((200 * a.coefficient.natAbs + 10 ^ a.scale : Nat) : ℚ) / ((2 * 10 ^ a.scale : Nat) : ℚ) := by
    push_cast
    rw [value, hcoe]
    field_simp
    ring
  rw [cents, hquot, Rat.floor_natCast_div_natCast]
  rfl

/-- Two places, written with a leading zero below ten. -/
theorem toList_twoPlaces {n : Nat} (h : n < 100) :
    (if n < 10 then "0" ++ toString n else toString n).toList =
      [Nat.digitChar (n / 10), Nat.digitChar (n % 10)] := by
  split
  · rename_i hlt
    rw [String.toList_append, Nat.toString_eq_ofList_toDigits, String.toList_ofList,
      Nat.toDigits_of_lt_base hlt, Nat.div_eq_of_lt hlt, Nat.mod_eq_of_lt hlt]
    simp
  · rw [Nat.toString_eq_ofList_toDigits, String.toList_ofList,
      Nat.toDigits_of_base_le (by decide) (by omega), Nat.toDigits_of_lt_base (by omega)]
    rfl

theorem not_mem_toString {n : Nat} {c : Char} (h : c.isDigit = false) : c ∉ (toString n).toList := by
  rw [Nat.toString_eq_ofList_toDigits, String.toList_ofList]
  intro hmem
  rw [Nat.isDigit_of_mem_toDigits (by decide) (by decide) hmem] at h
  cases h

/-- The text of a positive amount: the digits of its whole part, a point, two digits. -/
theorem toList_format00 {a : Decimal} (h : a.isPositive = true) :
    a.format00.toList = (toString (a.hundredths / 100)).toList ++
      '.' :: [Nat.digitChar (a.hundredths % 100 / 10), Nat.digitChar (a.hundredths % 100 % 10)] := by
  have hpos : 0 < a.coefficient := by simpa [isPositive] using h
  have hsign : ¬ (a.coefficient < 0 ∧ a.hundredths ≠ 0) := by omega
  have hplaces := toList_twoPlaces (Nat.mod_lt a.hundredths (show 0 < 100 by decide))
  have htext : a.format00 = "" ++ toString (a.hundredths / 100) ++ "." ++
      if a.hundredths % 100 < 10 then "0" ++ toString (a.hundredths % 100)
      else toString (a.hundredths % 100) :=
    congrArg (fun sign => sign ++ _ ++ "." ++ _) (if_neg hsign)
  rw [htext, String.toList_append, hplaces]
  simp

theorem format00_inj {a b : Decimal} (ha : a.isPositive = true) (hb : b.isPositive = true) :
    a.format00 = b.format00 ↔ a.hundredths = b.hundredths := by
  constructor
  · intro h
    have hlist := congrArg String.toList h
    rw [toList_format00 ha, toList_format00 hb] at hlist
    obtain ⟨hwhole, hplaces⟩ := (append_cons_inj (not_mem_toString (by decide))
      (not_mem_toString (by decide))).1 hlist
    have hquot : a.hundredths / 100 = b.hundredths / 100 := Nat.repr_injective (String.toList_injective hwhole)
    simp only [List.cons.injEq, and_true] at hplaces
    have hhigh := digitChar_injective (by omega) (by omega) hplaces.1
    have hlow := digitChar_injective (by omega) (by omega) hplaces.2
    omega
  · intro h
    have hlist : a.format00.toList = b.format00.toList := by
      rw [toList_format00 ha, toList_format00 hb, h]
    exact String.toList_injective hlist

theorem separator_not_mem_format00 {a : Decimal} (h : a.isPositive = true) : '|' ∉ a.format00.toList := by
  rw [toList_format00 h, List.mem_append, not_or]
  exact ⟨not_mem_toString (by decide), by simp⟩

end Decimal

/-! ## The canonical text -/

namespace PaymentEndpoints

/-- The second check of `AuthorizeAsync`, on the request alone. -/
def IsValid (request : AuthorizePaymentRequest) : Prop :=
  request.orderId ≠ Guid.empty ∧ request.amount.isPositive = true ∧
    isNullOrWhiteSpace request.currency = false ∧ isNullOrWhiteSpace request.paymentToken = false

instance (request : AuthorizePaymentRequest) : Decidable (IsValid request) :=
  inferInstanceAs (Decidable (_ ∧ _))

theorem rejectInvalid_eq_none {key : String} {request : AuthorizePaymentRequest} :
    rejectInvalid key request = none ↔
      (isNullOrWhiteSpace (some key) = false ∧ utf16Length key ≤ 128) ∧ IsValid request := by
  unfold rejectInvalid IsValid
  split
  · rename_i hkey
    simp only [reduceCtorEq, false_iff, not_and]
    rintro ⟨hblank, hlong⟩
    rcases hkey with h | h
    · simp [h] at hblank
    · omega
  · rename_i hkey
    simp only [not_or, Bool.not_eq_true, not_lt] at hkey
    split
    · rename_i hrequest
      simp only [reduceCtorEq, false_iff, not_and]
      rintro - hid hamount hcurrency htoken
      simp [hid, hamount, hcurrency, htoken] at hrequest
    · rename_i hrequest
      simp only [not_or] at hrequest
      simpa [hkey] using hrequest

/-- `{currency}|{paymentToken}`. -/
def joined (request : AuthorizePaymentRequest) : List Char :=
  (request.currency.getD "").toList ++ '|' :: (request.paymentToken.getD "").toList

/-- The text whose hash is the fingerprint. -/
def canonical (request : AuthorizePaymentRequest) : String :=
  let currency := request.currency.getD ""
  let paymentToken := request.paymentToken.getD ""
  s!"{request.orderId.formatN}|{request.amount.format00}|{currency}|{paymentToken}"

theorem toList_canonical (request : AuthorizePaymentRequest) :
    (canonical request).toList = request.orderId.formatN.toList ++
      '|' :: (request.amount.format00.toList ++ '|' :: joined request) := by
  simp only [canonical, joined, String.toList_append, List.append_assoc]
  rfl

theorem canonical_inj {first second : AuthorizePaymentRequest} (h : IsValid first) (h' : IsValid second) :
    canonical first = canonical second ↔ first.orderId = second.orderId ∧
      first.amount.cents = second.amount.cents ∧ joined first = joined second := by
  have hlength : first.orderId.formatN.toList.length = second.orderId.formatN.toList.length := by
    simp [Guid.formatN, length_hexDigits]
  have hcents : first.amount.hundredths = second.amount.hundredths ↔
      first.amount.cents = second.amount.cents := by
    rw [← Decimal.hundredths_eq_cents h.2.1, ← Decimal.hundredths_eq_cents h'.2.1, Int.natCast_inj]
  constructor
  · intro heq
    have hlist := congrArg String.toList heq
    rw [toList_canonical, toList_canonical] at hlist
    obtain ⟨hid, hrest⟩ := List.append_inj hlist hlength
    obtain ⟨hamount, hjoined⟩ := (append_cons_inj (Decimal.separator_not_mem_format00 h.2.1)
      (Decimal.separator_not_mem_format00 h'.2.1)).1 (List.cons.inj hrest).2
    exact ⟨Guid.formatN_injective (String.toList_injective hid),
      hcents.1 ((Decimal.format00_inj h.2.1 h'.2.1).1 (String.toList_injective hamount)), hjoined⟩
  · rintro ⟨hid, hamount, hjoined⟩
    have hlist : (canonical first).toList = (canonical second).toList := by
      rw [toList_canonical, toList_canonical, hid, hjoined,
        (Decimal.format00_inj h.2.1 h'.2.1).2 (hcents.2 hamount)]
    exact String.toList_injective hlist

/-! ## Which payments are told apart -/

/-- The two requests are for one payment: `10` and `10.00` are one amount. -/
structure SamePayment (first second : AuthorizePaymentRequest) : Prop where
  orderId : first.orderId = second.orderId
  amount : first.amount.value = second.amount.value
  currency : first.currency = second.currency
  paymentToken : first.paymentToken = second.paymentToken

/-- The currency of the second request ends with what the token of the first one starts with. -/
def Recut (first second : AuthorizePaymentRequest) : Prop :=
  ∃ currency middle token : String,
    first.currency = some currency ∧ first.paymentToken = some (middle ++ "|" ++ token) ∧
    second.currency = some (currency ++ "|" ++ middle) ∧ second.paymentToken = some token

theorem Recut.currency_ne {first second : AuthorizePaymentRequest} (h : Recut first second) :
    first.currency ≠ second.currency := by
  obtain ⟨currency, middle, token, hfirst, -, hsecond, -⟩ := h
  rw [hfirst, hsecond]
  intro heq
  have hlength := congrArg (fun text : Option String => (text.getD "").toList.length) heq
  simp at hlength

/-- Two different payments of one order, equal to the cent: their amounts differ beyond the second
place, or a separator inside currency or token moves the cut between them. -/
structure Clash (first second : AuthorizePaymentRequest) : Prop where
  orderId : first.orderId = second.orderId
  amount : first.amount.cents = second.amount.cents
  parts : (first.currency = second.currency ∧ first.paymentToken = second.paymentToken ∧
      first.amount.value ≠ second.amount.value) ∨ Recut first second ∨ Recut second first

/-- The fingerprint is equal exactly for one payment, and a key that has a record of the first request
answers the second one with a refusal and nothing else, unless it is the same payment. -/
structure Separates (hash : String → String) (first second : AuthorizePaymentRequest) : Prop where
  fingerprint : requestFingerprint hash first = requestFingerprint hash second ↔ SamePayment first second
  refused : ¬ SamePayment first second → ∀ {φ : Type} (apply : ApplyAsync φ) (newGuid : Guid) (key : String)
    (service : PaymentService) (faults : φ) (record : IdempotencyRecord),
    isNullOrWhiteSpace (some key) = false → utf16Length key ≤ 128 →
    service.store.records.get key = some record →
    record.fingerprint = requestFingerprint hash first →
    authorizeAsync hash apply newGuid key second service faults =
      (.ok (Results.problem 422 "Idempotency-Key was used with a different request"
        (problemTypeBase ++ "idempotency-key-mismatch") none), service, faults)

theorem currency_isSome {request : AuthorizePaymentRequest} (h : IsValid request) :
    ∃ currency token, request.currency = some currency ∧ request.paymentToken = some token := by
  obtain ⟨-, -, hcurrency, htoken⟩ := h
  cases hc : request.currency with
  | none => simp [hc, isNullOrWhiteSpace] at hcurrency
  | some currency =>
    cases ht : request.paymentToken with
    | none => simp [ht, isNullOrWhiteSpace] at htoken
    | some token => exact ⟨currency, token, rfl, rfl⟩

/-- The joined texts are equal when currency and token are, or when they are cut differently. -/
theorem joined_inj {first second : AuthorizePaymentRequest} (h : IsValid first) (h' : IsValid second) :
    joined first = joined second ↔
      (first.currency = second.currency ∧ first.paymentToken = second.paymentToken) ∨
        Recut first second ∨ Recut second first := by
  obtain ⟨c, t, hc, ht⟩ := currency_isSome h
  obtain ⟨c', t', hc', ht'⟩ := currency_isSome h'
  have hrecut : ∀ {c t c' t' : String},
      (∃ middle, c'.toList = c.toList ++ '|' :: middle ∧ t.toList = middle ++ '|' :: t'.toList) ↔
      ∃ currency middle token : String, c = currency ∧ t = middle ++ "|" ++ token ∧
        c' = currency ++ "|" ++ middle ∧ t' = token := by
    intro c t c' t'
    constructor
    · rintro ⟨middle, hcurrency, htoken⟩
      refine ⟨c, String.ofList middle, t', rfl, ?_, ?_, rfl⟩ <;> apply String.toList_injective
      · simpa using htoken
      · simpa using hcurrency
    · rintro ⟨currency, middle, token, rfl, rfl, rfl, rfl⟩
      exact ⟨middle.toList, by simp, by simp⟩
  simp only [joined, Recut, hc, ht, hc', ht', Option.getD_some, Option.some.injEq, append_cons_eq_iff,
    hrecut, String.toList_inj]

theorem sameValue_cents {a b : Decimal} (h : a.value = b.value) : a.cents = b.cents := by
  rw [Decimal.cents, Decimal.cents, h]

/-- **Which payments the fingerprint separates.** For any two valid requests, while the hash has no
collisions: the fingerprints are equal exactly for one payment, and a key reused for the other one is
refused, if and only if the two are not a `Clash`. -/
theorem fingerprint_separates_iff (hash : String → String) (hhash : Function.Injective hash)
    (first second : AuthorizePaymentRequest) (h : IsValid first) (h' : IsValid second) :
    Separates hash first second ↔ ¬ Clash first second := by
  have hfingerprint : requestFingerprint hash first = requestFingerprint hash second ↔
      first.orderId = second.orderId ∧ first.amount.cents = second.amount.cents ∧
        joined first = joined second :=
    hhash.eq_iff.trans (canonical_inj h h')
  have hsame : SamePayment first second →
      requestFingerprint hash first = requestFingerprint hash second := by
    intro hsame
    exact hfingerprint.2 ⟨hsame.orderId, sameValue_cents hsame.amount,
      (joined_inj h h').2 (.inl ⟨hsame.currency, hsame.paymentToken⟩)⟩
  constructor
  · intro hseparates hclash
    have heq : requestFingerprint hash first = requestFingerprint hash second := by
      refine hfingerprint.2 ⟨hclash.orderId, hclash.amount, (joined_inj h h').2 ?_⟩
      exact hclash.parts.imp (fun hparts => ⟨hparts.1, hparts.2.1⟩) id
    have hpayment := hseparates.fingerprint.1 heq
    obtain ⟨_, _, hvalue⟩ | hrecut := hclash.parts
    · exact hvalue hpayment.amount
    · obtain hrecut | hrecut := hrecut
      · exact hrecut.currency_ne hpayment.currency
      · exact hrecut.currency_ne hpayment.currency.symm
  · intro hclash
    have hback : requestFingerprint hash first = requestFingerprint hash second →
        SamePayment first second := by
      intro heq
      obtain ⟨hid, hcents, hjoined⟩ := hfingerprint.1 heq
      obtain ⟨hcurrency, htoken⟩ | hrecut := (joined_inj h h').1 hjoined
      · by_contra hdifferent
        refine hclash ⟨hid, hcents, .inl ⟨hcurrency, htoken, fun hvalue => ?_⟩⟩
        exact hdifferent ⟨hid, hvalue, hcurrency, htoken⟩
      · exact absurd ⟨hid, hcents, .inr hrecut⟩ hclash
    refine ⟨⟨hback, hsame⟩, ?_⟩
    intro hdifferent φ apply newGuid key service faults record hblank hlong hrecord hfirst
    have hmismatch : record.fingerprint ≠ requestFingerprint hash second := by
      rw [hfirst]
      exact fun heq => hdifferent (hback heq)
    have hvalid := rejectInvalid_eq_none.2 ⟨⟨hblank, hlong⟩, h'⟩
    simp only [authorizeAsync, hvalid, tryBegin_old hrecord, IdempotencyRules.decide, hmismatch, ne_eq,
      not_false_eq_true, if_true, replyToRepeated]

/-- Authorizing 12.50 EUR, 12.51 EUR and 12.501 EUR for one order. -/
def authorizing1250 : AuthorizePaymentRequest :=
  ⟨1, .ofHundredths 1250, "EUR", "tok_a"⟩

def authorizing1251 : AuthorizePaymentRequest :=
  ⟨1, .ofHundredths 1251, "EUR", "tok_a"⟩

def authorizing12501 : AuthorizePaymentRequest :=
  ⟨1, ⟨12501, 3, by decide, by decide⟩, "EUR", "tok_a"⟩

theorem value_authorizing1250 : authorizing1250.amount.value = 25 / 2 := by
  have htoNat : UInt64.toNat 1250 = 1250 := rfl
  norm_num [authorizing1250, Decimal.ofHundredths, Decimal.value, htoNat]

theorem value_authorizing1251 : authorizing1251.amount.value = 1251 / 100 := by
  have htoNat : UInt64.toNat 1251 = 1251 := rfl
  norm_num [authorizing1251, Decimal.ofHundredths, Decimal.value, htoNat]

theorem value_authorizing12501 : authorizing12501.amount.value = 12501 / 1000 := by
  norm_num [authorizing12501, Decimal.value]

/-- The SHA-256 of the canonical texts of the first two, and some other text for every other one. -/
def sha256Sample (text : String) : String :=
  if text = "00000000000000000000000000000001|12.50|EUR|tok_a" then
    "D1AD72B537EDE167AD6741FE723B3DBFC8A9D16330D8F853A080730C324E51D4"
  else if text = "00000000000000000000000000000001|12.51|EUR|tok_a" then
    "34F0420505714EEDAC6F36FD6A4457B2A690DADB726B26B33274C54662C05F65"
  else "hash of " ++ text

theorem sha256Sample_injective : Function.Injective sha256Sample := by
  intro text text' h
  have hhead := congrArg (fun hash => hash.toList.head?) h
  unfold sha256Sample at h hhead
  split_ifs at h hhead with h1 h2 h3 h4 h5 h6 h7 h8
  · rw [h1, h2]
  · simp at h
  · simp at hhead
  · simp at h
  · rw [h4, h6]
  · simp at hhead
  · simp at hhead
  · simp at hhead
  · simpa using h

theorem fingerprint_separates_1250_1251 :
    Separates sha256Sample authorizing1250 authorizing1251 := by
  refine (fingerprint_separates_iff sha256Sample sha256Sample_injective authorizing1250 authorizing1251
    (by decide) (by decide)).2 fun hclash => ?_
  have hcents := hclash.amount
  norm_num [Decimal.cents, value_authorizing1250, value_authorizing1251] at hcents

/-- 12.50 and 12.501 have one fingerprint. -/
theorem fingerprint_confuses_1250_12501 :
    IsValid authorizing1250 ∧ IsValid authorizing12501 ∧
      ∀ hash, ¬ Separates hash authorizing1250 authorizing12501 := by
  refine ⟨by decide, by decide, fun hash hseparates => ?_⟩
  have hcanonical : canonical authorizing1250 = canonical authorizing12501 :=
    (canonical_inj (by decide) (by decide)).2 ⟨rfl,
      by norm_num [Decimal.cents, value_authorizing1250, value_authorizing12501], rfl⟩
  have hpayment := hseparates.fingerprint.1 (congrArg hash hcanonical)
  have hamount := hpayment.amount
  norm_num [value_authorizing1250, value_authorizing12501] at hamount

end PaymentEndpoints

end TxPlatform
