import TxPlatform.Lib.Fifo
import TxPlatform.Dotnet.Http

/-! # Payment decisions, idempotency records and the ledger (PaymentRules.cs, PaymentStores.cs)

The collision-free hash of the fingerprint is a parameter. A stored response keeps the JSON value
of its body instead of the serialized text.
-/

namespace TxPlatform

/-! ## Decisions (PaymentRules.cs) -/

structure PaymentDecision where
  approved : Bool
  reason : String
  deriving DecidableEq

def PaymentRules.decide (paymentToken : String) : PaymentDecision :=
  if paymentToken = "tok_test_declined" then ⟨false, "card_declined"⟩
  else if paymentToken = "tok_test_insufficient_funds" then ⟨false, "insufficient_funds"⟩
  else ⟨true, "approved"⟩

inductive IdempotencyStatus where
  | inProgress
  | completed
  deriving DecidableEq

structure StoredResponse where
  statusCode : Int
  body : Json

structure IdempotencyRecord where
  key : String
  fingerprint : String
  status : IdempotencyStatus
  response : Option StoredResponse

inductive IdempotencyDecision where
  | startNew
  | replayStored
  | rejectInProgress
  | rejectFingerprintMismatch
  deriving DecidableEq

namespace IdempotencyRules

def decide (existing : Option IdempotencyRecord) (fingerprint : String) : IdempotencyDecision :=
  match existing with
  | none => .startNew
  | some existing =>
    if existing.fingerprint ≠ fingerprint then .rejectFingerprintMismatch
    else if existing.status = .completed then .replayStored
    else .rejectInProgress

/-- `hash` is the hexadecimal SHA-256 of the canonical text. -/
def fingerprint (hash : String → String) (orderId : Guid) (amount : Decimal)
    (currency paymentToken : String) :
    String :=
  hash s!"{orderId.formatN}|{amount.format00}|{currency}|{paymentToken}"

end IdempotencyRules

/-! ## Idempotency records (PaymentStores.cs:10-53) -/

structure IdempotencyStore where
  records : Dict String IdempotencyRecord
  insertionOrder : List String

namespace IdempotencyStore

def capacity : Nat := 100000

def empty : IdempotencyStore := ⟨∅, []⟩

def started (key fingerprint : String) : IdempotencyRecord := ⟨key, fingerprint, .inProgress, none⟩

/-- `records.TryAdd(key, started)`: `none` when the key is taken. -/
def tryAdd (store : IdempotencyStore) (key fingerprint : String) : Option IdempotencyStore :=
  match store.records.get key with
  | some _ => none
  | none => some { store with records := store.records.set key (started key fingerprint) }

/-- `insertionOrder.Enqueue(key); Trim();`. -/
def enqueue (store : IdempotencyStore) (key : String) : IdempotencyStore :=
  let (queue, kept) := evict capacity (store.insertionOrder ++ [key]) store.records
  ⟨kept, queue⟩

/-- The lookup after a failed `TryAdd`. The record may be gone by then: the caller retries. -/
def lookup (store : IdempotencyStore) (key fingerprint : String) :
    IdempotencyDecision × Option IdempotencyRecord :=
  let existing := store.records.get key
  let decision := IdempotencyRules.decide existing fingerprint
  (if decision = .startNew then .rejectInProgress else decision, existing)

/-- `TryBegin` with nothing happening between its steps. -/
def tryBegin (store : IdempotencyStore) (key fingerprint : String) :
    (IdempotencyDecision × Option IdempotencyRecord) × IdempotencyStore :=
  match store.tryAdd key fingerprint with
  | some store => ((.startNew, none), store.enqueue key)
  | none => (store.lookup key fingerprint, store)

/-- `AddOrUpdate`: without a record it throws. -/
def complete (store : IdempotencyStore) (key : String) (response : StoredResponse) :
    Except Exn IdempotencyStore :=
  match store.records.get key with
  | none => .error (.invalidOperation s!"No in-progress record for {key}")
  | some record => .ok { store with
      records := store.records.set key { record with status := .completed, response := some response } }

def abandon (store : IdempotencyStore) (key : String) : IdempotencyStore :=
  { store with records := store.records.remove key }

theorem enqueue_of_count_le {store : IdempotencyStore} (key : String)
    (h : store.records.count ≤ capacity) :
    store.enqueue key = ⟨store.records, store.insertionOrder ++ [key]⟩ := by
  simp [enqueue, evict_of_count_le h]

theorem lookup_ne_startNew (store : IdempotencyStore) (key fingerprint : String) :
    (store.lookup key fingerprint).1 ≠ .startNew := by
  simp only [lookup]
  split <;> simp_all

end IdempotencyStore

/-! ## The ledger (PaymentStores.cs:55-102) -/

structure Authorization where
  authorizationId : String
  orderId : Guid
  amount : Decimal
  currency : String
  voided : Bool
  deriving DecidableEq

structure PaymentLedger where
  authorizations : Dict Guid (List Authorization)

namespace PaymentLedger

def empty : PaymentLedger := ⟨∅⟩

/-- The authorizations recorded for the order; a missing entry is an empty list. -/
def entries (ledger : PaymentLedger) (orderId : Guid) : List Authorization :=
  (ledger.authorizations.get orderId).getD []

/-- `newGuid` is the value of `Guid.NewGuid()`. -/
def newAuthorization (newGuid orderId : Guid) (amount : Decimal) (currency : String) : Authorization :=
  ⟨String.ofList (("auth_" ++ newGuid.formatN).toList.take 20), orderId, amount, currency, false⟩

def authorize (ledger : PaymentLedger) (newGuid orderId : Guid) (amount : Decimal) (currency : String) :
    Authorization × PaymentLedger :=
  let authorization := newAuthorization newGuid orderId amount currency
  (authorization, ⟨ledger.authorizations.set orderId (ledger.entries orderId ++ [authorization])⟩)

/-- `Void` marks every authorization of the order and reports whether any existed. -/
def void (ledger : PaymentLedger) (orderId : Guid) : Bool × PaymentLedger :=
  match ledger.authorizations.get orderId with
  | none => (false, ledger)
  | some entries =>
    if entries.length = 0 then (false, ledger)
    else (true, ⟨ledger.authorizations.set orderId (entries.map fun entry => { entry with voided := true })⟩)

/-- The authorizations of the order that are not voided. -/
def openEntries (ledger : PaymentLedger) (orderId : Guid) : List Authorization :=
  (ledger.entries orderId).filter fun entry => !entry.voided

theorem entries_authorize (ledger : PaymentLedger) (newGuid orderId other : Guid) (amount : Decimal)
    (currency : String) : (ledger.authorize newGuid orderId amount currency).2.entries other =
      ledger.entries other ++ if other = orderId then
        [newAuthorization newGuid orderId amount currency] else [] := by
  by_cases h : other = orderId
  · subst h; simp [authorize, entries]
  · simp [authorize, entries, h]

theorem entries_void (ledger : PaymentLedger) (orderId other : Guid) :
    (ledger.void orderId).2.entries other = if other = orderId
      then (ledger.entries orderId).map fun entry =>
        { entry with voided := true } else ledger.entries other := by
  unfold void
  split
  · rename_i hg
    split
    · rename_i h; subst h; simp [entries, hg]
    · rfl
  · rename_i found hg
    split
    · rename_i hlen
      split
      · rename_i h; subst h; simp [entries, hg, List.length_eq_zero_iff.1 hlen]
      · rfl
    · by_cases h : other = orderId
      · subst h; simp [entries, hg]
      · simp [entries, h]

@[simp] theorem openEntries_void (ledger : PaymentLedger) (orderId : Guid) :
    (ledger.void orderId).2.openEntries orderId = [] := by
  simp [openEntries, entries_void]

end PaymentLedger

/-- The two stores of the service. -/
structure PaymentService where
  store : IdempotencyStore
  ledger : PaymentLedger

def PaymentService.empty : PaymentService := ⟨.empty, .empty⟩

end TxPlatform
