import TxPlatform.Faults.Injector
import TxPlatform.Payment.Stores

/-! # The HTTP handlers of PaymentService (PaymentEndpoints.cs)

`authorizeAsync` is the handler run by itself, with nothing of another request in between; the
fault injector is a parameter, as for the other services. Here the idempotency record is consulted
before the fault decision, so a repeated request is answered from the record.
-/

namespace TxPlatform

structure AuthorizePaymentRequest where
  orderId : Guid
  amount : Decimal
  currency : Option String
  paymentToken : Option String

namespace PaymentEndpoints

def authorizeOperation : String := "payment.authorize"
def voidOperation : String := "payment.void"

/-! ## The replies -/

/-- The two checks in front of `AuthorizeAsync`. -/
def rejectInvalid (key : String) (request : AuthorizePaymentRequest) : Option HttpResponse :=
  if isNullOrWhiteSpace (some key) ∨ 128 < utf16Length key then
    some (Results.problem 400 "Idempotency-Key header is required"
      (problemTypeBase ++ "idempotency-key-required") none)
  else if request.orderId = Guid.empty ∨ !request.amount.isPositive ∨ isNullOrWhiteSpace request.currency
      ∨ isNullOrWhiteSpace request.paymentToken then
    some (Results.validationProblem "payment" "orderId, a positive amount, currency and paymentToken are required")
  else none

/-- An invalid request is answered with a 400. -/
theorem rejectInvalid_status {key : String} {request : AuthorizePaymentRequest} {rejection : HttpResponse}
    (h : rejectInvalid key request = some rejection) : rejection.statusCode = 400 := by
  unfold rejectInvalid at h
  split at h
  · cases h; rfl
  · split at h <;> cases h
    rfl

def requestFingerprint (hash : String → String) (request : AuthorizePaymentRequest) : String :=
  IdempotencyRules.fingerprint hash request.orderId request.amount (request.currency.getD "")
    (request.paymentToken.getD "")

/-- The reply to a decision other than StartNew. -/
def replyToRepeated : IdempotencyDecision → Option IdempotencyRecord → Except Exn HttpResponse
  | .replayStored, existing =>
    match existing.bind (·.response) with
    | none => .error .nullValue
    | some stored =>
      .ok { statusCode := stored.statusCode, body := stored.body, idempotentReplayed := true }
  | .rejectFingerprintMismatch, _ =>
    .ok (Results.problem 422 "Idempotency-Key was used with a different request"
      (problemTypeBase ++ "idempotency-key-mismatch") none)
  | _, _ => .ok { Results.problem 409 "A request with this Idempotency-Key is still being processed"
      (problemTypeBase ++ "idempotency-in-progress") none with retryAfter := some "1" }

def authorizedResponse (request : AuthorizePaymentRequest) (authorization : Authorization) :
    StoredResponse :=
  ⟨201, .obj [("authorizationId", .str authorization.authorizationId), ("orderId", .str request.orderId.formatD),
    ("amount", .real request.amount.toText), ("currency", .str (request.currency.getD "")),
    ("status", .str "authorized")]⟩

def declinedResponse (reason : String) : StoredResponse :=
  ⟨422, .obj [("type", .str (problemTypeBase ++ "payment-declined")), ("title", .str "Payment declined"),
    ("status", .int 422), ("detail", .str reason)]⟩

/-- The decision after a fault decision that does not fail the request. -/
def decidePayment (fault : FaultDecision) (request : AuthorizePaymentRequest) : PaymentDecision :=
  if fault.outcome = .reject then ⟨false, "simulated_decline"⟩
  else PaymentRules.decide (request.paymentToken.getD "")

def firstReply (stored : StoredResponse) : HttpResponse where
  statusCode := stored.statusCode
  mediaType := if stored.statusCode = 201 then "application/json" else "application/problem+json"
  body := stored.body

/-- The authorization call on the ledger, for an approved payment. -/
def charge (ledger : PaymentLedger) (newGuid : Guid) (request : AuthorizePaymentRequest) :
    Authorization × PaymentLedger :=
  ledger.authorize newGuid request.orderId request.amount (request.currency.getD "")

/-- The response to store, and the ledger after the charge if there is one. -/
def settle (ledger : PaymentLedger) (newGuid : Guid) (request : AuthorizePaymentRequest)
    (decision : PaymentDecision) : StoredResponse × PaymentLedger :=
  if decision.approved then
    let charged := charge ledger newGuid request
    (authorizedResponse request charged.1, charged.2)
  else (declinedResponse decision.reason, ledger)

/-! ## The handlers -/

variable {φ : Type}

/-- `AuthorizeAsync` after the decision StartNew: the `try` block and its `finally`. -/
def processAuthorization (apply : ApplyAsync φ) (newGuid : Guid) (key : String)
    (request : AuthorizePaymentRequest) (service : PaymentService) (faults : φ) :
    Except Exn HttpResponse × PaymentService × φ :=
  let abandoned : PaymentService := { service with store := service.store.abandon key }
  match apply authorizeOperation .beforeEffect key faults with
  | (.error e, faults) => (.error e, abandoned, faults)
  | (.ok fault, faults) =>
    if fault.outcome = .fail then (.ok (Results.injectedFault fault.statusCode), abandoned, faults)
    else
      let (response, ledger) := settle service.ledger newGuid request (decidePayment fault request)
      match service.store.complete key response with
      | .error e => (.error e, ⟨service.store.abandon key, ledger⟩, faults)
      | .ok store =>
        match apply authorizeOperation .afterEffect key faults with
        | (.error e, faults) => (.error e, ⟨store, ledger⟩, faults)
        | (.ok _, faults) => (.ok (firstReply response), ⟨store, ledger⟩, faults)

/-- `AuthorizeAsync` (PaymentEndpoints.cs:42-137). -/
def authorizeAsync (hash : String → String) (apply : ApplyAsync φ) (newGuid : Guid) (key : String)
    (request : AuthorizePaymentRequest) (service : PaymentService) (faults : φ) :
    Except Exn HttpResponse × PaymentService × φ :=
  match rejectInvalid key request with
  | some rejection => (.ok rejection, service, faults)
  | none =>
    match service.store.tryBegin key (requestFingerprint hash request) with
    | ((.startNew, _), store) =>
      processAuthorization apply newGuid key request { service with store } faults
    | ((decision, existing), store) => (replyToRepeated decision existing, { service with store }, faults)

/-- `VoidAsync` (PaymentEndpoints.cs:139-150). -/
def voidAsync (apply : ApplyAsync φ) (orderId : Guid) (service : PaymentService) (faults : φ) :
    Except Exn HttpResponse × PaymentService × φ :=
  match apply voidOperation .beforeEffect orderId.formatD faults with
  | (.error e, faults) => (.error e, service, faults)
  | (.ok fault, faults) =>
    if fault.outcome = .fail then (.ok (Results.injectedFault fault.statusCode), service, faults)
    else
      let voided := service.ledger.void orderId
      (.ok (Results.ok (.obj [("orderId", .str orderId.formatD),
        ("status", .str (if voided.1 then "voided" else "not_found"))])),
          { service with ledger := voided.2 }, faults)

/-! ## What one authorization request does

`authorizeAsync_cases` lists the four ways a request can go while the store has room for one more
record: it is invalid; its key has a record; it starts and gives up before any effect; it starts
and completes, whether or not the reply gets out. -/

/-- The records after `TryAdd`, and the queue after the enqueue. -/
theorem tryBegin_new {store : IdempotencyStore} {key fingerprint : String}
    (hnone : store.records.get key = none)
    (hcap : store.records.count < IdempotencyStore.capacity) :
    store.tryBegin key fingerprint = ((.startNew, none),
      ⟨store.records.set key (IdempotencyStore.started key fingerprint),
        store.insertionOrder ++ [key]⟩) := by
  simp only [IdempotencyStore.tryBegin, IdempotencyStore.tryAdd, hnone]
  rw [IdempotencyStore.enqueue_of_count_le]
  rw [Dict.count_set_new _ hnone]
  omega

theorem tryBegin_old {store : IdempotencyStore} {key fingerprint : String} {record : IdempotencyRecord}
    (h : store.records.get key = some record) :
    store.tryBegin key fingerprint =
      ((IdempotencyRules.decide (some record) fingerprint, some record), store) := by
  have hne : IdempotencyRules.decide (some record) fingerprint ≠ .startNew := by
    simp only [IdempotencyRules.decide]
    split <;> [simp; (split <;> simp)]
  simp [IdempotencyStore.tryBegin, IdempotencyStore.tryAdd, h, IdempotencyStore.lookup, hne]

/-- The service when a request gave up before its effect: only the queue remembers it. -/
def afterAbandon (service : PaymentService) (key : String) : PaymentService :=
  { service with store := { service.store with insertionOrder := service.store.insertionOrder ++ [key] } }

/-- The service when a request went through with `decision`. -/
def afterComplete (hash : String → String) (service : PaymentService) (newGuid : Guid) (key : String)
    (request : AuthorizePaymentRequest) (decision : PaymentDecision) : PaymentService :=
  let (response, ledger) := settle service.ledger newGuid request decision
  ⟨⟨service.store.records.set key ⟨key, requestFingerprint hash request, .completed, response⟩,
    service.store.insertionOrder ++ [key]⟩, ledger⟩

theorem authorizeAsync_cases (hash : String → String) (apply : ApplyAsync φ) (newGuid : Guid)
    (key : String) (request : AuthorizePaymentRequest) (service : PaymentService) (faults : φ)
    (hcap : service.store.records.get key = none →
      service.store.records.count < IdempotencyStore.capacity) :
    (∃ rejection, rejectInvalid key request = some rejection ∧
      authorizeAsync hash apply newGuid key request service faults = (.ok rejection, service, faults)) ∨
    (∃ record, rejectInvalid key request = none ∧ service.store.records.get key = some record ∧
      authorizeAsync hash apply newGuid key request service faults =
        (replyToRepeated (IdempotencyRules.decide (some record) (requestFingerprint hash request)) (some record),
          service, faults)) ∨
    (∃ result faults', rejectInvalid key request = none ∧ service.store.records.get key = none ∧
      (result.map (fun fault => fault.outcome) = .ok .fail ∨ ∃ e, result = .error e) ∧
      apply authorizeOperation .beforeEffect key faults = (result, faults') ∧
      authorizeAsync hash apply newGuid key request service faults =
        (result.map (fun fault => Results.injectedFault fault.statusCode), afterAbandon service key, faults')) ∨
    (∃ fault faults', rejectInvalid key request = none ∧ service.store.records.get key = none ∧
      fault.outcome ≠ .fail ∧ apply authorizeOperation .beforeEffect key faults = (.ok fault, faults') ∧
      authorizeAsync hash apply newGuid key request service faults =
        let after := apply authorizeOperation .afterEffect key faults'
        (after.1.map (fun _ => firstReply (settle service.ledger newGuid request (decidePayment fault request)).1),
          afterComplete hash service newGuid key request (decidePayment fault request), after.2)) := by
  unfold authorizeAsync
  cases hv : rejectInvalid key request with
  | some rejection => exact .inl ⟨rejection, rfl, rfl⟩
  | none =>
    right
    cases hg : service.store.records.get key with
    | some record =>
      left
      refine ⟨record, rfl, rfl, ?_⟩
      rw [tryBegin_old hg]
      have hne : IdempotencyRules.decide (some record) (requestFingerprint hash request) ≠ .startNew := by
        simp only [IdempotencyRules.decide]
        split <;> [simp; (split <;> simp)]
      simp
    | none =>
      right
      have hrm := Dict.remove_set_new (IdempotencyStore.started key (requestFingerprint hash request)) hg
      rw [tryBegin_new hg (hcap hg)]
      simp only [processAuthorization, IdempotencyStore.abandon, hrm]
      generalize hb : apply authorizeOperation .beforeEffect key faults = before
      obtain ⟨result, faults'⟩ := before
      cases result with
      | error e => exact .inl ⟨.error e, faults', trivial, trivial, .inr ⟨e, rfl⟩, rfl, rfl⟩
      | ok fault =>
        by_cases hf : fault.outcome = .fail
        · exact .inl ⟨.ok fault, faults', trivial, trivial, .inl (by simp [Except.map, hf]), rfl,
            by simp [hf, Except.map, afterAbandon]⟩
        · refine .inr ⟨fault, faults', trivial, trivial, hf, rfl, ?_⟩
          simp only [hf, if_false, IdempotencyStore.complete, Dict.get_set, if_true, Dict.set_set]
          cases ha : apply authorizeOperation .afterEffect key faults' with
          | mk result faults'' => cases result <;> rfl

end PaymentEndpoints

end TxPlatform
