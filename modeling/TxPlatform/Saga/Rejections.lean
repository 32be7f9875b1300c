import TxPlatform.Lib.Machine
import TxPlatform.Inventory.Endpoints
import TxPlatform.Payment.Endpoints
import TxPlatform.Shipping.ShipmentBook

/-! # What a business rejection means (TransactionRules.cs:22-42 and the three handlers)

`CompensationPlan` does not undo a stage that was rejected: a rejection is taken to mean that the
dependency did nothing. Here one request is sent to one service any number of times while fault
rules come and go, and the question is whether a 422 can be answered while the service holds an
effect for the order.

* PaymentService consults its idempotency record before the fault rules: never.
* InventoryService and ShippingService consult the fault rules first: exactly when an attempt made
  while the effect is held meets a rule that rejects it, or that fails it with the status 422.
-/

namespace TxPlatform

namespace Rejections

/-! ## One request, repeated, under changing fault rules -/

/-- A service and the fault rules of its pod. -/
structure Pod (σ : Type) where
  service : σ
  faults : FaultRuleStore

inductive PodLabel where
  | attempt (env : FaultPhase → FaultEnv) (newGuid : Guid)
  | addRule (request : FaultRuleRequest) (newGuid : Guid) (now : Int)
  | removeRule (id : String)
  | clearRules
  | listRules (now : Int)

/-- One and the same request as its handler processes it. -/
abbrev Handler (σ : Type) :=
  ApplyAsync FaultRuleStore → Guid → σ → FaultRuleStore → Except Exn HttpResponse × σ × FaultRuleStore

variable {σ : Type}

/-- Attempts and fault rule changes in any order; only validated rules are added. -/
def podMachine (operations : List String) (maxTtlSeconds : Int) (handle : Handler σ) :
    Machine (Pod σ) PodLabel where
  step pod
    | .attempt env newGuid =>
      let handled := handle (FaultInjector.applyAsync env) newGuid pod.service pod.faults
      some ⟨handled.2.1, handled.2.2⟩
    | .addRule request newGuid now =>
      if FaultRuleValidator.accepts request operations maxTtlSeconds then
        some { pod with faults := pod.faults.add request newGuid now }
      else none
    | .removeRule id => some { pod with faults := (pod.faults.remove id).2 }
    | .clearRules => some { pod with faults := pod.faults.clear.2 }
    | .listRules now => some { pod with faults := pod.faults.listActive now }

/-- An attempt answered 422 leaves the service without an effect. -/
def RejectionMeansNothing (handle : Handler σ) (held : σ → Prop) (pod : Pod σ) (label : PodLabel)
    (pod' : Pod σ) :
    Prop :=
  match label with
  | .attempt env newGuid =>
    ∀ reply, (handle (FaultInjector.applyAsync env) newGuid pod.service pod.faults).1 = .ok reply →
      reply.statusCode = 422 → ¬ held pod'.service
  | _ => True

/-- No attempt made while the effect is held is rejected by a fault rule. -/
def NeverRejectedWhileHeld (rejected : (FaultPhase → FaultEnv) → FaultRuleStore → Prop) (held : σ → Prop)
    (pod : Pod σ) (label : PodLabel) (_ : Pod σ) : Prop :=
  match label with
  | .attempt env _ => held pod.service → ¬ rejected env pod.faults
  | _ => True

/-- Fault rule changes do not touch the service. -/
theorem pod_step {operations : List String} {maxTtlSeconds : Int} {handle : Handler σ} {pod pod' : Pod σ}
    {label : PodLabel} (h : (podMachine operations maxTtlSeconds handle).step pod label = some pod') :
    (∃ env newGuid, label = .attempt env newGuid ∧
      pod'.service = (handle (FaultInjector.applyAsync env) newGuid pod.service pod.faults).2.1) ∨
    ((∀ env newGuid, label ≠ .attempt env newGuid) ∧ pod'.service = pod.service) := by
  cases label with
  | attempt env newGuid => cases h; exact .inl ⟨env, newGuid, rfl, rfl⟩
  | addRule request newGuid now =>
    simp only [podMachine] at h
    split at h <;> cases h
    exact .inr ⟨by simp, rfl⟩
  | removeRule id => cases h; exact .inr ⟨by simp, rfl⟩
  | clearRules => cases h; exact .inr ⟨by simp, rfl⟩
  | listRules now => cases h; exact .inr ⟨by simp, rfl⟩

/-- The comparison of the two step properties is about the attempts only. -/
theorem along_iff_of_attempts {operations : List String} {maxTtlSeconds : Int} {handle : Handler σ}
    {held : σ → Prop} (rejected : (FaultPhase → FaultEnv) → FaultRuleStore → Prop) {I : σ → Prop}
    (hattempt : ∀ env newGuid service faults, I service →
      let handled := handle (FaultInjector.applyAsync env) newGuid service faults
      I handled.2.1 ∧ ((held service → ¬ rejected env faults) ↔
        ∀ reply, handled.1 = .ok reply → reply.statusCode = 422 → ¬ held handled.2.1))
    {pod : Pod σ} (h0 : I pod.service) (labels : List PodLabel) :
    (podMachine operations maxTtlSeconds handle).Along (RejectionMeansNothing handle held) pod labels ↔
      (podMachine operations maxTtlSeconds handle).Along
        (NeverRejectedWhileHeld rejected held) pod labels := by
  refine (Machine.along_iff (I := fun pod => I pod.service) (fun pod label pod' hi hs => ?_)
    (fun pod label pod' hi hs _ => ?_) h0).symm
  · obtain ⟨env, newGuid, rfl, he⟩ | ⟨hno, _⟩ := pod_step hs
    · simp only [NeverRejectedWhileHeld, RejectionMeansNothing, he]
      exact (hattempt env newGuid pod.service pod.faults hi).2
    · cases label with
      | attempt env newGuid => exact absurd rfl (hno env newGuid)
      | addRule _ _ _ => exact Iff.rfl
      | removeRule _ => exact Iff.rfl
      | clearRules => exact Iff.rfl
      | listRules _ => exact Iff.rfl
  · obtain ⟨env, newGuid, _, he⟩ | ⟨_, he⟩ := pod_step hs
    · rw [he]; exact (hattempt env newGuid pod.service pod.faults hi).1
    · rw [he]; exact hi

/-! ## POST /inventory/reservations -/

section Inventory
open ReservationEndpoints

def reserveHandler (request : ReserveStockRequest) : Handler StockLedger :=
  fun apply _ ledger faults => reserveAsync apply request ledger faults

def holdsReservation (orderId : Guid) (ledger : StockLedger) : Prop :=
  (ledger.reservedRecord orderId).isSome

/-- The first rule that applies before the effect rejects the request, or fails it with 422. -/
def reserveRejected (request : ReserveStockRequest) (env : FaultPhase → FaultEnv)
    (faults : FaultRuleStore) : Prop :=
  request.isValid ∧
  (FaultInjector.Meets env reserveOperation .beforeEffect faults FaultRule.Rejects ∨
    FaultInjector.Meets env reserveOperation .beforeEffect faults
      (·.FailsWith 422 request.orderId.formatD))

/-- A rejection by a rule is answered 422 and touches nothing. -/
theorem reserveAsync_of_rejected {request : ReserveStockRequest} {env : FaultPhase → FaultEnv}
    {faults : FaultRuleStore} (ledger : StockLedger) (h : reserveRejected request env faults) :
    ∃ reply, (reserveAsync (FaultInjector.applyAsync env) request ledger faults).1 = .ok reply ∧
      reply.statusCode = 422 ∧
        (reserveAsync (FaultInjector.applyAsync env) request ledger faults).2.1 = ledger := by
  obtain ⟨hv, hr | hf⟩ := h
  · have hd : (FaultInjector.applyAsync env reserveOperation .beforeEffect request.orderId.formatD faults).1 =
        .ok .reject := FaultInjector.applyAsync_of_rejects hr
    unfold reserveAsync
    rw [if_pos hv]
    generalize FaultInjector.applyAsync env _ _ _ _ = before at hd ⊢
    obtain ⟨result, faults'⟩ := before
    cases hd
    exact ⟨_, rfl, rfl, rfl⟩
  · have hd := FaultInjector.applyAsync_of_failsWith hf
    unfold reserveAsync
    rw [if_pos hv]
    generalize FaultInjector.applyAsync env _ _ _ _ = before at hd ⊢
    obtain ⟨result, faults'⟩ := before
    cases hd
    exact ⟨_, rfl, rfl, rfl⟩

/-- A 422 is a rejection by a rule, or the ledger refused and the order is not reserved. -/
theorem reserveAsync_rejected {request : ReserveStockRequest} {env : FaultPhase → FaultEnv}
    {faults : FaultRuleStore} {ledger : StockLedger} {reply : HttpResponse}
    (h : (reserveAsync (FaultInjector.applyAsync env) request ledger faults).1 = .ok reply)
    (h422 : reply.statusCode = 422) :
    (reserveRejected request env faults ∧
      (reserveAsync (FaultInjector.applyAsync env) request ledger faults).2.1 = ledger) ∨
    ¬ holdsReservation request.orderId
      (reserveAsync (FaultInjector.applyAsync env) request ledger faults).2.1 := by
  unfold reserveAsync at h ⊢
  by_cases hv : request.isValid
  · simp only [hv, if_true] at h ⊢
    cases hb : FaultInjector.applyAsync env reserveOperation .beforeEffect request.orderId.formatD faults with
    | mk result faults' =>
      cases result with
      | error e => simp only [hb] at h; cases h
      | ok fault =>
        simp only [hb] at h ⊢
        obtain rfl | rfl | ⟨hr, rfl⟩ | ⟨status, hf, rfl⟩ := FaultInjector.applyAsync_eq_ok (by rw [hb])
        · right
          simp only [FaultDecision.continue_] at h ⊢
          cases ha : FaultInjector.applyAsync env reserveOperation .afterEffect request.orderId.formatD faults' with
          | mk result faults'' =>
            cases result with
            | error e => simp only [ha] at h; cases h
            | ok fault =>
              simp only [ha] at h ⊢
              cases h
              obtain ⟨_, _, ho, _⟩ | ⟨_, hnone, _, _, he⟩ | ⟨_, _, ho, _⟩ :=
                StockLedger.reserve_cases ledger request.orderId (request.lines.getD [])
              · rw [ho] at h422; cases h422
              · rw [he]; simp [holdsReservation, hnone]
              · rw [ho] at h422; cases h422
        · cases h; cases h422
        · exact .inl ⟨⟨hv, .inl hr⟩, rfl⟩
        · cases h
          have hs : status = 422 := h422
          subst hs
          exact .inl ⟨⟨hv, .inr hf⟩, rfl⟩
  · simp only [hv, Bool.false_eq_true, if_false] at h
    cases h; cases h422

theorem reserve_attempt (request : ReserveStockRequest) (env : FaultPhase → FaultEnv)
    (ledger : StockLedger) (faults : FaultRuleStore) :
    (holdsReservation request.orderId ledger → ¬ reserveRejected request env faults) ↔
      ∀ reply, (reserveAsync (FaultInjector.applyAsync env) request ledger faults).1 = .ok reply →
        reply.statusCode = 422 →
        ¬ holdsReservation request.orderId
          (reserveAsync (FaultInjector.applyAsync env) request ledger faults).2.1 := by
  constructor
  · intro hnever reply h h422
    obtain ⟨hr, he⟩ | hnot := reserveAsync_rejected h h422
    · rw [he]; exact fun hheld => hnever hheld hr
    · exact hnot
  · intro hmeans hheld hr
    obtain ⟨reply, h, h422, he⟩ := reserveAsync_of_rejected ledger hr
    exact hmeans reply h h422 (by rwa [he])

end Inventory

/-! ## POST /shipments -/

section Shipping
open ShipmentEndpoints

def shipmentHandler (request : CreateShipmentRequest) : Handler ShipmentBook :=
  fun apply newGuid book faults => createAsync apply newGuid request book faults

def holdsShipment (orderId : Guid) (book : ShipmentBook) : Prop := (book.shipments.get orderId).isSome

/-- As for a reservation, except that a simulated rejection passes the second fault point before
it is answered; a delay there may outlast the caller. -/
def shipmentRejected (request : CreateShipmentRequest) (env : FaultPhase → FaultEnv)
    (faults : FaultRuleStore) : Prop :=
  isValid request ∧
  ((FaultInjector.Meets env createOperation .beforeEffect faults FaultRule.Rejects ∧
      ∃ decision, (FaultInjector.applyAsync env createOperation .afterEffect request.orderId.formatD
        (FaultInjector.applyAsync env createOperation .beforeEffect request.orderId.formatD
          faults).2).1 = .ok decision) ∨
    FaultInjector.Meets env createOperation .beforeEffect faults
      (·.FailsWith 422 request.orderId.formatD))

/-- A shipment of this order is only ever stored for a serviceable zone of the request. -/
def ShippableInv (request : CreateShipmentRequest) (book : ShipmentBook) : Prop :=
  holdsShipment request.orderId book → request.zone.getD "" ∈ ShipmentBook.serviceableZones

/-- The call on the book is skipped, or made and its effect stays. -/
theorem createAsync_book (apply : ApplyAsync FaultRuleStore) (newGuid : Guid)
    (request : CreateShipmentRequest) (book : ShipmentBook) (faults : FaultRuleStore) :
    (createAsync apply newGuid request book faults).2.1 = book ∨
    (createAsync apply newGuid request book faults).2.1 =
      (book.create newGuid request.orderId (request.zone.getD "") request.itemCount).2 := by
  unfold createAsync
  split
  · split
    · exact .inl rfl
    · split
      · exact .inl rfl
      · dsimp only
        split_ifs
        · left; split <;> rfl
        · right; split <;> rfl
  · exact .inl rfl

theorem shippable_create {request : CreateShipmentRequest} {book : ShipmentBook}
    (h : ShippableInv request book) (newGuid : Guid) :
    ShippableInv request
      (book.create newGuid request.orderId (request.zone.getD "") request.itemCount).2 := by
  obtain ⟨_, he⟩ | ⟨_, _, _, he⟩ | ⟨hz, _, _⟩ := ShipmentBook.create_cases book newGuid request.orderId
    (request.zone.getD "") request.itemCount
  · rw [he]; exact h
  · rw [he]; exact h
  · exact fun _ => hz

theorem shippable_createAsync {request : CreateShipmentRequest} {book : ShipmentBook}
    (h : ShippableInv request book) (apply : ApplyAsync FaultRuleStore) (newGuid : Guid)
    (faults : FaultRuleStore) :
    ShippableInv request (createAsync apply newGuid request book faults).2.1 := by
  obtain he | he := createAsync_book apply newGuid request book faults
  · rw [he]; exact h
  · rw [he]; exact shippable_create h newGuid

theorem createAsync_of_rejected {request : CreateShipmentRequest} {env : FaultPhase → FaultEnv}
    {faults : FaultRuleStore} (newGuid : Guid) (book : ShipmentBook)
    (h : shipmentRejected request env faults) :
    ∃ reply, (createAsync (FaultInjector.applyAsync env) newGuid request book faults).1 = .ok reply ∧
      reply.statusCode = 422 ∧
      (createAsync (FaultInjector.applyAsync env) newGuid request book faults).2.1 = book := by
  obtain ⟨hv, ⟨hr, after, ha⟩ | hf⟩ := h
  · have hd : (FaultInjector.applyAsync env createOperation .beforeEffect request.orderId.formatD faults).1 =
        .ok .reject := FaultInjector.applyAsync_of_rejects hr
    unfold createAsync
    rw [if_pos hv]
    cases hb : FaultInjector.applyAsync env createOperation .beforeEffect request.orderId.formatD faults with
    | mk result faults' =>
      rw [hb] at hd ha
      cases hd
      cases hc : FaultInjector.applyAsync env createOperation .afterEffect request.orderId.formatD faults' with
      | mk result faults'' =>
        rw [hc] at ha
        cases ha
        exact ⟨_, by simp only [FaultDecision.reject, hc, reduceCtorEq, if_false, if_true]; rfl, rfl,
          by simp only [FaultDecision.reject, hc, reduceCtorEq, if_false, if_true]⟩
  · have hd := FaultInjector.applyAsync_of_failsWith hf
    unfold createAsync
    rw [if_pos hv]
    generalize FaultInjector.applyAsync env _ FaultPhase.beforeEffect _ _ = before at hd ⊢
    obtain ⟨result, faults'⟩ := before
    cases hd
    exact ⟨_, rfl, rfl, rfl⟩

theorem createAsync_rejected {request : CreateShipmentRequest} {env : FaultPhase → FaultEnv}
    {faults : FaultRuleStore} {newGuid : Guid} {book : ShipmentBook} {reply : HttpResponse}
    (hinv : ShippableInv request book)
    (h : (createAsync (FaultInjector.applyAsync env) newGuid request book faults).1 = .ok reply)
    (h422 : reply.statusCode = 422) :
    (shipmentRejected request env faults ∧
      (createAsync (FaultInjector.applyAsync env) newGuid request book faults).2.1 = book) ∨
    ¬ holdsShipment request.orderId
      (createAsync (FaultInjector.applyAsync env) newGuid request book faults).2.1 := by
  unfold createAsync at h ⊢
  by_cases hv : isValid request
  · simp only [hv, if_true] at h ⊢
    cases hb : FaultInjector.applyAsync env createOperation .beforeEffect request.orderId.formatD faults with
    | mk result faults' =>
      cases result with
      | error e => simp only [hb] at h; cases h
      | ok fault =>
        simp only [hb] at h ⊢
        obtain rfl | rfl | ⟨hr, rfl⟩ | ⟨status, hf, rfl⟩ := FaultInjector.applyAsync_eq_ok (by rw [hb])
        · right
          simp only [FaultDecision.continue_, reduceCtorEq, if_false] at h ⊢
          cases ha : FaultInjector.applyAsync env createOperation .afterEffect request.orderId.formatD faults' with
          | mk result faults'' =>
            cases result with
            | error e => simp only [ha] at h; cases h
            | ok fault =>
              simp only [ha] at h ⊢
              cases h
              obtain ⟨hz, he⟩ | ⟨_, _, _, he⟩ | ⟨_, _, he⟩ := ShipmentBook.create_cases book newGuid
                request.orderId (request.zone.getD "") request.itemCount
              · rw [he]; exact fun hheld => hz (hinv hheld)
              · rw [he] at h422; cases h422
              · rw [he] at h422; cases h422
        · cases h; cases h422
        · left
          simp only [FaultDecision.reject, reduceCtorEq, if_false, if_true] at h ⊢
          cases ha : FaultInjector.applyAsync env createOperation .afterEffect request.orderId.formatD faults' with
          | mk result faults'' =>
            cases result with
            | error e => simp only [ha] at h; cases h
            | ok fault => exact ⟨⟨hv, .inl ⟨hr, fault, by rw [hb, ha]⟩⟩, rfl⟩
        · cases h
          have hs : status = 422 := h422
          subst hs
          exact .inl ⟨⟨hv, .inr hf⟩, rfl⟩
  · simp only [hv, Bool.false_eq_true, if_false] at h
    cases h; cases h422

theorem shipment_attempt {request : CreateShipmentRequest} {book : ShipmentBook}
    (hinv : ShippableInv request book) (env : FaultPhase → FaultEnv) (newGuid : Guid)
    (faults : FaultRuleStore) :
    (holdsShipment request.orderId book → ¬ shipmentRejected request env faults) ↔
      ∀ reply, (createAsync (FaultInjector.applyAsync env) newGuid request book faults).1 = .ok reply →
        reply.statusCode = 422 →
        ¬ holdsShipment request.orderId
          (createAsync (FaultInjector.applyAsync env) newGuid request book faults).2.1 := by
  constructor
  · intro hnever reply h h422
    obtain ⟨hr, he⟩ | hnot := createAsync_rejected hinv h h422
    · rw [he]; exact fun hheld => hnever hheld hr
    · exact hnot
  · intro hmeans hheld hr
    obtain ⟨reply, h, h422, he⟩ := createAsync_of_rejected newGuid book hr
    exact hmeans reply h h422 (by rwa [he])

end Shipping

/-! ## POST /payments/authorizations -/

section Payment
open PaymentEndpoints

def paymentHandler (hash : String → String) (key : String) (request : AuthorizePaymentRequest) :
    Handler PaymentService :=
  fun apply newGuid service faults => authorizeAsync hash apply newGuid key request service faults

def holdsAuthorization (orderId : Guid) (service : PaymentService) : Prop :=
  service.ledger.entries orderId ≠ []

/-- Either the key has no record and nothing was charged, or its record is completed by this very
request, and nothing was charged if the stored answer is a rejection. -/
def SettledInv (hash : String → String) (key : String) (request : AuthorizePaymentRequest)
    (service : PaymentService) : Prop :=
  (service.store.records.get key = none ∧ ¬ holdsAuthorization request.orderId service ∧
    service.store.records.count < IdempotencyStore.capacity) ∨
  ∃ response, service.store.records.get key =
      some ⟨key, requestFingerprint hash request, .completed, some response⟩ ∧
    (response.statusCode = 422 → ¬ holdsAuthorization request.orderId service)

/-- A settled payment with the response 422 charged nothing. -/
theorem settle_status {ledger : PaymentLedger} {newGuid : Guid} {request : AuthorizePaymentRequest}
    {decision : PaymentDecision} (h : (settle ledger newGuid request decision).1.statusCode = 422) :
    (settle ledger newGuid request decision).2 = ledger := by
  unfold settle at h ⊢
  split
  · rename_i ha; simp [ha, authorizedResponse] at h
  · rfl

/-- **PaymentService never answers 422 while it holds an authorization.** -/
theorem payment_attempt {hash : String → String} {key : String} {request : AuthorizePaymentRequest}
    {service : PaymentService} (hinv : SettledInv hash key request service) (env : FaultPhase → FaultEnv)
    (newGuid : Guid) (faults : FaultRuleStore) :
    SettledInv hash key request
      (authorizeAsync hash (FaultInjector.applyAsync env) newGuid key request service faults).2.1 ∧
    ∀ reply, (authorizeAsync hash (FaultInjector.applyAsync env) newGuid key request service faults).1 = .ok reply →
      reply.statusCode = 422 → ¬ holdsAuthorization request.orderId
        (authorizeAsync hash (FaultInjector.applyAsync env) newGuid key request service faults).2.1 := by
  have hcap : service.store.records.get key = none →
    service.store.records.count < IdempotencyStore.capacity := by
    intro hnone
    obtain ⟨_, _, hcap⟩ | ⟨response, hr, _⟩ := hinv
    · exact hcap
    · rw [hnone] at hr; cases hr
  obtain ⟨rejection, hrej, he⟩ | ⟨record, _, hr, he⟩ | ⟨result, faults', _, hnone, _, _, he⟩ |
    ⟨fault, faults', _, hnone, _, _, he⟩ :=
    authorizeAsync_cases hash (FaultInjector.applyAsync env) newGuid key request service faults hcap
  · rw [he]
    refine ⟨hinv, fun reply h h422 => ?_⟩
    cases h
    rw [rejectInvalid_status hrej] at h422; cases h422
  · rw [he]
    refine ⟨hinv, fun reply h h422 => ?_⟩
    obtain ⟨hnone, _⟩ | ⟨response, hr', hnot⟩ := hinv
    · rw [hnone] at hr; cases hr
    · rw [hr'] at hr
      cases hr
      simp only [IdempotencyRules.decide, ne_eq, not_true_eq_false, if_false, if_true] at h
      cases h
      exact hnot h422
  · obtain ⟨_, hnot, hcount⟩ | ⟨response, hr', _⟩ := hinv
    · rw [he]
      exact ⟨.inl ⟨hnone, hnot, hcount⟩, fun _ _ _ => hnot⟩
    · rw [hnone] at hr'; cases hr'
  · obtain ⟨_, hnot, hcount⟩ | ⟨response, hr', _⟩ := hinv
    · have hsettle : ∀ decision, (settle service.ledger newGuid request decision).1.statusCode = 422 →
          ¬ holdsAuthorization request.orderId
            (afterComplete hash service newGuid key request decision) := by
        intro decision h422
        simp only [holdsAuthorization, afterComplete, settle_status h422]
        exact hnot
      rw [he]
      refine ⟨.inr ⟨(settle service.ledger newGuid request (decidePayment fault request)).1,
        by simp [afterComplete], fun h422 => hsettle _ h422⟩, fun reply h h422 => ?_⟩
      cases ha : (FaultInjector.applyAsync env authorizeOperation .afterEffect key faults').1 with
      | error e => simp only [ha] at h; cases h
      | ok after => simp only [ha] at h; cases h; exact hsettle _ h422
    · rw [hnone] at hr'; cases hr'

end Payment

/-! ## All three services -/

def inventoryOperations : List String :=
  [ReservationEndpoints.reserveOperation, ReservationEndpoints.releaseOperation]

def paymentOperations : List String :=
  [PaymentEndpoints.authorizeOperation, PaymentEndpoints.voidOperation]

def shippingOperations : List String := [ShipmentEndpoints.createOperation]

/-- **When a business rejection means that nothing was done.** PaymentService always keeps to it.
InventoryService and ShippingService keep to it along exactly the histories in which no attempt is
rejected by a fault rule while the effect of an earlier attempt is held. -/
theorem rejection_means_nothing_iff (hash : String → String) (maxTtlSeconds : Int) (key : String)
    (reserve : ReserveStockRequest) (payment : AuthorizePaymentRequest) (shipment : CreateShipmentRequest)
    (inventoryPod : Pod StockLedger) (paymentPod : Pod PaymentService) (shippingPod : Pod ShipmentBook)
    (hkey : paymentPod.service.store.records.get key = none)
    (hroom : paymentPod.service.store.records.count < IdempotencyStore.capacity)
    (hpayment : ¬ holdsAuthorization payment.orderId paymentPod.service)
    (hshipment : ¬ holdsShipment shipment.orderId shippingPod.service) (labels : List PodLabel) :
    ((podMachine inventoryOperations maxTtlSeconds (reserveHandler reserve)).Along
        (RejectionMeansNothing (reserveHandler reserve) (holdsReservation reserve.orderId)) inventoryPod labels ↔
      (podMachine inventoryOperations maxTtlSeconds (reserveHandler reserve)).Along
        (NeverRejectedWhileHeld (reserveRejected reserve) (holdsReservation reserve.orderId)) inventoryPod labels) ∧
    (podMachine paymentOperations maxTtlSeconds (paymentHandler hash key payment)).Along
      (RejectionMeansNothing (paymentHandler hash key payment) (holdsAuthorization payment.orderId))
        paymentPod labels ∧
    ((podMachine shippingOperations maxTtlSeconds (shipmentHandler shipment)).Along
        (RejectionMeansNothing (shipmentHandler shipment) (holdsShipment shipment.orderId)) shippingPod labels ↔
      (podMachine shippingOperations maxTtlSeconds (shipmentHandler shipment)).Along
        (NeverRejectedWhileHeld (shipmentRejected shipment) (holdsShipment shipment.orderId))
          shippingPod labels) := by
  refine ⟨?_, ?_, ?_⟩
  · exact along_iff_of_attempts _ (I := fun _ => True)
      (fun env _ ledger faults _ => ⟨trivial, reserve_attempt reserve env ledger faults⟩) trivial labels
  · refine (along_iff_of_attempts (fun _ _ => False) (I := SettledInv hash key payment)
      (fun env newGuid service faults hinv => ?_) (.inl ⟨hkey, hpayment, hroom⟩) labels).2 ?_
    · obtain ⟨hkeep, hnot⟩ := payment_attempt hinv env newGuid faults
      exact ⟨hkeep, fun _ => hnot, fun _ _ => id⟩
    · refine Machine.along_mono (fun _ label _ _ => ?_) Machine.along_trivial
      cases label <;> simp [NeverRejectedWhileHeld]
  · exact along_iff_of_attempts _ (I := ShippableInv shipment)
      (fun env newGuid book faults hinv =>
        ⟨shippable_createAsync hinv (FaultInjector.applyAsync env) newGuid faults,
          shipment_attempt hinv env newGuid faults⟩) (fun hheld => absurd hheld hshipment) labels

/-- A retry of a reservation that went through, after a business-rejection rule was added. -/
def retryUnderRejection (operation : String) : List PodLabel :=
  [.attempt (fun _ => ⟨0, none, false⟩) 1,
   .addRule { operation := operation, mode := .businessRejection, ttlSeconds := 60 } 2 0,
   .attempt (fun _ => ⟨1, none, false⟩) 3]

theorem rejection_means_nothing_without_rules :
    (podMachine paymentOperations 3600 (paymentHandler id "order-1-authorize"
        ⟨1, ⟨1250, 2, by decide, by decide⟩, "EUR", "tok_test_approved"⟩)).Along
      (RejectionMeansNothing (paymentHandler id "order-1-authorize"
        ⟨1, ⟨1250, 2, by decide, by decide⟩, "EUR", "tok_test_approved"⟩) (holdsAuthorization 1))
      ⟨.empty, .empty⟩ (retryUnderRejection "payment.authorize") :=
  (rejection_means_nothing_iff id 3600 "order-1-authorize" ⟨1, some [⟨"SKU-1001", 2⟩]⟩
    ⟨1, ⟨1250, 2, by decide, by decide⟩, "EUR", "tok_test_approved"⟩ ⟨1, "domestic", 2⟩
    ⟨⟨Dict.set ∅ "SKU-1001" 5, ∅, []⟩, .empty⟩ ⟨.empty, .empty⟩ ⟨.empty, .empty⟩ rfl (by decide)
    (fun h => h rfl) (by simp [holdsShipment, ShipmentBook.empty])
      (retryUnderRejection "payment.authorize")).2.1

/-- The retry of a request that was fulfilled is answered 422 by InventoryService and by
ShippingService, while the reservation and the shipment exist. -/
theorem rejected_while_held :
    ¬ (podMachine inventoryOperations 3600 (reserveHandler ⟨1, some [⟨"SKU-1001", 2⟩]⟩)).Along
      (RejectionMeansNothing (reserveHandler ⟨1, some [⟨"SKU-1001", 2⟩]⟩) (holdsReservation 1))
      ⟨⟨Dict.set ∅ "SKU-1001" 5, ∅, []⟩, .empty⟩ (retryUnderRejection "inventory.reserve") ∧
    ¬ (podMachine shippingOperations 3600 (shipmentHandler ⟨1, "domestic", 2⟩)).Along
      (RejectionMeansNothing (shipmentHandler ⟨1, "domestic", 2⟩) (holdsShipment 1))
      ⟨.empty, .empty⟩ (retryUnderRejection "shipping.create") :=
  ⟨fun h => h.2.2.1 _ rfl rfl rfl, fun h => h.2.2.1 _ rfl rfl rfl⟩

end Rejections

end TxPlatform
