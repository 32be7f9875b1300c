import TxPlatform.Inventory.Conservation
import TxPlatform.Saga.World

/-! # The reported outcome agrees with the ledgers

Each service has two sets of rules for this order: while only the stage request of the order is
on its way, and once the undo request may follow. What the last reply of each call said still
holds at the end of the run, whatever other orders did.
-/

namespace TxPlatform

namespace Agreement

/-- Every store is below its capacity. -/
def InventoryRoom (ledger : StockLedger) : Prop :=
  ledger.reservations.count < StockLedger.reservationCapacity

def PaymentRoom (service : PaymentService) : Prop :=
  service.store.records.count < IdempotencyStore.capacity

instance : DecidablePred InventoryRoom := fun _ => inferInstanceAs (Decidable (_ < _))

instance : DecidablePred PaymentRoom := fun _ => inferInstanceAs (Decidable (_ < _))

/-! ## InventoryService -/

section Inventory
variable (env : FaultPhase → FaultEnv)

theorem handle_reserve (request : ReserveStockRequest) (ledger : StockLedger) :
    (InventoryRequest.reserve request).handle (FaultInjector.applyAsync env) .empty ledger =
      if request.isValid then
        (ReservationEndpoints.reserveReply request.orderId (ledger.reserve request.orderId (request.lines.getD [])).1,
          (ledger.reserve request.orderId (request.lines.getD [])).2)
      else (Results.validationProblem "lines" "an order id and at least one positive line are required", ledger) := by
  simp only [InventoryRequest.handle, ReservationEndpoints.reserveAsync, FaultInjector.applyAsync_empty]
  split <;> rfl

theorem handle_release (orderId : Guid) (ledger : StockLedger) :
    ((InventoryRequest.release orderId).handle (FaultInjector.applyAsync env) .empty ledger).2 =
      (ledger.release orderId).2 := by
  simp only [InventoryRequest.handle, ReservationEndpoints.releaseAsync, FaultInjector.applyAsync_empty]
  obtain ⟨_, h⟩ | ⟨found, _, _, h⟩ | ⟨found, _, h⟩ :=
    StockLedger.release_cases ledger orderId <;> simp [h]

/-- With room for one more record, nothing is forgotten. -/
theorem reservations_record {ledger : StockLedger} (hroom : InventoryRoom ledger) (orderId : Guid)
    (lines : List ReservationLine) : (ledger.record orderId lines).trimOldReservations.reservations =
      ledger.reservations.set orderId ⟨orderId, lines, .reserved⟩ := by
  rw [StockLedger.trim_of_count_le]
  · rfl
  · have := Dict.count_set_le ledger.reservations orderId ⟨orderId, lines, .reserved⟩
    simp only [InventoryRoom, StockLedger.record] at *
    omega

/-- A request of another order leaves this order's record alone. -/
theorem get_foreign {id : Guid} {request : InventoryRequest} (hforeign : request.Foreign id)
    {ledger : StockLedger} (hroom : InventoryRoom ledger) :
    (request.handle (FaultInjector.applyAsync env) .empty ledger).2.reservations.get id =
      ledger.reservations.get id := by
  cases request with
  | reserve request =>
    rw [handle_reserve]
    split
    · obtain ⟨_, _, _, h⟩ | ⟨_, _, _, _, h⟩ | ⟨_, _, _, h⟩ :=
        StockLedger.reserve_cases ledger request.orderId (request.lines.getD [])
      · rw [h]
      · rw [h]
      · rw [h, reservations_record hroom]
        simp [Ne.symm hforeign]
    · rfl
  | release orderId =>
    rw [handle_release]
    obtain ⟨_, h⟩ | ⟨found, _, _, h⟩ | ⟨found, _, h⟩ :=
      StockLedger.release_cases ledger orderId <;> rw [h]
    simp [Ne.symm hforeign]

/-- The reservation the order asks for. -/
def reservationOf (request : ReserveStockRequest) : Reservation :=
  ⟨request.orderId, request.lines.getD [], .reserved⟩

/-- Only reserve attempts: the order has no record or exactly this reservation. -/
def NothingOrReserved (request : ReserveStockRequest) (ledger : StockLedger) : Prop :=
  ledger.reservations.get request.orderId = none ∨
    ledger.reservations.get request.orderId = some (reservationOf request)

/-- A 2xx reply means that the reservation is held, a 422 that there is none. -/
def ReserveSaid (request : ReserveStockRequest) :
    Option (InventoryRequest × HttpResponse) → StockLedger → Prop
  | none, _ => True
  | some (.reserve _, reply), ledger =>
    (reply.isSuccessStatusCode → ledger.reservations.get request.orderId = some (reservationOf request)) ∧
      (reply.statusCode = 422 → ledger.reservations.get request.orderId = none)
  | some (.release _, _), _ => False

theorem reserve_rules (request : ReserveStockRequest) :
    Channel.Rules (inventoryServer env request.orderId) InventoryRoom (NothingOrReserved request)
      (fun sent => sent = .reserve request) (ReserveSaid request) where
  own _ sent ledger hroom hI hsent := by
    subst hsent
    simp only [inventoryServer, handle_reserve]
    split
    · obtain ⟨existing, hrec, hreply, h⟩ | ⟨refusal, hrec, hc, hreply, h⟩ | ⟨_, _, hreply, h⟩ :=
        StockLedger.reserve_cases ledger request.orderId (request.lines.getD [])
      · rw [hreply, h]
        have hget := (StockLedger.reservedRecord_eq_some.1 hrec).1
        have hheld : ledger.reservations.get request.orderId = some (reservationOf request) := by
          obtain hnone | hsome := hI
          · rw [hget] at hnone; cases hnone
          · exact hsome
        refine ⟨.inr hheld, fun _ => hheld, fun h422 => ?_⟩
        simp [ReservationEndpoints.reserveReply, Results.ok] at h422
      · rw [hreply, h]
        have hnone : ledger.reservations.get request.orderId = none := by
          obtain hnone | hsome := hI
          · exact hnone
          · have := StockLedger.reservedRecord_eq_none.1 hrec _ hsome
            cases this
        refine ⟨hI, fun hsuccess => ?_, fun _ => hnone⟩
        obtain ⟨ho | ho, _, _⟩ := StockLedger.checkLines_eq_some hc <;>
          simp [ReservationEndpoints.reserveReply, ho, ReservationEndpoints.insufficientStock,
            Results.problem, HttpResponse.isSuccessStatusCode] at hsuccess
      · rw [hreply, h]
        have hheld : (ledger.record request.orderId (request.lines.getD [])).trimOldReservations.reservations.get
            request.orderId = some (reservationOf request) := by
          rw [reservations_record hroom]
          simp [reservationOf]
        refine ⟨.inr hheld, fun _ => hheld, fun h422 => ?_⟩
        simp [ReservationEndpoints.reserveReply, Results.created] at h422
    · refine ⟨hI, fun hsuccess => ?_, fun h422 => ?_⟩
      · simp [Results.validationProblem, HttpResponse.isSuccessStatusCode] at hsuccess
      · simp [Results.validationProblem] at h422
  other _ foreign ledger hroom hI := by
    have hget := get_foreign env foreign.foreign hroom
    refine ⟨?_, fun last hlast => ?_⟩
    · simpa only [NothingOrReserved, inventoryServer, hget] using hI
    · obtain _ | ⟨_ | _, reply⟩ := last
      · trivial
      · simpa only [ReserveSaid, inventoryServer, hget] using hlast
      · exact hlast

/-- Once a release was served last, the order holds nothing. -/
def ReleaseSaid (orderId : Guid) : Option (InventoryRequest × HttpResponse) → StockLedger → Prop
  | some (.release _, _), ledger => ledger.reservedRecord orderId = none
  | _, _ => True

theorem release_rules (request : ReserveStockRequest) :
    Channel.Rules (inventoryServer env request.orderId) InventoryRoom (fun _ => True)
      (fun sent => sent = .reserve request ∨ sent = .release request.orderId)
        (ReleaseSaid request.orderId) where
  own _ sent ledger _ _ hsent := by
    obtain rfl | rfl := hsent
    · exact ⟨trivial, trivial⟩
    · refine ⟨trivial, ?_⟩
      simp only [ReleaseSaid, inventoryServer, handle_release]
      exact StockLedger.reservedRecord_release ledger request.orderId
  other _ foreign ledger hroom _ := by
    have hget := get_foreign env foreign.foreign hroom
    refine ⟨trivial, fun last hlast => ?_⟩
    obtain _ | ⟨_ | _, reply⟩ := last
    · trivial
    · trivial
    · simpa only [ReleaseSaid, inventoryServer, StockLedger.reservedRecord, hget] using hlast

end Inventory

/-! ## PaymentService -/

section Payment
variable (env : FaultPhase → FaultEnv) (hash : String → String)

/-- The decision on the payment, without fault rules. -/
def decisionOn (request : AuthorizePaymentRequest) : PaymentDecision :=
  PaymentRules.decide (request.paymentToken.getD "")

/-- Without fault rules a request is invalid, is answered from its record, or is settled. -/
theorem handle_authorize (newGuid : Guid) (key : String) (request : AuthorizePaymentRequest)
    {service : PaymentService} (hroom : PaymentRoom service) :
    (∃ rejection, PaymentEndpoints.rejectInvalid key request = some rejection ∧
      (PaymentRequest.authorize key request).handle
        (FaultInjector.applyAsync env) .empty hash newGuid service = (rejection, service)) ∨
    (∃ record, service.store.records.get key = some record ∧
      (PaymentRequest.authorize key request).handle
        (FaultInjector.applyAsync env) .empty hash newGuid service =
        (replyOf (PaymentEndpoints.replyToRepeated
          (IdempotencyRules.decide (some record) (PaymentEndpoints.requestFingerprint hash request))
          (some record)), service)) ∨
    (service.store.records.get key = none ∧
      (PaymentRequest.authorize key request).handle
        (FaultInjector.applyAsync env) .empty hash newGuid service =
        (PaymentEndpoints.firstReply (PaymentEndpoints.settle service.ledger newGuid request (decisionOn request)).1,
          PaymentEndpoints.afterComplete hash service newGuid key request (decisionOn request))) := by
  simp only [PaymentRequest.handle]
  obtain ⟨rejection, hr, h⟩ | ⟨record, _, hg, h⟩ | ⟨result, faults', _, _, hfail, happly, h⟩ |
      ⟨fault, faults', _, hg, _, happly, h⟩ :=
    PaymentEndpoints.authorizeAsync_cases hash
      (FaultInjector.applyAsync env) newGuid key request service .empty
      (fun _ => hroom)
  · exact .inl ⟨rejection, hr, by rw [h]; rfl⟩
  · exact .inr (.inl ⟨record, hg, by rw [h]⟩)
  · -- the injector lets every request pass
    rw [FaultInjector.applyAsync_empty] at happly
    cases happly
    simp [Except.map] at hfail
  · rw [FaultInjector.applyAsync_empty] at happly
    cases happly
    refine .inr (.inr ⟨hg, ?_⟩)
    have hdecision : PaymentEndpoints.decidePayment .continue_ request = decisionOn request := by
      simp [PaymentEndpoints.decidePayment, decisionOn]
    rw [h, hdecision]
    simp [FaultInjector.applyAsync_empty, Except.map, replyOf]

theorem handle_void (newGuid orderId : Guid) (service : PaymentService) :
    ((PaymentRequest.void orderId).handle (FaultInjector.applyAsync env) .empty hash newGuid service).2 =
      { service with ledger := (service.ledger.void orderId).2 } := by
  simp [PaymentRequest.handle, PaymentEndpoints.voidAsync]

/-- Settling charges the order of the request, if the payment is approved. -/
theorem entries_afterComplete (service : PaymentService) (newGuid : Guid) (key : String)
    (request : AuthorizePaymentRequest) (decision : PaymentDecision) (orderId : Guid) :
    (PaymentEndpoints.afterComplete hash service newGuid key request decision).ledger.entries orderId =
      service.ledger.entries orderId ++ if orderId = request.orderId ∧ decision.approved then
        [PaymentLedger.newAuthorization newGuid orderId request.amount (request.currency.getD "")] else [] := by
  simp only [PaymentEndpoints.afterComplete, PaymentEndpoints.settle]
  split
  · rename_i h
    simp only [PaymentEndpoints.charge, PaymentLedger.entries_authorize, h, and_true]
    split
    · rename_i heq; rw [heq]
    · rfl
  · rename_i h
    simp [h]

/-- A request of another order leaves this order's idempotency record and authorizations alone. -/
theorem payment_foreign (newGuid : Guid) {id : Guid} {request : PaymentRequest}
    (hforeign : request.Foreign id) {service : PaymentService} (hroom : PaymentRoom service) :
    (request.handle (FaultInjector.applyAsync env) .empty hash newGuid service).2.store.records.get
      (PaymentGateway.idempotencyKeyFor id) =
        service.store.records.get (PaymentGateway.idempotencyKeyFor id) ∧
      (request.handle (FaultInjector.applyAsync env) .empty hash newGuid service).2.ledger.entries
        id = service.ledger.entries id := by
  cases request with
  | authorize key request =>
    obtain ⟨_, _, h⟩ | ⟨_, _, h⟩ | ⟨_, h⟩ := handle_authorize env hash newGuid key request hroom
    · simp [h]
    · simp [h]
    · rw [h]
      obtain ⟨hkey, horder⟩ := hforeign
      refine ⟨by simp [PaymentEndpoints.afterComplete, Ne.symm hkey], ?_⟩
      simp [entries_afterComplete, Ne.symm horder]
  | void orderId =>
    rw [handle_void]
    refine ⟨rfl, ?_⟩
    simp [PaymentLedger.entries_void, Ne.symm hforeign]

variable (id : Guid) (request : AuthorizePaymentRequest)

/-- Exactly one authorization of the order, for the amount of the request, not voided. -/
def Charged (service : PaymentService) : Prop :=
  ∃ authorizationId, service.ledger.entries id =
    [⟨authorizationId, id, request.amount, request.currency.getD "", false⟩]

/-- Only authorize attempts: nothing yet, or one answer that says what the ledger holds. -/
def NothingOrSettled (service : PaymentService) : Prop :=
  (service.store.records.get (PaymentGateway.idempotencyKeyFor id) = none ∧
    service.ledger.entries id = []) ∨
  ∃ stored, service.store.records.get (PaymentGateway.idempotencyKeyFor id) = some
      ⟨PaymentGateway.idempotencyKeyFor id, PaymentEndpoints.requestFingerprint hash request,
        .completed, some stored⟩ ∧
    ((stored.statusCode = 201 ∧ Charged id request service) ∨
      (stored.statusCode = 422 ∧ service.ledger.entries id = []))

/-- A 2xx reply means that the order is charged; before any, and after a 422, nothing is. -/
def AuthorizeSaid : Option (PaymentRequest × HttpResponse) → PaymentService → Prop
  | none, service => service.ledger.entries id = []
  | some (.authorize _ _, reply), service =>
    (reply.isSuccessStatusCode → Charged id request service) ∧
      (reply.statusCode = 422 → service.ledger.entries id = [])
  | some (.void _, _), _ => False

theorem authorize_rules (horder : request.orderId = id) :
    Channel.Rules (paymentServer env hash id) PaymentRoom (NothingOrSettled hash id request)
      (fun sent => sent = .authorize (PaymentGateway.idempotencyKeyFor id) request)
        (AuthorizeSaid id request) where
  own newGuid sent service hroom hI hsent := by
    subst hsent
    simp only [paymentServer]
    obtain ⟨rejection, hr, h⟩ | ⟨record, hg, h⟩ | ⟨hg, h⟩ :=
      handle_authorize env hash newGuid (PaymentGateway.idempotencyKeyFor id) request hroom
    · have hstatus := PaymentEndpoints.rejectInvalid_status hr
      rw [h]
      refine ⟨hI, fun hsuccess => ?_, fun h422 => ?_⟩
      · simp [HttpResponse.isSuccessStatusCode, hstatus] at hsuccess
      · rw [hstatus] at h422; cases h422
    · rw [h]
      obtain ⟨hnone, _⟩ | ⟨stored, hsome, hstored⟩ := hI
      · rw [hg] at hnone; cases hnone
      · rw [hg] at hsome
        cases hsome
        refine ⟨.inr ⟨stored, hg, hstored⟩, ?_⟩
        simp only [AuthorizeSaid, IdempotencyRules.decide, PaymentEndpoints.replyToRepeated,
          replyOf, ne_eq, not_true_eq_false, if_false, if_true, Option.bind_some]
        obtain ⟨h201, hcharged⟩ | ⟨h422, hempty⟩ := hstored
        · exact ⟨fun _ => hcharged, fun h => by rw [h201] at h; cases h⟩
        · exact ⟨fun h => by simp [HttpResponse.isSuccessStatusCode, h422] at h, fun _ => hempty⟩
    · rw [h]
      obtain ⟨_, hempty⟩ | ⟨stored, hsome, _⟩ := hI
      swap
      · rw [hg] at hsome; cases hsome
      have hentries := entries_afterComplete hash service newGuid
        (PaymentGateway.idempotencyKeyFor id) request
        (decisionOn request) id
      rw [hempty] at hentries
      simp only [horder, true_and, List.nil_append] at hentries
      by_cases happroved : (decisionOn request).approved
      · have hstatus : (PaymentEndpoints.settle service.ledger newGuid request
          (decisionOn request)).1.statusCode = 201 := by
          simp [PaymentEndpoints.settle, happroved, PaymentEndpoints.authorizedResponse]
        have hcharged : Charged id request (PaymentEndpoints.afterComplete hash service newGuid
            (PaymentGateway.idempotencyKeyFor id) request (decisionOn request)) :=
          ⟨_, by simpa only [happroved, if_true, PaymentLedger.newAuthorization] using hentries⟩
        refine ⟨.inr ⟨_, by simp [PaymentEndpoints.afterComplete], .inl ⟨hstatus, hcharged⟩⟩,
          fun _ => hcharged, fun h422 => ?_⟩
        simp [PaymentEndpoints.firstReply, hstatus] at h422
      · have hstatus : (PaymentEndpoints.settle service.ledger newGuid request
          (decisionOn request)).1.statusCode = 422 := by
          simp [PaymentEndpoints.settle, happroved, PaymentEndpoints.declinedResponse]
        have hnothing : (PaymentEndpoints.afterComplete hash service newGuid (PaymentGateway.idempotencyKeyFor id)
            request (decisionOn request)).ledger.entries id = [] := by
          simpa only [happroved, Bool.false_eq_true, if_false] using hentries
        refine ⟨.inr ⟨_, by simp [PaymentEndpoints.afterComplete], .inr ⟨hstatus, hnothing⟩⟩,
          fun hsuccess => ?_, fun _ => hnothing⟩
        simp [PaymentEndpoints.firstReply, HttpResponse.isSuccessStatusCode, hstatus] at hsuccess
  other newGuid foreign service hroom hI := by
    obtain ⟨hrecord, hentries⟩ := payment_foreign env hash newGuid foreign.foreign hroom
    refine ⟨?_, fun last hlast => ?_⟩
    · simpa only [NothingOrSettled, Charged, paymentServer, hrecord, hentries] using hI
    · obtain _ | ⟨_ | _, reply⟩ := last
      · simpa only [AuthorizeSaid, paymentServer, hentries] using hlast
      · simpa only [AuthorizeSaid, Charged, paymentServer, hentries] using hlast
      · exact hlast

/-- Once a void was served last, no authorization of the order is open. -/
def VoidSaid : Option (PaymentRequest × HttpResponse) → PaymentService → Prop
  | some (.void _, _), service => service.ledger.openEntries id = []
  | _, _ => True

theorem void_rules :
    Channel.Rules (paymentServer env hash id) PaymentRoom (fun _ => True)
      (fun sent => sent = .authorize (PaymentGateway.idempotencyKeyFor id) request ∨
        sent = .void id) (VoidSaid id) where
  own newGuid sent service _ _ hsent := by
    obtain rfl | rfl := hsent
    · exact ⟨trivial, trivial⟩
    · refine ⟨trivial, ?_⟩
      simp only [VoidSaid, paymentServer, handle_void]
      exact PaymentLedger.openEntries_void service.ledger id
  other newGuid foreign service hroom _ := by
    obtain ⟨_, hentries⟩ := payment_foreign env hash newGuid foreign.foreign hroom
    refine ⟨trivial, fun last hlast => ?_⟩
    obtain _ | ⟨_ | _, reply⟩ := last
    · trivial
    · trivial
    · simpa only [VoidSaid, paymentServer, PaymentLedger.openEntries, hentries] using hlast

end Payment

/-! ## The calls of one run -/

section Run
open OrderTransactionCoordinator

/-- A success came with a 2xx reply, a business rejection with a 422. -/
theorem reply_of_interpret {behaviour : CallBehaviour} {result : StageResult}
    (h : DownstreamCall.translate DownstreamCall.interpretAsync (some behaviour) = .ok result) :
    (result = .success → ∃ reply, behaviour = .response reply ∧ reply.isSuccessStatusCode) ∧
      (∀ reason, result = .failure .businessRejection reason →
        ∃ reply, behaviour = .response reply ∧ reply.statusCode = 422) := by
  have hanswer := answer_interpret (some behaviour)
  rw [h] at hanswer
  cases hanswer with
  | passes hp hr hu =>
    obtain ⟨reply, heq, hp⟩ := hp
    cases heq
    exact ⟨fun _ => ⟨reply, rfl, hp⟩, by simp⟩
  | rejects hr hp hu =>
    obtain ⟨reply, heq, hr⟩ := hr
    cases heq
    exact ⟨by simp, fun _ _ => ⟨reply, rfl, hr⟩⟩
  | fails hkind hp hr hu => exact ⟨by simp, fun reason heq => absurd (by cases heq; rfl) hkind⟩

theorem reply_of_interpretRelease {behaviour : CallBehaviour}
    (h : DownstreamCall.translate interpretRelease (some behaviour) = .ok .success) :
    ∃ reply, behaviour = .response reply := by
  cases behaviour with
  | response reply => exact ⟨reply, rfl⟩
  | _ => cases h

variable {id : Guid} (around : Surroundings id)

/-- This holds of the reservations from now on, whatever other orders do. -/
def InventoryEnsures (post : StockLedger → Prop) (w : World id) : Prop :=
  w.inventory.channel.Ensures (inventoryServer around.env id) InventoryRoom post

def PaymentEnsures (post : PaymentService → Prop) (w : World id) : Prop :=
  w.payment.channel.Ensures (paymentServer around.env around.hash id) PaymentRoom post

/-- Only the stage request of the order was sent so far. -/
def InventorySound (order : Order) (w : World id) : Prop :=
  w.inventory.Sound InventoryRoom (NothingOrReserved (reserveRequest order))
    (fun sent => sent = .reserve (reserveRequest order)) (ReserveSaid (reserveRequest order))

def PaymentSound (request : AuthorizePaymentRequest) (w : World id) : Prop :=
  w.payment.Sound PaymentRoom (NothingOrSettled around.hash id request)
    (fun sent => sent = .authorize (PaymentGateway.idempotencyKeyFor id) request)
      (AuthorizeSaid id request)

variable {order : Order} (hid : order.id = id)
include hid

theorem start_inventory : InventorySound order around.start := by
  subst hid
  refine fun hroom => Channel.inv_events (reserve_rules around.env (reserveRequest order)) ?_ _ hroom
  exact ⟨.inl (by simp [reserveRequest]), by simp, trivial⟩

omit hid in
theorem start_payment {request : AuthorizePaymentRequest} (horder : request.orderId = id) :
    PaymentSound around request around.start := by
  refine fun hroom =>
    Channel.inv_events (authorize_rules around.env around.hash id request horder) ?_ _ hroom
  exact ⟨.inl ⟨rfl, rfl⟩, by simp, rfl⟩

/-- The reservation stage: what its result says lasts. -/
theorem reserveAsync_spec {w w' : World id} {result : StageResult} (hsound : InventorySound order w)
    (h : around.dependencies.reserveAsync order w = (.ok result, w')) :
    InventorySound order w' ∧ w'.payment = w.payment ∧ w'.shipping = w.shipping ∧
    (result = .success → InventoryEnsures around
      (fun ledger => ledger.reservations.get id = some (reservationOf (reserveRequest order))) w') ∧
    (∀ reason, result = .failure .businessRejection reason →
      InventoryEnsures around (fun ledger => ledger.reservedRecord id = none) w') := by
  subst hid
  have hrules := reserve_rules around.env (reserveRequest order)
  simp only [Dependencies.reserveAsync, Surroundings.dependencies] at h
  obtain ⟨hresult, rfl⟩ := Prod.mk.inj h
  obtain ⟨hsuccess, hrejected⟩ := reply_of_interpret hresult
  refine ⟨(Link.call_spec hrules rfl hsound _).1, rfl, rfl, fun heq => ?_, fun reason heq => ?_⟩
  · obtain ⟨reply, hreply, hstatus⟩ := hsuccess heq
    exact Link.call_ensures hrules rfl hsound hreply fun ledger hQ => hQ.1 hstatus
  · obtain ⟨reply, hreply, hstatus⟩ := hrejected reason heq
    refine Link.call_ensures hrules rfl hsound hreply fun ledger hQ => ?_
    have hnone : ledger.reservations.get order.id = none := hQ.2 hstatus
    simp [StockLedger.reservedRecord, hnone]

/-- A successful release lasts. -/
theorem releaseAsync_spec {w w' : World id} (hsound : InventorySound order w)
    (h : around.dependencies.releaseAsync id w = (.ok .success, w')) :
    w'.payment = w.payment ∧ w'.shipping = w.shipping ∧
      InventoryEnsures around (fun ledger => ledger.reservedRecord id = none) w' := by
  subst hid
  simp only [Dependencies.releaseAsync, Surroundings.dependencies] at h
  obtain ⟨hresult, rfl⟩ := Prod.mk.inj h
  obtain ⟨reply, hreply⟩ := reply_of_interpretRelease hresult
  refine ⟨rfl, rfl, Link.call_ensures (release_rules around.env (reserveRequest order)) (.inr rfl) ?_ hreply
    fun ledger hQ => hQ⟩
  intro hroom
  refine Channel.inv_mono (hsound hroom) (fun _ _ => trivial) (fun _ hA =>
    .inl hA) fun last ledger hQ => ?_
  obtain _ | ⟨_ | _, reply⟩ := last
  · trivial
  · trivial
  · cases hQ

/-- The payment stage. -/
theorem authorizeAsync_spec {w w' : World id} {amount : Decimal}
    (htotal : order.totalAmount = some amount) {result : StageResult}
    (hsound : PaymentSound around (authorizeRequest order amount) w)
    (h : around.dependencies.authorizeAsync order w = (.ok result, w')) :
    PaymentSound around (authorizeRequest order amount) w' ∧ w'.inventory = w.inventory ∧
      w'.shipping = w.shipping ∧
    (result = .success → PaymentEnsures around (Charged id (authorizeRequest order amount)) w') ∧
    (∀ reason, result = .failure .businessRejection reason →
      PaymentEnsures around (fun service => service.ledger.openEntries id = []) w') := by
  subst hid
  have hrules := authorize_rules around.env around.hash order.id (authorizeRequest order amount) rfl
  simp only [Dependencies.authorizeAsync, Surroundings.dependencies, htotal] at h
  obtain ⟨hresult, rfl⟩ := Prod.mk.inj h
  obtain ⟨hsuccess, hrejected⟩ := reply_of_interpret hresult
  refine ⟨(Link.call_spec hrules rfl hsound _).1, rfl, rfl, fun heq => ?_, fun reason heq => ?_⟩
  · obtain ⟨reply, hreply, hstatus⟩ := hsuccess heq
    exact Link.call_ensures hrules rfl hsound hreply fun service hQ => hQ.1 hstatus
  · obtain ⟨reply, hreply, hstatus⟩ := hrejected reason heq
    refine Link.call_ensures hrules rfl hsound hreply fun service hQ => ?_
    have hnothing : service.ledger.entries order.id = [] := hQ.2 hstatus
    simp [PaymentLedger.openEntries, hnothing]

omit hid in
/-- A successful void lasts. -/
theorem voidAsync_spec {w w' : World id} {request : AuthorizePaymentRequest}
    (hsound : PaymentSound around request w)
    (h : around.dependencies.voidAsync id w = (.ok .success, w')) :
    w'.inventory = w.inventory ∧ w'.shipping = w.shipping ∧
      PaymentEnsures around (fun service => service.ledger.openEntries id = []) w' := by
  simp only [Dependencies.voidAsync, Surroundings.dependencies] at h
  obtain ⟨hresult, rfl⟩ := Prod.mk.inj h
  obtain ⟨reply, hreply, _⟩ := (reply_of_interpret hresult).1 rfl
  refine ⟨rfl, rfl, Link.call_ensures (void_rules around.env around.hash id request) (.inr rfl) ?_ hreply
    fun service hQ => hQ⟩
  intro hroom
  refine Channel.inv_mono (hsound hroom) (fun _ _ => trivial) (fun _ hA =>
    .inl hA) fun last service hQ => ?_
  obtain _ | ⟨_ | _, reply⟩ := last
  · trivial
  · trivial
  · cases hQ

omit hid in
/-- Before the payment stage nothing is charged. -/
theorem nothing_charged (request : AuthorizePaymentRequest) (horder : request.orderId = id) :
    PaymentEnsures around (fun service => service.ledger.openEntries id = []) around.start := by
  have hidle : around.start.payment.channel.pending = [] ∧ around.start.payment.channel.last = none :=
    Channel.events_idle (paymentServer around.env around.hash id) rfl around.payment.before
  refine Channel.ensures_of_inv (authorize_rules around.env around.hash id request horder)
    (start_payment around horder) hidle.1 fun service hQ => ?_
  rw [hidle.2] at hQ
  have hnothing : service.ledger.entries id = [] := hQ
  simp [PaymentLedger.openEntries, hnothing]

omit hid in
theorem evaluateAsync_world {w w' : World id} {result : Except Exn StageResult}
    (h : around.dependencies.evaluateAsync order w = (result, w')) : w' = w := by
  unfold Dependencies.evaluateAsync at h
  split at h
  · exact (Prod.mk.inj h).2.symm
  · exact (Prod.mk.inj h).2.symm

omit hid in
theorem createAsync_world {w w' : World id} {result : Except Exn StageResult}
    (h : around.dependencies.createAsync order w = (result, w')) :
    w'.inventory = w.inventory ∧ w'.payment = w.payment := by
  unfold Dependencies.createAsync at h
  split at h
  · obtain ⟨_, rfl⟩ := Prod.mk.inj h
    exact ⟨rfl, rfl⟩
  · obtain ⟨_, rfl⟩ := Prod.mk.inj h
    exact ⟨rfl, rfl⟩

/-- After the stages: what was done stays done, and what the plan leaves out is not there. -/
theorem stageOutcome_spec {w : World id} {amount : Decimal} (htotal : order.totalAmount = some amount)
    {failure : Option OrderFailure}
    (h : stageOutcome around.dependencies order around.start = (.ok failure, w)) :
    InventorySound order w ∧ PaymentSound around (authorizeRequest order amount) w ∧
    (failure = none →
      InventoryEnsures around
        (fun ledger => ledger.reservations.get id = some (reservationOf (reserveRequest order))) w ∧
      PaymentEnsures around (Charged id (authorizeRequest order amount)) w) ∧
    (∀ found, failure = some found →
      (.releaseInventory ∉ CompensationPlan.planFor found →
        InventoryEnsures around (fun ledger => ledger.reservedRecord id = none) w) ∧
      (.voidPayment ∉ CompensationPlan.planFor found →
        PaymentEnsures around (fun service => service.ledger.openEntries id = []) w)) := by
  have hpay0 : PaymentSound around (authorizeRequest order amount) around.start :=
    start_payment around hid
  have hnone0 := nothing_charged around (authorizeRequest order amount) hid
  obtain ⟨reservation, evaluation, w₁, w₂, hreserve, hevaluate, hrest⟩ :=
    stageOutcome_ok around.dependencies h
  obtain rfl := evaluateAsync_world around hevaluate
  obtain ⟨hinv, hpay1, _, hreserved, hrejected⟩ :=
    reserveAsync_spec around hid (start_inventory around hid) hreserve
  simp only [PaymentEnsures, ← hpay1] at hnone0
  have hpaySound : PaymentSound around (authorizeRequest order amount) w₂ := by
    simp only [PaymentSound, hpay1]
    exact hpay0
  obtain ⟨found, hresolve, rfl, rfl⟩ | ⟨rfl, _, authorization, w₃, hauthorize, hrest⟩ := hrest
  · refine ⟨hinv, hpaySound, by simp, fun _ heq => ?_⟩
    cases heq
    refine ⟨fun hplan => ?_, fun _ => hnone0⟩
    rw [releaseInventory_mem_planFor, not_not] at hplan
    cases reservation with
    | failure kind reason =>
      cases hresolve
      obtain rfl : kind = .businessRejection := hplan.2
      exact hrejected reason rfl
    | success =>
      -- a fraud failure is no failure of the inventory stage
      cases evaluation <;> cases hresolve
      cases hplan.1
  · obtain ⟨hpaySound', hinv1, _, hcharged, hdeclined⟩ :=
      authorizeAsync_spec around hid htotal hpaySound hauthorize
    have hinvSound' : InventorySound order w₃ := by
      simp only [InventorySound, hinv1]
      exact hinv
    have hreserved' := hreserved rfl
    simp only [InventoryEnsures, ← hinv1] at hreserved'
    obtain ⟨kind, reason, rfl, rfl, rfl⟩ | ⟨rfl, shipment, hcreate, hend⟩ := hrest
    · refine ⟨hinvSound', hpaySound', by simp, fun _ heq => ?_⟩
      cases heq
      refine ⟨fun hplan => ?_, fun hplan => ?_⟩
      · rw [releaseInventory_mem_planFor, not_not] at hplan
        cases hplan.1
      · rw [voidPayment_mem_planFor] at hplan
        obtain rfl : kind = .businessRejection := by simpa using hplan
        exact hdeclined reason rfl
    · obtain ⟨hinv2, hpay2⟩ := createAsync_world around hcreate
      simp only [InventorySound, PaymentSound, InventoryEnsures, PaymentEnsures, hinv2, hpay2]
      refine ⟨hinvSound', hpaySound', fun _ => ⟨hreserved', hcharged rfl⟩, fun _ heq => ?_⟩
      obtain ⟨kind, reason, _, rfl⟩ | ⟨_, rfl⟩ := hend <;> cases heq
      refine ⟨fun hplan => ?_, fun hplan => ?_⟩
      · rw [releaseInventory_mem_planFor, not_not] at hplan
        cases hplan.1
      · simp [voidPayment_mem_planFor] at hplan

/-- After a plan whose steps all succeeded, what it undoes is gone for good, and the rest is as it
was. -/
theorem undoOutcome_spec {w w' : World id} {request : AuthorizePaymentRequest}
    (hinventory : InventorySound order w) (hpayment : PaymentSound around request w)
    {failure : OrderFailure} {steps : List CompensationStepResult}
    (h : undoOutcome around.dependencies order.id (CompensationPlan.planFor failure) w =
    (.ok steps, w')) (hall : ∀ step ∈ steps, step.status = .succeeded) :
    (if .releaseInventory ∈ CompensationPlan.planFor failure then
      InventoryEnsures around (fun ledger => ledger.reservedRecord id = none) w' else w'.inventory =
        w.inventory) ∧
    (if .voidPayment ∈ CompensationPlan.planFor failure then
      PaymentEnsures around (fun service => service.ledger.openEntries id = []) w' else w'.payment =
        w.payment) := by
  subst hid
  obtain hplan | hplan | hplan := planFor_cases failure <;> rw [hplan] at h ⊢
  · cases h
    simp
  · obtain ⟨w₁, later, hrelease, hrest, _⟩ := undoOutcome_succeeded around.dependencies h hall
    cases hrest
    obtain ⟨hpay, _, hgone⟩ := releaseAsync_spec around rfl hinventory hrelease
    simpa [hpay] using hgone
  · obtain ⟨w₁, later, hvoid, hrest, hall⟩ := undoOutcome_succeeded around.dependencies h hall
    obtain ⟨w₂, later, hrelease, hrest, _⟩ := undoOutcome_succeeded around.dependencies hrest hall
    cases hrest
    obtain ⟨hinv, _, hvoided⟩ := voidAsync_spec around hpayment hvoid
    have hsound : InventorySound order w₁ := by
      simp only [InventorySound, hinv]
      exact hinventory
    obtain ⟨hpay, _, hgone⟩ := releaseAsync_spec around rfl hsound hrelease
    refine ⟨by simpa using hgone, ?_⟩
    simp only [List.mem_cons, true_or, if_true, PaymentEnsures, hpay]
    exact hvoided

end Run

open OrderTransactionCoordinator in
/-- **The reported outcome agrees with the ledgers**: for every order and whatever is lost, delayed or
done for other orders, as long as no request finds a store at its capacity. -/
theorem outcome_agrees_with_ledgers (id : Guid) (lines : List OrderLine)
    (currency paymentToken shippingZone : String) (createdAt : DateTimeOffset) (around : Surroundings id)
    (clock : Nat → DateTimeOffset) (traced : Bool) (others : List OrderSnapshot)
    (repository : OrderRepository) (snapshot : OrderSnapshot) :
    let order := Order.create id lines currency paymentToken shippingZone createdAt
    let run := executeAsync around.dependencies clock traced others order repository around.start
    let inventory := around.inventoryEnd run.2.2
    let payment := around.paymentEnd run.2.2
    run.1 = .ok snapshot → inventory.Roomy InventoryRoom → payment.Roomy PaymentRoom →
    (snapshot.state = .completed →
      (∃ authorizationId totalAmount, order.totalAmount = some totalAmount ∧
        payment.state.ledger.entries id = [⟨authorizationId, id, totalAmount, currency, false⟩]) ∧
      inventory.state.reservations.get id =
        some ⟨id, lines.map fun line => ⟨line.sku, line.quantity⟩, .reserved⟩) ∧
    (snapshot.state ≠ .completed → (∀ step ∈ snapshot.compensation, step.status = .succeeded) →
      payment.state.ledger.openEntries id = [] ∧ inventory.state.reservedRecord id = none) := by
  intro order run inventory payment hrun hinvroom hpayroom
  have hid : order.id = id := rfl
  obtain ⟨failure, steps, totalAmount, itemCount, w, htotal, hcount, hout, hw, hstate, hsteps, _⟩ :=
    executeAsync_ok around.dependencies clock
      (isNew_create id lines currency paymentToken shippingZone createdAt) hrun
  have hinv (post : StockLedger → Prop) (h : InventoryEnsures around post w) : post inventory.state := by
    rw [← hw] at h
    exact h around.inventory.afterwards hinvroom
  have hpay (post : PaymentService → Prop) (h : PaymentEnsures around post w) : post payment.state := by
    rw [← hw] at h
    exact h around.payment.afterwards hpayroom
  obtain ⟨rfl, hstage⟩ | ⟨found, w₁, rfl, hstage, hundo⟩ := outcome_ok around.dependencies hout
  · obtain ⟨_, _, hdone, _⟩ := stageOutcome_spec around hid htotal hstage
    obtain ⟨hreserved, hcharged⟩ := hdone rfl
    refine ⟨fun _ => ⟨?_, hinv _ hreserved⟩, fun hne => absurd hstate hne⟩
    obtain ⟨authorizationId, hentries⟩ := hpay _ hcharged
    exact ⟨authorizationId, totalAmount, htotal, hentries⟩
  · obtain ⟨hinvSound, hpaySound, _, hleft⟩ := stageOutcome_spec around hid htotal hstage
    obtain ⟨hinvLeft, hpayLeft⟩ := hleft found rfl
    refine ⟨fun hcompleted => ?_, fun _ hall => ?_⟩
    · exact absurd (hstate.symm.trans hcompleted)
        (OrderStateMachine.failureStateFor_ne_completed found.stage)
    · obtain ⟨hreleased, hvoided⟩ :=
        undoOutcome_spec around hid hinvSound hpaySound hundo (by rwa [hsteps] at hall)
      constructor
      · refine hpay (fun service => service.ledger.openEntries id = []) ?_
        split at hvoided
        · exact hvoided
        · rename_i hplan
          simp only [PaymentEnsures, hvoided]
          exact hpayLeft hplan
      · refine hinv (fun ledger => ledger.reservedRecord id = none) ?_
        split at hreleased
        · exact hreleased
        · rename_i hplan
          simp only [InventoryEnsures, hreleased]
          exact hinvLeft hplan

/-- Surroundings in which every attempt is served and answered at once. -/
def undisturbed (id : Guid) : Surroundings id where
  env _ := { now := 0 }
  hash text := text
  available := (∅ : Dict String I32).set "SKU-1001" 5
  evaluation := some (.response (Results.ok (.obj [("decision", .str "approved")])))
  inventory := ⟨[], fun _ => ⟨.answered, [.serve ()]⟩, []⟩
  payment := ⟨[], fun _ => ⟨.answered, [.serve 7]⟩, []⟩
  shipping := ⟨[], fun _ => ⟨.answered, [.serve 9]⟩, []⟩

/-- The first replies of InventoryService and PaymentService are lost, the payment attempt is served only beside
its repetition, and no attempt reaches ShippingService. -/
def disturbed (id : Guid) : Surroundings id where
  env _ := { now := 0 }
  hash text := text
  available := (∅ : Dict String I32).set "SKU-1001" 5
  evaluation := some (.response (Results.ok (.obj [("decision", .str "approved")])))
  inventory := ⟨[], fun n => ⟨if n = 0 then .unanswered else .answered, [.serve ()]⟩, []⟩
  payment := ⟨[], fun n => if n = 0 then ⟨.unanswered, []⟩ else ⟨.answered, [.serve 7, .serve 8]⟩, []⟩
  shipping := ⟨[], fun _ => ⟨.lost .timeout, []⟩, []⟩

open OrderTransactionCoordinator in
/-- One order is completed, the other fails and is undone. -/
theorem outcome_agrees_twoOrders :
    let order := Order.create 1 [⟨"SKU-1001", 2, ⟨500, 2, by decide, by decide⟩⟩] "EUR" "tok_test_approved" "domestic" 0
    let run (around : Surroundings 1) := executeAsync around.dependencies (fun _ => 0) false [] order .empty around.start
    ((∃ authorizationId totalAmount, order.totalAmount = some totalAmount ∧
        ((undisturbed 1).paymentEnd (run (undisturbed 1)).2.2).state.ledger.entries 1 =
          [⟨authorizationId, 1, totalAmount, "EUR", false⟩]) ∧
      ((undisturbed 1).inventoryEnd (run (undisturbed 1)).2.2).state.reservations.get 1 =
        some ⟨1, [⟨"SKU-1001", 2⟩], .reserved⟩) ∧
    (∃ snapshot, (run (disturbed 1)).1 = .ok snapshot ∧ snapshot.state = .shippingFailed) ∧
    ((disturbed 1).paymentEnd (run (disturbed 1)).2.2).state.ledger.openEntries 1 = [] ∧
    ((disturbed 1).inventoryEnd (run (disturbed 1)).2.2).state.reservedRecord 1 = none :=
  ⟨(outcome_agrees_with_ledgers 1 [⟨"SKU-1001", 2, ⟨500, 2, by decide, by decide⟩⟩] "EUR" "tok_test_approved"
      "domestic" 0 (undisturbed 1) (fun _ => 0) false [] .empty _ rfl (by decide) (by decide)).1 rfl,
    ⟨_, rfl, rfl⟩,
    (outcome_agrees_with_ledgers 1 [⟨"SKU-1001", 2, ⟨500, 2, by decide, by decide⟩⟩] "EUR" "tok_test_approved"
      "domestic" 0 (disturbed 1) (fun _ => 0) false [] .empty _ rfl (by decide) (by decide)).2 (by decide) (by decide)⟩

end Agreement

end TxPlatform
