import TxPlatform.Inventory.Conservation
import TxPlatform.Payment.Concurrency
import TxPlatform.Saga.World

/-! # Is an undo final against late requests? (PaymentLedger.Authorize / Void, StockLedger.Reserve /
Release)

The coordinator gives up on attempts that may still be on their way and then sends the undo, so a
service can see the undo first, or while it is in the middle of an attempt: `AuthorizeAsync` waits
between `TryBegin` and `ledger.Authorize`. Neither service remembers an undo that found nothing to
undo, and the ledger takes a released reservation for none at all: `undo_is_final_iff` says exactly
when a late attempt takes effect again.
-/

namespace TxPlatform

/-! ## What one late attempt does -/

namespace PaymentEndpoints
variable {hash : String → String} {service : PaymentService} {call : AuthorizeCall} {choice : StepChoice} {phase : Phase}

/-- Only `ledger.Authorize` touches the ledger. -/
theorem advance_ledger (h : phase ≠ .authorizing) :
    (advance hash service call choice phase).1.ledger = service.ledger := by
  cases phase with
  | authorizing => exact absurd rfl h
  | start =>
    simp only [advance]
    split
    · rfl
    · split <;> rfl
  | beforeEffect =>
    simp only [advance]
    split
    · rfl
    · split_ifs <;> rfl
  | completing response =>
    simp only [advance]
    split <;> rfl
  | afterEffect response =>
    simp only [advance]
    split <;> rfl
  | lookup | enqueue | abandoning | finished => rfl

/-- An attempt comes to stand before `ledger.Authorize` when the fault rules let it through and its token
is approved. -/
theorem advance_authorizing_iff : (advance hash service call choice phase).2.1 = .authorizing ↔
    phase = .beforeEffect ∧ (∃ fault, choice.fault = .ok fault ∧ fault.outcome = .continue_) ∧
      (PaymentRules.decide (call.request.paymentToken.getD "")).approved := by
  cases phase with
  | beforeEffect =>
    simp only [advance, decidePayment]
    cases choice.fault with
    | error e => simp
    | ok fault =>
      cases hf : fault.outcome <;> simp [hf]
      split_ifs with happroved <;> simp [happroved]
  | start =>
    simp only [advance]
    split
    · simp
    · split <;> simp
  | completing response =>
    simp only [advance]
    split <;> simp
  | afterEffect response =>
    simp only [advance]
    split <;> simp
  | lookup | enqueue | authorizing | abandoning | finished => simp [advance]

/-- It goes on from `TryBegin` when it is valid and its key has no record. -/
theorem advance_enqueue_iff : (advance hash service call choice phase).2.1 = .enqueue ↔
    phase = .start ∧ rejectInvalid call.key call.request = none ∧ service.store.records.get call.key = none := by
  cases phase with
  | start =>
    simp only [advance, IdempotencyStore.tryAdd]
    cases rejectInvalid call.key call.request with
    | some rejection => simp
    | none => cases service.store.records.get call.key <;> simp
  | beforeEffect =>
    simp only [advance]
    split
    · simp
    · split_ifs <;> simp
  | completing response =>
    simp only [advance]
    split <;> simp
  | afterEffect response =>
    simp only [advance]
    split <;> simp
  | lookup | enqueue | authorizing | abandoning | finished => simp [advance]

theorem openEntries_charge (ledger : PaymentLedger) (newGuid : Guid) (request : AuthorizePaymentRequest)
    (orderId : Guid) :
    (charge ledger newGuid request).2.openEntries orderId = [] ↔
      request.orderId ≠ orderId ∧ ledger.openEntries orderId = [] := by
  by_cases h : request.orderId = orderId
  · simp [PaymentLedger.openEntries, charge, PaymentLedger.entries_authorize, PaymentLedger.newAuthorization, h]
  · simp [PaymentLedger.openEntries, charge, PaymentLedger.entries_authorize, h, Ne.symm h]

end PaymentEndpoints

namespace StockLedger

/-- How many other orders have a record and are not queued before the order. -/
def queuedAfter (ledger : StockLedger) (orderId : Guid) : Nat :=
  TxPlatform.queuedAfter ledger.reservationOrder ledger.reservations orderId

/-- A new record is not trimmed exactly if there is room for it behind the older ones. -/
theorem record_trim_iff (ledger : StockLedger) (orderId : Guid) (lines : List ReservationLine) :
    (ledger.record orderId lines).trimOldReservations.reservedRecord orderId = none ↔
      ¬ ledger.queuedAfter orderId < reservationCapacity := by
  have hkept : (evict reservationCapacity (ledger.reservationOrder ++ [orderId])
        (ledger.reservations.set orderId ⟨orderId, lines, .reserved⟩)).2.get orderId = some ⟨orderId, lines, .reserved⟩ ↔
      ledger.queuedAfter orderId < reservationCapacity := evict_inserted_iff
  rw [← hkept, ← not_iff_not, not_not, ← ne_eq, Option.ne_none_iff_exists']
  constructor
  · rintro ⟨found, hfound⟩
    obtain ⟨hget, -⟩ := reservedRecord_eq_some.1 hfound
    have hwritten : some (⟨orderId, lines, .reserved⟩ : Reservation) = some found := by
      have := get_trim hget
      rwa [record, Dict.get_set, if_pos rfl] at this
    rw [hwritten]
    exact hget
  · exact fun hget => ⟨_, reservedRecord_eq_some.2 ⟨hget, rfl⟩⟩

end StockLedger

namespace ReservationEndpoints
variable {φ : Type} (apply : ApplyAsync φ)

/-- This request takes stock for an order that is not reserved: it is valid, the fault rules let it
through, every line is in stock, and the new record is not trimmed at once. -/
def Takes (request : ReserveStockRequest) (ledger : StockLedger) (faults : φ) : Prop :=
  request.isValid ∧
    (∃ fault, (apply reserveOperation .beforeEffect request.orderId.formatD faults).1 = .ok fault ∧
      fault.outcome = .continue_) ∧
    StockLedger.checkLines ledger.available (request.lines.getD []) = none ∧
    ledger.queuedAfter request.orderId < StockLedger.reservationCapacity

theorem reserveAsync_ledger_eq (request : ReserveStockRequest) (ledger : StockLedger) (faults : φ) :
    (reserveAsync apply request ledger faults).2.1 =
      if request.isValid then
        match (apply reserveOperation .beforeEffect request.orderId.formatD faults).1 with
        | .error _ => ledger
        | .ok fault =>
          if fault.outcome = .continue_ then
            (ledger.reserve request.orderId (request.lines.getD [])).2
          else ledger
      else ledger := by
  unfold reserveAsync
  split
  · cases apply reserveOperation .beforeEffect request.orderId.formatD faults with
    | mk result faults' =>
    cases result with
    | error e => rfl
    | ok fault =>
      cases hf : fault.outcome with
      | fail => simp [hf]
      | reject => simp [hf]
      | continue_ =>
        simp only [hf, if_true]
        cases apply reserveOperation .afterEffect request.orderId.formatD faults' with
        | mk after faults'' => cases after <;> rfl
  · rfl

/-- What a late reserve request leaves of an order that is not reserved. -/
theorem reserveAsync_late (request : ReserveStockRequest) (ledger : StockLedger) (faults : φ)
    (hnone : ledger.reservedRecord request.orderId = none) :
    (reserveAsync apply request ledger faults).2.1.reservedRecord request.orderId = none ↔
      ¬ Takes apply request ledger faults := by
  rw [reserveAsync_ledger_eq, Takes]
  by_cases hvalid : request.isValid
  swap
  · simp [hvalid, hnone]
  cases (apply reserveOperation .beforeEffect request.orderId.formatD faults).1 with
  | error e => simp [hnone]
  | ok fault =>
    by_cases hf : fault.outcome = .continue_
    · obtain ⟨_, hsome, _⟩ | ⟨_, _, hc, _, h⟩ | ⟨_, hc, _, h⟩ :=
        StockLedger.reserve_cases ledger request.orderId (request.lines.getD [])
      · rw [hnone] at hsome; cases hsome
      · simp [h, hc, hnone]
      · simp only [h, hc, hf, hvalid, if_true, StockLedger.record_trim_iff, not_lt]
        simp [hf]
    · simp [hf, hnone]

end ReservationEndpoints

/-! ## Deliveries in any order -/

namespace LateRequests

/-- The two services, and whether the void and the release of the order were served and answered. -/
structure Sides where
  payment : PaymentEndpoints.System
  ledger : StockLedger
  voided : Bool := false
  released : Bool := false

/-- What happens at one of the services: an authorize attempt of any order arrives or goes one step on,
or a request is served whose handler touches the shared state in one step. `apply` is what the fault
rules decide at that time; an undo that they fail changes nothing, so it is no delivery. -/
inductive Delivery where
  | payment (label : PaymentEndpoints.Label)
  | void (orderId : Guid)
  | reserve (apply : ApplyAsync Unit) (request : ReserveStockRequest)
  | release (orderId : Guid)

/-- The fault decision that lets a request through. -/
def letPass : ApplyAsync Unit := fun _ _ _ faults => (.ok .continue_, faults)

section Machine
variable (hash : String → String) (orderId : Guid)

/-- The void of the order counts when it is answered with success, its release also with a 404. -/
def deliveries : Machine Sides Delivery where
  step sides
    | .payment label =>
      ((PaymentEndpoints.machine hash).step sides.payment label).map fun payment => { sides with payment := payment }
    | .void other =>
      let served := (PaymentRequest.void other).handle letPass () hash 0 sides.payment.service
      some { sides with
        payment := { sides.payment with service := served.2 }
        voided := sides.voided || (other = orderId && served.1.isSuccessStatusCode) }
    | .reserve apply request =>
      some { sides with ledger := ((InventoryRequest.reserve request).handle apply () sides.ledger).2 }
    | .release other =>
      let served := (InventoryRequest.release other).handle letPass () sides.ledger
      some { sides with
        ledger := served.2
        released := sides.released ||
          (other = orderId && (served.1.isSuccessStatusCode || served.1.statusCode = 404)) }

/-- An undo stays done: once the void was answered there is no open authorization of the order, once the
release was answered no reservation. -/
def UndoFinal (before : Sides) (_ : Delivery) (after : Sides) : Prop :=
  (before.voided → after.payment.service.ledger.openEntries orderId = []) ∧
    (before.released → after.ledger.reservedRecord orderId = none)

/-- After the void no attempt of the order that stands before `ledger.Authorize` goes on, and after the
release none is served that takes stock. -/
def NotTakenAgain (before : Sides) (delivery : Delivery) (_ : Sides) : Prop :=
  match delivery with
  | .payment (.step i _) => before.voided → ∀ thread, before.payment.threads.get i = some thread →
      thread.call.request.orderId = orderId → thread.phase ≠ .authorizing
  | .reserve apply request => before.released → request.orderId = orderId →
      ¬ ReservationEndpoints.Takes apply request before.ledger ()
  | _ => True

/-- What the good deliveries keep. -/
structure Undone (sides : Sides) : Prop where
  voided : sides.voided → sides.payment.service.ledger.openEntries orderId = []
  released : sides.released → sides.ledger.reservedRecord orderId = none

end Machine

/-! ## One delivery -/

section Steps
variable {hash : String → String} {orderId : Guid} {sides sides' : Sides}

/-- A step at PaymentService charges the order, or the order has the same open authorizations as before. -/
theorem payment_step {label : PaymentEndpoints.Label} {payment : PaymentEndpoints.System}
    (hnone : sides.payment.service.ledger.openEntries orderId = [])
    (hs : (PaymentEndpoints.machine hash).step sides.payment label = some payment) :
    payment.service.ledger.openEntries orderId = [] ↔
      ∀ i choice, label = .step i choice → ∀ thread, sides.payment.threads.get i = some thread →
        thread.call.request.orderId = orderId → thread.phase ≠ .authorizing := by
  cases label with
  | arrive i call =>
    simp only [PaymentEndpoints.machine] at hs
    split at hs
    · cases hs
    · cases hs
      simp [hnone]
  | step i choice =>
    simp only [PaymentEndpoints.machine] at hs
    split at hs
    · cases hs
    · rename_i thread hthread
      obtain ⟨call, phase⟩ := thread
      cases hs
      by_cases hphase : phase = .authorizing
      · subst hphase
        simp [PaymentEndpoints.advance, PaymentEndpoints.openEntries_charge, hnone, hthread]
      · simp [PaymentEndpoints.advance_ledger hphase, hnone, hthread, hphase]

theorem reservedRecord_reserve (apply : ApplyAsync Unit) (request : ReserveStockRequest) {ledger : StockLedger}
    (hnone : ledger.reservedRecord orderId = none) :
    ((InventoryRequest.reserve request).handle apply () ledger).2.reservedRecord orderId = none ↔
      (request.orderId = orderId → ¬ ReservationEndpoints.Takes apply request ledger ()) := by
  simp only [InventoryRequest.handle]
  by_cases horder : request.orderId = orderId
  · subst horder
    rw [ReservationEndpoints.reserveAsync_late apply request ledger () hnone]
    simp
  · refine iff_of_true ?_ fun h => absurd h horder
    obtain hl | ⟨lines, _, _, hl⟩ := ReservationEndpoints.reserveAsync_ledger apply request ledger () <;> rw [hl]
    · exact hnone
    · have hstep : StockLedger.stockMachine.step ledger (.reserve request.orderId lines) = some _ := rfl
      exact StockLedger.reservedRecord_none_step hnone (fun _ hop => horder (StockOp.reserve.inj hop).1) hstep

theorem release_letPass (orderId : Guid) (ledger : StockLedger) :
    ((InventoryRequest.release orderId).handle letPass () ledger).2 = (ledger.release orderId).2 := by
  simp only [InventoryRequest.handle, ReservationEndpoints.releaseAsync, letPass]
  obtain ⟨_, h⟩ | ⟨_, _, _, h⟩ | ⟨_, _, h⟩ := StockLedger.release_cases ledger orderId <;> simp [h]

theorem void_letPass (orderId : Guid) (service : PaymentService) :
    ((PaymentRequest.void orderId).handle letPass () hash 0 service).2.ledger = (service.ledger.void orderId).2 := by
  simp [PaymentRequest.handle, PaymentEndpoints.voidAsync, letPass]

/-- No void opens an authorization. -/
theorem openEntries_void_of_none (other : Guid) {ledger : PaymentLedger} (hnone : ledger.openEntries orderId = []) :
    (ledger.void other).2.openEntries orderId = [] := by
  by_cases h : orderId = other
  · subst h
    exact PaymentLedger.openEntries_void ledger orderId
  · simpa [PaymentLedger.openEntries, PaymentLedger.entries_void, h] using hnone

theorem reservedRecord_release_of_none (other : Guid) {ledger : StockLedger}
    (hnone : ledger.reservedRecord orderId = none) :
    (ledger.release other).2.reservedRecord orderId = none := by
  have hstep : StockLedger.stockMachine.step ledger (.release other) = some _ := rfl
  exact StockLedger.reservedRecord_none_step hnone (by simp) hstep

/-- The condition says of one delivery what the property says of its result. -/
theorem notTakenAgain_iff {delivery : Delivery} (h : Undone orderId sides)
    (hs : (deliveries hash orderId).step sides delivery = some sides') :
    NotTakenAgain orderId sides delivery sides' ↔ UndoFinal orderId sides delivery sides' := by
  cases delivery with
  | payment label =>
    obtain ⟨payment, hpayment, rfl⟩ := Option.map_eq_some_iff.1 hs
    have hstep : sides.voided → _ := fun hvoided => payment_step (h.voided hvoided) hpayment
    simp only [UndoFinal]
    rw [and_iff_left h.released, forall_congr' hstep]
    cases label <;> simp [NotTakenAgain]
  | void other =>
    cases hs
    refine iff_of_true trivial ⟨fun hvoided => ?_, h.released⟩
    simp only [void_letPass]
    exact openEntries_void_of_none other (h.voided hvoided)
  | reserve apply request =>
    cases hs
    simp only [NotTakenAgain, UndoFinal]
    rw [and_iff_right h.voided]
    exact forall_congr' fun hreleased => (reservedRecord_reserve apply request (h.released hreleased)).symm
  | release other =>
    cases hs
    refine iff_of_true trivial ⟨h.voided, fun hreleased => ?_⟩
    simp only [release_letPass]
    exact reservedRecord_release_of_none other (h.released hreleased)

/-- Deliveries that take nothing again keep what is undone. -/
theorem undone_deliver {delivery : Delivery} (h : Undone orderId sides)
    (hs : (deliveries hash orderId).step sides delivery = some sides')
    (hfinal : UndoFinal orderId sides delivery sides') : Undone orderId sides' := by
  cases delivery with
  | payment label =>
    obtain ⟨payment, hpayment, rfl⟩ := Option.map_eq_some_iff.1 hs
    exact ⟨hfinal.1, hfinal.2⟩
  | void other =>
    cases hs
    refine ⟨fun hvoided => ?_, hfinal.2⟩
    obtain hbefore | hnow := Bool.or_eq_true_iff.1 hvoided
    · exact hfinal.1 hbefore
    · obtain rfl := of_decide_eq_true (Bool.and_eq_true_iff.1 hnow).1
      simp only [void_letPass]
      exact PaymentLedger.openEntries_void _ other
  | reserve apply request =>
    cases hs
    exact ⟨hfinal.1, hfinal.2⟩
  | release other =>
    cases hs
    refine ⟨hfinal.1, fun hreleased => ?_⟩
    obtain hbefore | hnow := Bool.or_eq_true_iff.1 hreleased
    · exact hfinal.2 hbefore
    · obtain rfl := of_decide_eq_true (Bool.and_eq_true_iff.1 hnow).1
      simp only [release_letPass]
      exact StockLedger.reservedRecord_release sides.ledger other

end Steps

/-- **When an undo is final**: in every order of deliveries and every interleaving of the authorize attempts,
among requests of other orders and under any fault rules, exactly when no late attempt goes on to charge or
takes stock. -/
theorem undo_is_final_iff (hash : String → String) (orderId : Guid) (payment : PaymentEndpoints.System)
    (ledger : StockLedger) (messages : List Delivery) :
    (deliveries hash orderId).Along (UndoFinal orderId) ⟨payment, ledger, false, false⟩ messages ↔
      (deliveries hash orderId).Along (NotTakenAgain orderId) ⟨payment, ledger, false, false⟩ messages :=
  (Machine.along_iff (I := Undone orderId) (fun _ _ _ h hs => notTakenAgain_iff h hs)
    (fun _ _ _ h hs hno => undone_deliver h hs ((notTakenAgain_iff h hs).1 hno)) ⟨by simp, by simp⟩).symm

instance (orderId : Guid) (before : Sides) (delivery : Delivery) (after : Sides) :
    Decidable (UndoFinal orderId before delivery after) := inferInstanceAs (Decidable (_ ∧ _))

/-- What the gateway sends with every authorize attempt of the order. -/
def attemptOf (order : Order) (amount : Decimal) : PaymentEndpoints.AuthorizeCall :=
  ⟨PaymentGateway.idempotencyKeyFor order.id, authorizeRequest order amount⟩

/-- A void that comes first is answered with success and does not stop the payment, nor does one that comes
while an attempt waits at its fault point; a release does not stop a late reserve attempt, whether or not an
earlier one came through. -/
theorem undo_is_not_final :
    let order := Order.create 1
      [⟨"SKU-1001", 2, ⟨500, 2, by decide, by decide⟩⟩] "EUR" "tok_test_approved" "domestic" 0
    let arrives : Delivery := .payment (.arrive 0 (attemptOf order ⟨1000, 2, by decide, by decide⟩))
    let goesOn : Delivery := .payment (.step 0 { newGuid := 7 })
    let sides : Sides := ⟨.initial, ⟨(∅ : Dict String I32).set "SKU-1001" 5, ∅, []⟩, false, false⟩
    ¬ (deliveries id 1).Along (UndoFinal 1) sides [.void 1, arrives, goesOn, goesOn, goesOn, goesOn] ∧
    ¬ (deliveries id 1).Along (UndoFinal 1) sides [arrives, goesOn, goesOn, goesOn, .void 1, goesOn] ∧
    ¬ (deliveries id 1).Along (UndoFinal 1) sides [.release 1, .reserve letPass (reserveRequest order)] ∧
    ¬ (deliveries id 1).Along (UndoFinal 1) sides [.reserve letPass (reserveRequest order), .release 1,
      .reserve letPass (reserveRequest order)] := by
  decide

end LateRequests

end TxPlatform
