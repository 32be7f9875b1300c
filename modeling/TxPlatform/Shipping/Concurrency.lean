import TxPlatform.Shipping.ShipmentBook

/-! # A shipment request step by step (ShipmentEndpoints.CreateAsync)

`CreateAsync` waits for the fault injector before and after `book.Create`, and anything may happen in
between: the caller gives up, other attempts are processed. `advance` is one step of a handler, up to the
next of these points. What the injector decides is left open, so a handler here meets any fault rules.
-/

namespace TxPlatform

namespace ShipmentEndpoints

/-- What a handler does next. -/
inductive Phase where
  /-- Validation and `ApplyAsync` before the effect. -/
  | start
  /-- `book.Create`. -/
  | creating
  /-- `ApplyAsync` after the effect, or after a simulated rejection. -/
  | afterEffect (created : ShipmentOutcome × Option Shipment)
  | finished (result : Except Exn HttpResponse)

def Phase.isCreating : Phase → Bool
  | .creating => true
  | _ => false

/-- One step of a handler: the book after it, and the next phase. -/
def advance (book : ShipmentBook) (request : CreateShipmentRequest) (choice : StepChoice) :
    Phase → ShipmentBook × Phase
  | .start =>
    if isValid request then
      match choice.fault with
      | .error e => (book, .finished (.error e))
      | .ok fault =>
        if fault.outcome = .fail then (book, .finished (.ok (Results.injectedFault fault.statusCode)))
        else if fault.outcome = .reject then (book, .afterEffect (.zoneNotServiceable, none))
        else (book, .creating)
    else
      (book, .finished (.ok
        (Results.validationProblem "shipment" "orderId, zone and a positive itemCount are required")))
  | .creating =>
    let created := book.create choice.newGuid request.orderId (request.zone.getD "") request.itemCount
    (created.2, .afterEffect created.1)
  | .afterEffect created =>
    match choice.fault with
    | .error e => (book, .finished (.error e))
    | .ok _ => (book, .finished (.ok (createReply request created)))
  | .finished result => (book, .finished result)

variable {book : ShipmentBook} {request : CreateShipmentRequest} {choice : StepChoice} {phase : Phase}

/-- Only `book.Create` touches the book. -/
theorem advance_book (h : phase ≠ .creating) : (advance book request choice phase).1 = book := by
  cases phase with
  | start =>
    simp only [advance]
    split
    · split
      · rfl
      · split_ifs <;> rfl
    · rfl
  | creating => exact absurd rfl h
  | afterEffect created =>
    simp only [advance]
    split <;> rfl
  | finished result => rfl

/-- A handler comes to `book.Create` when its request is valid and the fault rules let it through. -/
theorem advance_creating_iff : (advance book request choice phase).2 = .creating ↔
    phase = .start ∧ isValid request ∧ ∃ fault, choice.fault = .ok fault ∧ fault.outcome = .continue_ := by
  cases phase with
  | start =>
    simp only [advance]
    by_cases hvalid : isValid request
    · cases choice.fault with
      | error e => simp [hvalid]
      | ok fault => cases hf : fault.outcome <;> simp [hvalid, hf]
    · simp [hvalid]
  | creating => simp [advance]
  | afterEffect created =>
    simp only [advance]
    split <;> simp
  | finished result => simp [advance]

/-- **Three steps are one `CreateAsync`**, if nothing comes in between. -/
theorem advance_thrice (decisions : FaultPhase → Except Exn FaultDecision) (newGuid : Guid) :
    let first := advance book request ⟨decisions .beforeEffect, newGuid⟩ .start
    let second := advance first.1 request ⟨decisions .afterEffect, newGuid⟩ first.2
    let third := advance second.1 request ⟨decisions .afterEffect, newGuid⟩ second.2
    let handled := createAsync (fun _ phase _ faults => (decisions phase, faults)) newGuid request book ()
    third = (handled.2.1, .finished handled.1) := by
  simp only [createAsync, advance]
  by_cases hvalid : isValid request
  · simp only [hvalid, if_true]
    cases decisions .beforeEffect with
    | error e => rfl
    | ok fault => cases hf : fault.outcome <;> cases decisions .afterEffect <;> simp [hf]
  · simp [hvalid]

end ShipmentEndpoints

end TxPlatform
