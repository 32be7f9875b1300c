import TxPlatform.Saga.World
import TxPlatform.Shipping.Concurrency

/-! # Does a failed order ship nothing? (CompensationPlan.For, ShipmentBook.Create)

There is no undo for a shipment. A shipping call that fails technically is ambiguous: an attempt may
have created the shipment although no success was seen, and the plan still voids the payment and
releases the stock. `failed_order_ships_nothing` holds when the call leaves no such doubt, and
`shipped_though_failed` are two runs in which it does.

The attempts of the order are processed by handlers that run beside each other and beside the
coordinator, which gives up on them when they take too long. The other services are arbitrary.
-/

namespace TxPlatform

namespace Shipped

open OrderTransactionCoordinator ShipmentEndpoints

/-- What a failed order promises about its shipment. -/
def ShipsNothing (id : Guid) (snapshot : OrderSnapshot) (book : ShipmentBook) : Prop :=
  snapshot.state ≠ .completed → (∀ step ∈ snapshot.compensation, step.status = .succeeded) →
    book.shipments.get id = none

/-! ## ShippingService -/

/-- ShippingService as one order sees it: the book, the handlers of its attempts in the order of arrival,
and whether one of them has called `book.Create`. -/
structure Desk where
  book : ShipmentBook
  handlers : List (CreateShipmentRequest × Phase) := []
  createCalled : Bool := false

/-- A handler goes one step on, or a handler of another order calls `book.Create`. -/
inductive DeskEvent (id : Guid) where
  | step (handler : Nat) (choice : StepChoice)
  | other (newGuid : Guid) (request : OtherShipmentRequest id)

/-- One attempt: whether it arrives, what happens at the service until it is over, and what the coordinator
sees in place of a reply; with `none` it sees the reply if there is one by then. -/
structure ShippingAttempt (id : Guid) where
  arrives : Bool := true
  meanwhile : List (DeskEvent id) := []
  seen : Option NoReply := none

section Service
variable {id : Guid}

namespace Desk

def arrive (desk : Desk) (request : CreateShipmentRequest) : Desk :=
  { desk with handlers := desk.handlers ++ [(request, .start)] }

def event (desk : Desk) : DeskEvent id → Desk
  | .step i choice =>
    match desk.handlers[i]? with
    | none => desk
    | some (request, phase) =>
      let advanced := advance desk.book request choice phase
      ⟨advanced.1, desk.handlers.set i (request, advanced.2), desk.createCalled || phase.isCreating⟩
  | .other newGuid other =>
    { desk with
      book := (desk.book.create newGuid other.request.orderId (other.request.zone.getD "") other.request.itemCount).2 }

def events (desk : Desk) (es : List (DeskEvent id)) : Desk := es.foldl event desk

end Desk

/-- The service with the attempts still to come. -/
structure Line (id : Guid) where
  desk : Desk
  attempts : Nat → ShippingAttempt id

def Line.attempt (request : CreateShipmentRequest) (line : Line id) : CallBehaviour × Line id :=
  let now := line.attempts 0
  let arrived := if now.arrives then line.desk.arrive request else line.desk
  let desk := arrived.events now.meanwhile
  let behaviour := match now.arrives, now.seen, desk.handlers.getLast? with
    | true, none, some (_, .finished result) => .response (replyOf result)
    | _, seen, _ => (seen.getD .timeout).behaviour
  (behaviour, ⟨desk, fun n => line.attempts (n + 1)⟩)

/-- What the surroundings decide: what ShippingService does before the call of the order and after it, its
attempts, and whether the transaction budget ends before the call does. -/
structure ShippingRun (id : Guid) where
  before : List (DeskEvent id) := []
  attempts : Nat → ShippingAttempt id
  budgetEnds : Bool := false
  afterwards : List (DeskEvent id) := []

namespace ShippingRun
variable (around : ShippingRun id)

def start : Line id := ⟨Desk.events ⟨.empty, [], false⟩ around.before, around.attempts⟩

def finish (line : Line id) : Desk := line.desk.events around.afterwards

/-- The shipping call; after the budget has ended its result counts for nothing. -/
def call (request : CreateShipmentRequest) (line : Line id) : Option CallBehaviour × Line id :=
  let served := sendWithRetry DependencyProfiles.shipping (Line.attempt request) line
  (if around.budgetEnds then none else some served.1, served.2)

/-- The dependencies of the coordinator: this service for shipments, `others` for the rest. -/
def dependencies {τ : Type} (others : Dependencies τ) : Dependencies (τ × Line id) where
  stage request w := match request with
    | .createShipment request =>
      let (behaviour, line) := around.call request w.2
      (behaviour, (w.1, line))
    | request =>
      let (behaviour, t) := others.stage request w.1
      (behaviour, (t, w.2))
  undo request w :=
    let (behaviour, t) := others.undo request w.1
    (behaviour, (t, w.2))

/-- No doubt about the shipment is left when the run ends: no attempt has called `book.Create`, or none could
create a shipment, or the coordinator sees a reply of success. -/
def NoDoubt (request : CreateShipmentRequest) (line : Line id) : Prop :=
  (around.finish line).createCalled = false ∨ request.zone.getD "" ∉ ShipmentBook.serviceableZones ∨
    ∃ reply, (around.call request around.start).1 = some (.response reply) ∧ reply.isSuccessStatusCode

end ShippingRun

/-! ## What every event keeps -/

/-- Creating a shipment for another order creates none for this one. -/
theorem get_create_of_ne {book : ShipmentBook} {orderId : Guid} (hne : orderId ≠ id) (newGuid : Guid) (zone : String)
    (itemCount : I32) (h : book.shipments.get id = none) :
    (book.create newGuid orderId zone itemCount).2.shipments.get id = none := by
  obtain ⟨_, hc⟩ | ⟨_, _, _, hc⟩ | ⟨_, _, hc⟩ := ShipmentBook.create_cases book newGuid orderId zone itemCount
  · rw [hc]
    exact h
  · rw [hc]
    exact h
  · rw [hc]
    cases hget : (book.addShipment (ShipmentBook.newShipment newGuid orderId zone itemCount)).trim.shipments.get id with
    | none => rfl
    | some found =>
      -- eviction only removes, and the shipment added belongs to the other order
      have hadded := evict_get hget
      simp [ShipmentBook.addShipment, ShipmentBook.newShipment, Ne.symm hne, h] at hadded

variable (request : CreateShipmentRequest)

/-- The order has a shipment only if one of its attempts has called `book.Create` for a zone that is served. -/
structure NothingUncalled (desk : Desk) : Prop where
  requests : ∀ handler ∈ desk.handlers, handler.1 = request
  shipment : desk.book.shipments.get request.orderId = none ∨
    (desk.createCalled = true ∧ request.zone.getD "" ∈ ShipmentBook.serviceableZones)

variable {request}

theorem nothingUncalled_arrive {desk : Desk} (h : NothingUncalled request desk) :
    NothingUncalled request (desk.arrive request) := by
  refine ⟨fun handler hmem => ?_, h.shipment⟩
  obtain hmem | hmem := List.mem_append.1 hmem
  · exact h.requests handler hmem
  · rw [List.mem_singleton.1 hmem]

theorem nothingUncalled_event {desk : Desk} (h : NothingUncalled request desk) (e : DeskEvent request.orderId) :
    NothingUncalled request (desk.event e) := by
  cases e with
  | other newGuid other =>
    exact ⟨h.requests, h.shipment.imp_left fun hnone => get_create_of_ne other.foreign newGuid _ _ hnone⟩
  | step i choice =>
    simp only [Desk.event]
    cases hi : desk.handlers[i]? with
    | none => exact h
    | some handler =>
      obtain ⟨sent, phase⟩ := handler
      obtain rfl : sent = request := h.requests _ (List.mem_of_getElem? hi)
      refine ⟨fun handler hmem => ?_, ?_⟩
      · obtain hmem | rfl := List.mem_or_eq_of_mem_set hmem
        · exact h.requests handler hmem
        · rfl
      · by_cases hphase : phase = .creating
        · subst hphase
          by_cases hzone : sent.zone.getD "" ∈ ShipmentBook.serviceableZones
          · exact .inr ⟨by simp [Phase.isCreating], hzone⟩
          · have hnone := h.shipment.resolve_right fun hcalled => hzone hcalled.2
            simp [advance, ShipmentBook.create, hzone, hnone]
        · simp only [advance_book hphase]
          exact h.shipment.imp_right fun hcalled => ⟨by simp [hcalled.1], hcalled.2⟩

theorem nothingUncalled_events {desk : Desk} (h : NothingUncalled request desk) (es : List (DeskEvent request.orderId)) :
    NothingUncalled request (desk.events es) := by
  induction es generalizing desk with
  | nil => exact h
  | cons e es ih => exact ih (nothingUncalled_event h e)

theorem nothingUncalled_attempt {line : Line request.orderId} (h : NothingUncalled request line.desk) :
    NothingUncalled request (line.attempt request).2.desk := by
  simp only [Line.attempt]
  split_ifs
  · exact nothingUncalled_events (nothingUncalled_arrive h) _
  · exact nothingUncalled_events h _

/-- **One call**: any attempts, any retries. -/
theorem nothingUncalled_call (around : ShippingRun request.orderId) {line : Line request.orderId}
    (h : NothingUncalled request line.desk) : NothingUncalled request (around.call request line).2.desk :=
  retryLoop_rule (I := fun line : Line request.orderId => NothingUncalled request line.desk)
    (Q := fun _ line => NothingUncalled request line.desk)
    (fun _ h => nothingUncalled_attempt h) (fun _ h => nothingUncalled_attempt h) h _

theorem nothingUncalled_start (around : ShippingRun request.orderId) : NothingUncalled request around.start.desk :=
  nothingUncalled_events ⟨by simp, .inl rfl⟩ _

/-- Without an attempt nothing is called. -/
theorem uncalled_events {desk : Desk} (h : desk.handlers = [] ∧ desk.createCalled = false) (es : List (DeskEvent id)) :
    (desk.events es).handlers = [] ∧ (desk.events es).createCalled = false := by
  induction es generalizing desk with
  | nil => exact h
  | cons e es ih =>
    refine ih ?_
    cases e with
    | other newGuid other => exact h
    | step i choice => simp [Desk.event, h]

end Service

/-! ## One run -/

section Run
variable {id : Guid} {τ : Type} (around : ShippingRun id) (others : Dependencies τ)

/-- Without a shipping stage there is no shipment. -/
theorem start_ships_nothing (around : ShippingRun id) :
    (around.finish around.start).book.shipments.get id = none := by
  -- any request of the order will do
  let request : CreateShipmentRequest := ⟨id, none, 0⟩
  have hstart : around.start.desk.handlers = [] ∧ around.start.desk.createCalled = false :=
    uncalled_events ⟨rfl, rfl⟩ around.before
  have hidle := uncalled_events hstart around.afterwards
  have hkept := nothingUncalled_events (@nothingUncalled_start request around) around.afterwards
  refine hkept.shipment.resolve_right fun hcalled => ?_
  exact absurd (hidle.2.symm.trans hcalled.1) (by simp)

/-- A shipping stage that fails without doubt leaves no shipment. -/
theorem call_ships_nothing {request : CreateShipmentRequest} (horder : request.orderId = id)
    {kind : FailureKind} {reason : String}
    (hfailed : DownstreamCall.translate DownstreamCall.interpretAsync (around.call request around.start).1 =
      .ok (.failure kind reason)) (hsettled : around.NoDoubt request (around.call request around.start).2) :
    (around.finish (around.call request around.start).2).book.shipments.get id = none := by
  subst horder
  have hkept := nothingUncalled_events (nothingUncalled_call around (nothingUncalled_start around)) around.afterwards
  obtain huncalled | hzone | ⟨reply, hreply, hsuccess⟩ := hsettled
  · exact hkept.shipment.resolve_right fun hcalled => absurd (huncalled.symm.trans hcalled.1) (by simp)
  · exact hkept.shipment.resolve_right fun hcalled => hzone hcalled.2
  · rw [hreply] at hfailed
    simp [DownstreamCall.translate, DownstreamCall.interpretAsync, hsuccess] at hfailed

/-- Undo calls never reach ShippingService. -/
theorem undoOutcome_line (orderId : Guid) (plan : List CompensationAction) (w : τ × Line id) :
    (undoOutcome (around.dependencies others) orderId plan w).2.2 = w.2 := by
  induction plan generalizing w with
  | nil => rfl
  | cons action plan ih =>
    have hstep : (undoAsync (around.dependencies others) orderId w action).2.2 = w.2 := by
      cases action <;> rfl
    simp only [undoOutcome]
    cases hundo : undoAsync (around.dependencies others) orderId w action with
    | mk result w₁ =>
    rw [hundo] at hstep
    cases result with
    | error e => exact hstep
    | ok result => exact (ih w₁).trans hstep

theorem evaluateAsync_line (order : Order) (w : τ × Line id) :
    ((around.dependencies others).evaluateAsync order w).2.2 = w.2 := by
  unfold Dependencies.evaluateAsync
  split <;> rfl

theorem authorizeAsync_line (order : Order) (w : τ × Line id) :
    ((around.dependencies others).authorizeAsync order w).2.2 = w.2 := by
  unfold Dependencies.authorizeAsync
  split <;> rfl

/-- Stages that failed have not called ShippingService, or that call failed. -/
theorem stageOutcome_line {order : Order} {found : OrderFailure} {t : τ} {w : τ × Line id}
    (h : stageOutcome (around.dependencies others) order (t, around.start) = (.ok (some found), w)) :
    w.2 = around.start ∨
    ∃ itemCount kind reason, order.itemCount = some itemCount ∧
      DownstreamCall.translate DownstreamCall.interpretAsync
        (around.call (createRequest order itemCount) around.start).1 = .ok (.failure kind reason) ∧
      w.2 = (around.call (createRequest order itemCount) around.start).2 := by
  obtain ⟨reservation, evaluation, w₁, w₂, hreserve, hevaluate, hrest⟩ :=
    stageOutcome_ok (around.dependencies others) h
  have hw₁ : w₁.2 = around.start := by
    have : ((around.dependencies others).reserveAsync order (t, around.start)).2.2 = around.start := rfl
    rwa [hreserve] at this
  have hw₂ : w₂.2 = around.start := by
    have := evaluateAsync_line around others order w₁
    rwa [hevaluate, hw₁] at this
  obtain ⟨_, _, _, rfl⟩ | ⟨_, _, authorization, w₃, hauthorize, hrest⟩ := hrest
  · exact .inl hw₂
  · have hw₃ : w₃.2 = around.start := by
      have := authorizeAsync_line around others order w₂
      rwa [hauthorize, hw₂] at this
    obtain ⟨_, _, _, _, rfl⟩ | ⟨_, shipment, hcreate, hend⟩ := hrest
    · exact .inl hw₃
    · right
      obtain ⟨kind, reason, rfl, _⟩ | ⟨_, hnone⟩ := hend
      · unfold Dependencies.createAsync at hcreate
        split at hcreate
        · rename_i itemCount hcount
          simp only [ShippingRun.dependencies, hw₃] at hcreate
          obtain ⟨hresult, rfl⟩ := Prod.mk.inj hcreate
          exact ⟨itemCount, kind, reason, hcount, hresult, rfl⟩
        · cases hcreate
      · cases hnone

end Run

/-- **A failed order ships nothing**, in every run whose shipping call leaves no doubt: with any fault rules at
ShippingService, any losses and delays, and whatever the other services do. -/
theorem failed_order_ships_nothing {τ : Type} (others : Dependencies τ) (t : τ) (id : Guid) (lines : List OrderLine)
    (currency paymentToken shippingZone : String) (createdAt : DateTimeOffset)
    (around : ShippingRun id) (clock : Nat → DateTimeOffset) (traced : Bool)
    (saved : List OrderSnapshot) (repository : OrderRepository) (snapshot : OrderSnapshot) :
    let order := Order.create id lines currency paymentToken shippingZone createdAt
    let run := executeAsync (around.dependencies others) clock traced saved order repository (t, around.start)
    run.1 = .ok snapshot →
    (∀ itemCount, order.itemCount = some itemCount →
      around.NoDoubt (createRequest order itemCount) run.2.2.2) →
    ShipsNothing id snapshot (around.finish run.2.2.2).book := by
  intro order run hrun hsettled hfailed _
  obtain ⟨failure, steps, totalAmount, itemCount, w, htotal, hcount, hout, hw, hstate, _, _⟩ :=
    executeAsync_ok (around.dependencies others) clock
      (isNew_create id lines currency paymentToken shippingZone createdAt) hrun
  obtain ⟨rfl, _⟩ | ⟨found, w₁, rfl, hstage, hundo⟩ := outcome_ok (around.dependencies others) hout
  · exact absurd hstate hfailed
  have hundone : w.2 = w₁.2 := by
    have := undoOutcome_line around others order.id (CompensationPlan.planFor found) w₁
    rwa [show undoOutcome (around.dependencies others) order.id (CompensationPlan.planFor found) w₁ =
      (.ok steps, w) from hundo]
      at this
  have hw' : run.2.2 = w := hw
  rw [hw', hundone] at hsettled ⊢
  obtain hstart | ⟨itemCount, kind, reason, hcount, hfailed, hcall⟩ := stageOutcome_line around others hstage
  · rw [hstart]
    exact start_ships_nothing around
  · rw [hcall] at hsettled ⊢
    exact call_ships_nothing around rfl hfailed (hsettled itemCount hcount)

/-- The other services do what they are asked. -/
def willing : Behaviours where
  reserve := some (.response (Results.created .null))
  evaluate := some (.response (Results.ok (.obj [("decision", .str "approved")])))
  authorize := some (.response (Results.created .null))
  create := none
  undo := fun _ => .response (Results.ok .null)

/-- A rule answers the first attempt with 503, the second is lost, and a rule rejects the third. -/
def refused (id : Guid) : ShippingRun id where
  attempts
    | 0 => { meanwhile := [.step 0 { fault := .ok { outcome := .fail, statusCode := 503 } }] }
    | 1 => { arrives := false }
    | _ => { meanwhile := [.step 1 { fault := .ok { outcome := .reject } }, .step 1 {}] }

theorem ships_nothing_when_refused :
    let order := Order.create 1
      [⟨"SKU-1001", 2, ⟨500, 2, by decide, by decide⟩⟩] "EUR" "tok_test_approved" "domestic" 0
    let run := executeAsync ((refused 1).dependencies (scripted willing)) (fun _ => 0) false [] order .empty
      ([], (refused 1).start)
    ∃ snapshot, run.1 = .ok snapshot ∧ snapshot.state = .shippingFailed ∧
      ShipsNothing 1 snapshot ((refused 1).finish run.2.2.2).book :=
  ⟨_, rfl, rfl, failed_order_ships_nothing (scripted willing) [] 1
    [⟨"SKU-1001", 2, ⟨500, 2, by decide, by decide⟩⟩] "EUR" "tok_test_approved" "domestic" 0 (refused 1) (fun _ => 0)
    false [] .empty _ rfl fun _ _ => .inl rfl⟩

/-- Every attempt is processed, and every reply is lost. -/
def repliesLost (id : Guid) : ShippingRun id where
  attempts n := { meanwhile := [.step n {}, .step n { newGuid := 9 }, .step n {}], seen := some .timeout }

/-- The reply to the first attempt comes too late, and a rule answers the second attempt with 500. -/
def lateThenFailed (id : Guid) : ShippingRun id where
  attempts
    | 0 => { meanwhile := [.step 0 {}, .step 0 { newGuid := 9 }] }
    | _ => { meanwhile := [.step 0 {}, .step 1 { fault := .ok { outcome := .fail, statusCode := 500 } }] }

/-- The payment is voided and the stock released, both with success, and the shipment exists. -/
theorem shipped_though_failed :
    let order := Order.create 1
      [⟨"SKU-1001", 2, ⟨500, 2, by decide, by decide⟩⟩] "EUR" "tok_test_approved" "domestic" 0
    let run (around : ShippingRun 1) := executeAsync (around.dependencies (scripted willing)) (fun _ => 0) false [] order
      .empty ([], around.start)
    (∃ snapshot, (run (repliesLost 1)).1 = .ok snapshot ∧ snapshot.state = .shippingFailed ∧
      ¬ ShipsNothing 1 snapshot ((repliesLost 1).finish (run (repliesLost 1)).2.2.2).book) ∧
    ∃ snapshot, (run (lateThenFailed 1)).1 = .ok snapshot ∧ snapshot.state = .shippingFailed ∧
      ¬ ShipsNothing 1 snapshot ((lateThenFailed 1).finish (run (lateThenFailed 1)).2.2.2).book := by
  constructor <;> refine ⟨_, rfl, rfl, fun h => ?_⟩ <;> exact absurd (h (by decide) (by decide)) (by decide)

end Shipped

end TxPlatform
