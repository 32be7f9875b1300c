import TxPlatform.Lib.Channel
import TxPlatform.Order.Guarantee

/-! # One order among others (OrderTransactionCoordinator.cs against the three services)

The coordinator runs one order against InventoryService, PaymentService and ShippingService, without
fault rules, while requests of other orders are served at any point in between. Every attempt is
lost, or reaches the service and is served in its turn, perhaps after the coordinator gave up on it;
its reply may be lost. The services share no state, so the order of events at one of them can be
told without the others: each has its own `Lane`.
-/

namespace TxPlatform

/-! ## The services as servers -/

inductive InventoryRequest where
  | reserve (request : ReserveStockRequest)
  | release (orderId : Guid)

inductive PaymentRequest where
  | authorize (key : String) (request : AuthorizePaymentRequest)
  | void (orderId : Guid)

/-- The reply to a request; an exception of the handler is answered with a 500. -/
def replyOf : Except Exn HttpResponse → HttpResponse
  | .ok reply => reply
  | .error _ => { statusCode := 500 }

/-- Requests that other orders send: none of them names this order or its idempotency key. -/
def InventoryRequest.Foreign (id : Guid) : InventoryRequest → Prop
  | .reserve request => request.orderId ≠ id
  | .release orderId => orderId ≠ id

def PaymentRequest.Foreign (id : Guid) : PaymentRequest → Prop
  | .authorize key request => key ≠ PaymentGateway.idempotencyKeyFor id ∧ request.orderId ≠ id
  | .void orderId => orderId ≠ id

def CreateShipmentRequest.Foreign (id : Guid) (request : CreateShipmentRequest) :
    Prop := request.orderId ≠ id

structure OtherInventoryRequest (id : Guid) where
  request : InventoryRequest
  foreign : request.Foreign id

structure OtherPaymentRequest (id : Guid) where
  request : PaymentRequest
  foreign : request.Foreign id

structure OtherShipmentRequest (id : Guid) where
  request : CreateShipmentRequest
  foreign : request.Foreign id

/-- The keys of two orders differ. -/
theorem idempotencyKeyFor_injective {id other : Guid}
    (h : PaymentGateway.idempotencyKeyFor other = PaymentGateway.idempotencyKeyFor id) : other = id := by
  have htext := congrArg String.toList h
  simp only [PaymentGateway.idempotencyKeyFor, toString, String.toList_append] at htext
  exact Guid.formatN_injective (String.toList_inj.1 (List.append_cancel_left (List.append_cancel_right htext)))

/-- What the gateway sends for another order is foreign. -/
theorem foreign_authorizeRequest {id : Guid} {other : Order} (h : other.id ≠ id) (amount : Decimal) :
    (PaymentRequest.authorize (PaymentGateway.idempotencyKeyFor other.id)
      (authorizeRequest other amount)).Foreign id :=
  ⟨fun hkey => h (idempotencyKeyFor_injective hkey), h⟩

section Handlers
variable {φ : Type} (apply : ApplyAsync φ) (faults : φ)

def InventoryRequest.handle (ledger : StockLedger) : InventoryRequest → HttpResponse × StockLedger
  | .reserve request =>
    let (reply, ledger, _) := ReservationEndpoints.reserveAsync apply request ledger faults
    (replyOf reply, ledger)
  | .release orderId =>
    let (reply, ledger, _) := ReservationEndpoints.releaseAsync apply orderId ledger faults
    (replyOf reply, ledger)

def PaymentRequest.handle (hash : String → String) (newGuid : Guid) (service : PaymentService) :
    PaymentRequest → HttpResponse × PaymentService
  | .authorize key request =>
    let (reply, service, _) :=
      PaymentEndpoints.authorizeAsync hash apply newGuid key request service faults
    (replyOf reply, service)
  | .void orderId =>
    let (reply, service, _) := PaymentEndpoints.voidAsync apply orderId service faults
    (replyOf reply, service)

def CreateShipmentRequest.handle (newGuid : Guid) (book : ShipmentBook)
    (request : CreateShipmentRequest) :
    HttpResponse × ShipmentBook :=
  let (reply, book, _) := ShipmentEndpoints.createAsync apply newGuid request book faults
  (replyOf reply, book)

end Handlers

/-! The services without injected faults: their rule stores are empty. -/

section Servers
variable (env : FaultPhase → FaultEnv) (hash : String → String)

def inventoryServer (id : Guid) :
    Server StockLedger InventoryRequest (OtherInventoryRequest id) HttpResponse Unit where
  handle _ request ledger := request.handle (FaultInjector.applyAsync env) .empty ledger
  handleOther _ other ledger := (other.request.handle (FaultInjector.applyAsync env) .empty ledger).2

def paymentServer (id : Guid) :
    Server PaymentService PaymentRequest (OtherPaymentRequest id) HttpResponse Guid where
  handle newGuid request service :=
    request.handle (FaultInjector.applyAsync env) .empty hash newGuid service
  handleOther newGuid other service :=
    (other.request.handle (FaultInjector.applyAsync env) .empty hash newGuid service).2

def shippingServer (id : Guid) :
    Server ShipmentBook CreateShipmentRequest (OtherShipmentRequest id) HttpResponse
      Guid where
  handle newGuid request book := request.handle (FaultInjector.applyAsync env) .empty newGuid book
  handleOther newGuid other book :=
    (other.request.handle (FaultInjector.applyAsync env) .empty newGuid book).2

end Servers

/-! ## Calls over a channel -/

/-- What the coordinator sees when no reply comes. -/
inductive NoReply where
  | timeout
  | connectionFailure (error : String)
  | circuitOpen

def NoReply.behaviour : NoReply → CallBehaviour
  | .timeout => .timeoutRejected
  | .connectionFailure error => .httpRequestError error
  | .circuitOpen => .brokenCircuit

inductive Fate where
  | lost (seen : NoReply)
  /-- It arrives, but no reply is seen before the attempt times out. -/
  | unanswered
  /-- It arrives, and its reply is seen if it was served before the attempt times out. -/
  | answered

/-- One attempt: its fate, and what the service does until the attempt is over. -/
structure Attempt (O N : Type) where
  fate : Fate
  meanwhile : List (ChannelEvent O N)

/-- What the surroundings decide at one service: what it serves before the order comes, during the
attempts of the order, and after the last of them. -/
structure Lane (O N : Type) where
  before : List (ChannelEvent O N)
  attempts : Nat → Attempt O N
  afterwards : List (ChannelEvent O N)

/-- A channel with the attempts still to come. -/
structure Link (S R O N : Type) where
  channel : Channel S R HttpResponse
  attempts : Nat → Attempt O N

namespace Link
variable {S R O N : Type} (server : Server S R O HttpResponse N)

def attempt (request : R) (link : Link S R O N) : CallBehaviour × Link S R O N :=
  let now := link.attempts 0
  let sent := match now.fate with
    | .lost _ => link.channel
    | _ => link.channel.send request
  let channel := sent.events server now.meanwhile
  let behaviour := match now.fate with
    | .lost seen => seen.behaviour
    | .unanswered => .timeoutRejected
    | .answered =>
      match channel.pending, channel.last with
      | [], some (_, reply) => .response reply
      | _, _ => .timeoutRejected
  (behaviour, ⟨channel, fun n => link.attempts (n + 1)⟩)

/-- A call of the coordinator: attempts under the retry rule. -/
def call (profile : DependencyProfile) (request : R) : Link S R O N → CallBehaviour × Link S R O N :=
  sendWithRetry profile (attempt server request)

variable {server} {room I : S → Prop} {A : R → Prop} {Q : Option (R × HttpResponse) → S → Prop}

/-- The invariant holds unless some request found no room. -/
def Sound (room I : S → Prop) (A : R → Prop) (Q : Option (R × HttpResponse) → S → Prop)
    (link : Link S R O N) : Prop :=
  link.channel.Roomy room → link.channel.Inv I A Q

theorem attempt_sound (hrules : Channel.Rules server room I A Q) {request : R} (hA : A request)
    {link : Link S R O N} (h : link.Sound room I A Q) :
    (link.attempt server request).2.Sound room I A Q := by
  intro hroom
  simp only [attempt] at hroom ⊢
  have hinv := h
  refine Channel.inv_events hrules ?_ _ hroom
  have hroomy := Channel.roomy_of_met (Channel.met_events _ _) hroom
  split at hroomy
  · exact h hroomy
  · exact Channel.inv_send (h hroomy) hA

/-- A reply that is seen is the reply to this request. -/
theorem attempt_answered {request : R} {link : Link S R O N} {reply : HttpResponse}
    (h : (link.attempt server request).1 = .response reply) :
    (link.attempt server request).2.channel.Answered request reply := by
  simp only [attempt] at h ⊢
  cases hfate : (link.attempts 0).fate with
  | lost seen => rw [hfate] at h; cases seen <;> cases h
  | unanswered => rw [hfate] at h; cases h
  | answered =>
    simp only [hfate] at h ⊢
    have hsent : (link.channel.send request).pending = link.channel.pending ++ [request] := rfl
    obtain ⟨before, hpending⟩ | ⟨found, hidle, hlast⟩ :=
      Channel.sent_events server hsent (link.attempts 0).meanwhile
    · simp [hpending] at h
    · simp only [hidle, hlast] at h
      cases h
      exact ⟨hidle, hlast⟩

/-- **One call**: the invariant is kept, and a reply is the reply to the request served last. -/
theorem call_spec (hrules : Channel.Rules server room I A Q) {request : R} (hA : A request)
    {link : Link S R O N} (h : link.Sound room I A Q) (profile : DependencyProfile) :
    (link.call server profile request).2.Sound room I A Q ∧
      ∀ reply, (link.call server profile request).1 = .response reply →
        (link.call server profile request).2.channel.Answered request reply :=
  retryLoop_rule (I := Sound room I A Q)
    (Q := fun behaviour link => link.Sound room I A Q ∧
      ∀ reply, behaviour = .response reply → link.channel.Answered request reply)
    (fun _ h => attempt_sound hrules hA h)
    (fun _ h => ⟨attempt_sound hrules hA h, fun _ hreply => attempt_answered hreply⟩) h _

/-- What the reply that was seen says lasts. -/
theorem call_ensures (hrules : Channel.Rules server room I A Q) {request : R} (hA : A request)
    {link : Link S R O N} (h : link.Sound room I A Q) {profile : DependencyProfile}
    {reply : HttpResponse} (hreply : (link.call server profile request).1 = .response reply)
    {post : S → Prop} (hpost : ∀ s, Q (some (request, reply)) s → post s) :
    (link.call server profile request).2.channel.Ensures server room post := by
  obtain ⟨hsound, hanswered⟩ := call_spec hrules hA h profile
  obtain ⟨hidle, hlast⟩ := hanswered reply hreply
  exact Channel.ensures_of_inv hrules hsound hidle (by rw [hlast]; exact hpost)

end Link

/-! ## The world of one order -/

structure World (id : Guid) where
  inventory : Link StockLedger InventoryRequest (OtherInventoryRequest id) Unit
  payment : Link PaymentService PaymentRequest (OtherPaymentRequest id) Guid
  shipping : Link ShipmentBook CreateShipmentRequest (OtherShipmentRequest id) Guid

/-- Everything the surroundings of one run decide. FraudService keeps no state: its
answer is given. -/
structure Surroundings (id : Guid) where
  env : FaultPhase → FaultEnv
  hash : String → String
  available : Dict String I32
  evaluation : Option CallBehaviour
  inventory : Lane (OtherInventoryRequest id) Unit
  payment : Lane (OtherPaymentRequest id) Guid
  shipping : Lane (OtherShipmentRequest id) Guid

namespace Surroundings
variable {id : Guid} (around : Surroundings id)

/-- The dependencies as the coordinator reaches them. -/
def dependencies : Dependencies (World id) where
  stage request w := match request with
    | .reserve request =>
      let (behaviour, link) :=
        w.inventory.call (inventoryServer around.env id) DependencyProfiles.inventory
        (.reserve request)
      (some behaviour, { w with inventory := link })
    | .evaluate _ _ _ => (around.evaluation, w)
    | .authorize key request =>
      let (behaviour, link) :=
        w.payment.call (paymentServer around.env around.hash id) DependencyProfiles.payment
        (.authorize key request)
      (some behaviour, { w with payment := link })
    | .createShipment request =>
      let (behaviour, link) :=
        w.shipping.call (shippingServer around.env id) DependencyProfiles.shipping request
      (some behaviour, { w with shipping := link })
  undo request w := match request with
    | .release orderId =>
      let (behaviour, link) := w.inventory.call (inventoryServer around.env id)
        DependencyProfiles.inventoryCompensation (.release orderId)
      (behaviour, { w with inventory := link })
    | .void orderId =>
      let (behaviour, link) := w.payment.call (paymentServer around.env around.hash id)
        DependencyProfiles.paymentCompensation (.void orderId)
      (behaviour, { w with payment := link })

/-- The services as they start, after what they served before the order came. -/
def start : World id where
  inventory := ⟨Channel.events (inventoryServer around.env id) ⟨⟨around.available, ∅, []⟩, [], none, []⟩
    around.inventory.before, around.inventory.attempts⟩
  payment := ⟨Channel.events (paymentServer around.env around.hash id) ⟨.empty, [], none, []⟩
    around.payment.before, around.payment.attempts⟩
  shipping := ⟨Channel.events (shippingServer around.env id) ⟨.empty, [], none, []⟩ around.shipping.before,
    around.shipping.attempts⟩

/-- The channels at the end: after the last attempts, too, the services go on. -/
def inventoryEnd (w : World id) : Channel StockLedger InventoryRequest HttpResponse :=
  w.inventory.channel.events (inventoryServer around.env id) around.inventory.afterwards

def paymentEnd (w : World id) : Channel PaymentService PaymentRequest HttpResponse :=
  w.payment.channel.events (paymentServer around.env around.hash id) around.payment.afterwards

def shippingEnd (w : World id) : Channel ShipmentBook CreateShipmentRequest HttpResponse :=
  w.shipping.channel.events (shippingServer around.env id) around.shipping.afterwards

end Surroundings

end TxPlatform
