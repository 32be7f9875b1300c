import TxPlatform.Order.Order
import TxPlatform.Inventory.Endpoints
import TxPlatform.Payment.Endpoints
import TxPlatform.Shipping.ShipmentBook

/-! # From HTTP to stage results (TransactionRules.cs, DependencyPolicies.cs, Gateways.cs)

A call to a dependency ends in a response or in one of the exceptions of its resilience pipeline
(`CallBehaviour`); a stage call can also be cut off by the transaction budget. The gateways build
the request from the order and translate the outcome into a `StageResult`. Reading the body of a
reply is part of the translation, and a body that cannot be read raises an exception there is no
catch clause for: the results here are `Except`.
-/

namespace TxPlatform

/-! ## Stage results and what they mean (TransactionRules.cs) -/

inductive StageResult where
  | success
  | failure (kind : FailureKind) (reason : String)
  deriving DecidableEq

def StageResult.succeeded : StageResult → Bool
  | .success => true
  | .failure _ _ => false

/-- Inventory is checked first, so a double failure always produces the same state. -/
def FanOutResolution.resolve : StageResult → StageResult → Option OrderFailure
  | .failure kind reason, _ => some ⟨.inventory, kind, reason⟩
  | .success, .failure kind reason => some ⟨.fraud, kind, reason⟩
  | .success, .success => none

/-- `CompensationPlan.For`: what to undo after a failure, in the order it must run. -/
def CompensationPlan.planFor (failure : OrderFailure) : List CompensationAction :=
  match failure.stage, failure.kind with
  | .inventory, .businessRejection => []
  | .inventory, _ => [.releaseInventory]
  | .fraud, _ => [.releaseInventory]
  | .payment, .businessRejection => [.releaseInventory]
  | .payment, _ => [.voidPayment, .releaseInventory]
  | .shipping, _ => [.voidPayment, .releaseInventory]

/-- A payment is voided once one may have been authorized. -/
theorem voidPayment_mem_planFor {failure : OrderFailure} :
    .voidPayment ∈ CompensationPlan.planFor failure ↔
      (failure.stage = .payment ∧ failure.kind ≠ .businessRejection) ∨ failure.stage = .shipping := by
  obtain ⟨stage, kind, reason⟩ := failure
  cases stage <;> cases kind <;> simp [CompensationPlan.planFor]

/-- Stock is released unless the reservation itself was rejected. -/
theorem releaseInventory_mem_planFor {failure : OrderFailure} :
    .releaseInventory ∈ CompensationPlan.planFor failure ↔
      ¬ (failure.stage = .inventory ∧ failure.kind = .businessRejection) := by
  obtain ⟨stage, kind, reason⟩ := failure
  cases stage <;> cases kind <;> simp [CompensationPlan.planFor]

/-- The three plans there are. -/
theorem planFor_cases (failure : OrderFailure) :
    CompensationPlan.planFor failure = [] ∨ CompensationPlan.planFor failure = [.releaseInventory] ∨
      CompensationPlan.planFor failure = [.voidPayment, .releaseInventory] := by
  obtain ⟨stage, kind, reason⟩ := failure
  cases stage <;> cases kind <;> simp [CompensationPlan.planFor]

/-! ## Retrying (DependencyPolicies.cs) -/

structure DependencyProfile where
  maxAttempts : Nat
  retryOnConflictInProgress : Bool

namespace DependencyProfiles
def inventory : DependencyProfile := ⟨2, false⟩
def fraud : DependencyProfile := ⟨2, false⟩
def payment : DependencyProfile := ⟨3, true⟩
def shipping : DependencyProfile := ⟨3, false⟩
def inventoryCompensation : DependencyProfile := ⟨2, false⟩
def paymentCompensation : DependencyProfile := ⟨2, false⟩
end DependencyProfiles

/-- How a call, or one attempt of it, ends. -/
inductive CallBehaviour where
  | response (response : HttpResponse)
  | timeoutRejected
  | brokenCircuit
  | httpRequestError (error : String)

inductive OutcomeCategory where
  | success
  | httpStatus
  | attemptTimeout
  | connectionFailure
  | circuitOpen
  deriving DecidableEq

structure CallOutcome where
  category : OutcomeCategory
  statusCode : Int := 0

/-- `CallOutcome.From`. -/
def CallOutcome.ofBehaviour : CallBehaviour → CallOutcome
  | .response r => if r.isSuccessStatusCode then ⟨.success, 0⟩ else ⟨.httpStatus, r.statusCode⟩
  | .timeoutRejected => ⟨.attemptTimeout, 0⟩
  | .httpRequestError _ => ⟨.connectionFailure, 0⟩
  | .brokenCircuit => ⟨.circuitOpen, 0⟩

def RetryClassifier.shouldRetry (profile : DependencyProfile) (outcome : CallOutcome) : Bool :=
  match outcome.category with
  | .attemptTimeout | .connectionFailure => true
  | .httpStatus => outcome.statusCode = 502 ∨ outcome.statusCode = 503 ∨ outcome.statusCode = 504
      ∨ (outcome.statusCode = 409 ∧ profile.retryOnConflictInProgress)
  | _ => false

section Retry
variable {σ : Type}

/-- The retry strategy with `retries` retries left, around one attempt. -/
def retryLoop (profile : DependencyProfile) (attempt : σ → CallBehaviour × σ) :
    Nat → σ → CallBehaviour × σ
  | 0, s => attempt s
  | retries + 1, s =>
    let (outcome, s) := attempt s
    if RetryClassifier.shouldRetry profile (.ofBehaviour outcome) then retryLoop profile attempt retries s
    else (outcome, s)

/-- `MaxRetryAttempts = profile.MaxAttempts - 1`. -/
def sendWithRetry (profile : DependencyProfile) (attempt : σ → CallBehaviour × σ) :
    σ → CallBehaviour × σ :=
  retryLoop profile attempt (profile.maxAttempts - 1)

/-- What every attempt preserves, and what the last one establishes, holds of the whole call. -/
theorem retryLoop_rule {profile : DependencyProfile} {attempt : σ → CallBehaviour × σ} {I : σ → Prop}
    {Q : CallBehaviour → σ → Prop} (hkeep : ∀ s, I s → I (attempt s).2)
    (hlast : ∀ s, I s → Q (attempt s).1 (attempt s).2) {s : σ} (h : I s) (retries : Nat) :
    Q (retryLoop profile attempt retries s).1 (retryLoop profile attempt retries s).2 := by
  induction retries generalizing s with
  | zero => exact hlast s h
  | succ retries ih =>
    simp only [retryLoop]
    split
    · exact ih (hkeep s h)
    · exact hlast s h

end Retry

/-! ## Reading reply bodies (Gateways.cs:49, 130) -/

/-- Member names match without regard to the case of ASCII letters. -/
def sameName (a b : String) : Bool := a.toList.map Char.toLower = b.toList.map Char.toLower

/-- A nullable string member of a JSON object: the last occurrence counts, and every occurrence must
be a string or null. -/
def readStringMember (name : String) (members : List (String × Json)) : Except Exn (Option String) :=
  members.foldlM (fun found entry =>
    if sameName entry.1 name then
      match entry.2 with
      | .str text => .ok (some text)
      | .null => .ok none
      | _ => .error .json
    else .ok found) none

structure ProblemBody where
  type : Option String
  title : Option String
  detail : Option String

/-- `ReadFromJsonAsync<ProblemBody>`: null for the JSON null, an exception for an unreadable body. -/
def readProblem : Option Json → Except Exn (Option ProblemBody)
  | some .null => .ok none
  | some (.obj members) => do
    let type ← readStringMember "type" members
    let title ← readStringMember "title" members
    let detail ← readStringMember "detail" members
    return some ⟨type, title, detail⟩
  | _ => .error .json

structure Evaluation where
  decision : Option String
  rule : Option String

/-- `ReadFromJsonAsync<Evaluation>`. -/
def readEvaluation : Option Json → Except Exn (Option Evaluation)
  | some .null => .ok none
  | some (.obj members) => do
    let decision ← readStringMember "decision" members
    let rule ← readStringMember "rule" members
    return some ⟨decision, rule⟩
  | _ => .error .json

/-- `type.TrimEnd('/').Split('/')[^1]`. -/
def lastSegment (type : String) : String :=
  let trimmed := type.toList.reverse.dropWhile (· = '/')
  String.ofList (trimmed.takeWhile (· ≠ '/')).reverse

def reasonFromProblemType (type : Option String) : String :=
  if isNullOrWhiteSpace type then "rejected" else lastSegment (type.getD "")

/-! ## Translation (Gateways.cs:53-107) -/

namespace DownstreamCall

def interpretAsync (response : HttpResponse) : Except Exn StageResult :=
  if response.isSuccessStatusCode then .ok .success
  else if response.statusCode = 422 then
    (readProblem response.body).map fun problem =>
      .failure .businessRejection (reasonFromProblemType (problem.bind (·.type)))
  else .ok (.failure .dependencyError s!"http_{response.statusCode}")

/-- `TranslateExceptionsAsync`; `none` is the budget's token cancelling the call. -/
def translate (interpret : HttpResponse → Except Exn StageResult) :
    Option CallBehaviour → Except Exn StageResult
  | some (.response response) => interpret response
  | some .timeoutRejected => .ok (.failure .timeout "timeout")
  | some .brokenCircuit => .ok (.failure .unavailable "circuit_open")
  | some (.httpRequestError error) => .ok (.failure .unavailable error.toLower)
  | none => .ok (.failure .timeout "transaction_budget_exceeded")

end DownstreamCall

/-! ## The gateways (Gateways.cs:109-184) -/

inductive StageRequest where
  | reserve (request : ReserveStockRequest)
  | evaluate (orderId : Guid) (totalAmount : Decimal) (itemCount : I32)
  | authorize (key : String) (request : AuthorizePaymentRequest)
  | createShipment (request : CreateShipmentRequest)

inductive UndoRequest where
  | release (orderId : Guid)
  | void (orderId : Guid)

/-- The HTTP clients with their pipelines, over whatever the dependencies keep in `σ`. Undo calls
do not see the transaction budget. -/
structure Dependencies (σ : Type) where
  stage : StageRequest → σ → Option CallBehaviour × σ
  undo : UndoRequest → σ → CallBehaviour × σ

def PaymentGateway.idempotencyKeyFor (orderId : Guid) : String := s!"order-{orderId.formatN}-authorize"

def reserveRequest (order : Order) : ReserveStockRequest :=
  ⟨order.id, some (order.lines.map fun line => ⟨line.sku, line.quantity⟩)⟩

def authorizeRequest (order : Order) (amount : Decimal) : AuthorizePaymentRequest :=
  ⟨order.id, amount, order.currency, order.paymentToken⟩

def createRequest (order : Order) (itemCount : I32) : CreateShipmentRequest :=
  ⟨order.id, order.shippingZone, itemCount⟩

/-- A 2xx evaluation counts only when its decision is `approved`. -/
def interpretEvaluation (response : HttpResponse) : Except Exn StageResult :=
  if response.isSuccessStatusCode then
    (readEvaluation response.body).map fun evaluation =>
      if evaluation.bind (·.decision) = some "approved" then .success
      else .failure .businessRejection ((evaluation.bind (·.rule)).getD "fraud_rejected")
  else DownstreamCall.interpretAsync response

/-- Nothing to release is a successful undo. -/
def interpretRelease (response : HttpResponse) : Except Exn StageResult :=
  if response.statusCode = 404 then .ok .success else DownstreamCall.interpretAsync response

namespace Dependencies
variable {σ : Type} (dependencies : Dependencies σ)

def reserveAsync (order : Order) (s : σ) : Except Exn StageResult × σ :=
  let (behaviour, s) := dependencies.stage (.reserve (reserveRequest order)) s
  (DownstreamCall.translate DownstreamCall.interpretAsync behaviour, s)

/-- The body reads both totals; an overflow escapes like any other exception of the call. -/
def evaluateAsync (order : Order) (s : σ) : Except Exn StageResult × σ :=
  match order.totalAmount, order.itemCount with
  | some totalAmount, some itemCount =>
    let (behaviour, s) := dependencies.stage (.evaluate order.id totalAmount itemCount) s
    (DownstreamCall.translate interpretEvaluation behaviour, s)
  | _, _ => (.error .overflow, s)

def authorizeAsync (order : Order) (s : σ) : Except Exn StageResult × σ :=
  match order.totalAmount with
  | some amount =>
    let (behaviour, s) := dependencies.stage
      (.authorize (PaymentGateway.idempotencyKeyFor order.id) (authorizeRequest order amount)) s
    (DownstreamCall.translate DownstreamCall.interpretAsync behaviour, s)
  | none => (.error .overflow, s)

def createAsync (order : Order) (s : σ) : Except Exn StageResult × σ :=
  match order.itemCount with
  | some itemCount =>
    let (behaviour, s) := dependencies.stage (.createShipment (createRequest order itemCount)) s
    (DownstreamCall.translate DownstreamCall.interpretAsync behaviour, s)
  | none => (.error .overflow, s)

def releaseAsync (orderId : Guid) (s : σ) : Except Exn StageResult × σ :=
  let (behaviour, s) := dependencies.undo (.release orderId) s
  (DownstreamCall.translate interpretRelease (some behaviour), s)

def voidAsync (orderId : Guid) (s : σ) : Except Exn StageResult × σ :=
  let (behaviour, s) := dependencies.undo (.void orderId) s
  (DownstreamCall.translate DownstreamCall.interpretAsync (some behaviour), s)

end Dependencies

end TxPlatform
