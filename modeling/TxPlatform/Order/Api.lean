import TxPlatform.Order.Coordinator
import TxPlatform.Order.Telemetry
import TxPlatform.Order.Validator

/-! # The Order API (OrderEndpoints.cs)

`POST /orders` runs the whole transaction before it answers; a failed transaction is answered with a
problem that names the order all the same. `GET /orders/{id}` answers from the repository, so it also
sees orders that are still pending. An exception leaves either endpoint to the exception handler, whose
answer names no order.
-/

namespace TxPlatform

namespace OrderApi

/-- The texts of decimals and times in JSON. -/
structure JsonTexts where
  decimal : Decimal → Json
  time : DateTimeOffset → Json

structure ApiResponse where
  status : Nat
  location : Option String := none
  body : Json

/-- `OrderOutcomeMapping.StatusCodeFor`. -/
def statusCodeFor : FailureKind → Nat
  | .businessRejection => 422
  | .dependencyError => 502
  | .unavailable => 503
  | .timeout => 504

def CompensationStatus.name : CompensationStatus → String
  | .succeeded => "Succeeded"
  | .failed => "Failed"

/-! ## Responses -/

section Json
variable (texts : JsonTexts)

def failureJson (failure : OrderFailure) : Json :=
  .obj [("stage", .str failure.stage.name), ("kind", .str failure.kind.name), ("reason", .str failure.reason)]

def compensationJson (steps : List CompensationStepResult) : Json :=
  .arr (steps.map fun step => .obj [("action", .str step.action.name),
    ("status", .str (CompensationStatus.name step.status)), ("detail", .str step.detail)])

/-- `OrderLineResponse`. The total of a line was read before, when the totals were. -/
def lineJson (line : OrderLine) : Json :=
  .obj [("sku", .str line.sku), ("quantity", .int line.quantity.toInt), ("unitPrice", texts.decimal line.unitPrice),
    ("lineTotal", texts.decimal (line.lineTotal.getD Decimal.zero))]

/-- `OrderResponse.From`. -/
def orderResponse (order : OrderSnapshot) : Json :=
  .obj [("orderId", .str order.id.formatD), ("state", .str order.state.name),
    ("totalAmount", texts.decimal order.totalAmount), ("currency", .str order.currency),
    ("shippingZone", .str order.shippingZone), ("lines", .arr (order.lines.map (lineJson texts))),
    ("failure", (order.failure.map failureJson).getD .null), ("compensation", compensationJson order.compensation),
    ("stateHistory", .arr (.str OrderState.pending.name :: order.history.map fun transition =>
      .str transition.target.name)),
    ("createdAt", texts.time order.createdAt), ("updatedAt", texts.time order.updatedAt)]

/-- `TypedResults.Problem`; what is not given is left out. -/
def problem (status : Nat) (title : String) (type : String) (detail : Option String)
    (extensions : List (String × Json)) : ApiResponse where
  status := status
  body := .obj ([("type", .str type), ("title", .str title), ("status", .int status)] ++
    (detail.map fun detail => ("detail", Json.str detail)).toList ++ extensions)

/-- `TypedResults.ValidationProblem`. -/
def validationProblem (errors : CreateOrderValidator.Errors) : ApiResponse :=
  problem 400 "The order is invalid" (problemTypeBase ++ "invalid-order") none
    [("errors", .obj (errors.map fun (field, messages) => (field, .arr (messages.map .str))))]

/-- What the exception handler answers. -/
def exceptionResponse : ApiResponse :=
  problem 500 "An error occurred while processing your request." "https://tools.ietf.org/html/rfc9110#section-15.6.1"
    none []

/-- The end of `CreateOrderAsync`; `base` is scheme, host and path base of the request. -/
def outcomeResponse (base : String) (result : OrderSnapshot) : Except Exn ApiResponse :=
  let location := base ++ "/orders/" ++ result.id.formatD
  if result.state = .completed then
    .ok { status := 201, location := some location, body := orderResponse texts result }
  else
    match result.failure with
    | none => .error .nullValue
    | some failure =>
      .ok { problem (statusCodeFor failure.kind) s!"The order ended in state {result.state.name}"
              (problemTypeBase ++
                if failure.kind = .businessRejection then "order-rejected" else "order-dependency-failure")
              (some s!"{failure.stage.name} failed: {failure.reason}")
              [("orderId", .str result.id.formatD), ("state", .str result.state.name),
                ("failure", failureJson failure), ("compensation", compensationJson result.compensation)] with
            location := some location }

end Json

/-! ## The endpoints -/

/-- The start of `CreateOrderAsync`: the errors of the request, or the order it makes. -/
def placeOrder (catalog : PriceCatalog) (currency : String) (request : Option CreateOrderRequest) (newGuid : Guid)
    (now : DateTimeOffset) : Except Exn (CreateOrderValidator.Errors ⊕ Order) := do
  let errors ← CreateOrderValidator.validate request catalog
  if errors ≠ [] then return .inl errors
  let request ← match request with
    | none => .error .nullValue
    | some request => .ok request
  let lines ← ((request.items.getD []).mapM fun
    | none => .error .nullValue
    | some line => .ok
      ⟨line.sku.getD "", line.quantity, ((line.sku.bind catalog.tryGetPrice).getD Decimal.zero)⟩ : Except Exn (List OrderLine))
  return .inr (Order.create newGuid lines currency (request.paymentToken.getD "") (request.shippingZone.getD "") now)

/-- `CreateOrderAsync`, with the calls and the clock of its transaction and what others save meanwhile. -/
def createOrderAsync {σ : Type} (texts : JsonTexts) (base : String) (catalog : PriceCatalog) (currency : String)
    (dependencies : Dependencies σ) (clock : Nat → DateTimeOffset) (traced : Bool) (others : List OrderSnapshot)
    (request : Option CreateOrderRequest) (newGuid : Guid) (now : DateTimeOffset) (repository : OrderRepository) (s : σ) :
    Except Exn ApiResponse × OrderRepository × σ :=
  match placeOrder catalog currency request newGuid now with
  | .error e => (.error e, repository, s)
  | .ok (.inl errors) => (.ok (validationProblem errors), repository, s)
  | .ok (.inr order) =>
    match OrderTransactionCoordinator.executeAsync dependencies clock traced others order repository s with
    | (.error e, repository, s) => (.error e, repository, s)
    | (.ok result, repository, s) => (outcomeResponse texts base result, repository, s)

/-- `GetOrder`. -/
def getOrder (texts : JsonTexts) (repository : OrderRepository) (orderId : Guid) : ApiResponse :=
  match repository.find orderId with
  | none => problem 404 "Order not found" (problemTypeBase ++ "order-not-found") none []
  | some order => { status := 200, body := orderResponse texts order }

end OrderApi

end TxPlatform
