import TxPlatform.Faults.Rules
import TxPlatform.Fraud.RiskRules
import TxPlatform.Inventory.Endpoints
import TxPlatform.Payment.Endpoints
import TxPlatform.Shipping.ShipmentBook

/-! # Fault rules on the wire (FaultModel.cs, FaultEndpoints.cs and the services' Program.cs)

The body of `PUT /internal/faults` is bound to a `FaultRuleRequest`. The services' converter reads an
enumeration from the name of a member or from any 32-bit integer. A property that is missing or null
keeps its default, but null is no value for the mode and the lifetime. Numbers written as JSON strings
are left out: the scenario runner sends none.
-/

namespace TxPlatform

/-! ## Names of the enumerations (FaultModel.cs:7-32) -/

def FaultMode.wireNames : List (String × FaultMode) :=
  [("latency", .latency), ("http-error", .httpError), ("timeout", .timeout),
    ("intermittent", .intermittent), ("business-rejection", .businessRejection),
    ("readiness-loss", .readinessLoss)]

def FaultPhase.wireNames : List (String × FaultPhase) :=
  [("before-effect", .beforeEffect), ("after-effect", .afterEffect)]

/-! ## Reading the body -/

namespace FaultRuleRequest

/-- A JSON number as an `int`. -/
def readInt : Json → Option I32
  | .int n => if I32.minValue ≤ n ∧ n ≤ I32.maxValue then some (BitVec.ofInt 32 n) else none
  | _ => none

def readString : Json → Option String
  | .str text => some text
  | _ => none

def readMode : Json → Option FaultMode
  | .str name => FaultMode.wireNames.lookup name
  | value => (readInt value).map FaultMode.mk

def readPhase : Json → Option FaultPhase
  | .str name => FaultPhase.wireNames.lookup name
  | value => (readInt value).map FaultPhase.mk

variable {α : Type}

/-- A nullable property: missing or null is null. -/
def nullable (read : Json → Option α) : Option Json → Option (Option α)
  | none => some none
  | some .null => some none
  | some value => (read value).map some

/-- A property of a value type: missing is the default, null is an error. -/
def valueType (read : Json → Option α) (default : α) : Option Json → Option α
  | none => some default
  | some value => read value

/-- The request a body binds to; `none` is the 400 of a body that does not. -/
def bind : Json → Option FaultRuleRequest
  | .obj members => do
    let property := Json.member members
    let operation ← nullable readString (property "operation")
    let mode ← valueType readMode .latency (property "mode")
    let ttlSeconds ← valueType readInt 0 (property "ttlSeconds")
    let delayMs ← nullable readInt (property "delayMs")
    let statusCode ← nullable readInt (property "statusCode")
    let phase ← nullable readPhase (property "phase")
    let failAttempts ← nullable readInt (property "failAttempts")
    let everyNth ← nullable readInt (property "everyNth")
    let scenarioRunId ← nullable readString (property "scenarioRunId")
    let maxActivations ← nullable readInt (property "maxActivations")
    return ⟨operation, mode, ttlSeconds, delayMs, statusCode, phase, failAttempts, everyNth,
      scenarioRunId, maxActivations⟩
  | _ => none

end FaultRuleRequest

/-! ## The services (Program.cs) -/

/-- `FaultOptions.MaxTtlSeconds` when no setting changes it. -/
def FaultOptions.defaultMaxTtlSeconds : Int := 3600

inductive PlatformService where
  | orderService
  | inventoryService
  | fraudService
  | paymentService
  | shippingService
  deriving DecidableEq

namespace PlatformService

/-- `PlatformServiceInfo.FaultOperations`. -/
def faultOperations : PlatformService → List String
  | orderService => []
  | inventoryService => [ReservationEndpoints.reserveOperation, ReservationEndpoints.releaseOperation]
  | fraudService => [EvaluationEndpoints.evaluateOperation]
  | paymentService => [PaymentEndpoints.authorizeOperation, PaymentEndpoints.voidOperation]
  | shippingService => [ShipmentEndpoints.createOperation]

/-- The phases at which the handler of an operation asks the injector. Releasing and voiding ask only
before the effect. -/
def faultPoints (operation : String) : List FaultPhase :=
  if operation = ReservationEndpoints.releaseOperation ∨ operation = PaymentEndpoints.voidOperation then
    [.beforeEffect]
  else [.beforeEffect, .afterEffect]

end PlatformService

end TxPlatform
