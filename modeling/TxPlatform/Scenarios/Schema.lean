import TxPlatform.Lib.Json

/-! # What a scenario asks for (schema.py)

Only what the runner turns into actions: the workloads a scenario may disrupt, the faults it
injects and the Kubernetes actions it makes. Times are left out: a Kubernetes action may happen at
any moment of the traffic.
-/

namespace TxPlatform

/-- The keys of `WORKLOADS` (schema.py:19-23). -/
inductive Workload where
  | orderService
  | inventoryService
  | fraudService
  | paymentService
  | shippingService
  | jaegerCollector
  | opensearchTraces
  deriving DecidableEq

namespace Workload

def name : Workload → String
  | orderService => "order-service"
  | inventoryService => "inventory-service"
  | fraudService => "fraud-service"
  | paymentService => "payment-service"
  | shippingService => "shipping-service"
  | jaegerCollector => "jaeger-collector"
  | opensearchTraces => "opensearch-traces"

def all : List Workload :=
  [orderService, inventoryService, fraudService, paymentService, shippingService, jaegerCollector,
    opensearchTraces]

/-- `WORKLOADS[name]`. -/
def ofName (name : String) : Option Workload := all.find? fun workload => workload.name = name

theorem ofName_name (workload : Workload) : ofName workload.name = some workload := by
  cases workload <;> decide

end Workload

/-- `FaultSpec.mode` (schema.py:50). -/
inductive FaultSpecMode where
  | latency
  | httpError
  | timeout
  | intermittent
  | businessRejection
  | readinessLoss
  deriving DecidableEq

def FaultSpecMode.literal : FaultSpecMode → String
  | .latency => "latency"
  | .httpError => "http-error"
  | .timeout => "timeout"
  | .intermittent => "intermittent"
  | .businessRejection => "business-rejection"
  | .readinessLoss => "readiness-loss"

def FaultSpecMode.ofLiteral (text : String) : Option FaultSpecMode :=
  [latency, httpError, timeout, intermittent, businessRejection, readinessLoss].find? fun mode =>
    mode.literal = text

theorem FaultSpecMode.ofLiteral_literal (mode : FaultSpecMode) : ofLiteral mode.literal = some mode := by
  cases mode <;> decide

inductive FaultSpecPhase where
  | beforeEffect
  | afterEffect
  deriving DecidableEq

def FaultSpecPhase.literal : FaultSpecPhase → String
  | .beforeEffect => "before-effect"
  | .afterEffect => "after-effect"

/-- `"all"` affects every replica; `"one"` affects a single replica. -/
inductive FaultReplicas where
  | all
  | one
  deriving DecidableEq

structure FaultSpec where
  service : Workload
  operation : String
  mode : FaultSpecMode
  delayMs : Option Int := none
  statusCode : Option Int := none
  phase : Option FaultSpecPhase := none
  failAttempts : Option Int := none
  everyNth : Option Int := none
  maxActivations : Option Int := none
  ttlSeconds : Int
  replicas : FaultReplicas := .all
  isScoped : Bool := true

/-- `{key: value for key, value in rule.items() if value is not None}` (schema.py:83-90). -/
def FaultSpec.toRule (spec : FaultSpec) (scenarioRunId : String) : Json :=
  .obj <| [("operation", some (.str spec.operation)), ("mode", some (.str spec.mode.literal)),
    ("ttlSeconds", some (.int spec.ttlSeconds)), ("delayMs", spec.delayMs.map .int),
    ("statusCode", spec.statusCode.map .int), ("phase", spec.phase.map (.str ·.literal)),
    ("failAttempts", spec.failAttempts.map .int), ("everyNth", spec.everyNth.map .int),
    ("maxActivations", spec.maxActivations.map .int),
    ("scenarioRunId", if spec.isScoped then some (.str scenarioRunId) else none)].filterMap
      fun (key, value) => value.map fun value => (key, value)

/-- `KubernetesAction` (schema.py:93-115). The validator ties `replicas` and
`restoreAfterSeconds` to `scale`; whether a restore was asked for is all that its time decides. -/
inductive KubernetesAction where
  | deletePod (workload : Workload)
  | rolloutRestart (workload : Workload)
  | scale (workload : Workload) (replicas : Nat) (restoreAfter : Bool)
  deriving DecidableEq

end TxPlatform
