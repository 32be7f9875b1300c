import TxPlatform.Scenarios.Verdicts
import TxPlatform.Traces.Truthful

/-! # The contracts over the traces of a scenario (contracts.py:52-214, 429-453, jaeger.py:36-46)

A contract looks at the requests that ended with its status, waits for the trace of each and checks it.
The checks of all requests are collected under their names, so one name passes only if it passes for
every trace; and a contract that checked nothing fails.
-/

namespace TxPlatform

open Traces Verdicts
open CheckRuntime (PyFloat)

namespace Contracts

/-- What a contract reads of a request record. -/
structure SentRequest where
  status : Int
  traceId : String
  correlationId : String
  kongRequestId : String
  orderId : String

/-- `Context`. `polls` are the answers of `get_trace` for a request until the deadline, and `number` the
parameters of the contract as `float` reads them. -/
structure Context [CheckRuntime] where
  runId : String
  sent : List SentRequest
  polls : SentRequest → List (Option Trace)
  number : String → Option PyFloat

def allServices : List String := edgeService :: dotnetServices
def fullPath : List String := ["InventoryReserved", "PaymentAuthorized", "ShipmentCreated", "Completed"]

/-- `wait_for_trace`; without a trace that is as wanted it returns what came last. -/
def waitForTrace (wanted : Trace → Bool) (latest : Option Trace) : List (Option Trace) → Option Trace
  | [] => latest
  | none :: polls => waitForTrace wanted none polls
  | some trace :: polls => if wanted trace then some trace else waitForTrace wanted (some trace) polls

section Contracts
variable [Python] [CheckRuntime] (ctx : Context)

/-- `required <= trace.services`. -/
def complete (required : List String) (trace : Trace) : Bool := required.all (· ∈ trace.services)

/-- `Context.requests`. -/
def Context.requests (status : Int) : List SentRequest := ctx.sent.filter (·.status = status)

/-- `Context.trace`. -/
def Context.trace (request : SentRequest) (required : List String) : Option Trace :=
  if request.traceId = "" then none else waitForTrace (complete required) none (ctx.polls request)

/-- The trace of a request, if it has all that is required. -/
def stored (required : List String) (request : SentRequest) : Option Trace :=
  (ctx.trace request required).filter (complete required)

/-- `_stored_traces`: what it tells the context, and the traces it found. -/
def storedTraces (requests : List SentRequest) (required : List String) (checkName : String) :
    List ContractCall × List (SentRequest × Trace) :=
  ((requests.filter fun request => stored ctx required request = none).map fun request =>
      .check checkName ["trace not stored or incomplete"]
        (if request.traceId = "" then request.correlationId else request.traceId),
    requests.filterMap fun request => (stored ctx required request).map fun trace => (request, trace))

/-- `_common`. -/
def common (request : SentRequest) (trace : Trace) : Option (List ContractCall) := do
  let problems ← integrity trace
  let gaps ← gatewaySpanGaps trace
  let correlated ← correlation trace ⟨request.correlationId, request.kongRequestId, request.orderId⟩ ctx.runId
  return [.check "trace integrity" problems trace.traceId] ++
    (if gaps = [] then [] else [.note kongGapNote trace.traceId]) ++
    [.check "kubernetes metadata" (kubernetesMetadata trace) trace.traceId,
      .check "correlation" correlated trace.traceId,
      .check "sensitive data" (sensitiveData trace ["canary-" ++ ctx.runId]) trace.traceId]

/-- The loop over `_stored_traces`: `_common`, then the checks of the contract. -/
def overStored (requests : List SentRequest) (required : List String) (checkName : String)
    (checks : Trace → Option (List ContractCall)) : Option (List ContractCall) := do
  let (missing, found) := storedTraces ctx requests required checkName
  let calls ← found.mapM fun (request, trace) => do
    let shared ← common ctx request trace
    let own ← checks trace
    return shared ++ own
  return missing ++ calls.flatten

def normalChecks (trace : Trace) : Option (List ContractCall) := do
  let path ← statePath trace fullPath
  return [.check "topology" (topology trace allServices []) trace.traceId,
    .check "stage order" (stageOrder trace) trace.traceId,
    .check "state events" path trace.traceId,
    .check "error marking" (errorMarking trace false) trace.traceId]

def normalOrder : Option (List ContractCall) :=
  overStored ctx (ctx.requests 201) allServices "traces kept" normalChecks

def slowChecks (trace : Trace) : Option (List ContractCall) := do
  let latency ← latencyDominance trace "payment.authorize"
    ((ctx.number "minShare").getD (CheckRuntime.quotient 6 10))
    ((ctx.number "minTraceMs").getD (CheckRuntime.quotient 1000 1))
  let path ← statePath trace fullPath
  return [.check "latency attribution" latency trace.traceId, .check "state events" path trace.traceId]

def slowPayment : Option (List ContractCall) :=
  overStored ctx (ctx.requests 201) allServices "slow traces kept without debug" (slowChecks ctx)

def retryChecks (trace : Trace) : Option (List ContractCall) := do
  let replay ← idempotentReplay trace
  let latency ← latencyDominance trace "payment.authorize" (CheckRuntime.quotient 5 10)
    (CheckRuntime.quotient 1500 1)
  let path ← statePath trace fullPath
  return [.check "retry attempts" (retries trace "payment.authorize" 2) trace.traceId,
    .check "idempotent replay" replay trace.traceId,
    .check "accumulated latency" latency trace.traceId,
    .check "state events" path trace.traceId]

def paymentRetry : Option (List ContractCall) :=
  overStored ctx (ctx.requests 201) allServices "retried traces kept" retryChecks

/-- The arguments of `_failed_flow`. -/
structure FailedFlow where
  status : Int
  path : List String
  required : List String
  forbidden : List String
  stages : List String
  forbiddenStages : List String
  technical : Bool
  retriedStage : Option (String × Int) := none

/-- The checks of `_failed_flow` beside those of `_common`. -/
def flowChecks (flow : FailedFlow) (trace : Trace) : Option (List ContractCall) := do
  let path ← statePath trace flow.path
  return [.check "topology" (topology trace flow.required flow.forbidden) trace.traceId,
      .check "stages" (stagesPresent trace flow.stages flow.forbiddenStages) trace.traceId,
      .check "stage order" (stageOrder trace) trace.traceId,
      .check "state events" path trace.traceId,
      .check "error marking" (errorMarking trace flow.technical) trace.traceId] ++
    (flow.retriedStage.map fun (name, attempts) =>
      ContractCall.check "retry attempts" (retries trace name attempts) trace.traceId).toList

/-- `if not requests: ctx.check(…)`. -/
def unlessEmpty (requests : List SentRequest) (name problem : String) : List ContractCall :=
  if requests = [] then [.check name [problem] ""] else []

/-- `_failed_flow`. -/
def failedFlow (flow : FailedFlow) : Option (List ContractCall) := do
  let requests := ctx.requests flow.status
  let calls ← overStored ctx requests flow.required "failure traces kept" (flowChecks flow)
  return unlessEmpty requests "traces kept" s!"no request ended with status {flow.status}" ++ calls

end Contracts

def paymentTimeout : FailedFlow where
  status := 504
  path := ["InventoryReserved", "PaymentFailed"]
  required := ["kong-gateway", "order-service", "inventory-service", "fraud-service", "payment-service"]
  forbidden := ["shipping-service"]
  stages := ["payment.authorize", "compensation.payment.void", "compensation.inventory.release"]
  forbiddenStages := ["shipping.create"]
  technical := true
  retriedStage := some ("payment.authorize", 3)

def inventoryFailure : FailedFlow where
  status := 502
  path := ["InventoryFailed"]
  required := ["kong-gateway", "order-service", "inventory-service", "fraud-service"]
  forbidden := ["payment-service", "shipping-service"]
  stages := ["inventory.reserve", "fraud.evaluate"]
  forbiddenStages := ["payment.authorize", "shipping.create"]
  technical := true

def fraudRejection : FailedFlow where
  status := 422
  path := ["FraudFailed"]
  required := ["kong-gateway", "order-service", "inventory-service", "fraud-service"]
  forbidden := ["payment-service", "shipping-service"]
  stages := ["fraud.evaluate", "compensation.inventory.release"]
  forbiddenStages := ["payment.authorize", "shipping.create"]
  technical := false

def shippingFailure : FailedFlow where
  status := 502
  path := ["InventoryReserved", "PaymentAuthorized", "ShippingFailed"]
  required := allServices
  forbidden := []
  stages := ["shipping.create", "compensation.payment.void", "compensation.inventory.release"]
  forbiddenStages := []
  technical := true

section Contracts
variable [Python] [CheckRuntime] (ctx : Context)

/-- `dependency_unavailable`. -/
def missingDependency (trace : Trace) : List ContractCall :=
  let timedOut := match trace.named "shipping.create" with
    | [] => false
    | stage :: _ => Python.eq (Python.get stage.attributes "failure.kind") (.str "timeout")
  [.check "missing dependency visible"
      ((if timedOut then [] else ["shipping.create is not marked as a timeout"]) ++
        if trace.byService "shipping-service" (some "SERVER") = [] then []
        else ["a ShippingService span exists although no replica was running"]) trace.traceId,
    .check "retry attempts" (retries trace "shipping.create" 3) trace.traceId,
    .check "stages" (stagesPresent trace ["compensation.payment.void", "compensation.inventory.release"] [])
      trace.traceId]

def dependencyUnavailable : Option (List ContractCall) := do
  let requests := ctx.requests 504
  let calls ← overStored ctx requests ["kong-gateway", "order-service", "payment-service"] "failure traces kept"
    fun trace => some (missingDependency trace)
  return unlessEmpty requests "missing dependency visible" "no order failed with 504 while Shipping had no replica" ++
    calls

/-- A contract over the traces of all requests that ended with one status. -/
structure TraceContract where
  name : String
  status : Int
  required : List String
  /-- Its checks beside those of `_common`. -/
  checks : Trace → Option (List ContractCall)
  /-- What it tells its context. -/
  calls : Option (List ContractCall)

def traceContracts : List TraceContract :=
  [⟨"normal-order", 201, allServices, normalChecks, normalOrder ctx⟩,
    ⟨"slow-payment", 201, allServices, slowChecks ctx, slowPayment ctx⟩,
    ⟨"payment-retry", 201, allServices, retryChecks, paymentRetry ctx⟩] ++
  ([("payment-timeout", paymentTimeout), ("inventory-failure", inventoryFailure), ("fraud-rejection", fraudRejection),
    ("shipping-failure", shippingFailure)].map fun (name, flow) =>
      ⟨name, flow.status, flow.required, flowChecks flow, failedFlow ctx flow⟩) ++
  [⟨"dependency-unavailable", 504, ["kong-gateway", "order-service", "payment-service"],
    fun trace => some (missingDependency trace), dependencyUnavailable ctx⟩]

end Contracts

/-! ## What a verdict stands on -/

/-- The call does not report a problem. -/
def Clean : ContractCall → Prop
  | .check _ problems _ => problems = []
  | .note _ _ => True

def IsCheck : ContractCall → Prop
  | .check _ _ _ => True
  | .note _ _ => False

@[simp] theorem clean_check {name subject : String} {problems : List String} :
    Clean (.check name problems subject) ↔ problems = [] := Iff.rfl

@[simp] theorem clean_note {name subject : String} : Clean (.note name subject) := trivial

instance : DecidablePred Clean
  | .check _ problems _ => inferInstanceAs (Decidable (problems = []))
  | .note _ _ => isTrue trivial

/-- No name has a problem. -/
def AllClean (entries : List (String × List String)) : Prop := ∀ entry ∈ entries, entry.2 = []

theorem allClean_extendAt {entries : List (String × List String)} {key : String} {values : List String} :
    AllClean (extendAt entries key values) ↔ AllClean entries ∧ values = [] := by
  unfold extendAt AllClean
  split
  · rename_i hkey
    obtain ⟨found, hfound, rfl⟩ := List.mem_map.1 hkey
    rw [List.forall_mem_map]
    constructor
    · intro hall
      have hvalues := hall found hfound
      simp only [if_true, List.append_eq_nil_iff] at hvalues
      refine ⟨fun entry hmem => ?_, hvalues.2⟩
      have hentry := hall entry hmem
      split at hentry
      · exact (List.append_eq_nil_iff.1 hentry).1
      · exact hentry
    · rintro ⟨hall, rfl⟩ entry hmem
      split <;> simp [hall entry hmem]
  · rw [List.forall_mem_append, List.forall_mem_singleton]

theorem extendAt_ne_nil {entries : List (String × List String)} {key : String} {values : List String} :
    extendAt entries key values ≠ [] := by
  unfold extendAt
  split
  · rename_i hkey
    obtain ⟨found, hfound, -⟩ := List.mem_map.1 hkey
    simp [List.ne_nil_of_mem hfound]
  · simp

/-- What the findings of a contract say about its calls. -/
theorem problems_foldl_apply (calls : List ContractCall) (findings : Findings) :
    (AllClean (calls.foldl Findings.apply findings).problems ↔
      AllClean findings.problems ∧ ∀ call ∈ calls, Clean call) ∧
    ((calls.foldl Findings.apply findings).problems = [] ↔
      findings.problems = [] ∧ ∀ call ∈ calls, ¬ IsCheck call) := by
  induction calls generalizing findings with
  | nil => simp
  | cons call calls ih =>
    obtain ⟨hclean, hnone⟩ := ih (findings.apply call)
    rw [List.foldl_cons, hclean, hnone, List.forall_mem_cons, List.forall_mem_cons]
    cases call with
    | check name problems subject =>
      simp only [Findings.apply, allClean_extendAt, extendAt_ne_nil, List.map_eq_nil_iff, clean_check, IsCheck]
      simp [and_assoc]
    | note name subject => simp [Findings.apply, IsCheck]

theorem isEmpty_eraseDups {items : List String} : items.eraseDups.isEmpty = items.isEmpty := by
  cases items with
  | nil => rfl
  | cons item items => simp [List.eraseDups_cons]

/-- **A contract passes** exactly if it checked something and no check found a problem. -/
theorem telemetryChecks_passed {contract : String} (hcontract : contract ∈ contracts) (calls : List ContractCall) :
    (∀ check ∈ telemetryChecks (some contract) calls, check.passed = true) ↔
      (∃ call ∈ calls, IsCheck call) ∧ ∀ call ∈ calls, Clean call := by
  obtain ⟨hclean, hnone⟩ := problems_foldl_apply calls {}
  rw [and_iff_right (by simp [AllClean])] at hclean
  rw [and_iff_right rfl] at hnone
  simp only [telemetryChecks, hcontract, if_true, List.forall_mem_append, List.forall_mem_map, problemCheck, noteCheck,
    telemetryCheck, isEmpty_eraseDups, List.isEmpty_iff, implies_true, and_true]
  have hproblems : (∀ entry ∈ (calls.foldl Findings.apply {}).problems, entry.2 = []) ↔ ∀ call ∈ calls, Clean call := hclean
  rw [hproblems]
  by_cases hsome : ∃ call ∈ calls, IsCheck call
  · have hne : (calls.foldl Findings.apply {}).problems ≠ [] := by
      rw [ne_eq, hnone]
      obtain ⟨call, hmem, hcheck⟩ := hsome
      exact fun hall => hall call hmem hcheck
    simp [hne, hsome]
  · have hnil : (calls.foldl Findings.apply {}).problems = [] := by
      rw [hnone]
      exact fun call hmem hcheck => hsome ⟨call, hmem, hcheck⟩
    simp [hnil, hsome]

/-- The calls of a contract that did not raise, without a problem among them. -/
def Accepted (calls : Option (List ContractCall)) : Prop := ∃ found, calls = some found ∧ ∀ call ∈ found, Clean call

/-- `verify` adds no failed telemetry check, and at least one that is no note. -/
def Passes (contract : String) (calls : Option (List ContractCall)) : Prop :=
  ∃ found, calls = some found ∧ ∀ check ∈ telemetryChecks (some contract) found, check.passed = true

@[simp] theorem accepted_some {found : List ContractCall} : Accepted (some found) ↔ ∀ call ∈ found, Clean call := by
  simp [Accepted]

@[simp] theorem not_accepted_none : ¬ Accepted none := by simp [Accepted]

instance : DecidablePred Accepted
  | none => isFalse not_accepted_none
  | some _ => decidable_of_iff _ accepted_some.symm

/-- Two parts of a contract, one after the other. -/
def both (first second : Option (List ContractCall)) : Option (List ContractCall) :=
  first.bind fun calls => second.bind fun more => some (calls ++ more)

theorem accepted_both {first second : Option (List ContractCall)} :
    Accepted (both first second) ↔ Accepted first ∧ Accepted second := by
  cases first <;> cases second <;> simp [both, or_imp, forall_and]

theorem mapM_cons_both {α : Type} (run : α → Option (List ContractCall)) (item : α) (items : List α) :
    ((item :: items).mapM run).map List.flatten = both (run item) ((items.mapM run).map List.flatten) := by
  cases hrun : run item <;> cases hrest : items.mapM run <;> simp [hrun, hrest, both]

theorem accepted_mapM {α : Type} (run : α → Option (List ContractCall)) (items : List α) :
    Accepted ((items.mapM run).map List.flatten) ↔ ∀ item ∈ items, Accepted (run item) := by
  induction items with
  | nil => simp
  | cons item items ih => rw [mapM_cons_both, accepted_both, ih, List.forall_mem_cons]

/-- A contract that checks something, unless it raises. -/
def Checks (calls : Option (List ContractCall)) : Prop := ∀ found, calls = some found → ∃ call ∈ found, IsCheck call

@[simp] theorem checks_some {found : List ContractCall} : Checks (some found) ↔ ∃ call ∈ found, IsCheck call := by
  simp [Checks]

theorem checks_both {first second : Option (List ContractCall)} (h : Checks first ∨ Checks second) :
    Checks (both first second) := by
  cases first <;> cases second <;> simp_all [both, Checks, or_and_right, exists_or]

theorem checks_mapM {α : Type} {run : α → Option (List ContractCall)} {items : List α}
    (h : ∃ item ∈ items, Checks (run item)) : Checks ((items.mapM run).map List.flatten) := by
  induction items with
  | nil => simp at h
  | cons item items ih =>
    rw [mapM_cons_both]
    obtain ⟨found, hmem, hfound⟩ := h
    obtain rfl | hmem := List.mem_cons.1 hmem
    · exact checks_both (.inl hfound)
    · exact checks_both (.inr (ih ⟨found, hmem, hfound⟩))

theorem passes_iff_accepted {contract : String} (hcontract : contract ∈ contracts)
    {calls : Option (List ContractCall)} (hchecks : Checks calls) : Passes contract calls ↔ Accepted calls := by
  simp only [Passes, Accepted, telemetryChecks_passed hcontract]
  exact exists_congr fun found => and_congr_right fun hfound => and_iff_right (hchecks found hfound)

theorem not_passes_nil {contract : String} (hcontract : contract ∈ contracts) : ¬ Passes contract (some []) := by
  rintro ⟨found, hfound, hpassed⟩
  cases hfound
  obtain ⟨⟨call, hmem, -⟩, -⟩ := (telemetryChecks_passed hcontract []).1 hpassed
  cases hmem

section Contracts
variable [Python] [CheckRuntime] (ctx : Context)

/-- What `_common` asks of a trace. -/
structure Sound (request : SentRequest) (trace : Trace) : Prop where
  integrity : integrity trace = some []
  metadata : kubernetesMetadata trace = []
  correlation : correlation trace ⟨request.correlationId, request.kongRequestId, request.orderId⟩ ctx.runId = some []
  sensitive : sensitiveData trace ["canary-" ++ ctx.runId] = []

omit [CheckRuntime] in
theorem exists_gaps_of_integrity {trace : Trace} {problems : List String} (h : integrity trace = some problems) :
    ∃ gaps, gatewaySpanGaps trace = some gaps := by
  rw [← Option.ne_none_iff_exists']
  intro hnone
  rw [Traces.integrity, hnone] at h
  cases h

theorem accepted_common {request : SentRequest} {trace : Trace} :
    Accepted (common ctx request trace) ↔ Sound ctx request trace := by
  constructor
  · rintro ⟨found, hfound, hclean⟩
    simp only [common, Option.bind_eq_bind, Option.bind_eq_some_iff, Option.pure_def, Option.some.injEq] at hfound
    obtain ⟨problems, hproblems, gaps, -, correlated, hcorrelated, rfl⟩ := hfound
    simp only [List.forall_mem_append, List.forall_mem_cons, clean_check] at hclean
    obtain ⟨⟨⟨rfl, -⟩, -⟩, hmetadata, rfl, hsensitive, -⟩ := hclean
    exact ⟨hproblems, hmetadata, hcorrelated, hsensitive⟩
  · rintro ⟨hintegrity, hmetadata, hcorrelation, hsensitive⟩
    obtain ⟨gaps, hgaps⟩ := exists_gaps_of_integrity hintegrity
    simp only [common, hintegrity, hgaps, hcorrelation, hmetadata, hsensitive, Option.bind_eq_bind, Option.bind_some,
      Option.pure_def, accepted_some, List.forall_mem_append, List.forall_mem_cons, clean_check]
    split <;> simp

theorem checks_common (request : SentRequest) (trace : Trace) : Checks (common ctx request trace) := by
  intro found hfound
  simp only [common, Option.bind_eq_bind, Option.bind_eq_some_iff, Option.pure_def, Option.some.injEq] at hfound
  obtain ⟨problems, -, gaps, -, correlated, -, rfl⟩ := hfound
  exact ⟨_, List.mem_append_left _ List.mem_cons_self, trivial⟩

theorem overStored_eq (requests : List SentRequest) (required : List String) (checkName : String)
    (checks : Trace → Option (List ContractCall)) :
    overStored ctx requests required checkName checks =
      both (some (storedTraces ctx requests required checkName).1)
        (((storedTraces ctx requests required checkName).2.mapM fun (request, trace) =>
          both (common ctx request trace) (checks trace)).map List.flatten) := by
  simp [overStored, both, Option.bind_map]

/-- A contract accepts its requests if each has a stored trace that it accepts. -/
theorem accepted_overStored {requests : List SentRequest} {required : List String} {checkName : String}
    {checks : Trace → Option (List ContractCall)} :
    Accepted (overStored ctx requests required checkName checks) ↔ ∀ request ∈ requests, ∃ trace,
      stored ctx required request = some trace ∧ Sound ctx request trace ∧ Accepted (checks trace) := by
  rw [overStored_eq, accepted_both, accepted_mapM, accepted_some]
  simp only [storedTraces, List.forall_mem_map, List.mem_filter, List.mem_filterMap, accepted_both, accepted_common]
  constructor
  · rintro ⟨hmissing, hfound⟩ request hmem
    cases hstored : stored ctx required request with
    | none => simpa using hmissing request ⟨hmem, by simpa using hstored⟩
    | some trace => exact ⟨trace, rfl, hfound (request, trace) ⟨request, hmem, by simp [hstored]⟩⟩
  · intro hall
    refine ⟨?_, ?_⟩
    · rintro request ⟨hmem, hnone⟩
      obtain ⟨trace, hstored, -⟩ := hall request hmem
      simp [hstored] at hnone
    · rintro found ⟨request, hmem, hfound⟩
      obtain ⟨trace, hstored, hchecks⟩ := hall request hmem
      rw [hstored] at hfound
      cases hfound
      exact hchecks

theorem checks_overStored {requests : List SentRequest} (h : requests ≠ []) (required : List String) (checkName : String)
    (checks : Trace → Option (List ContractCall)) : Checks (overStored ctx requests required checkName checks) := by
  obtain ⟨request, hmem⟩ := List.exists_mem_of_ne_nil requests h
  rw [overStored_eq]
  cases hstored : stored ctx required request with
  | none =>
    refine checks_both (.inl (checks_some.2 ⟨_, List.mem_map.2 ⟨request, ?_, rfl⟩, trivial⟩))
    exact List.mem_filter.2 ⟨hmem, by simpa using hstored⟩
  | some trace =>
    refine checks_both (.inr (checks_mapM ⟨(request, trace), List.mem_filterMap.2 ⟨request, hmem, by simp [hstored]⟩, ?_⟩))
    exact checks_both (.inl (checks_common ctx request trace))

/-- What a contract over stored traces amounts to. -/
theorem passes_overStored {contract : String} (hcontract : contract ∈ contracts) {requests : List SentRequest}
    {required : List String} {checkName : String} {checks : Trace → Option (List ContractCall)} :
    Passes contract (overStored ctx requests required checkName checks) ↔ requests ≠ [] ∧ ∀ request ∈ requests, ∃ trace,
      stored ctx required request = some trace ∧ Sound ctx request trace ∧ Accepted (checks trace) := by
  by_cases hrequests : requests = []
  · subst hrequests
    exact iff_of_false (not_passes_nil hcontract) fun h => h.1 rfl
  · rw [passes_iff_accepted hcontract (checks_overStored ctx hrequests _ _ _), accepted_overStored]
    exact (and_iff_right hrequests).symm
theorem failedFlow_eq (flow : FailedFlow) : failedFlow ctx flow =
    both (some (unlessEmpty (ctx.requests flow.status) "traces kept" s!"no request ended with status {flow.status}"))
      (overStored ctx (ctx.requests flow.status) flow.required "failure traces kept" (flowChecks flow)) := rfl

theorem dependencyUnavailable_eq : dependencyUnavailable ctx =
    both (some (unlessEmpty (ctx.requests 504) "missing dependency visible"
        "no order failed with 504 while Shipping had no replica"))
      (overStored ctx (ctx.requests 504) ["kong-gateway", "order-service", "payment-service"] "failure traces kept"
        fun trace => some (missingDependency trace)) := rfl

/-- What a contract over stored traces amounts to that also asks for a request. -/
theorem passes_unlessEmpty {contract : String} (hcontract : contract ∈ contracts) {requests : List SentRequest}
    {required : List String} {checkName name problem : String} {checks : Trace → Option (List ContractCall)} :
    Passes contract (both (some (unlessEmpty requests name problem))
        (overStored ctx requests required checkName checks)) ↔
      requests ≠ [] ∧ ∀ request ∈ requests, ∃ trace,
        stored ctx required request = some trace ∧ Sound ctx request trace ∧ Accepted (checks trace) := by
  by_cases hrequests : requests = []
  · subst hrequests
    have hrefused : Checks (some (unlessEmpty [] name problem)) := by simp [unlessEmpty, IsCheck]
    rw [passes_iff_accepted hcontract (checks_both (.inl hrefused)), accepted_both]
    simp [unlessEmpty]
  · rw [passes_iff_accepted hcontract (checks_both (.inr (checks_overStored ctx hrequests _ _ _))), accepted_both,
      accepted_overStored]
    simp [unlessEmpty, hrequests]

/-! ## Stored traces -/

omit [Python] [CheckRuntime] in
theorem waitForTrace_eq {wanted : Trace → Bool} {latest : Option Trace} (hlatest : latest.filter wanted = none)
    (polls : List (Option Trace)) :
    (waitForTrace wanted latest polls).filter wanted = (polls.filterMap fun poll => poll.filter wanted).head? := by
  induction polls generalizing latest with
  | nil => simpa [waitForTrace] using hlatest
  | cons poll polls ih =>
    cases poll with
    | none => simpa [waitForTrace] using @ih none rfl
    | some trace =>
      rw [waitForTrace]
      split
      · rename_i hwanted
        simp [hwanted]
      · rename_i hother
        simp [@ih (some trace) (by simp [hother]), hother]

/-- **The trace of a request is stored** if one of the answers until the deadline has all that is required;
then it is the first of them. -/
theorem stored_eq_some {required : List String} {request : SentRequest} {trace : Trace} :
    stored ctx required request = some trace ↔ request.traceId ≠ "" ∧
      ((ctx.polls request).filterMap fun poll => poll.filter (complete required)).head? = some trace := by
  rw [stored, Context.trace]
  split <;> simp [*, waitForTrace_eq]

theorem stored_mem {required : List String} {request : SentRequest} {trace : Trace}
    (h : stored ctx required request = some trace) :
    request.traceId ≠ "" ∧ some trace ∈ ctx.polls request ∧ ∀ service ∈ required, service ∈ trace.services := by
  obtain ⟨hid, hhead⟩ := (stored_eq_some ctx).1 h
  obtain ⟨poll, hmem, hpoll⟩ := List.mem_filterMap.1 (List.mem_of_mem_head? hhead)
  obtain ⟨rfl, hcomplete⟩ := Option.filter_eq_some_iff.1 hpoll
  exact ⟨hid, hmem, by simpa [complete] using hcomplete⟩

omit [Python] in
theorem mem_requests {status : Int} {request : SentRequest} :
    request ∈ ctx.requests status ↔ request ∈ ctx.sent ∧ request.status = status := by
  simp [Context.requests]

omit [Python] in
theorem requests_ne_nil {status : Int} : ctx.requests status ≠ [] ↔ ∃ request ∈ ctx.sent, request.status = status := by
  simp [Context.requests, List.filter_eq_nil_iff]

/-- The table has contracts of `CONTRACTS`. -/
theorem name_mem_contracts {contract : TraceContract} (h : contract ∈ traceContracts ctx) :
    contract.name ∈ contracts := by
  have hnames : (traceContracts ctx).map (·.name) = ["normal-order", "slow-payment", "payment-retry", "payment-timeout",
      "inventory-failure", "fraud-rejection", "shipping-failure", "dependency-unavailable"] := rfl
  have hmem : contract.name ∈ (traceContracts ctx).map (·.name) := List.mem_map_of_mem h
  have hall : ∀ name ∈ ["normal-order", "slow-payment", "payment-retry", "payment-timeout", "inventory-failure",
      "fraud-rejection", "shipping-failure", "dependency-unavailable"], name ∈ contracts := by decide
  exact hall _ (hnames ▸ hmem)

/-- **A contract passes on nothing else than its traces**: some request ended with its status, and each that
did has a trace with all required services, stored in time, that the common checks and the contract's own
accept. -/
theorem traceContract_passes {contract : TraceContract} (h : contract ∈ traceContracts ctx) :
    Passes contract.name contract.calls ↔ (∃ request ∈ ctx.sent, request.status = contract.status) ∧
      ∀ request ∈ ctx.sent, request.status = contract.status → ∃ trace,
        stored ctx contract.required request = some trace ∧ Sound ctx request trace ∧
          Accepted (contract.checks trace) := by
  have hpasses : Passes contract.name contract.calls ↔ ctx.requests contract.status ≠ [] ∧
      ∀ request ∈ ctx.requests contract.status, ∃ trace,
        stored ctx contract.required request = some trace ∧ Sound ctx request trace ∧
          Accepted (contract.checks trace) := by
    have hcontract := name_mem_contracts ctx h
    simp only [traceContracts, List.map_cons, List.map_nil, List.cons_append, List.nil_append, List.mem_cons,
      List.not_mem_nil, or_false] at h
    rcases h with rfl | rfl | rfl | rfl | rfl | rfl | rfl | rfl
    · exact passes_overStored ctx hcontract
    · exact passes_overStored ctx hcontract
    · exact passes_overStored ctx hcontract
    · exact passes_unlessEmpty ctx hcontract
    · exact passes_unlessEmpty ctx hcontract
    · exact passes_unlessEmpty ctx hcontract
    · exact passes_unlessEmpty ctx hcontract
    · exact passes_unlessEmpty ctx hcontract
  simp only [hpasses, requests_ne_nil, mem_requests, and_imp]

end Contracts

/-! ### One request and its trace -/

/-- The trace is there at the second poll. -/
def oneSent (status : Int) (trace : Trace) : SentRequest := ⟨status, trace.traceId, "order-1", "", ""⟩

def oneRequest [CheckRuntime] (status : Int) (trace : Trace) : Context :=
  ⟨"run-1", [oneSent status trace], fun _ => [none, some trace], fun _ => none⟩

/-- A request whose trace was never found. -/
def untraced [CheckRuntime] : Context :=
  ⟨"run-1", [⟨201, "5b8aa5a2d2c872e8321cf37308d69df2", "order-1", "", ""⟩], fun _ => [none, none], fun _ => none⟩

theorem stored_oneRequest [Python] [CheckRuntime] {status : Int} {trace : Trace} {required : List String}
    (hid : trace.traceId ≠ "") (hcomplete : complete required trace = true) :
    stored (oneRequest status trace) required (oneSent status trace) = some trace := by
  simp [stored, Context.trace, oneRequest, oneSent, waitForTrace, hid, hcomplete]

theorem sound_oneRequest [Python] [CheckRuntime] {status : Int} {trace : Trace} (hintegrity : integrity trace = some [])
    (hmetadata : kubernetesMetadata trace = []) (hcorrelation : correlation trace ⟨"order-1", "", ""⟩ "run-1" = some [])
    (hkeys : ∀ span ∈ trace.spans, ∀ entry ∈ span.attributes, sensitiveKeyPattern.isMatch entry.1 = false)
    (hshown : ∀ span ∈ trace.spans, ¬ span.telemetry.Shows "canary-run-1".toList) :
    Sound (oneRequest status trace) (oneSent status trace) trace :=
  have hcanary : IsCanary "canary-run-1" := by decide
  ⟨hintegrity, hmetadata, hcorrelation, (sensitiveData_eq_nil hcanary (by decide)).2 ⟨hkeys, hshown⟩⟩

def workload (service : String) : Attributes :=
  ("service.name", .str service) :: k8sKeys.map fun key => (key, .str "set")

def serverSpan (service name spanId parentSpanId : String) (startNano endNano : Int) (attributes : Attributes)
    (events : List Event) : Span :=
  ⟨"5b8aa5a2d2c872e8321cf37308d69df2", spanId, parentSpanId, name, "SERVER", startNano, endNano, "UNSET", attributes,
    events, workload service⟩

/-- The span of a service that served the request with this id. -/
def servedBy (service request : String) : Span :=
  serverSpan service "POST" ("server of " ++ request) request 0 9000000 [("scenario.run_id", .str "run-1")] []

/-- Kong's span, OrderService's below it, and those of the services that it called. -/
def otherSpans (lasted : Int) (servers : List Span) : List Span :=
  serverSpan "kong-gateway" "POST" "kong" "" 0 lasted [] [] ::
    serverSpan "order-service" "POST" "server" "kong" 0 lasted
      [("correlation.id", .str "order-1"), ("scenario.run_id", .str "run-1")] [] :: servers

def wholeTrace (run : CompletedRun Unit) (lasted : Int) (servers : List Span) : Trace :=
  ⟨"5b8aa5a2d2c872e8321cf37308d69df2", otherSpans lasted servers ++ (activitiesOf run.recording).map
    (spanOf "5b8aa5a2d2c872e8321cf37308d69df2" (workload "order-service"))⟩

theorem exports_wholeTrace {run : CompletedRun Unit} {lasted : Int} {servers : List Span}
    (hservers : ∀ server ∈ servers, server.name ∉ transactionNames ∧ server.kind = "SERVER")
    (hdistinct : ((wholeTrace run lasted servers).spans.map (·.spanId)).Nodup) :
    Exports (workload "order-service") run.recording (wholeTrace run lasted servers) := by
  have hpost : "POST" ∉ transactionNames := by decide
  have hothers : ∀ other ∈ otherSpans lasted servers, other.name ∉ transactionNames ∧ other.kind = "SERVER" := by
    simp only [otherSpans, List.forall_mem_cons]
    exact ⟨⟨hpost, rfl⟩, ⟨hpost, rfl⟩, hservers⟩
  refine ⟨⟨otherSpans lasted servers, List.Perm.refl _, fun other hmem => (hothers other hmem).1,
    fun other hmem record _ => ?_⟩, hdistinct⟩
  rw [(hothers other hmem).2]
  exact fun h => absurd h.1 (by decide)

/-- What the services before ShippingService served. -/
def servedBefore : List Span :=
  [servedBy "inventory-service" "#inventory.reserve", servedBy "fraud-service" "#fraud.evaluate",
    servedBy "payment-service" "#payment.authorize"]

def slowWhole : Trace := wholeTrace slowRun 9000000 servedBefore

theorem sound_slowWhole :
    letI := Python.plain
    letI := CheckRuntime.exact
    Sound (oneRequest 504 slowWhole) (oneSent 504 slowWhole) slowWhole :=
  letI := Python.plain
  letI := CheckRuntime.exact
  sound_oneRequest (by decide +kernel) (by decide +kernel) (by decide +kernel) (by decide +kernel) (by decide +kernel)

/-- A payment that timed out passes its contract, a request without a trace does not pass the one of completed
orders. -/
theorem traceContract_passes_oneRequest :
    letI := Python.plain
    letI := CheckRuntime.exact
    Passes "payment-timeout" (failedFlow (oneRequest 504 slowWhole) paymentTimeout) ∧
      ¬ Passes "normal-order" (normalOrder untraced) :=
  letI := Python.plain
  letI := CheckRuntime.exact
  by
    constructor
    · have hcontract : ⟨"payment-timeout", paymentTimeout.status, paymentTimeout.required, flowChecks paymentTimeout,
          failedFlow (oneRequest 504 slowWhole) paymentTimeout⟩ ∈ traceContracts (oneRequest 504 slowWhole) := by
        simp [traceContracts]
      refine (traceContract_passes (oneRequest 504 slowWhole) hcontract).2 ⟨⟨oneSent 504 slowWhole, ?_, rfl⟩, ?_⟩
      · simp [oneRequest]
      intro request hmem _
      obtain rfl : request = oneSent 504 slowWhole := by simpa [oneRequest] using hmem
      have haccepted : Accepted (flowChecks paymentTimeout slowWhole) := by decide +kernel
      exact ⟨slowWhole, stored_oneRequest (by decide) (by decide +kernel), sound_slowWhole, haccepted⟩
    · intro hpasses
      obtain ⟨-, hall⟩ := (traceContract_passes untraced List.mem_cons_self).1 hpasses
      obtain ⟨trace, hstored, -⟩ := hall _ List.mem_cons_self rfl
      cases hstored

end Contracts

end TxPlatform
