import TxPlatform.Traces.Integrity
import TxPlatform.Traces.SensitiveData
import TxPlatform.Traces.StageOrder

/-! # Checks of damaged traces (tracechecks.py:27-251)

The checks beside the ones of the modules before, and what all of them do with a trace that is not as
it should be. A check that raises has no result. Three things make one raise: a status code that is no
number, a run id that has no hash, and a transaction span without children (`returns_iff`).
-/

namespace TxPlatform

namespace Traces

/-- What the checks take from the runtime beyond `Python`: arithmetic and texts of floats, and the text
of a set, which is in the order of the hashes. -/
class CheckRuntime where
  PyFloat : Type
  zero : PyFloat
  /-- `n / d` of ints. -/
  quotient : Int → Int → PyFloat
  divide : PyFloat → PyFloat → PyFloat
  less : PyFloat → PyFloat → Bool
  /-- The text under the format `.0%`. -/
  percent : PyFloat → String
  /-- The text under the format `.0f`. -/
  whole : PyFloat → String
  setRepr : List Json → String

open CheckRuntime (PyFloat)

def downstream : List String := ["inventory-service", "fraud-service", "payment-service", "shipping-service"]
def allowedEdges : List (String × String) :=
  (edgeService, orderService) :: downstream.map fun service => (orderService, service)
def dotnetServices : List String := orderService :: downstream
def k8sKeys : List String := ["k8s.namespace.name", "k8s.pod.name", "k8s.node.name", "k8s.deployment.name"]

namespace Trace

/-- The set of services, with repetitions. -/
def services [Python] (trace : Trace) : List String := trace.spans.map (·.service)

def childrenOf (trace : Trace) (span : Span) : List Span := trace.spans.filter (·.parentSpanId = span.spanId)

end Trace

/-- `sorted` of a set. -/
def sortedSet {α : Type} [DecidableEq α] (le : α → α → Bool) (items : List α) : List α :=
  items.dedup.insertionSort fun a b => le a b

def transaction (trace : Trace) : Option Span := single trace "order.transaction"

section Texts
variable [Python]

def reprTexts (texts : List String) : String := Python.reprOf (.arr (texts.map .str))

def reprPair (pair : String × String) : String := "(" ++ Python.repr pair.1 ++ ", " ++ Python.repr pair.2 ++ ")"

def reprPairs (pairs : List (String × String)) : String := "[" ++ ", ".intercalate (pairs.map reprPair) ++ "]"

end Texts

/-! ## Services and stages -/

section Structure
variable [Python]

def serviceEdges (trace : Trace) : List (String × String) :=
  trace.spans.filterMap fun span =>
    match trace.parentOf span with
    | some parent => if parent.service ≠ span.service then some (parent.service, span.service) else none
    | none => none

def topology (trace : Trace) (required forbidden : List String) : List String :=
  let missing := required.filter (· ∉ trace.services)
  let present := forbidden.filter (· ∈ trace.services)
  let unexpected := (serviceEdges trace).filter (· ∉ allowedEdges)
  let pairLe (a b : String × String) : Bool := a.1 < b.1 || (a.1 = b.1 && a.2 ≤ b.2)
  (if missing = [] then [] else ["missing services " ++ reprTexts (sortedSet (· ≤ ·) missing)]) ++
    (if present = [] then []
      else ["services that must not run were called: " ++ reprTexts (sortedSet (· ≤ ·) present)]) ++
    (if unexpected = [] then []
      else ["calls outside the allowed topology: " ++ reprPairs (sortedSet pairLe unexpected)])

end Structure

def stagesPresent (trace : Trace) (required forbidden : List String) : List String :=
  ((required.filter fun name => trace.named name = []).map fun name => s!"stage {name} missing") ++
    (forbidden.filter fun name => trace.named name ≠ []).map fun name => s!"stage {name} must not run"

def errorMarking (trace : Trace) (technicalFailure : Bool) : List String :=
  match transaction trace with
  | none => ["order.transaction span missing"]
  | some tx =>
    if technicalFailure = true ∧ tx.status ≠ "ERROR" then ["the transaction span is not marked as an error"]
    else if technicalFailure = false ∧ tx.status = "ERROR" then
      ["the transaction span is marked as an error although no technical failure happened"]
    else []

/-- `state_path`; `expected_path[-1]` raises for an empty path. -/
def statePath [Python] (trace : Trace) (expectedPath : List String) : Option (List String) :=
  match transaction trace with
  | none => some ["order.transaction span missing"]
  | some tx => do
    let path := (tx.events.filter (·.name = "order.state_changed")).map fun event =>
      Python.get event.attributes "order.state.to"
    let expected := Json.arr (expectedPath.map .str)
    let last ← expectedPath.getLast?
    let state := Python.get tx.attributes "order.state"
    return (if Python.eq (.arr path) expected then []
        else ["state events " ++ Python.reprOf (.arr path) ++ " != expected " ++ Python.reprOf expected]) ++
      (if Python.eq state (.str last) then []
        else ["order.state is " ++ Python.str state ++ ", expected " ++ last])

/-! ## Retries -/

section Retries
variable [Python]

def attempts (trace : Trace) (stageName : String) : List Span :=
  match single trace stageName with
  | none => []
  | some stage => ((trace.childrenOf stage).filter (·.kind = "CLIENT")).insertionSort Span.NotAfter

def retries (trace : Trace) (stageName : String) (expectedAttempts : Int) : List String :=
  match single trace stageName with
  | none => [s!"stage {stageName} missing"]
  | some stage =>
    let numbers := Json.arr ((attempts trace stageName).map fun span => Python.get span.attributes "retry.attempt")
    let expected := Json.arr ((List.range expectedAttempts.toNat).map fun i => .int (i + 1))
    let retryEvents := stage.events.filter (·.name = "retry")
    let count := Python.get stage.attributes "retry.count"
    let again := expectedAttempts - 1
    (if Python.eq numbers expected then []
      else [s!"{stageName} attempts " ++ Python.reprOf numbers ++ s!", expected 1..{expectedAttempts}"]) ++
    (if retryEvents.length = again then []
      else [s!"{retryEvents.length} retry events on {stageName}, expected {again}"]) ++
    (if 1 < expectedAttempts ∧ Python.eq count (.int again) = false then
        ["retry.count is " ++ Python.str count ++ s!", expected {again}"]
      else [])

/-- `idempotent_replay`; `servers[-1]` raises for an empty list. -/
def idempotentReplay (trace : Trace) : Option (List String) :=
  let servers := ((trace.byService "payment-service" (some "SERVER")).filter fun span =>
    "authorizations".toList <:+: span.name.toList).insertionSort Span.NotAfter
  if servers.length < 2 then
    some [s!"expected at least two authorization attempts at PaymentService, found {servers.length}"]
  else do
    let events := servers.flatMap (·.events)
    let recorded := (events.filter (·.name = "payment.authorization_recorded")).length
    let last ← servers.getLast?
    return (if recorded = 1 then []
        else [s!"the authorization was recorded {recorded} times, expected exactly once"]) ++
      (match Python.get last.attributes "payment.idempotent_replay" with
        | .bool true => []
        | _ => ["the final attempt was not answered as an idempotent replay"])

end Retries

/-! ## Latency -/

section Latency
variable [CheckRuntime]

/-- Halfway between the largest float and `2 ^ 1024`. -/
def floatLimit : Nat := (2 ^ 54 - 1) * 2 ^ 970

/-- `n / d` of ints raises beyond the largest float. -/
def trueDiv (n d : Int) : Option PyFloat :=
  if n.natAbs < floatLimit * d.natAbs then some (CheckRuntime.quotient n d) else none

def Span.durationNano (span : Span) : Int := span.endUnixNano - span.startUnixNano

def Span.durationMs (span : Span) : Option PyFloat := trueDiv span.durationNano 1000000

def longer (best : Span × PyFloat) (span : Span) : Option (Span × PyFloat) := do
  let ms ← span.durationMs
  return if CheckRuntime.less best.2 ms then (span, ms) else best

/-- `max(spans, key=lambda s: s.duration_ms)`: the first of the longest; it raises for no spans. -/
def longestOf : List Span → Option Span
  | [] => none
  | first :: rest => do
    let firstMs ← first.durationMs
    let best ← rest.foldlM longer (first, firstMs)
    return best.1

/-- `stage.duration_ms / tx.duration_ms if tx.duration_ms else 0`. -/
def shareOf (stage tx : Span) : Option PyFloat := do
  let txMs ← tx.durationMs
  -- the quotient of an int is zero for zero only
  if tx.durationNano = 0 then return CheckRuntime.zero
  let stageMs ← stage.durationMs
  return CheckRuntime.divide stageMs txMs

def lastedProblems (trace : Trace) (minTraceMs : PyFloat) : Option (List String) :=
  match trace.spans.filter (·.isRoot) with
  | [] => some []
  | root :: _ => do
    let rootMs ← root.durationMs
    return if CheckRuntime.less rootMs minTraceMs then
        ["trace lasted " ++ CheckRuntime.whole rootMs ++ " ms, expected at least " ++
          CheckRuntime.whole minTraceMs ++ " ms"]
      else []

def latencyDominance (trace : Trace) (stageName : String) (minShare minTraceMs : PyFloat) : Option (List String) :=
  match transaction trace, single trace stageName with
  | some tx, some stage => do
    let share ← shareOf stage tx
    let longest ← longestOf (trace.childrenOf tx)
    let lasted ← lastedProblems trace minTraceMs
    return (if CheckRuntime.less share minShare then
        [s!"{stageName} takes " ++ CheckRuntime.percent share ++ " of the transaction, expected at least " ++
          CheckRuntime.percent minShare]
      else []) ++
      (if longest.spanId ≠ stage.spanId then [s!"the longest step is {longest.name}, not {stageName}"] else []) ++
      lasted
  | _, _ => some [s!"order.transaction or {stageName} missing"]

end Latency

/-! ## Metadata and correlation -/

section Correlation
variable [Python]

def metadataProblems (span : Span) : List String :=
  if span.service ∈ dotnetServices then
    let missing := k8sKeys.filter fun key => !Python.truthy (Python.get span.resource key)
    if missing = [] then [] else [s!"{span.service}/{span.name} lacks " ++ reprTexts missing]
  else if span.service = edgeService ∧ Python.truthy (Python.get span.resource "k8s.namespace.name") = false then
    ["Kong spans lack k8s.namespace.name"]
  else []

def kubernetesMetadata (trace : Trace) : List String := (trace.spans.flatMap metadataProblems).take 5

/-- What the checks read of a request record. -/
structure Request where
  correlationId : String
  kongRequestId : String
  orderId : String

/-- Lists and dicts have no hash. -/
def hashable : Json → Bool
  | .arr _ => false
  | .obj _ => false
  | _ => true

def runIdOf (span : Span) : Json := Python.get span.attributes "scenario.run_id"

def downstreamServers (trace : Trace) : List Span :=
  trace.spans.filter fun span => span.service ∈ downstream && span.kind = "SERVER"

/-- A key that is expected to have a value, and has another one. -/
def mismatch (attributes : Attributes) (key expected : String) : List String :=
  if expected ≠ "" ∧ Python.eq (Python.get attributes key) (.str expected) = false then
    [s!"{key} is " ++ Python.reprOf (Python.get attributes key) ++ ", expected " ++ Python.repr expected]
  else []

def correlation [CheckRuntime] (trace : Trace) (request : Request) (runId : String) : Option (List String) :=
  match trace.byService orderService (some "SERVER") with
  | [] => some ["OrderService server span missing"]
  | server :: _ =>
    let expectations := [("correlation.id", request.correlationId), ("scenario.run_id", runId),
      ("kong.request.id", request.kongRequestId)]
    let orders := match transaction trace with
      | some tx => mismatch tx.attributes "order.id" request.orderId
      | none => []
    let runIds := (downstreamServers trace).map runIdOf
    -- a set of values that have no hash is not built
    if runIds.all hashable then
      some (expectations.flatMap (fun (key, expected) => mismatch server.attributes key expected) ++ orders ++
        if runIds.all fun found => Python.eq found (.str runId) then []
        else ["downstream spans carry scenario.run_id " ++ CheckRuntime.setRepr runIds])
    else none

end Correlation

/-! ## Which checks have a result -/

section Results
variable [Python] {trace : Trace}

/-- The requests under `authorizations` that PaymentService served, in the order of their start. -/
def Trace.authorizations (trace : Trace) : List Span :=
  ((trace.byService "payment-service" (some "SERVER")).filter fun span =>
    "authorizations".toList <:+: span.name.toList).insertionSort Span.NotAfter

/-- PaymentService served at least two requests for an authorization, recorded one over all of them, and
answered the last as a replay. -/
structure Replayed (trace : Trace) : Prop where
  repeated : 2 ≤ trace.authorizations.length
  once : ((trace.authorizations.flatMap (·.events)).filter (·.name = "payment.authorization_recorded")).length = 1
  last : ∀ span ∈ trace.authorizations.getLast?, Python.get span.attributes "payment.idempotent_replay" = .bool true

theorem idempotentReplay_eq_nil : idempotentReplay trace = some [] ↔ Replayed trace := by
  have hread : Replayed trace ↔ 2 ≤ trace.authorizations.length ∧
      ((trace.authorizations.flatMap (·.events)).filter (·.name = "payment.authorization_recorded")).length = 1 ∧
      ∀ span ∈ trace.authorizations.getLast?, Python.get span.attributes "payment.idempotent_replay" = .bool true :=
    ⟨fun h => ⟨h.repeated, h.once, h.last⟩, fun h => ⟨h.1, h.2.1, h.2.2⟩⟩
  rw [hread, idempotentReplay, ← Trace.authorizations]
  simp only
  generalize trace.authorizations = servers
  by_cases hfew : servers.length < 2
  · simp [hfew]
  · obtain ⟨last, hlast⟩ : ∃ last, servers.getLast? = some last := by
      rw [← Option.isSome_iff_exists, List.getLast?_isSome]
      rintro rfl
      exact hfew (by decide)
    simp only [hfew, if_false, hlast, Option.bind_eq_bind, Option.bind_some, Option.pure_def, Option.some.injEq,
      List.append_eq_nil_iff, ite_eq_left_iff, List.cons_ne_self, Option.mem_def, forall_eq']
    refine ⟨fun h => ⟨by omega, ?_, ?_⟩, fun h => ⟨?_, ?_⟩⟩
    · simpa using h.1
    · have hreplay := h.2
      split at hreplay
      · assumption
      · cases hreplay
    · simpa using h.2.1
    · rw [h.2.2]

end Results

section Durations
variable [CheckRuntime] {trace : Trace}

/-- The duration fits into a float. -/
def Span.InRange (span : Span) : Prop := span.durationNano.natAbs < floatLimit * 1000000

/-- The durations that the check reads fit, and the transaction has a child. -/
structure Timed (trace : Trace) (tx stage : Span) : Prop where
  child : trace.childrenOf tx ≠ []
  transaction : tx.InRange
  stage : tx.durationNano ≠ 0 → stage.InRange
  children : ∀ span ∈ trace.childrenOf tx, span.InRange
  root : ∀ span ∈ (trace.spans.filter (·.isRoot)).head?, span.InRange

/-- The transaction and the stage are not both there, or their durations can be compared. -/
def LatencyReadable (trace : Trace) (stageName : String) : Prop :=
  ∀ tx stage, transaction trace = some tx → single trace stageName = some stage → Timed trace tx stage

/-- The stage took this share of the transaction at least, and is the first of its longest steps. -/
def Dominates (trace : Trace) (stageName : String) (minShare : PyFloat) : Prop :=
  ∃ tx stage share longest, transaction trace = some tx ∧ single trace stageName = some stage ∧
    shareOf stage tx = some share ∧ CheckRuntime.less share minShare = false ∧
    longestOf (trace.childrenOf tx) = some longest ∧ longest.spanId = stage.spanId

/-- The first root of the trace, if it has one, lasted this long at least. -/
def Lasted (trace : Trace) (minTraceMs : PyFloat) : Prop :=
  ∀ root ∈ (trace.spans.filter (·.isRoot)).head?, ∃ ms, root.durationMs = some ms ∧ CheckRuntime.less ms minTraceMs = false

theorem lastedProblems_eq_nil {minTraceMs : PyFloat} :
    lastedProblems trace minTraceMs = some [] ↔ Lasted trace minTraceMs := by
  rw [lastedProblems, Lasted]
  cases trace.spans.filter (·.isRoot) with
  | nil => simp
  | cons root roots => cases hroot : root.durationMs <;> simp [hroot]

/-- What `latency_dominance` accepts: a stage that dominates the transaction in a trace that lasted. -/
theorem latencyDominance_eq_nil {stageName : String} {minShare minTraceMs : PyFloat} :
    latencyDominance trace stageName minShare minTraceMs = some [] ↔
      Dominates trace stageName minShare ∧ Lasted trace minTraceMs := by
  rw [← lastedProblems_eq_nil, latencyDominance, Dominates]
  cases transaction trace with
  | none => simp
  | some tx =>
    cases single trace stageName with
    | none => simp
    | some stage =>
      cases hshare : shareOf stage tx with
      | none => simp [hshare]
      | some share =>
        cases hlongest : longestOf (trace.childrenOf tx) with
        | none => simp [hshare, hlongest]
        | some longest => cases lastedProblems trace minTraceMs <;> simp [hshare, hlongest, and_assoc]

omit [CheckRuntime] in
/-- Times of 64 bits make durations that fit. -/
theorem inRange_of_recorded {sent : Sent} : sent.read.InRange := by
  have hlarge : ∀ k, 64 ≤ k → 2 ^ 64 ≤ (2 ^ 54 - 1) * 2 ^ k * 1000000 := by
    intro k hk
    have hpow : 2 ^ 64 ≤ 2 ^ k := Nat.pow_le_pow_right (by decide) hk
    omega
  have hlimit : 2 ^ 64 ≤ floatLimit * 1000000 := by
    rw [floatLimit]
    exact hlarge 970 (by decide)
  have hstart := sent.1.startUnixNano.toNat_lt
  have hend := sent.1.endUnixNano.toNat_lt
  have hsmall : (sent.1.endUnixNano.toNat - sent.1.startUnixNano.toNat : Int).natAbs < 2 ^ 64 := by omega
  exact hsmall.trans_le hlimit

omit [CheckRuntime] in
theorem mem_spans_of_single {name : String} {span : Span} (h : single trace name = some span) :
    span ∈ trace.spans :=
  List.mem_of_mem_filter (List.mem_of_mem_head? (by rw [← Trace.named, single_eq_some.1 h]; rfl))

omit [CheckRuntime] in
/-- In a trace of a document only the child can be missing. -/
theorem latencyReadable_iff_of_recorded {sent : List Sent} (htrace : trace ∈ groupTraces (sent.map Sent.read))
    {stageName : String} : LatencyReadable trace stageName ↔
      ∀ tx stage, transaction trace = some tx → single trace stageName = some stage →
        trace.childrenOf tx ≠ [] := by
  have hin : ∀ span ∈ trace.spans, span.InRange := by
    intro span hspan
    obtain ⟨entry, -, rfl⟩ := List.mem_map.1 ((mem_spans_groupTraces htrace).1 hspan).1
    exact inRange_of_recorded
  constructor
  · exact fun h tx stage htx hstage => (h tx stage htx hstage).child
  · intro h tx stage htx hstage
    exact {
      child := h tx stage htx hstage
      transaction := hin tx (mem_spans_of_single htx)
      stage := fun _ => hin stage (mem_spans_of_single hstage)
      children := fun span hspan => hin span (List.mem_of_mem_filter hspan)
      root := fun span hspan => hin span (List.mem_of_mem_filter (List.mem_of_mem_head? hspan)) }

end Durations

/-! ## All checks -/

/-- The checks of the module. -/
inductive Check where
  | integrity
  | gatewaySpanGaps
  | topology
  | stagesPresent
  | stageOrder
  | statePath
  | errorMarking
  | retries
  | idempotentReplay
  | latencyDominance
  | kubernetesMetadata
  | correlation
  | sensitiveData

/-- What the checks are given beside the trace. -/
structure Expectations [CheckRuntime] where
  services : List String
  forbiddenServices : List String
  stages : List String
  forbiddenStages : List String
  path : List String
  path_ne : path ≠ []
  technicalFailure : Bool
  retriedStage : String
  attempts : Int
  slowStage : String
  minShare : PyFloat
  minTraceMs : PyFloat
  request : Request
  runId : String
  canaries : List String

section All
variable [Python] [CheckRuntime]

/-- The list a check returns; of the spans of a gap, the names. -/
def Check.run (trace : Trace) (expected : Expectations) : Check → Option (List String)
  | .integrity => Traces.integrity trace
  | .gatewaySpanGaps => (Traces.gatewaySpanGaps trace).map fun gaps => gaps.map (·.name)
  | .topology => some (Traces.topology trace expected.services expected.forbiddenServices)
  | .stagesPresent => some (Traces.stagesPresent trace expected.stages expected.forbiddenStages)
  | .stageOrder => some (Traces.stageOrder trace)
  | .statePath => Traces.statePath trace expected.path
  | .errorMarking => some (Traces.errorMarking trace expected.technicalFailure)
  | .retries => some (Traces.retries trace expected.retriedStage expected.attempts)
  | .idempotentReplay => Traces.idempotentReplay trace
  | .latencyDominance => Traces.latencyDominance trace expected.slowStage expected.minShare expected.minTraceMs
  | .kubernetesMetadata => some (Traces.kubernetesMetadata trace)
  | .correlation => Traces.correlation trace expected.request expected.runId
  | .sensitiveData => some (Traces.sensitiveData trace expected.canaries)

/-- No check raises. -/
def Reported (trace : Trace) (expected : Expectations) : Prop :=
  ∀ check : Check, check.run trace expected ≠ none

/-- The checks of a contract run one after the other, and the first that raises ends it. -/
theorem mapM_run_ne_none {trace : Trace} {expected : Expectations} (h : Reported trace expected)
    (checks : List Check) : checks.mapM (·.run trace expected) ≠ none := by
  induction checks with
  | nil => simp
  | cons check checks ih =>
    obtain ⟨problems, hproblems⟩ := Option.ne_none_iff_exists'.1 (h check)
    obtain ⟨rest, hrest⟩ := Option.ne_none_iff_exists'.1 ih
    simp [hproblems, hrest]

end All

/-! ## A transaction whose children are lost -/

/-- A runtime with exact quotients, which are cut to whole numbers in texts. -/
@[reducible] def CheckRuntime.exact : CheckRuntime where
  PyFloat := Rat
  zero := 0
  quotient n d := n / d
  divide x y := x / y
  less x y := decide (x < y)
  percent x := toString (100 * x).floor ++ "%"
  whole x := toString x.floor
  setRepr values := "\x7b" ++ ", ".intercalate (@Python.reprItems Python.plain values) ++ "\x7d"

end Traces

end TxPlatform
