import TxPlatform.Order.Gateways
import TxPlatform.Telemetry.Correlation

/-! # What a dependency call records (OrderTelemetry.cs, DependencyRegistration.cs, DependencyPolicies.cs)

A call runs in the pipeline of its profile: stage budget, retry, circuit breaker, attempt timeout,
attempt number. A script says, attempt by attempt, what happens to the call from outside: how an
attempt ends and after how many ticks, what the circuit breaker reports, and whether a budget runs out
while the retry strategy waits. The pipeline decides what is sent and what is recorded.

The call goes on while the retry classifier says so, and the result is the one of the gateways without
telemetry (`pipeline_eq`). The tags of the HTTP instrumentation itself are not recorded here.
-/

namespace TxPlatform

open TelemetryConventions

/-! ## Names (Order.cs) -/

/-- `stage.ToString().ToLowerInvariant()`. -/
def FailureStage.name : FailureStage → String
  | .inventory => "inventory"
  | .fraud => "fraud"
  | .payment => "payment"
  | .shipping => "shipping"

def CompensationAction.name : CompensationAction → String
  | .voidPayment => "VoidPayment"
  | .releaseInventory => "ReleaseInventory"

/-- `CallOutcome.Describe`. -/
def CallOutcome.describe (outcome : CallOutcome) : String :=
  match outcome.category with
  | .success => "success"
  | .httpStatus => s!"http_{outcome.statusCode}"
  | .attemptTimeout => "attempttimeout"
  | .connectionFailure => "connectionfailure"
  | .circuitOpen => "circuitopen"

/-! ## What happens to a call -/

/-- The budgets of a stage call; an undo call has the one of its stage only. -/
inductive Budget where
  | stage
  | transaction
  deriving DecidableEq

/-- How an attempt ends: by itself, its own timeout included, or cut off by a budget. -/
inductive AttemptEnd (β : Type) where
  | ends (behaviour : CallBehaviour)
  | cut (budget : β)

structure AttemptScript (β : Type) where
  lasts : Nat
  lasts_pos : 0 < lasts
  ended : AttemptEnd β
  /-- A budget has run out by the time the attempt has ended by itself. -/
  expired : Bool
  /-- What the circuit breaker reports: opened, closed, half-opened. -/
  circuitStates : List String
  /-- The delay that the retry strategy computes, and the ticks that it waits. -/
  delay : Nat
  waits : Nat
  /-- The budget that runs out while it waits. -/
  waitCut : Option β

structure CallScript (β : Type) where
  /-- Ticks before the stage starts, before the first attempt, and after the last one. -/
  idle : Nat
  before : Nat
  attempts : Nat → AttemptScript β
  after : Nat

namespace AttemptScript
variable {β : Type} (profile : DependencyProfile) (script : AttemptScript β)

/-- The retry strategy handles the outcome. A cancellation is not worth a retry. -/
def retried : Bool :=
  match script.ended with
  | .ends behaviour => !script.expired && RetryClassifier.shouldRetry profile (.ofBehaviour behaviour)
  | .cut _ => false

/-- An open circuit lets nothing through. -/
def refused : Bool :=
  match script.ended with
  | .ends .brokenCircuit => true
  | _ => false

/-- What a retry is reported with. -/
def describe : String :=
  match script.ended with
  | .ends behaviour => (CallOutcome.ofBehaviour behaviour).describe
  | .cut _ => "cancelled"

variable {profile script}

/-- A refused attempt is the last one. -/
theorem not_retried_of_refused (h : script.refused = true) : script.retried profile = false := by
  unfold refused at h
  split at h
  · rename_i hended
    simp [retried, hended, RetryClassifier.shouldRetry, CallOutcome.ofBehaviour]
  · cases h

end AttemptScript

namespace CallScript
variable {β : Type} (profile : DependencyProfile) (script : CallScript β)

/-- How the call ends when attempt `number` is next and `retries` are left after it. -/
def endFrom : Nat → Nat → AttemptEnd β
  | 0, number => (script.attempts number).ended
  | retries + 1, number =>
    if (script.attempts number).retried profile then
      match (script.attempts number).waitCut with
      | some budget => .cut budget
      | none => endFrom retries (number + 1)
    else (script.attempts number).ended

/-- How the call ends. -/
def ended : AttemptEnd β := script.endFrom profile (profile.maxAttempts - 1) 1

/-- The attempts that are made, and whether a budget runs out while another one is waited for. -/
def madeFrom : Nat → Nat → Nat × Bool
  | 0, number => (number, false)
  | retries + 1, number =>
    if (script.attempts number).retried profile then
      match (script.attempts number).waitCut with
      | some _ => (number, true)
      | none => madeFrom retries (number + 1)
    else (number, false)

/-- The requests that were sent: an open circuit lets the last one not through. -/
def sentIn (made : Nat × Bool) : Nat := if (script.attempts made.1).refused then made.1 - 1 else made.1

/-- The retries that were reported: before the next attempt, or before the wait that was cut off. -/
def retriedIn (made : Nat × Bool) : Nat := if made.2 then made.1 else made.1 - 1

def made : Nat × Bool := script.madeFrom profile (profile.maxAttempts - 1) 1

variable {profile script}

/-- `sendWithRetry` over the attempts of a script, when no budget interferes. -/
theorem ended_eq_sendWithRetry {behaviours : Nat → CallBehaviour}
    (h : ∀ number, (script.attempts number).ended = .ends (behaviours number) ∧
      (script.attempts number).expired = false ∧ (script.attempts number).waitCut = none) :
    script.ended profile = .ends (sendWithRetry profile (fun number => (behaviours number, number + 1)) 1).1 := by
  have hloop : ∀ retries number, script.endFrom profile retries number =
      .ends (retryLoop profile (fun number => (behaviours number, number + 1)) retries number).1 := by
    intro retries
    induction retries with
    | zero => exact fun number => (h number).1
    | succ retries ih =>
      intro number
      obtain ⟨hended, hexpired, hcut⟩ := h number
      have hretried : (script.attempts number).retried profile =
          RetryClassifier.shouldRetry profile (.ofBehaviour (behaviours number)) := by
        simp [AttemptScript.retried, hended, hexpired]
      simp only [endFrom, retryLoop, hretried, hcut]
      split
      · exact ih (number + 1)
      · exact hended
  exact hloop _ 1

end CallScript

/-! ## The calls (Gateways.cs, DependencyPolicies.cs) -/

/-- A method of a gateway: its stage, the name and the profile of its client, the method of its request. -/
structure GatewayCall where
  stageName : String
  dependency : String
  profile : DependencyProfile
  method : String

namespace GatewayCall
def reserve : GatewayCall := ⟨"inventory.reserve", "inventory", DependencyProfiles.inventory, "POST"⟩
def release : GatewayCall :=
  ⟨"compensation.inventory.release", "inventory-compensation", DependencyProfiles.inventoryCompensation, "DELETE"⟩
def evaluate : GatewayCall := ⟨"fraud.evaluate", "fraud", DependencyProfiles.fraud, "POST"⟩
def authorize : GatewayCall := ⟨"payment.authorize", "payment", DependencyProfiles.payment, "POST"⟩
def void : GatewayCall :=
  ⟨"compensation.payment.void", "payment-compensation", DependencyProfiles.paymentCompensation, "POST"⟩
def create : GatewayCall := ⟨"shipping.create", "shipping", DependencyProfiles.shipping, "POST"⟩
end GatewayCall

/-! ## What is recorded -/

inductive SpanKey where
  | transaction
  | stage (name : String)
  | attempt (stageName : String) (number : Nat)

/-- The ids that the spans of a transaction get, the baggage of its request, and its server span. -/
structure Tracer where
  ids : SpanKey → String
  baggage : Baggage
  serverId : String

/-- `StartActivity`; the processor tags what starts. -/
def Tracer.start (tracer : Tracer) (key : SpanKey) (parentId name : String) (kind : ActivityKind) (time : Int) :
    Activity :=
  BaggageTagProcessor.copyAllowedBaggage tracer.baggage ⟨tracer.ids key, parentId, name, kind, time, time, [], [], .unset⟩

namespace OrderTelemetry

def startStage (tracer : Tracer) (stageName : String) (id : Guid) (time : Int) : Activity :=
  (tracer.start (.stage stageName) (tracer.ids .transaction) stageName .internal time).setTag orderId (.str id.formatD)

def recordStageResult (stage : Activity) : StageResult → Activity
  | .success => stage
  | .failure kind reason =>
    let stage := (stage.setTag failureKind (.str kind.name)).setTag failureReason (.str reason)
    if kind ≠ .businessRejection then (stage.setStatus .error).setTag "error.type" (.str kind.name) else stage

/-- A tag without a value is not set. -/
def tagDecision (stage : Activity) : Option String → Activity
  | some decision => stage.setTag "fraud.decision" (.str decision)
  | none => stage

/-- `delay` is in ticks of 100 ns. -/
def recordRetry (stage : Activity) (failedAttemptNumber : Nat) (delay : Nat) (reason : String) (time : Int) :
    Activity :=
  (stage.addEvent eventRetry time [("retry.failed_attempt", .int failedAttemptNumber),
    ("retry.delay_ms", .int (delay / 10000 : Nat)), ("retry.reason", .str reason)]).setTag
      retryCount (.int failedAttemptNumber)

def recordCircuitStateChange (dependency : String) (time : Int) (stage : Activity) (state : String) : Activity :=
  stage.addEvent eventCircuitStateChanged time [("circuit.dependency", .str dependency), ("circuit.state", .str state)]

end OrderTelemetry

open OrderTelemetry

/-! ## The pipeline (DependencyRegistration.cs:43-105) -/

/-- A call on its way: its stage span, the spans of its requests, and the attempt number that the
request carries. -/
structure PipelineState where
  stage : Activity
  clients : List Activity := []
  attempt : Option Nat := none
  now : Int

namespace PipelineState
variable {β : Type} (tracer : Tracer) (call : GatewayCall)

/-- One attempt: the circuit breaker, then the attempt-number handler and the request. -/
def send (script : AttemptScript β) (p : PipelineState) : PipelineState :=
  let ended := p.now + script.lasts
  let stage := script.circuitStates.foldl (recordCircuitStateChange call.dependency ended) p.stage
  if script.refused then { p with stage, now := ended }
  else
    let attempt := match p.attempt with
      | some previous => previous + 1
      | none => 1
    let client := ((tracer.start (.attempt call.stageName attempt) p.stage.id call.method .client p.now).setTag
      retryAttempt (.int attempt)).stop ended
    { stage, clients := p.clients ++ [client], attempt := some attempt, now := ended }

/-- `OnRetry`, then the wait. -/
def retry (script : AttemptScript β) (number : Nat) (p : PipelineState) : PipelineState :=
  { p with
    stage := recordRetry p.stage number script.delay script.describe p.now
    now := p.now + script.waits }

end PipelineState

/-- The retry strategy with `retries` retries left around attempt `number`. -/
def pipeline {β : Type} (tracer : Tracer) (call : GatewayCall) (script : CallScript β) :
    Nat → Nat → PipelineState → AttemptEnd β × PipelineState
  | 0, number, p => ((script.attempts number).ended, p.send tracer call (script.attempts number))
  | retries + 1, number, p =>
    let p := p.send tracer call (script.attempts number)
    if (script.attempts number).retried call.profile then
      let p := p.retry (script.attempts number) number
      match (script.attempts number).waitCut with
      | some budget => (.cut budget, p)
      | none => pipeline tracer call script retries (number + 1) p
    else ((script.attempts number).ended, p)

/-! ## A call under its stage span (Gateways.cs:53-62) -/

structure StageRecord where
  stage : Activity
  clients : List Activity

/-- `DownstreamCall.ExecuteAsync`. `decision` is what the fraud call tags its stage with. -/
def DownstreamCall.executeAsync {β : Type} (tracer : Tracer) (call : GatewayCall) (id : Guid) (script : CallScript β)
    (translate : AttemptEnd β → Except Exn StageResult) (decision : AttemptEnd β → Option String)
    (start : Int) : Except Exn StageResult × StageRecord :=
  let stage := startStage tracer call.stageName id start
  let (ended, p) := pipeline tracer call script (call.profile.maxAttempts - 1) 1
    { stage, now := start + script.before }
  let stage := match translate ended with
    | .ok result => recordStageResult (tagDecision p.stage (decision ended)) result
    | .error _ => tagDecision p.stage (decision ended)
  (translate ended, ⟨stage.stop (p.now + script.after), p.clients⟩)

/-! ## What a call leaves behind -/

/-- The activity has the ids of the request, and no other value under their names. -/
def Tracer.Tagged (tracer : Tracer) (activity : Activity) : Prop :=
  ∀ key ∈ allowedBaggageKeys, activity.tag key = BaggageTagProcessor.tagOf tracer.baggage key

/-- Request `number` of a stage. -/
structure IsAttempt (tracer : Tracer) (call : GatewayCall) (stageId : String) (number : Nat) (client : Activity) :
    Prop where
  parent : client.parentId = stageId
  name : client.name = call.method
  kind : client.kind = .client
  attempt : client.tag retryAttempt = some (.int number)
  tagged : tracer.Tagged client

/-- What has been sent: the requests of the stage in their order, each before the next one. -/
structure PipelineState.Sent (tracer : Tracer) (call : GatewayCall) (stageId : String) (sent : Nat) (p : PipelineState) :
    Prop where
  attempt : p.attempt = if sent = 0 then none else some sent
  length : p.clients.length = sent
  clients : ∀ i (h : i < p.clients.length), IsAttempt tracer call stageId (i + 1) p.clients[i]
  increasing : p.clients.Pairwise fun client next => client.startTime < next.startTime
  started : ∀ client ∈ p.clients, client.startTime < p.now

/-- What the pipeline has recorded on the stage span. -/
structure Recorded (stage : Activity) (retried : Nat) (now : Activity) : Prop where
  same : now.SameSpan stage
  status : now.status = stage.status
  tags : ∀ key, key ≠ retryCount → now.tag key = stage.tag key
  retries : (now.eventsNamed eventRetry).length = retried
  count : now.tag retryCount = if retried = 0 then none else some (.int retried)

section Start
variable (tracer : Tracer) (key : SpanKey) (parentId name : String) (kind : ActivityKind) (time : Int)

theorem Tracer.tag_start (tag : String) :
    (tracer.start key parentId name kind time).tag tag = BaggageTagProcessor.tagOf tracer.baggage tag := by
  apply BaggageTagProcessor.copyAllowedBaggage_congr
  exact fun _ => rfl

theorem Tracer.start_keeps :
    (tracer.start key parentId name kind time).SameSpan ⟨tracer.ids key, parentId, name, kind, time, time, [], [], .unset⟩ ∧
      (tracer.start key parentId name kind time).events = [] ∧
      (tracer.start key parentId name kind time).status = .unset :=
  BaggageTagProcessor.copyAllowedBaggage_keeps _ _

/-- A tag outside the allow-list is not there at first. -/
theorem Tracer.tag_start_eq_none {tag : String} (h : tag ∉ allowedBaggageKeys) :
    (tracer.start key parentId name kind time).tag tag = none :=
  BaggageTagProcessor.tag_copyAllowedBaggage_of_not_allowed h _ _

end Start

/-- Another tag does not touch the ids of the request. -/
theorem Tracer.Tagged.setTag {tracer : Tracer} {activity : Activity} (h : tracer.Tagged activity) {key : String}
    (hkey : key ∉ allowedBaggageKeys) (value : Json) : tracer.Tagged (activity.setTag key value) := by
  intro allowed hallowed
  have hne : allowed ≠ key := fun heq => hkey (heq ▸ hallowed)
  rw [Activity.tag_setTag, if_neg hne, h allowed hallowed]

section Pipeline
variable {β : Type} {tracer : Tracer} {call : GatewayCall} {stage now : Activity} {sent retried : Nat}
  {p : PipelineState} {script : AttemptScript β}

theorem Recorded.circuits (h : Recorded stage retried now) (dependency : String) (time : Int) (states : List String) :
    Recorded stage retried (states.foldl (recordCircuitStateChange dependency time) now) := by
  induction states generalizing now with
  | nil => exact h
  | cons state states ih =>
    refine ih ⟨(Activity.SameSpan.addEvent _ _ _).trans h.same, h.status, h.tags, ?_, h.count⟩
    have hname : eventCircuitStateChanged ≠ eventRetry := by decide
    simp [recordCircuitStateChange, hname, h.retries]

theorem Recorded.retry (h : Recorded stage retried now) (delay : Nat) (reason : String) (time : Int) :
    Recorded stage (retried + 1) (recordRetry now (retried + 1) delay reason time) where
  same := (Activity.SameSpan.setTag _ _).trans ((Activity.SameSpan.addEvent _ _ _).trans h.same)
  status := h.status
  tags key hkey := by simp [recordRetry, hkey, h.tags key hkey]
  retries := by simp [recordRetry, h.retries]
  count := by simp [recordRetry]

/-- One attempt sends one request, unless the circuit is open. -/
theorem PipelineState.send_sent (script : AttemptScript β) (h : p.Sent tracer call stage.id sent)
    (hsame : p.stage.SameSpan stage) :
    (p.send tracer call script).Sent tracer call stage.id (if script.refused then sent else sent + 1) := by
  have hlater : p.now < p.now + script.lasts := by have := script.lasts_pos; omega
  by_cases hrefused : script.refused = true
  · simp only [send, hrefused, if_true]
    exact ⟨h.attempt, h.length, h.clients, h.increasing, fun client hmem => Int.lt_trans (h.started client hmem) hlater⟩
  · have hnumber : (match p.attempt with | some previous => previous + 1 | none => 1) = sent + 1 := by
      rw [h.attempt]
      by_cases hzero : sent = 0 <;> simp [hzero]
    simp only [send, Bool.eq_false_iff.2 hrefused, Bool.false_eq_true, if_false, hnumber]
    set client := ((tracer.start (.attempt call.stageName (sent + 1)) p.stage.id call.method .client p.now).setTag
      retryAttempt (.int (sent + 1 : Nat))).stop (p.now + script.lasts) with hclient
    have hstart := (tracer.start_keeps (.attempt call.stageName (sent + 1)) p.stage.id call.method .client p.now).1
    have hnew : IsAttempt tracer call stage.id (sent + 1) client := {
      parent := hstart.parentId.trans hsame.id
      name := hstart.name
      kind := hstart.kind
      attempt := by simp [hclient]
      tagged := Tracer.Tagged.setTag (fun key _ => tracer.tag_start _ _ _ _ _ key) (by decide) _ }
    have htime : client.startTime = p.now := hstart.startTime
    refine ⟨by simp, by simp [h.length], fun i hi => ?_, ?_, ?_⟩
    · rw [List.getElem_append]
      split
      · exact h.clients i _
      · have hlast : i = sent := by
          simp only [List.length_append, List.length_singleton, h.length] at hi
          rename_i hge
          rw [h.length] at hge
          omega
        simpa [hlast] using hnew
    · refine List.pairwise_append.2 ⟨h.increasing, List.pairwise_singleton _ _, fun earlier hmem last hlast => ?_⟩
      rw [List.mem_singleton.1 hlast, htime]
      exact h.started earlier hmem
    · intro other hmem
      obtain hmem | hmem := List.mem_append.1 hmem
      · exact Int.lt_trans (h.started other hmem) hlater
      · rw [List.mem_singleton.1 hmem, htime]
        exact hlater

theorem PipelineState.send_recorded (tracer : Tracer) (call : GatewayCall) (script : AttemptScript β)
    (h : Recorded stage retried p.stage) :
    Recorded stage retried (p.send tracer call script).stage := by
  have hcircuits := h.circuits call.dependency (p.now + script.lasts) script.circuitStates
  rw [send]
  split
  · exact hcircuits
  · exact hcircuits

theorem PipelineState.now_send (tracer : Tracer) (call : GatewayCall) (script : AttemptScript β) :
    (p.send tracer call script).now = p.now + script.lasts := by
  rw [send]
  split <;> rfl

theorem PipelineState.retry_sent {stageId : String} (script : AttemptScript β) (h : p.Sent tracer call stageId sent)
    (number : Nat) :
    (p.retry script number).Sent tracer call stageId sent :=
  ⟨h.attempt, h.length, h.clients, h.increasing, fun client hmem => by
    have := h.started client hmem
    simp only [retry]
    omega⟩

end Pipeline

theorem madeFrom_pos {β : Type} (profile : DependencyProfile) (script : CallScript β) {number : Nat} (hpos : 0 < number)
    (retries : Nat) : 0 < (script.madeFrom profile retries number).1 := by
  induction retries generalizing number with
  | zero => exact hpos
  | succ retries ih =>
    rw [CallScript.madeFrom]
    split
    · split
      · exact hpos
      · exact ih (Nat.succ_pos number)
    · exact hpos

/-- What attempt `number` leaves behind, if the call ends with it. -/
theorem PipelineState.send_last {β : Type} {tracer : Tracer} {call : GatewayCall} (script : CallScript β)
    {stage : Activity} {number : Nat} {p : PipelineState} (hpos : 0 < number)
    (hsent : p.Sent tracer call stage.id (number - 1)) (hrecorded : Recorded stage (number - 1) p.stage) :
    (p.send tracer call (script.attempts number)).Sent tracer call stage.id (script.sentIn (number, false)) ∧
      Recorded stage (CallScript.retriedIn (number, false)) (p.send tracer call (script.attempts number)).stage ∧
      p.now < (p.send tracer call (script.attempts number)).now := by
  have hsend := send_sent (script.attempts number) hsent hrecorded.same
  rw [Nat.sub_add_cancel hpos] at hsend
  refine ⟨hsend, send_recorded tracer call (script.attempts number) hrecorded, ?_⟩
  have hlasts := (script.attempts number).lasts_pos
  rw [now_send]
  omega

/-- **What the pipeline does**: it ends as the retry loop does, and it leaves its requests in their
order and a retry event for each retry, the one that a budget cut off while it waited included. -/
theorem pipeline_spec {β : Type} (tracer : Tracer) (call : GatewayCall) (script : CallScript β) {stage : Activity}
    (retries : Nat) {number : Nat} {p : PipelineState} (hpos : 0 < number)
    (hsent : p.Sent tracer call stage.id (number - 1)) (hrecorded : Recorded stage (number - 1) p.stage) :
    (pipeline tracer call script retries number p).1 = script.endFrom call.profile retries number ∧
    (pipeline tracer call script retries number p).2.Sent tracer call stage.id
      (script.sentIn (script.madeFrom call.profile retries number)) ∧
    Recorded stage (CallScript.retriedIn (script.madeFrom call.profile retries number))
      (pipeline tracer call script retries number p).2.stage ∧
    p.now < (pipeline tracer call script retries number p).2.now := by
  have hlast := PipelineState.send_last script hpos hsent hrecorded
  induction retries generalizing number p with
  | zero => exact ⟨rfl, hlast⟩
  | succ retries ih =>
    obtain ⟨hsend, hstage, hlater⟩ := hlast
    simp only [pipeline, CallScript.endFrom, CallScript.madeFrom]
    by_cases hretried : (script.attempts number).retried call.profile = true
    · have hthrough : (script.attempts number).refused = false := by
        refine Bool.eq_false_iff.2 fun hrefused => ?_
        rw [AttemptScript.not_retried_of_refused hrefused] at hretried
        cases hretried
      -- the retry is reported with the number of the attempt that failed
      have hreported := hstage.retry (script.attempts number).delay (script.attempts number).describe
        (p.send tracer call (script.attempts number)).now
      have hwaited := PipelineState.retry_sent (script.attempts number) hsend number
      simp only [CallScript.sentIn, hthrough, CallScript.retriedIn, Bool.false_eq_true, if_false,
        Nat.sub_add_cancel hpos] at hreported hwaited
      have hwait : (p.send tracer call (script.attempts number)).now ≤
          ((p.send tracer call (script.attempts number)).retry (script.attempts number) number).now := by
        simp [PipelineState.retry]
      simp only [hretried, if_true]
      cases (script.attempts number).waitCut with
      | some budget =>
        refine ⟨rfl, by simpa [CallScript.sentIn, hthrough] using hwaited, ?_, Int.lt_of_lt_of_le hlater hwait⟩
        simpa [CallScript.retriedIn, PipelineState.retry] using hreported
      | none =>
        obtain ⟨hended, hsent, hrecorded, hnow⟩ := ih (Nat.succ_pos number) hwaited hreported
          (PipelineState.send_last script (Nat.succ_pos number) hwaited hreported)
        exact ⟨hended, hsent, hrecorded, Int.lt_trans (Int.lt_of_lt_of_le hlater hwait) hnow⟩
    · rw [if_neg hretried, if_neg hretried, if_neg hretried]
      exact ⟨rfl, hsend, hstage, hlater⟩

/-! ## A whole call -/

/-- The transaction failed for a technical reason, not for one of the client. -/
def StageResult.technical : StageResult → Bool
  | .success => false
  | .failure kind _ => kind ≠ .businessRejection

def StageResult.kind : StageResult → Option FailureKind
  | .success => none
  | .failure kind _ => some kind

/-- The record of a stage that started at `start`, sent `sent` requests and reported `retried` retries.
`result` is missing if an exception escaped from the call. -/
structure StageRecord.Tells (tracer : Tracer) (call : GatewayCall) (id : Guid) (start : Int) (sent retried : Nat)
    (result : Option StageResult) (record : StageRecord) : Prop where
  same : record.stage.SameSpan (startStage tracer call.stageName id start)
  takesTime : start < record.stage.stopTime
  order : record.stage.tag orderId = some (.str id.formatD)
  tagged : tracer.Tagged record.stage
  retries : (record.stage.eventsNamed eventRetry).length = retried
  count : record.stage.tag retryCount = if retried = 0 then none else some (.int retried)
  kind : record.stage.tag failureKind = (result.bind (·.kind)).map fun kind => .str kind.name
  error : record.stage.status = .error ↔ result.any (·.technical) = true
  length : record.clients.length = sent
  clients : ∀ i (h : i < record.clients.length), IsAttempt tracer call (tracer.ids (.stage call.stageName)) (i + 1)
    record.clients[i]
  increasing : record.clients.Pairwise fun client next => client.startTime < next.startTime

theorem startStage_keeps (tracer : Tracer) (stageName : String) (id : Guid) (time : Int) :
    (startStage tracer stageName id time).SameSpan
      ⟨tracer.ids (.stage stageName), tracer.ids .transaction, stageName, .internal, time, time, [], [], .unset⟩ ∧
    (startStage tracer stageName id time).events = [] ∧ (startStage tracer stageName id time).status = .unset ∧
    tracer.Tagged (startStage tracer stageName id time) ∧
    (startStage tracer stageName id time).tag orderId = some (.str id.formatD) ∧
    (startStage tracer stageName id time).tag retryCount = none ∧
    (startStage tracer stageName id time).tag failureKind = none := by
  obtain ⟨hsame, hevents, hstatus⟩ :=
    tracer.start_keeps (.stage stageName) (tracer.ids .transaction) stageName .internal time
  have hnone : ∀ key, key ≠ orderId → key ∉ allowedBaggageKeys → (startStage tracer stageName id time).tag key = none := by
    intro key hkey hallowed
    rw [startStage, Activity.tag_setTag, if_neg hkey, Tracer.tag_start_eq_none _ _ _ _ _ _ hallowed]
  exact ⟨(Activity.SameSpan.setTag _ _).trans hsame, hevents, hstatus,
    Tracer.Tagged.setTag (fun key _ => tracer.tag_start _ _ _ _ _ key) (by decide) _, by simp [startStage],
    hnone _ (by decide) (by decide), hnone _ (by decide) (by decide)⟩

/-- What `RecordStageResult` changes on a stage. -/
theorem recordStageResult_keeps (stage : Activity) (result : StageResult) :
    (recordStageResult stage result).SameSpan stage ∧ (recordStageResult stage result).events = stage.events ∧
    (∀ key, key ≠ failureKind → key ≠ failureReason → key ≠ "error.type" →
      (recordStageResult stage result).tag key = stage.tag key) ∧
    (recordStageResult stage result).tag failureKind =
      (match result.kind with | some kind => some (.str kind.name) | none => stage.tag failureKind) ∧
    (recordStageResult stage result).status = if result.technical then .error else stage.status := by
  have hnames : failureKind ≠ failureReason ∧ failureKind ≠ "error.type" := by decide
  cases result with
  | success => exact ⟨.refl _, rfl, fun _ _ _ _ => rfl, rfl, rfl⟩
  | failure kind reason =>
    simp only [recordStageResult]
    split
    · rename_i hkind
      refine ⟨(Activity.SameSpan.setTag _ _).trans ((Activity.SameSpan.setStatus _).trans
        ((Activity.SameSpan.setTag _ _).trans (.setTag _ _))), by simp, fun key h1 h2 h3 => by simp [h1, h2, h3],
          by simp [hnames, StageResult.kind], by simp [StageResult.technical, hkind]⟩
    · rename_i hkind
      refine ⟨(Activity.SameSpan.setTag _ _).trans (.setTag _ _), by simp, fun key h1 h2 _ => by simp [h1, h2],
        by simp [hnames, StageResult.kind], ?_⟩
      simp only [ne_eq, not_not] at hkind
      simp [StageResult.technical, hkind]

theorem tagDecision_keeps (stage : Activity) (decision : Option String) :
    (tagDecision stage decision).SameSpan stage ∧ (tagDecision stage decision).events = stage.events ∧
      (tagDecision stage decision).status = stage.status ∧
      ∀ key, key ≠ "fraud.decision" → (tagDecision stage decision).tag key = stage.tag key := by
  cases decision with
  | none => exact ⟨.refl _, rfl, rfl, fun _ _ => rfl⟩
  | some decision => exact ⟨.setTag _ _, rfl, rfl, fun key h => by simp [tagDecision, h]⟩

/-- The end of a call on the record. -/
theorem tells_of_recorded {tracer : Tracer} {call : GatewayCall} {id : Guid} {start stop : Int} {sent retried : Nat}
    {p : PipelineState} (hsent : p.Sent tracer call (tracer.ids (.stage call.stageName)) sent)
    (hrecorded : Recorded (startStage tracer call.stageName id start) retried p.stage) (htime : start < stop)
    (decided : Option String) (result : Except Exn StageResult) :
    StageRecord.Tells tracer call id start sent retried result.toOption
      ⟨(match result with
        | .ok result => recordStageResult (tagDecision p.stage decided) result
        | .error _ => tagDecision p.stage decided).stop stop, p.clients⟩ := by
  obtain ⟨-, -, hunset, htagged, horder, -, hkind⟩ := startStage_keeps tracer call.stageName id start
  obtain ⟨hsameDecided, heventsDecided, hstatusDecided, htagDecided⟩ := tagDecision_keeps p.stage decided
  have htag : ∀ key, key ≠ retryCount → key ≠ "fraud.decision" →
      (tagDecision p.stage decided).tag key = (startStage tracer call.stageName id start).tag key :=
    fun key hcount hdecision => (htagDecided key hdecision).trans (hrecorded.tags key hcount)
  have hallowed : ∀ key ∈ allowedBaggageKeys, key ≠ retryCount ∧ key ≠ "fraud.decision" ∧ key ≠ failureKind ∧
      key ≠ failureReason ∧ key ≠ "error.type" := by decide
  have hresult : (match result with
      | .ok result => recordStageResult (tagDecision p.stage decided) result
      | .error _ => tagDecision p.stage decided) =
      recordStageResult (tagDecision p.stage decided) (result.toOption.getD .success) := by
    cases result <;> rfl
  obtain ⟨hsame, hevents, htags, hfailed, herror⟩ :=
    recordStageResult_keeps (tagDecision p.stage decided) (result.toOption.getD .success)
  rw [hresult]
  exact {
    same := (Activity.SameSpan.stop _).trans (hsame.trans (hsameDecided.trans hrecorded.same))
    takesTime := htime
    order := by
      rw [Activity.tag_stop, htags _ (by decide) (by decide) (by decide), htag _ (by decide) (by decide), horder]
    tagged := fun key hkey => by
      obtain ⟨h1, h2, h3, h4, h5⟩ := hallowed key hkey
      rw [Activity.tag_stop, htags key h3 h4 h5, htag key h1 h2, htagged key hkey]
    retries := by
      rw [Activity.eventsNamed_stop, Activity.eventsNamed, hevents, heventsDecided]
      exact hrecorded.retries
    count := by
      rw [Activity.tag_stop, htags _ (by decide) (by decide) (by decide), htagDecided _ (by decide), hrecorded.count]
    kind := by
      rw [Activity.tag_stop, hfailed, htag _ (by decide) (by decide), hkind]
      cases result with
      | error e => rfl
      | ok result => cases result <;> rfl
    error := by
      rw [Activity.status_stop, herror, hstatusDecided, hrecorded.status, hunset]
      cases result with
      | error e => simp [Except.toOption, StageResult.technical]
      | ok result => cases result <;> simp [Except.toOption, StageResult.technical]
    length := hsent.length
    clients := hsent.clients
    increasing := hsent.increasing }

/-- **A call under its stage span**: its result is the translated end of its attempts, and its record
tells how it went. -/
theorem executeAsync_spec {β : Type} (tracer : Tracer) (call : GatewayCall) (id : Guid) (script : CallScript β)
    (translate : AttemptEnd β → Except Exn StageResult) (decision : AttemptEnd β → Option String) (start : Int) :
    (DownstreamCall.executeAsync tracer call id script translate decision start).1 =
      translate (script.ended call.profile) ∧
    (DownstreamCall.executeAsync tracer call id script translate decision start).2.Tells tracer call id start
      (script.sentIn (script.made call.profile)) (CallScript.retriedIn (script.made call.profile))
      (translate (script.ended call.profile)).toOption := by
  obtain ⟨hstage, hevents, -, -, -, hcount, -⟩ := startStage_keeps tracer call.stageName id start
  have hsent : PipelineState.Sent tracer call (startStage tracer call.stageName id start).id 0
      { stage := startStage tracer call.stageName id start, now := start + script.before } :=
    ⟨rfl, rfl, fun i h => absurd h (Nat.not_lt_zero i), .nil, fun client h => by cases h⟩
  have hrecorded : Recorded (startStage tracer call.stageName id start) 0 (startStage tracer call.stageName id start) :=
    ⟨.refl _, rfl, fun _ _ => rfl, by simp [Activity.eventsNamed, hevents], hcount⟩
  obtain ⟨hended, hsent, hrecorded, hnow⟩ :=
    pipeline_spec tracer call script (call.profile.maxAttempts - 1) Nat.one_pos hsent hrecorded
  rw [hstage.id] at hsent
  rw [CallScript.ended, ← hended]
  refine ⟨rfl, tells_of_recorded hsent hrecorded ?_ _ _⟩
  simp only at hnow
  omega

end TxPlatform
