import TxPlatform.Order.Coordinator
import TxPlatform.Order.Telemetry

/-! # The coordinator with its telemetry (OrderTransactionCoordinator.cs, OrderTelemetry.cs, Gateways.cs)

The functions of the coordinator as the source has them, with what each records on the spans. Against
them stands the coordinator without telemetry over dependencies that keep a log of the calls they get:
both end alike, and the stage spans are the calls of the log, one by one (`executeAsync_refines`).
-/

namespace TxPlatform

open TelemetryConventions OrderTelemetry

/-! ## Requests and their calls -/

/-- A cut by the budget of the stage is a rejection like that of an attempt; the budget of the
transaction cancels the token of the caller. -/
def AttemptEnd.behaviour : AttemptEnd Budget → Option CallBehaviour
  | .ends behaviour => some behaviour
  | .cut .stage => some .timeoutRejected
  | .cut .transaction => none

/-- An undo call has no other budget. -/
def AttemptEnd.undoBehaviour : AttemptEnd Unit → CallBehaviour
  | .ends behaviour => behaviour
  | .cut _ => .timeoutRejected

namespace StageRequest

def call : StageRequest → GatewayCall
  | .reserve _ => .reserve
  | .evaluate _ _ _ => .evaluate
  | .authorize _ _ => .authorize
  | .createShipment _ => .create

/-- How the gateway reads the answer. -/
def interpret : StageRequest → HttpResponse → Except Exn StageResult
  | .evaluate _ _ _ => interpretEvaluation
  | _ => DownstreamCall.interpretAsync

/-- `Activity.Current?.SetTag("fraud.decision", evaluation?.Decision)`. -/
def decision : StageRequest → AttemptEnd Budget → Option String
  | .evaluate _ _ _, .ends (.response response) =>
    if response.isSuccessStatusCode then
      match readEvaluation response.body with
      | .ok evaluation => evaluation.bind (·.decision)
      | .error _ => none
    else none
  | _, _ => none

end StageRequest

namespace UndoRequest

def call : UndoRequest → GatewayCall
  | .release _ => .release
  | .void _ => .void

def interpret : UndoRequest → HttpResponse → Except Exn StageResult
  | .release _ => interpretRelease
  | .void _ => DownstreamCall.interpretAsync

end UndoRequest

/-- What happens to the calls of a transaction, over whatever the dependencies keep in `σ`. -/
structure Pipelines (σ : Type) where
  stage : StageRequest → σ → CallScript Budget × σ
  undo : UndoRequest → σ → CallScript Unit × σ

/-! ## Recording the transaction (OrderTelemetry.cs) -/

namespace OrderTelemetry

def startTransactionActivity (tracer : Tracer) (order : Order) (itemCount : I32) (time : Int) : Activity :=
  ((tracer.start .transaction tracer.serverId "order.transaction" .internal time).setTag
    orderId (.str order.id.formatD)).setTag "order.item_count" (.int itemCount.toInt)

def recordTransition (transaction : Activity) (transition : StateTransition) (time : Int) : Activity :=
  (transaction.addEvent eventStateChanged time [("order.state.from", .str transition.source.name),
    ("order.state.to", .str transition.target.name)]).setTag orderState (.str transition.target.name)

def recordFailure (transaction : Activity) (failure : OrderFailure) : Activity :=
  let transaction := ((transaction.setTag failureStage (.str failure.stage.name)).setTag
    failureKind (.str failure.kind.name)).setTag failureReason (.str failure.reason)
  if failure.kind ≠ .businessRejection then
    (transaction.setStatus .error).setTag "error.type" (.str failure.kind.name)
  else transaction

def recordCompensation (transaction : Activity) (result : CompensationStepResult) (time : Int) : Activity :=
  transaction.addEvent (if result.status = .succeeded then eventCompensationCompleted else eventCompensationFailed)
    time [("compensation.action", .str result.action.name), ("compensation.detail", .str result.detail)]

end OrderTelemetry

/-- The spans of a transaction so far, and the time. -/
structure Recording where
  transaction : Activity
  stages : List StageRecord
  now : Int

/-- A stage that has ended. -/
def Recording.add (r : Recording) (record : StageRecord) : Recording :=
  { r with stages := r.stages ++ [record], now := record.stage.stopTime }

/-- A transition of the order. -/
def Recording.transition (r : Recording) (transition : StateTransition) : Recording :=
  { r with transaction := recordTransition r.transaction transition r.now }

namespace TracedCoordinator

variable {σ : Type} (pipelines : Pipelines σ) (tracer : Tracer) (clock : Nat → DateTimeOffset)

/-! ## The gateways -/

/-- A stage call that can start at `ready`; without a body it throws inside its span. -/
def stageCall (call : GatewayCall) (request : Option StageRequest) (id : Guid) (ready : Int) (s : σ) :
    Except Exn StageResult × StageRecord × σ :=
  match request with
  | none => (.error .overflow, ⟨(startStage tracer call.stageName id ready).stop ready, []⟩, s)
  | some request =>
    let (script, s) := pipelines.stage request s
    let (result, record) := DownstreamCall.executeAsync tracer call id script
      (fun ended => DownstreamCall.translate request.interpret ended.behaviour) request.decision (ready + script.idle)
    (result, record, s)

def undoCall (call : GatewayCall) (request : UndoRequest) (id : Guid) (ready : Int) (s : σ) :
    Except Exn StageResult × StageRecord × σ :=
  let (script, s) := pipelines.undo request s
  let (result, record) := DownstreamCall.executeAsync tracer call id script
    (fun ended => DownstreamCall.translate request.interpret (some ended.undoBehaviour)) (fun _ => none)
    (ready + script.idle)
  (result, record, s)

def reserveAsync (order : Order) (ready : Int) (s : σ) : Except Exn StageResult × StageRecord × σ :=
  stageCall pipelines tracer .reserve (some (.reserve (reserveRequest order))) order.id ready s

def evaluateAsync (order : Order) (ready : Int) (s : σ) : Except Exn StageResult × StageRecord × σ :=
  let request := do return .evaluate order.id (← order.totalAmount) (← order.itemCount)
  stageCall pipelines tracer .evaluate request order.id ready s

def authorizeAsync (order : Order) (ready : Int) (s : σ) : Except Exn StageResult × StageRecord × σ :=
  let request := do
    return .authorize (PaymentGateway.idempotencyKeyFor order.id) (authorizeRequest order (← order.totalAmount))
  stageCall pipelines tracer .authorize request order.id ready s

def createAsync (order : Order) (ready : Int) (s : σ) : Except Exn StageResult × StageRecord × σ :=
  let request := do return .createShipment (createRequest order (← order.itemCount))
  stageCall pipelines tracer .create request order.id ready s

def releaseAsync (orderId : Guid) (ready : Int) (s : σ) : Except Exn StageResult × StageRecord × σ :=
  undoCall pipelines tracer .release (.release orderId) orderId ready s

def voidAsync (orderId : Guid) (ready : Int) (s : σ) : Except Exn StageResult × StageRecord × σ :=
  undoCall pipelines tracer .void (.void orderId) orderId ready s

/-! ## The coordinator -/

/-- `Transition`. -/
def transition (order : Order) (target : OrderState) (r : Recording) : Except Exn (Order × Recording) :=
  let time := clock order.history.length
  (order.transitionTo target time).map fun moved => (moved, r.transition ⟨order.state, target, time⟩)

/-- `Fail`. -/
def failWith (order : Order) (failure : OrderFailure) (r : Recording) :
    Except Exn (Option OrderFailure × Order) × Recording :=
  let time := clock order.history.length
  match order.fail failure time with
  | .error e => (.error e, r)
  | .ok failed =>
    let r := r.transition ⟨order.state, OrderStateMachine.failureStateFor failure.stage, time⟩
    (.ok (some failure, failed), { r with transaction := recordFailure r.transaction failure })

/-- `RunStagesAsync`, from the payment's success on. -/
def runShipping (order : Order) (r : Recording) (s : σ) :
    Except Exn (Option OrderFailure × Order) × Recording × σ :=
  match transition clock order .paymentAuthorized r with
  | .error e => (.error e, r, s)
  | .ok (order, r) =>
    let (shipment, record, s) := createAsync pipelines tracer order r.now s
    let r := r.add record
    match shipment with
    | .error e => (.error e, r, s)
    | .ok (.failure kind reason) =>
      let (result, r) := failWith clock order ⟨.shipping, kind, reason⟩ r
      (result, r, s)
    | .ok .success =>
      match transition clock order .shipmentCreated r with
      | .error e => (.error e, r, s)
      | .ok (order, r) =>
        match transition clock order .completed r with
        | .error e => (.error e, r, s)
        | .ok (order, r) => (.ok (none, order), r, s)

/-- `RunStagesAsync`, from the fan-out's success on. -/
def runPayment (order : Order) (r : Recording) (s : σ) :
    Except Exn (Option OrderFailure × Order) × Recording × σ :=
  match transition clock order .inventoryReserved r with
  | .error e => (.error e, r, s)
  | .ok (order, r) =>
    let (authorization, record, s) := authorizeAsync pipelines tracer order r.now s
    let r := r.add record
    match authorization with
    | .error e => (.error e, r, s)
    | .ok (.failure kind reason) =>
      let (result, r) := failWith clock order ⟨.payment, kind, reason⟩ r
      (result, r, s)
    | .ok .success => runShipping pipelines tracer clock order r s

/-- `RunStagesAsync`. The fraud stage starts its own idle time after the inventory stage, and the order
waits for both. -/
def runStagesAsync (order : Order) (r : Recording) (s : σ) :
    Except Exn (Option OrderFailure × Order) × Recording × σ :=
  let (reservation, inventory, s) := reserveAsync pipelines tracer order r.now s
  let (evaluation, fraud, s) := evaluateAsync pipelines tracer order inventory.stage.startTime s
  let r := { r with
    stages := r.stages ++ [inventory, fraud]
    now := max inventory.stage.stopTime fraud.stage.stopTime }
  match reservation, evaluation with
  | .error e, _ => (.error e, r, s)
  | .ok _, .error e => (.error e, r, s)
  | .ok reservation, .ok evaluation =>
    match FanOutResolution.resolve reservation evaluation with
    | some failure =>
      let (result, r) := failWith clock order failure r
      (result, r, s)
    | none => runPayment pipelines tracer clock order r s

/-- One undo call. -/
def undoAsync (orderId : Guid) (ready : Int) (s : σ) : CompensationAction → Except Exn StageResult × StageRecord × σ
  | .voidPayment => voidAsync pipelines tracer orderId ready s
  | .releaseInventory => releaseAsync pipelines tracer orderId ready s

/-- The loop of `CompensateAsync`. -/
def compensateAsync : List CompensationAction → Order → Recording → σ → Except Exn Order × Recording × σ
  | [], order, r, s => (.ok order, r, s)
  | action :: actions, order, r, s =>
    let (result, record, s) := undoAsync pipelines tracer order.id r.now s action
    let r := r.add record
    match result with
    | .error e => (.error e, r, s)
    | .ok result =>
      let step := OrderTransactionCoordinator.compensationStep action result
      compensateAsync actions (order.recordCompensation step)
        { r with transaction := recordCompensation r.transaction step r.now } s

/-- The stages and, after a failure, its compensation. -/
def process (order : Order) (r : Recording) (s : σ) : Except Exn Order × Recording × σ :=
  match runStagesAsync pipelines tracer clock order r s with
  | (.error e, r, s) => (.error e, r, s)
  | (.ok (none, order), r, s) => (.ok order, r, s)
  | (.ok (some failure, order), r, s) =>
    compensateAsync pipelines tracer (CompensationPlan.planFor failure) order r s

/-- `ExecuteAsync`, started at `time`. A transaction span whose item count cannot be read is never
stopped, so it is not exported. -/
def executeAsync (others : List OrderSnapshot) (order : Order) (repository : OrderRepository) (time : Int) (s : σ) :
    Except Exn OrderSnapshot × OrderRepository × Option Recording × σ :=
  match order.toSnapshot with
  | .error e => (.error e, repository, none, s)
  | .ok first =>
    match order.itemCount with
    | none => (.error .overflow, repository.save first, none, s)
    | some itemCount =>
      let repository := others.foldl OrderRepository.save (repository.save first)
      let (result, r, s) := process pipelines tracer clock order
        ⟨startTransactionActivity tracer order itemCount time, [], time⟩ s
      let stopped := { r with transaction := r.transaction.stop r.now }
      match result with
      | .error e => (.error e, repository, some stopped, s)
      | .ok order =>
        match order.toSnapshot with
        | .error e => (.error e, repository, some stopped, s)
        | .ok snapshot => (.ok snapshot, repository.save snapshot, some stopped, s)

end TracedCoordinator

/-! ## The log of the calls -/

/-- A call that was made: its attempts, whether a budget ran out while another one was waited for, whether
the last one met an open circuit, and its result, if it had one. -/
structure CallRun where
  call : GatewayCall
  made : Nat × Bool
  made_pos : 0 < made.1
  refused : Bool
  result : Option StageResult

namespace CallRun

def sent (run : CallRun) : Nat := if run.refused then run.made.1 - 1 else run.made.1

def retried (run : CallRun) : Nat := CallScript.retriedIn run.made

/-- A stage record tells of this call. -/
def ToldBy (tracer : Tracer) (id : Guid) (run : CallRun) (record : StageRecord) : Prop :=
  record.Tells tracer run.call id record.stage.startTime run.sent run.retried run.result

end CallRun

/-- What the log keeps of a script. -/
def CallScript.run {β : Type} (script : CallScript β) (call : GatewayCall) (result : Option StageResult) : CallRun :=
  ⟨call, script.made call.profile, madeFrom_pos _ _ Nat.one_pos _, (script.attempts (script.made call.profile).1).refused, result⟩

/-- Dependencies that answer as the pipelines do, and keep a log. -/
def Pipelines.logged {σ : Type} (pipelines : Pipelines σ) : Dependencies (σ × List CallRun) where
  stage request := fun (s, log) =>
    let (script, s) := pipelines.stage request s
    let behaviour := (script.ended request.call.profile).behaviour
    (behaviour, s, log ++ [script.run request.call (DownstreamCall.translate request.interpret behaviour).toOption])
  undo request := fun (s, log) =>
    let (script, s) := pipelines.undo request s
    let behaviour := (script.ended request.call.profile).undoBehaviour
    (behaviour, s,
      log ++ [script.run request.call (DownstreamCall.translate request.interpret (some behaviour)).toOption])

/-- A call of the coordinator with its record, against the same call without. -/
structure CallAgrees {σ : Type} (tracer : Tracer) (call : GatewayCall) (id : Guid) (ready : Int) (log : List CallRun)
    (plain : Except Exn StageResult × σ × List CallRun) (traced : Except Exn StageResult × StageRecord × σ) : Prop where
  result : plain.1 = traced.1
  state : plain.2.1 = traced.2.2
  logged : ∃ run : CallRun, plain.2.2 = log ++ [run] ∧ run.call = call ∧ run.result = traced.1.toOption ∧
    run.ToldBy tracer id traced.2.1
  starts : ready ≤ traced.2.1.stage.startTime

theorem CallAgrees.elim {σ : Type} {tracer : Tracer} {call : GatewayCall} {id : Guid} {ready : Int} {log : List CallRun}
    {plain : Except Exn StageResult × σ × List CallRun} {traced : Except Exn StageResult × StageRecord × σ}
    (h : CallAgrees tracer call id ready log plain traced) :
    ∃ result record s, ∃ run : CallRun, plain = (result, s, log ++ [run]) ∧ traced = (result, record, s) ∧
      run.call = call ∧ run.result = result.toOption ∧ run.ToldBy tracer id record ∧ ready ≤ record.stage.startTime := by
  obtain ⟨result, s, log'⟩ := plain
  obtain ⟨result', record, s'⟩ := traced
  obtain rfl : result = result' := h.result
  obtain rfl : s = s' := h.state
  obtain ⟨run, hlog, hcall, hresult, htold⟩ := h.logged
  obtain rfl : log' = log ++ [run] := hlog
  exact ⟨result, record, s, run, rfl, rfl, hcall, hresult, htold, h.starts⟩

section Calls
variable {σ : Type} (pipelines : Pipelines σ) (tracer : Tracer)

theorem stageCall_agrees (request : StageRequest) (id : Guid) (ready : Int) (s : σ) (log : List CallRun) :
    CallAgrees tracer request.call id ready log
      (DownstreamCall.translate request.interpret (pipelines.logged.stage request (s, log)).1,
        (pipelines.logged.stage request (s, log)).2)
      (TracedCoordinator.stageCall pipelines tracer request.call (some request) id ready s) := by
  simp only [Pipelines.logged, TracedCoordinator.stageCall]
  generalize (pipelines.stage request s).1 = script, (pipelines.stage request s).2 = s
  obtain ⟨hresult, htells⟩ := executeAsync_spec tracer request.call id script
    (fun ended => DownstreamCall.translate request.interpret ended.behaviour) request.decision (ready + script.idle)
  have hstart := htells.same.startTime.trans
    (startStage_keeps tracer request.call.stageName id (ready + script.idle)).1.startTime
  refine ⟨hresult.symm, rfl, ⟨_, rfl, rfl, congrArg Except.toOption hresult.symm, ?_⟩, ?_⟩
  · rw [CallRun.ToldBy, hstart]
    exact htells
  · simp only [hstart]
    omega

theorem undoCall_agrees (request : UndoRequest) (id : Guid) (ready : Int) (s : σ) (log : List CallRun) :
    CallAgrees tracer request.call id ready log
      (DownstreamCall.translate request.interpret (some (pipelines.logged.undo request (s, log)).1),
        (pipelines.logged.undo request (s, log)).2)
      (TracedCoordinator.undoCall pipelines tracer request.call request id ready s) := by
  simp only [Pipelines.logged, TracedCoordinator.undoCall]
  generalize (pipelines.undo request s).1 = script, (pipelines.undo request s).2 = s
  obtain ⟨hresult, htells⟩ := executeAsync_spec tracer request.call id script
    (fun ended => DownstreamCall.translate request.interpret (some ended.undoBehaviour)) (fun _ => none)
    (ready + script.idle)
  have hstart := htells.same.startTime.trans
    (startStage_keeps tracer request.call.stageName id (ready + script.idle)).1.startTime
  refine ⟨hresult.symm, rfl, ⟨_, rfl, rfl, congrArg Except.toOption hresult.symm, ?_⟩, ?_⟩
  · rw [CallRun.ToldBy, hstart]
    exact htells
  · simp only [hstart]
    omega

/-- The bodies of the requests can be built, and nothing has failed yet. -/
structure Order.Ready (order : Order) : Prop where
  noFailure : order.failure = none
  totalAmount : order.totalAmount.isSome
  itemCount : order.itemCount.isSome

variable {order : Order}

theorem reserveAsync_agrees (order : Order) (ready : Int) (s : σ) (log : List CallRun) :
    CallAgrees tracer .reserve order.id ready log (pipelines.logged.reserveAsync order (s, log))
      (TracedCoordinator.reserveAsync pipelines tracer order ready s) :=
  stageCall_agrees pipelines tracer (.reserve (reserveRequest order)) order.id ready s log

theorem evaluateAsync_agrees (h : order.Ready) (ready : Int) (s : σ) (log : List CallRun) :
    CallAgrees tracer .evaluate order.id ready log (pipelines.logged.evaluateAsync order (s, log))
      (TracedCoordinator.evaluateAsync pipelines tracer order ready s) := by
  obtain ⟨totalAmount, htotal⟩ := Option.isSome_iff_exists.1 h.totalAmount
  obtain ⟨itemCount, hcount⟩ := Option.isSome_iff_exists.1 h.itemCount
  simp only [Dependencies.evaluateAsync, TracedCoordinator.evaluateAsync, htotal, hcount]
  exact stageCall_agrees pipelines tracer (.evaluate order.id totalAmount itemCount) order.id ready s log

theorem authorizeAsync_agrees (h : order.Ready) (ready : Int) (s : σ) (log : List CallRun) :
    CallAgrees tracer .authorize order.id ready log (pipelines.logged.authorizeAsync order (s, log))
      (TracedCoordinator.authorizeAsync pipelines tracer order ready s) := by
  obtain ⟨totalAmount, htotal⟩ := Option.isSome_iff_exists.1 h.totalAmount
  simp only [Dependencies.authorizeAsync, TracedCoordinator.authorizeAsync, htotal]
  exact stageCall_agrees pipelines tracer (.authorize _ (authorizeRequest order totalAmount)) order.id ready s log

theorem createAsync_agrees (h : order.Ready) (ready : Int) (s : σ) (log : List CallRun) :
    CallAgrees tracer .create order.id ready log (pipelines.logged.createAsync order (s, log))
      (TracedCoordinator.createAsync pipelines tracer order ready s) := by
  obtain ⟨itemCount, hcount⟩ := Option.isSome_iff_exists.1 h.itemCount
  simp only [Dependencies.createAsync, TracedCoordinator.createAsync, hcount]
  exact stageCall_agrees pipelines tracer (.createShipment (createRequest order itemCount)) order.id ready s log

/-- The call of an undo action. -/
def CompensationAction.call : CompensationAction → GatewayCall
  | .voidPayment => .void
  | .releaseInventory => .release

theorem undoAsync_agrees (action : CompensationAction) (id : Guid) (ready : Int) (s : σ) (log : List CallRun) :
    CallAgrees tracer action.call id ready log
      (OrderTransactionCoordinator.undoAsync pipelines.logged id (s, log) action)
      (TracedCoordinator.undoAsync pipelines tracer id ready s action) := by
  cases action with
  | voidPayment => exact undoCall_agrees pipelines tracer (.void id) id ready s log
  | releaseInventory => exact undoCall_agrees pipelines tracer (.release id) id ready s log

end Calls

/-! ## What the spans of a transaction say -/

/-- Stages one after the other, but for the two of the fan-out, and the time when the last one ended. -/
inductive Timeline : List StageRecord → Int → Prop
  | fanOut {inventory fraud : StageRecord} (h : inventory.stage.startTime ≤ fraud.stage.startTime) :
    Timeline [inventory, fraud] (max inventory.stage.stopTime fraud.stage.stopTime)
  | add {stages : List StageRecord} {now : Int} {record : StageRecord} (h : Timeline stages now)
    (hstarts : now ≤ record.stage.startTime) (htakes : record.stage.startTime < record.stage.stopTime) :
    Timeline (stages ++ [record]) record.stage.stopTime

/-- The transaction span tells what happened to the order. -/
structure TellsOrder (tracer : Tracer) (start : Int) (order : Order) (transaction : Activity) : Prop where
  same : transaction.SameSpan
    ⟨tracer.ids .transaction, tracer.serverId, "order.transaction", .internal, start, start, [], [], .unset⟩
  orderTag : transaction.tag orderId = some (.str order.id.formatD)
  tagged : tracer.Tagged transaction
  path : (transaction.eventsNamed eventStateChanged).map (fun event => event.tags.lookup "order.state.to") =
    order.history.map fun transition => some (.str transition.target.name)
  state : transaction.tag orderState = order.history.getLast?.map fun transition => .str transition.target.name
  stage : transaction.tag failureStage = order.failure.map fun failure => .str failure.stage.name
  kind : transaction.tag failureKind = order.failure.map fun failure => .str failure.kind.name
  reason : transaction.tag failureReason = order.failure.map fun failure => .str failure.reason
  error : transaction.status = .error ↔ order.failure.any (·.kind ≠ .businessRejection) = true
  undone : (transaction.events.filter fun event =>
      event.name ∈ [eventCompensationCompleted, eventCompensationFailed]).map
        (fun event => (event.name, event.tags.lookup "compensation.action")) =
    order.compensation.map fun step =>
      (if step.status = .succeeded then eventCompensationCompleted else eventCompensationFailed,
        some (.str step.action.name))

section Telling
variable {tracer : Tracer} {clock : Nat → DateTimeOffset} {start : Int} {order moved : Order} {transaction : Activity}

theorem TellsOrder.transition (h : TellsOrder tracer start order transaction) {target : OrderState}
    {time : DateTimeOffset} (hmoved : order.transitionTo target time = .ok moved) (now : Int) :
    TellsOrder tracer start moved (recordTransition transaction ⟨order.state, target, time⟩ now) := by
  obtain ⟨-, rfl⟩ := Order.transitionTo_ok hmoved
  have hnames : orderState ∉ allowedBaggageKeys ∧ orderId ≠ orderState ∧ failureStage ≠ orderState ∧
      failureKind ≠ orderState ∧ failureReason ≠ orderState := by decide
  have hevent : eventStateChanged ≠ eventCompensationCompleted ∧ eventStateChanged ≠ eventCompensationFailed := by decide
  exact {
    same := (Activity.SameSpan.setTag _ _).trans ((Activity.SameSpan.addEvent _ _ _).trans h.same)
    orderTag := by simp [recordTransition, hnames, h.orderTag]
    tagged := Tracer.Tagged.setTag h.tagged hnames.1 _
    path := by simp [recordTransition, h.path, List.lookup_cons]
    state := by simp [recordTransition]
    stage := by simp [recordTransition, hnames, h.stage]
    kind := by simp [recordTransition, hnames, h.kind]
    reason := by simp [recordTransition, hnames, h.reason]
    error := h.error
    undone := by
      rw [← h.undone]
      simp only [recordTransition, Activity.setTag, Activity.addEvent, List.filter_append, List.map_append]
      simp [hevent] }

/-- What `RecordFailure` changes on a span. -/
theorem recordFailure_keeps (transaction : Activity) (failure : OrderFailure) :
    (recordFailure transaction failure).SameSpan transaction ∧
    (recordFailure transaction failure).events = transaction.events ∧
    (∀ key, key ∉ [failureStage, failureKind, failureReason, "error.type"] →
      (recordFailure transaction failure).tag key = transaction.tag key) ∧
    (recordFailure transaction failure).tag failureStage = some (.str failure.stage.name) ∧
    (recordFailure transaction failure).tag failureKind = some (.str failure.kind.name) ∧
    (recordFailure transaction failure).tag failureReason = some (.str failure.reason) ∧
    (recordFailure transaction failure).status =
      if failure.kind ≠ .businessRejection then .error else transaction.status := by
  have hnames : failureStage ≠ failureKind ∧ failureStage ≠ failureReason ∧ failureKind ≠ failureReason ∧
      failureStage ≠ "error.type" ∧ failureKind ≠ "error.type" ∧ failureReason ≠ "error.type" := by decide
  rw [recordFailure]
  split
  · refine ⟨(Activity.SameSpan.setTag _ _).trans ((Activity.SameSpan.setStatus _).trans ((Activity.SameSpan.setTag _ _).trans
      ((Activity.SameSpan.setTag _ _).trans (.setTag _ _)))), by simp, fun key hkey => ?_, ?_, ?_, ?_, ?_⟩
    · simp only [List.mem_cons, List.not_mem_nil, or_false, not_or] at hkey
      simp [hkey]
    all_goals simp [hnames]
  · refine ⟨(Activity.SameSpan.setTag _ _).trans ((Activity.SameSpan.setTag _ _).trans (.setTag _ _)), by simp,
      fun key hkey => ?_, ?_, ?_, ?_, ?_⟩
    · simp only [List.mem_cons, List.not_mem_nil, or_false, not_or] at hkey
      simp [hkey]
    all_goals simp [hnames]

theorem TellsOrder.fail (h : TellsOrder tracer start order transaction) (hnone : order.failure = none)
    {failure : OrderFailure} {time : DateTimeOffset} (hmoved : order.fail failure time = .ok moved) (now : Int) :
    TellsOrder tracer start moved
      (recordFailure (recordTransition transaction
        ⟨order.state, OrderStateMachine.failureStateFor failure.stage, time⟩ now) failure) := by
  obtain ⟨settled, hsettled, rfl⟩ := Order.fail_ok hmoved
  have htransition := h.transition hsettled now
  have hstill : settled.failure = none := by
    rw [(Order.transitionTo_ok hsettled).2]
    exact hnone
  generalize recordTransition transaction _ now = transaction at htransition ⊢
  have hunset : transaction.status ≠ .error := by
    rw [Ne, htransition.error, hstill]
    exact Bool.false_ne_true
  obtain ⟨hsame, hevents, htags, hstage, hkind, hreason, hstatus⟩ := recordFailure_keeps transaction failure
  have hallowed : ∀ key ∈ allowedBaggageKeys, key ∉ [failureStage, failureKind, failureReason, "error.type"] := by decide
  exact {
    same := hsame.trans htransition.same
    orderTag := (htags _ (by decide)).trans htransition.orderTag
    tagged := fun key hkey => (htags key (hallowed key hkey)).trans (htransition.tagged key hkey)
    path := by
      rw [Activity.eventsNamed, hevents]
      exact htransition.path
    state := (htags _ (by decide)).trans htransition.state
    stage := hstage
    kind := hkind
    reason := hreason
    error := by
      rw [hstatus]
      split <;> simp_all
    undone := by
      rw [hevents]
      exact htransition.undone }

theorem TellsOrder.compensation (h : TellsOrder tracer start order transaction) (step : CompensationStepResult)
    (now : Int) :
    TellsOrder tracer start (order.recordCompensation step) (recordCompensation transaction step now) := by
  have hname : (if step.status = .succeeded then eventCompensationCompleted else eventCompensationFailed) ≠
      eventStateChanged := by split <;> decide
  exact {
    same := (Activity.SameSpan.addEvent _ _ _).trans h.same
    orderTag := h.orderTag
    tagged := h.tagged
    path := by
      rw [recordCompensation, Activity.eventsNamed_addEvent, if_neg hname, List.append_nil]
      exact h.path
    state := h.state
    stage := h.stage
    kind := h.kind
    reason := h.reason
    error := h.error
    undone := by
      simp only [recordCompensation, Activity.addEvent, List.filter_append, List.map_append, h.undone,
        Order.recordCompensation, List.append_cancel_left_eq]
      by_cases hsucceeded : step.status = .succeeded <;> simp [hsucceeded] }

end Telling

/-! ## The coordinator with telemetry refines the one without -/

/-- A run with telemetry against the same run without: the results agree, the stages tell of the logged
calls, and a run that returns satisfies `tells`. -/
structure Refines {σ α : Type} (tracer : Tracer) (id : Guid) (tells : α → Activity → Prop)
    (plain : Except Exn α × σ × List CallRun) (traced : Except Exn α × Recording × σ) : Prop where
  result : plain.1 = traced.1
  state : plain.2.1 = traced.2.2
  told : List.Forall₂ (CallRun.ToldBy tracer id) plain.2.2 traced.2.1.stages
  timeline : Timeline traced.2.1.stages traced.2.1.now
  tells : ∀ a, traced.1 = .ok a → tells a traced.2.1.transaction

theorem Order.Ready.transitionTo {order moved : Order} (h : order.Ready) {target : OrderState} {time : DateTimeOffset}
    (hmoved : order.transitionTo target time = .ok moved) : moved.Ready := by
  rw [(Order.transitionTo_ok hmoved).2]
  exact ⟨h.noFailure, h.totalAmount, h.itemCount⟩

/-- The two runs in step, before the next thing that `order` goes through. -/
structure InStep (tracer : Tracer) (start : Int) (id : Guid) (order : Order) (log : List CallRun) (r : Recording) :
    Prop where
  sameId : order.id = id
  tells : TellsOrder tracer start order r.transaction
  told : List.Forall₂ (CallRun.ToldBy tracer id) log r.stages
  timeline : Timeline r.stages r.now

/-- The stages ended with the order `id`, and its transaction span. -/
def TellsEnd (tracer : Tracer) (start : Int) (id : Guid) (ended : Option OrderFailure × Order) (transaction : Activity) :
    Prop :=
  ended.2.id = id ∧ TellsOrder tracer start ended.2 transaction

namespace InStep
variable {σ : Type} {tracer : Tracer} {clock : Nat → DateTimeOffset} {start : Int} {id : Guid} {order moved : Order}
  {r : Recording} {log : List CallRun}

theorem error {α : Type} {tells : α → Activity → Prop} (h : InStep tracer start id order log r) (e : Exn) (s : σ) :
    Refines tracer id tells (.error e, s, log) (.error e, r, s) :=
  ⟨rfl, rfl, h.told, h.timeline, fun _ h => by cases h⟩

theorem done {α : Type} {tells : α → Activity → Prop} {ended : α} (h : InStep tracer start id order log r)
    (hended : tells ended r.transaction) (s : σ) : Refines tracer id tells (.ok ended, s, log) (.ok ended, r, s) :=
  ⟨rfl, rfl, h.told, h.timeline, fun _ heq => by cases heq; exact hended⟩

theorem transition (h : InStep tracer start id order log r) {target : OrderState} {time : DateTimeOffset}
    (hmoved : order.transitionTo target time = .ok moved) :
    InStep tracer start id moved log (r.transition ⟨order.state, target, time⟩) := by
  refine ⟨?_, h.tells.transition hmoved r.now, h.told, h.timeline⟩
  rw [(Order.transitionTo_ok hmoved).2]
  exact h.sameId

/-- A call ends alike in both runs, and its stage is one more that tells of the log. -/
theorem call (h : InStep tracer start id order log r) {call : GatewayCall}
    {plain : Except Exn StageResult × σ × List CallRun}
    {traced : Except Exn StageResult × StageRecord × σ} (hcall : CallAgrees tracer call id r.now log plain traced) :
    ∃ result record s log', plain = (result, s, log') ∧ traced = (result, record, s) ∧
      InStep tracer start id order log' (r.add record) := by
  obtain ⟨result, record, s, run, rfl, rfl, -, -, hrun, hstarts⟩ := hcall.elim
  exact ⟨result, record, s, _, rfl, rfl, h.sameId, h.tells, List.rel_append h.told (.cons hrun .nil),
    h.timeline.add hstarts hrun.takesTime⟩

theorem failWith (h : InStep tracer start id order log r) (hnone : order.failure = none) (failure : OrderFailure)
    (s : σ) :
    Refines tracer id (TellsEnd tracer start id) (OrderTransactionCoordinator.failWith clock order failure, s, log)
      ((TracedCoordinator.failWith clock order failure r).1, (TracedCoordinator.failWith clock order failure r).2, s) := by
  simp only [OrderTransactionCoordinator.failWith, TracedCoordinator.failWith]
  cases hfail : order.fail failure (clock order.history.length) with
  | error e => exact h.error e s
  | ok settled =>
    obtain ⟨moved, hmoved, rfl⟩ := Order.fail_ok hfail
    refine ⟨rfl, rfl, h.told, h.timeline, fun ended heq => ?_⟩
    cases heq
    exact ⟨(h.transition hmoved).sameId, h.tells.fail hnone hfail r.now⟩

end InStep

section Refinement
variable {σ : Type} (pipelines : Pipelines σ) {tracer : Tracer} (clock : Nat → DateTimeOffset) {start : Int} {id : Guid}
  {order : Order} {r : Recording} {log : List CallRun}

theorem runShipping_refines (h : InStep tracer start id order log r) (hready : order.Ready) (s : σ) :
    Refines tracer id (TellsEnd tracer start id)
      (OrderTransactionCoordinator.runShipping pipelines.logged clock order (s, log))
      (TracedCoordinator.runShipping pipelines tracer clock order r s) := by
  simp only [OrderTransactionCoordinator.runShipping, OrderTransactionCoordinator.transition,
    TracedCoordinator.runShipping, TracedCoordinator.transition, Except.map]
  cases hpaid : order.transitionTo .paymentAuthorized (clock order.history.length) with
  | error e => exact h.error e s
  | ok paid =>
  have h := h.transition hpaid
  have hready := hready.transitionTo hpaid
  generalize r.transition ⟨order.state, .paymentAuthorized, clock order.history.length⟩ = r at h ⊢
  obtain ⟨shipment, record, s, log', hplain, htraced, h⟩ :=
    h.call (h.sameId ▸ createAsync_agrees pipelines tracer hready r.now s log)
  simp only [hplain, htraced]
  generalize r.add record = r at h ⊢
  cases shipment with
  | error e => exact h.error e s
  | ok shipment =>
  cases shipment with
  | failure kind reason => exact h.failWith hready.noFailure _ s
  | success =>
  cases hshipped : paid.transitionTo .shipmentCreated (clock paid.history.length) with
  | error e => exact h.error e s
  | ok shipped =>
  have h := h.transition hshipped
  generalize r.transition ⟨paid.state, .shipmentCreated, clock paid.history.length⟩ = r at h ⊢
  cases hcompleted : shipped.transitionTo .completed (clock shipped.history.length) with
  | error e => simpa only [hcompleted] using h.error e s
  | ok completed =>
    have h := h.transition hcompleted
    have hdone := h.done (show TellsEnd tracer start id (none, completed) _ from ⟨h.sameId, h.tells⟩) s
    simpa only [hcompleted] using hdone

theorem runPayment_refines (h : InStep tracer start id order log r) (hready : order.Ready) (s : σ) :
    Refines tracer id (TellsEnd tracer start id)
      (OrderTransactionCoordinator.runPayment pipelines.logged clock order (s, log))
      (TracedCoordinator.runPayment pipelines tracer clock order r s) := by
  simp only [OrderTransactionCoordinator.runPayment, OrderTransactionCoordinator.transition,
    TracedCoordinator.runPayment, TracedCoordinator.transition, Except.map]
  cases hreserved : order.transitionTo .inventoryReserved (clock order.history.length) with
  | error e => exact h.error e s
  | ok reserved =>
  have h := h.transition hreserved
  have hready := hready.transitionTo hreserved
  generalize r.transition ⟨order.state, .inventoryReserved, clock order.history.length⟩ = r at h ⊢
  obtain ⟨authorization, record, s, log', hplain, htraced, h⟩ :=
    h.call (h.sameId ▸ authorizeAsync_agrees pipelines tracer hready r.now s log)
  simp only [hplain, htraced]
  generalize r.add record = r at h ⊢
  cases authorization with
  | error e => exact h.error e s
  | ok authorization =>
  cases authorization with
  | failure kind reason => exact h.failWith hready.noFailure _ s
  | success => exact runShipping_refines pipelines clock h hready s

/-- The fan-out starts the stages. -/
theorem runStagesAsync_refines (hready : order.Ready) (htells : TellsOrder tracer start order r.transaction)
    (hstages : r.stages = []) (s : σ) :
    Refines tracer order.id (TellsEnd tracer start order.id)
      (OrderTransactionCoordinator.runStagesAsync pipelines.logged clock order (s, []))
      (TracedCoordinator.runStagesAsync pipelines tracer clock order r s) := by
  obtain ⟨reservation, inventory, s, reserve, hreserve, hinventory, -, -, hreserved, -⟩ :=
    (reserveAsync_agrees pipelines tracer order r.now s []).elim
  obtain ⟨evaluation, fraud, s, evaluate, hevaluate, hfraud, -, -, hevaluated, hstarts⟩ :=
    (evaluateAsync_agrees pipelines tracer hready inventory.stage.startTime s ([] ++ [reserve])).elim
  simp only [OrderTransactionCoordinator.runStagesAsync, TracedCoordinator.runStagesAsync, hreserve, hinventory,
    hevaluate, hfraud, hstages]
  have h : InStep tracer start order.id order [reserve, evaluate] { r with
      stages := [inventory, fraud]
      now := max inventory.stage.stopTime fraud.stage.stopTime } :=
    ⟨rfl, htells, .cons hreserved (.cons hevaluated .nil), .fanOut hstarts⟩
  cases reservation with
  | error e => exact h.error e s
  | ok reservation =>
  cases evaluation with
  | error e => exact h.error e s
  | ok evaluation =>
  simp only
  cases FanOutResolution.resolve reservation evaluation with
  | some failure => exact h.failWith hready.noFailure failure s
  | none => exact runPayment_refines pipelines clock h hready s

/-- The undo calls, one after the other. -/
theorem compensateAsync_refines (actions : List CompensationAction) (h : InStep tracer start id order log r) (s : σ) :
    Refines tracer id (TellsOrder tracer start)
      (OrderTransactionCoordinator.compensateAsync pipelines.logged actions order (s, log))
      (TracedCoordinator.compensateAsync pipelines tracer actions order r s) := by
  induction actions generalizing order log r s with
  | nil => exact h.done h.tells s
  | cons action actions ih =>
    obtain rfl := h.sameId
    obtain ⟨result, record, s, log', hplain, htraced, h⟩ :=
      h.call (undoAsync_agrees pipelines tracer action order.id r.now s log)
    simp only [OrderTransactionCoordinator.compensateAsync, TracedCoordinator.compensateAsync, hplain, htraced]
    generalize r.add record = r at h ⊢
    cases result with
    | error e => exact h.error e s
    | ok result =>
      let step := OrderTransactionCoordinator.compensationStep action result
      have hrecorded : InStep tracer start order.id (order.recordCompensation step) log'
          { r with transaction := recordCompensation r.transaction step r.now } :=
        ⟨rfl, h.tells.compensation step r.now, h.told, h.timeline⟩
      exact ih hrecorded s

theorem process_refines (hready : order.Ready) (htells : TellsOrder tracer start order r.transaction)
    (hstages : r.stages = []) (s : σ) :
    Refines tracer order.id (TellsOrder tracer start)
      (OrderTransactionCoordinator.process pipelines.logged clock order (s, []))
      (TracedCoordinator.process pipelines tracer clock order r s) := by
  have h := runStagesAsync_refines pipelines clock hready htells hstages s
  simp only [OrderTransactionCoordinator.process, TracedCoordinator.process]
  rcases hplain : OrderTransactionCoordinator.runStagesAsync pipelines.logged clock order (s, []) with ⟨ended, s₁, log⟩
  rcases htraced : TracedCoordinator.runStagesAsync pipelines tracer clock order r s with ⟨ended', r', s₁'⟩
  rw [hplain, htraced] at h
  obtain rfl : ended = ended' := h.result
  obtain rfl : s₁ = s₁' := h.state
  cases ended with
  | error e => exact ⟨rfl, rfl, h.told, h.timeline, fun _ heq => by cases heq⟩
  | ok ended =>
  obtain ⟨failure, settled⟩ := ended
  obtain ⟨hid, htells⟩ := h.tells (failure, settled) rfl
  have hstep : InStep tracer start order.id settled log r' := ⟨hid, htells, h.told, h.timeline⟩
  cases failure with
  | none => exact hstep.done htells s₁
  | some failure => exact compensateAsync_refines pipelines (CompensationPlan.planFor failure) hstep s₁

/-- The spans of a run describe it: the stages are the calls of the log, in the order of the log and of
time, and the transaction span tells of the order that came out. -/
structure Recording.Describes (tracer : Tracer) (start : Int) (id : Guid) (result : Except Exn OrderSnapshot)
    (log : List CallRun) (r : Recording) : Prop where
  told : List.Forall₂ (CallRun.ToldBy tracer id) log r.stages
  timeline : Timeline r.stages r.now
  transaction : ∀ snapshot, result = .ok snapshot →
    ∃ settled : Order, settled.toSnapshot = .ok snapshot ∧ TellsOrder tracer start settled r.transaction

theorem tellsOrder_create (tracer : Tracer) (id : Guid) (lines : List OrderLine)
    (currency paymentToken shippingZone : String)
    (createdAt : DateTimeOffset) (itemCount : I32) (time : Int) :
    let order := Order.create id lines currency paymentToken shippingZone createdAt
    TellsOrder tracer time order (startTransactionActivity tracer order itemCount time) := by
  obtain ⟨hsame, hevents, hstatus⟩ := tracer.start_keeps .transaction tracer.serverId "order.transaction" .internal time
  have hnone : ∀ key, key ∉ allowedBaggageKeys → key ∉ [orderId, "order.item_count"] → ∀ order,
      (startTransactionActivity tracer order itemCount time).tag key = none := by
    intro key hallowed hkey order
    simp only [List.mem_cons, List.not_mem_nil, or_false, not_or] at hkey
    rw [startTransactionActivity, Activity.tag_setTag, if_neg hkey.2, Activity.tag_setTag, if_neg hkey.1,
      Tracer.tag_start_eq_none _ _ _ _ _ _ hallowed]
  have hno : ∀ order, (startTransactionActivity tracer order itemCount time).events = [] := fun _ => by
    simp [startTransactionActivity, hevents]
  exact {
    same := (Activity.SameSpan.setTag _ _).trans ((Activity.SameSpan.setTag _ _).trans hsame)
    orderTag := by
      have hname : orderId ≠ "order.item_count" := by decide
      simp [startTransactionActivity, hname]
    tagged := Tracer.Tagged.setTag
      (Tracer.Tagged.setTag (fun key _ => tracer.tag_start _ _ _ _ _ key) (by decide) _) (by decide) _
    path := by simp [Activity.eventsNamed, hno, Order.create]
    state := hnone _ (by decide) (by decide) _
    stage := hnone _ (by decide) (by decide) _
    kind := hnone _ (by decide) (by decide) _
    reason := hnone _ (by decide) (by decide) _
    error := by simp [startTransactionActivity, hstatus, Order.create]
    undone := by simp [hno, Order.create] }

theorem TellsOrder.stop {order : Order} {transaction : Activity} (h : TellsOrder tracer start order transaction)
    (time : Int) : TellsOrder tracer start order (transaction.stop time) :=
  ⟨(Activity.SameSpan.stop _).trans h.same, h.orderTag, h.tagged, h.path, h.state, h.stage, h.kind, h.reason,
    h.error, h.undone⟩

/-- How a run with telemetry compares with the one without: the same result, repository and state, and spans
that describe it unless it failed before there were any. -/
structure RunsAlike (tracer : Tracer) (start : Int) (id : Guid)
    (plain : Except Exn OrderSnapshot × OrderRepository × σ × List CallRun)
    (traced : Except Exn OrderSnapshot × OrderRepository × Option Recording × σ) : Prop where
  result : traced.1 = plain.1
  repository : traced.2.1 = plain.2.1
  state : traced.2.2.2 = plain.2.2.1
  recording : (traced.2.2.1 = none ∧ ∃ e, plain.1 = .error e) ∨
    ∃ r, traced.2.2.1 = some r ∧ r.Describes tracer start id plain.1 plain.2.2.2

variable (tracer) in
theorem executeAsync_traced (id : Guid) (lines : List OrderLine) (currency paymentToken shippingZone : String)
    (createdAt : DateTimeOffset) (others : List OrderSnapshot) (repository : OrderRepository) (time : Int) (s : σ) :
    let order := Order.create id lines currency paymentToken shippingZone createdAt
    RunsAlike tracer time id (OrderTransactionCoordinator.executeAsync pipelines.logged clock true others order repository (s, []))
      (TracedCoordinator.executeAsync pipelines tracer clock others order repository time s) := by
  intro order
  simp only [OrderTransactionCoordinator.executeAsync, TracedCoordinator.executeAsync,
    OrderTransactionCoordinator.startTransaction]
  cases hsnapshot : order.toSnapshot with
  | error e => exact ⟨rfl, rfl, rfl, .inl ⟨rfl, e, rfl⟩⟩
  | ok snapshot =>
  cases hcount : order.itemCount with
  | none => exact ⟨rfl, rfl, rfl, .inl ⟨rfl, .overflow, rfl⟩⟩
  | some itemCount =>
  have hready : order.Ready := by
    refine ⟨rfl, ?_, by simp [hcount]⟩
    cases htotal : order.totalAmount with
    | none => simp [Order.toSnapshot, htotal] at hsnapshot
    | some totalAmount => rfl
  simp only [Option.isNone_some, Bool.false_eq_true, and_false, if_false]
  obtain ⟨first, hfirst⟩ : ∃ r : Recording, r = ⟨startTransactionActivity tracer order itemCount time, [], time⟩ :=
    ⟨_, rfl⟩
  rw [← hfirst]
  have htells : TellsOrder tracer time order first.transaction := by
    rw [hfirst]
    exact tellsOrder_create tracer id lines currency paymentToken shippingZone createdAt itemCount time
  have h := process_refines pipelines clock hready htells (by rw [hfirst]) s
  rcases hplain : OrderTransactionCoordinator.process pipelines.logged clock order (s, []) with ⟨ended, s₁, log⟩
  rcases htraced : TracedCoordinator.process pipelines tracer clock order first s with ⟨ended', r, s₁'⟩
  rw [hplain, htraced] at h
  obtain rfl : ended = ended' := h.result
  obtain rfl : s₁ = s₁' := h.state
  have htold : List.Forall₂ (CallRun.ToldBy tracer id) log r.stages := h.told
  cases ended with
  | error e => exact ⟨rfl, rfl, rfl, .inr ⟨_, rfl, htold, h.timeline, fun _ h => by cases h⟩⟩
  | ok settled =>
  have hsettled := (h.tells settled rfl).stop r.now
  simp only
  cases hlast : settled.toSnapshot with
  | error e => exact ⟨rfl, rfl, rfl, .inr ⟨_, rfl, htold, h.timeline, fun _ h => by cases h⟩⟩
  | ok last =>
    refine ⟨rfl, rfl, rfl, .inr ⟨_, rfl, htold, h.timeline, fun found hfound => ?_⟩⟩
    cases hfound
    exact ⟨settled, hlast, hsettled⟩

/-- Without a listener nothing reads the item count; where it is defined, that makes no difference. -/
theorem executeAsync_listener {σ : Type} (dependencies : Dependencies σ) (clock : Nat → DateTimeOffset) {order : Order}
    (hcount : order.itemCount.isSome) (others : List OrderSnapshot) (repository : OrderRepository) (s : σ) :
    OrderTransactionCoordinator.executeAsync dependencies clock true others order repository s =
      OrderTransactionCoordinator.executeAsync dependencies clock false others order repository s := by
  have hsome : order.itemCount.isNone = false := by simpa [Option.isNone_eq_false_iff] using hcount
  simp only [OrderTransactionCoordinator.executeAsync, OrderTransactionCoordinator.startTransaction, hsome]
  rfl

variable (tracer) in
/-- **The telemetry changes nothing and tells the truth.** For every new order whose item count is defined:
with its telemetry the coordinator returns, saves and leaves behind what it does without, and the spans that
it exports describe the calls that were made and the order that came out. -/
theorem executeAsync_refines (id : Guid) (lines : List OrderLine) (currency paymentToken shippingZone : String)
    (createdAt : DateTimeOffset) (others : List OrderSnapshot) (repository : OrderRepository) (time : Int) (s : σ)
    (hcount : (Order.create id lines currency paymentToken shippingZone createdAt).itemCount.isSome) :
    let order := Order.create id lines currency paymentToken shippingZone createdAt
    let plain := OrderTransactionCoordinator.executeAsync pipelines.logged clock false others order repository (s, [])
    let traced := TracedCoordinator.executeAsync pipelines tracer clock others order repository time s
    traced.1 = plain.1 ∧ traced.2.1 = plain.2.1 ∧ traced.2.2.2 = plain.2.2.1 ∧
      ((traced.2.2.1 = none ∧ ∃ e, plain.1 = .error e) ∨
        ∃ r, traced.2.2.1 = some r ∧ r.Describes tracer time id plain.1 plain.2.2.2) := by
  intro order plain traced
  have h : RunsAlike tracer time id
      (OrderTransactionCoordinator.executeAsync pipelines.logged clock true others order repository (s, [])) traced :=
    executeAsync_traced pipelines tracer clock id lines currency paymentToken shippingZone createdAt others repository time s
  rw [executeAsync_listener pipelines.logged clock hcount] at h
  exact ⟨h.result, h.repository, h.state, h.recording⟩

end Refinement

/-! ### A transaction whose payment times out -/

/-- A request that is answered, or runs into its timeout, after one tick. -/
def oneTick {β : Type} (behaviour : CallBehaviour) : CallScript β where
  idle := 0
  before := 1
  attempts _ := ⟨1, by decide, .ends behaviour, false, [], 0, 1, none⟩
  after := 1

def answered (members : List (String × Json)) : CallBehaviour :=
  .response { statusCode := 200, body := some (.obj members) }

/-- All calls are answered, but for the payment and the shipment, which go as their scripts say. -/
def scripted (payment shipment : CallScript Budget) : Pipelines Unit where
  stage request := fun s =>
    match request with
    | .authorize _ _ => (payment, s)
    | .createShipment _ => (shipment, s)
    | .evaluate _ _ _ => (oneTick (answered [("decision", .str "approved")]), s)
    | _ => (oneTick (answered []), s)
  undo _ := fun s => (oneTick (answered []), s)

def slowPayment : Pipelines Unit := scripted (oneTick .timeoutRejected) (oneTick (answered []))

/-- Ids that differ where the spans do. -/
def plainTracer : Tracer where
  ids
    | .transaction => "order"
    | .stage name => name
    | .attempt name number => String.ofList (List.replicate number '#') ++ name
  baggage := [(scenarioRunId, "run-1")]
  serverId := "server"

def slowOrder : Order := Order.create 1 [] "EUR" "token" "zone" 0

theorem executeAsync_refines_slowPayment :
    let plain := OrderTransactionCoordinator.executeAsync slowPayment.logged (fun _ => 0) false [] slowOrder .empty ((), [])
    let traced := TracedCoordinator.executeAsync slowPayment plainTracer (fun _ => 0) [] slowOrder .empty 0 ()
    traced.1 = plain.1 ∧ ∃ r, traced.2.2.1 = some r ∧ r.Describes plainTracer 0 1 plain.1 plain.2.2.2 := by
  obtain ⟨hresult, -, -, ⟨-, e, he⟩ | hdescribes⟩ := executeAsync_refines slowPayment plainTracer (fun _ => 0) 1 [] "EUR"
    "token" "zone" 0 [] .empty 0 () (by decide)
  · cases he
  · exact ⟨hresult, hdescribes⟩

/-! ## What the log says about the outcome -/

/-- The call of a stage. -/
def FailureStage.call : FailureStage → GatewayCall
  | .inventory => .reserve
  | .fraud => .evaluate
  | .payment => .authorize
  | .shipping => .create

/-- The stages that run up to an outcome. -/
def stagesTo : Option FailureStage → List GatewayCall
  | some .inventory => [.reserve, .evaluate]
  | some .fraud => [.reserve, .evaluate]
  | some .payment => [.reserve, .evaluate, .authorize]
  | some .shipping => [.reserve, .evaluate, .authorize, .create]
  | none => [.reserve, .evaluate, .authorize, .create]

/-- The calls of a transaction: its stages, and the undo calls of the plan after a failure. -/
def callsTo (failure : Option OrderFailure) : List GatewayCall :=
  stagesTo (failure.map (·.stage)) ++
    match failure with
    | some failure => (CompensationPlan.planFor failure).map (·.call)
    | none => []

section Outcome
variable {σ : Type} {pipelines : Pipelines σ} {order : Order} {s s' : σ} {log log' : List CallRun}

/-- Any tracer will do to see what is logged. -/
def noTracer : Tracer := ⟨fun _ => "", [], ""⟩

open OrderTransactionCoordinator (stageOutcome undoOutcome outcome stageOutcome_ok outcome_ok)

/-- The calls of the stages, and the one that failed. -/
theorem stageOutcome_logged (hready : order.Ready) {failure : Option OrderFailure}
    (h : stageOutcome pipelines.logged order (s, []) = (.ok failure, s', log)) :
    log.map (·.call) = stagesTo (failure.map (·.stage)) ∧
      ∀ failed, failure = some failed →
        ∃ run ∈ log, run.call = failed.stage.call ∧ run.result = some (.failure failed.kind failed.reason) := by
  obtain ⟨reservation, evaluation, s₁, s₂, hreserve, hevaluate, hrest⟩ := stageOutcome_ok pipelines.logged h
  obtain ⟨result, -, s₃, first, hfirst, -, hcall₁, hresult₁, -⟩ :=
    (reserveAsync_agrees pipelines noTracer order 0 s []).elim
  obtain ⟨rfl, rfl⟩ := Prod.mk.inj (hreserve.symm.trans hfirst)
  obtain ⟨result, -, s₄, second, hsecond, -, hcall₂, hresult₂, -⟩ :=
    (evaluateAsync_agrees pipelines noTracer hready 0 s₃ ([] ++ [first])).elim
  obtain ⟨rfl, rfl⟩ := Prod.mk.inj (hevaluate.symm.trans hsecond)
  obtain ⟨found, hresolve, rfl, hlast⟩ | ⟨rfl, rfl, authorization, s₅, hauthorize, hrest⟩ := hrest
  · cases hlast
    have hcalls : [first, second].map (·.call) = [.reserve, .evaluate] := by simp [hcall₁, hcall₂]
    cases reservation with
    | failure kind reason =>
      cases hresolve
      refine ⟨hcalls, fun failed hfailed => ?_⟩
      cases hfailed
      exact ⟨first, by simp, hcall₁, hresult₁⟩
    | success =>
      cases evaluation with
      | success => cases hresolve
      | failure kind reason =>
        cases hresolve
        refine ⟨hcalls, fun failed hfailed => ?_⟩
        cases hfailed
        exact ⟨second, by simp, hcall₂, hresult₂⟩
  obtain ⟨result, -, s₆, third, hthird, -, hcall₃, hresult₃, -⟩ :=
    (authorizeAsync_agrees pipelines noTracer hready 0 s₄ ([] ++ [first] ++ [second])).elim
  obtain ⟨rfl, rfl⟩ := Prod.mk.inj (hauthorize.symm.trans hthird)
  obtain ⟨kind, reason, rfl, rfl, hlast⟩ | ⟨rfl, shipment, hcreate, hrest⟩ := hrest
  · cases hlast
    refine ⟨by simp [hcall₁, hcall₂, hcall₃, stagesTo], fun failed hfailed => ?_⟩
    cases hfailed
    exact ⟨third, by simp, hcall₃, hresult₃⟩
  obtain ⟨result, -, s₇, fourth, hfourth, -, hcall₄, hresult₄, -⟩ :=
    (createAsync_agrees pipelines noTracer hready 0 s₆ ([] ++ [first] ++ [second] ++ [third])).elim
  obtain ⟨rfl, hlast⟩ := Prod.mk.inj (hcreate.symm.trans hfourth)
  cases hlast
  obtain ⟨kind, reason, rfl, rfl⟩ | ⟨rfl, rfl⟩ := hrest
  · refine ⟨by simp [hcall₁, hcall₂, hcall₃, hcall₄, stagesTo], fun failed hfailed => ?_⟩
    cases hfailed
    exact ⟨fourth, by simp, hcall₄, hresult₄⟩
  · exact ⟨by simp [hcall₁, hcall₂, hcall₃, hcall₄, stagesTo], fun failed hfailed => by cases hfailed⟩

/-- The undo calls, one for each action, and the steps they left. -/
theorem undoOutcome_logged (id : Guid) (actions : List CompensationAction) {steps : List CompensationStepResult}
    (h : undoOutcome pipelines.logged id actions (s, log) = (.ok steps, s', log')) :
    ∃ runs, log' = log ++ runs ∧ runs.map (·.call) = actions.map (·.call) ∧ steps.map (·.action) = actions := by
  induction actions generalizing s log steps with
  | nil =>
    cases h
    exact ⟨[], by simp, rfl, rfl⟩
  | cons action actions ih =>
    obtain ⟨result, -, s₁, run, hundo, -, hcall, -, -⟩ := (undoAsync_agrees pipelines noTracer action id 0 s log).elim
    simp only [undoOutcome, hundo] at h
    cases result with
    | error e => cases h
    | ok result =>
      rcases hlater : undoOutcome pipelines.logged id actions (s₁, log ++ [run]) with ⟨later, s₂, log₂⟩
      simp only [hlater] at h
      cases later with
      | error e => cases h
      | ok later =>
        cases h
        obtain ⟨runs, rfl, hcalls, hactions⟩ := ih hlater
        refine ⟨run :: runs, by simp, by simp [hcall, hcalls], ?_⟩
        cases result <;> simp [OrderTransactionCoordinator.compensationStep, hactions]

/-- **The calls of a transaction** are the stages up to its outcome and the undo calls of the plan. -/
theorem outcome_logged (hready : order.Ready) {failure : Option OrderFailure} {steps : List CompensationStepResult}
    (h : outcome pipelines.logged order (s, []) = (.ok (failure, steps), s', log)) :
    log.map (·.call) = callsTo failure ∧
      ∀ failed, failure = some failed →
        ∃ run ∈ log, run.call = failed.stage.call ∧ run.result = some (.failure failed.kind failed.reason) := by
  obtain ⟨rfl, hstages⟩ | ⟨failed, ⟨s₁, log₁⟩, rfl, hstages, hundo⟩ := outcome_ok pipelines.logged h
  · obtain ⟨hcalls, hfailed⟩ := stageOutcome_logged hready hstages
    exact ⟨by simp [hcalls, callsTo], hfailed⟩
  · obtain ⟨hcalls, hfailed⟩ := stageOutcome_logged hready hstages
    obtain ⟨runs, rfl, hruns, -⟩ := undoOutcome_logged order.id _ hundo
    refine ⟨by simp [hcalls, hruns, callsTo], fun found hfound => ?_⟩
    obtain ⟨run, hmem, hrun⟩ := hfailed found hfound
    exact ⟨run, List.mem_append_left _ hmem, hrun⟩

end Outcome

/-! ## Completed runs -/

/-- The spans of a transaction that ended with the order `settled` after the calls of the log. -/
structure Told (tracer : Tracer) (settled : Order) (log : List CallRun) (r : Recording) : Prop where
  transaction : ∃ start, TellsOrder tracer start settled r.transaction
  path : settled.history.map (·.target) = OrderTransactionCoordinator.statesTo settled.failure
  calls : log.map (·.call) = callsTo settled.failure
  failing : ∀ failure, settled.failure = some failure →
    ∃ run ∈ log, run.call = failure.stage.call ∧ run.result = some (.failure failure.kind failure.reason)
  told : List.Forall₂ (CallRun.ToldBy tracer settled.id) log r.stages
  timeline : Timeline r.stages r.now

/-- A transaction with telemetry that returned a snapshot. -/
structure CompletedRun (σ : Type) where
  pipelines : Pipelines σ
  tracer : Tracer
  clock : Nat → DateTimeOffset
  order : Order
  isCreated : ∃ id lines currency paymentToken shippingZone createdAt,
    order = Order.create id lines currency paymentToken shippingZone createdAt
  others : List OrderSnapshot
  repository : OrderRepository
  time : Int
  state : σ
  snapshot : OrderSnapshot
  recording : Recording
  returned : (TracedCoordinator.executeAsync pipelines tracer clock others order repository time state).1 = .ok snapshot
  recorded : (TracedCoordinator.executeAsync pipelines tracer clock others order repository time state).2.2.1 =
    some recording

namespace CompletedRun
variable {σ : Type} (run : CompletedRun σ)

/-- The calls that the coordinator without telemetry makes in this run. -/
def log : List CallRun :=
  (OrderTransactionCoordinator.executeAsync run.pipelines.logged run.clock true run.others run.order run.repository
    (run.state, [])).2.2.2

open OrderTransactionCoordinator (statesTo finalOrder snapshotOf executeAsync_eq executeAsync_overflow isNew_create)

theorem path_finalOrder (clock : Nat → DateTimeOffset) (order : Order)
    (result : Option OrderFailure × List CompensationStepResult) :
    (finalOrder clock order result).history.map (·.target) = order.history.map (·.target) ++ statesTo result.1 ∧
      (order.failure = none → (finalOrder clock order result).failure = result.1) := by
  obtain ⟨_ | ⟨stage, kind, reason⟩, steps⟩ := result
  · simp [finalOrder, OrderTransactionCoordinator.settled, statesTo, OrderTransactionCoordinator.moved]
  · cases stage <;>
      simp [finalOrder, OrderTransactionCoordinator.settled, statesTo, OrderTransactionCoordinator.moved]

theorem snapshot_eq {order : Order} {snapshot : OrderSnapshot} (h : order.toSnapshot = .ok snapshot) :
    ∃ totalAmount, order.totalAmount = some totalAmount ∧ snapshot = snapshotOf order totalAmount := by
  unfold Order.toSnapshot at h
  cases htotal : order.totalAmount with
  | none => simp [htotal] at h
  | some totalAmount =>
    simp only [htotal] at h
    cases h
    exact ⟨totalAmount, rfl, rfl⟩

/-- **The spans of a completed run tell of it**: of the order behind its snapshot, and of its calls. -/
theorem told : ∃ settled : Order, settled.toSnapshot = .ok run.snapshot ∧
    Told run.tracer settled run.log run.recording := by
  obtain ⟨id, lines, currency, paymentToken, shippingZone, createdAt, horder⟩ := run.isCreated
  obtain ⟨hresult, -, -, hrecording⟩ := executeAsync_traced run.pipelines run.tracer run.clock id lines currency
    paymentToken shippingZone createdAt run.others run.repository run.time run.state
  simp only [← horder, run.returned, run.recorded, reduceCtorEq, false_and, false_or, Option.some.injEq] at hresult hrecording
  obtain ⟨recording, rfl, hdescribes⟩ := hrecording
  obtain ⟨settled, hsettled, htells⟩ := hdescribes.transaction run.snapshot hresult.symm
  refine ⟨settled, hsettled, ?_⟩
  -- a run that returned has totals, so the plain run is the one of its outcome
  have hnew := isNew_create id lines currency paymentToken shippingZone createdAt
  rw [← horder] at hnew
  have htotals : run.order.totalAmount.isSome ∧ run.order.itemCount.isSome := by
    by_contra hnone
    obtain ⟨e, he⟩ := executeAsync_overflow run.pipelines.logged run.clock hnone hnew true run.others run.repository
      (run.state, [])
    rw [he] at hresult
    cases hresult
  obtain ⟨totalAmount, htotal⟩ := Option.isSome_iff_exists.1 htotals.1
  have hready : run.order.Ready := ⟨hnew.noFailure, htotals.1, htotals.2⟩
  have hplain := executeAsync_eq run.pipelines.logged run.clock hnew htotal htotals.2 true run.others run.repository
    (run.state, [])
  simp only at hplain
  rcases houtcome : OrderTransactionCoordinator.outcome run.pipelines.logged run.order (run.state, []) with
    ⟨outcome, s', log⟩
  rw [houtcome] at hplain
  cases outcome with
  | error e =>
    rw [hplain] at hresult
    cases hresult
  | ok result =>
  simp only at hplain
  have hlog : run.log = log := by rw [CompletedRun.log, hplain]
  rw [hplain] at hresult hdescribes
  have hsnapshot : run.snapshot = snapshotOf (finalOrder run.clock run.order result) totalAmount :=
    Except.ok.inj hresult
  obtain ⟨total, -, hsame⟩ := snapshot_eq hsettled
  rw [hsnapshot] at hsame
  obtain ⟨hpath, hfailure⟩ := path_finalOrder run.clock run.order result
  have hfailure : settled.failure = result.1 := (congrArg OrderSnapshot.failure hsame).symm.trans (hfailure hnew.noFailure)
  have hhistory : settled.history = (finalOrder run.clock run.order result).history :=
    (congrArg OrderSnapshot.history hsame).symm
  have hid : settled.id = id := by
    have hsameId : settled.id = (finalOrder run.clock run.order result).id := (congrArg OrderSnapshot.id hsame).symm
    rw [hsameId, OrderTransactionCoordinator.id_finalOrder, horder]
    rfl
  have hfresh : run.order.history = [] := by rw [horder]; rfl
  obtain ⟨failure, steps⟩ := result
  obtain ⟨hcalls, hfailing⟩ := outcome_logged hready houtcome
  refine ⟨⟨run.time, htells⟩, ?_, ?_, ?_, ?_, hdescribes.timeline⟩
  · rw [hhistory, hpath, hfresh, hfailure]
    rfl
  · rw [hlog, hcalls, hfailure]
  · rw [hlog, hfailure]
    exact hfailing
  · rw [hlog, hid]
    exact hdescribes.told

end CompletedRun

end TxPlatform
