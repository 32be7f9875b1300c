import TxPlatform.Order.Gateways

/-! # The transaction coordinator (OrderTransactionCoordinator.cs)

Inventory and fraud run concurrently and share no state, so running them one after the other
reaches the same results; an exception of either is rethrown after both have ended. The clock is
read once per transition: reading number `n` belongs to transition number `n`.
-/

namespace TxPlatform

namespace OrderTransactionCoordinator

variable {σ : Type} (dependencies : Dependencies σ) (clock : Nat → DateTimeOffset)

/-- `Transition(order, target)`. -/
def transition (order : Order) (target : OrderState) : Except Exn Order :=
  order.transitionTo target (clock order.history.length)

/-- `Fail(order, failure)`. -/
def failWith (order : Order) (failure : OrderFailure) : Except Exn (Option OrderFailure × Order) :=
  (order.fail failure (clock order.history.length)).map fun order => (some failure, order)

/-- The shipping stage (`RunStagesAsync`, from the payment's success on). -/
def runShipping (order : Order) (s : σ) : Except Exn (Option OrderFailure × Order) × σ :=
  match transition clock order .paymentAuthorized with
  | .error e => (.error e, s)
  | .ok order =>
    match dependencies.createAsync order s with
    | (.error e, s) => (.error e, s)
    | (.ok (.failure kind reason), s) => (failWith clock order ⟨.shipping, kind, reason⟩, s)
    | (.ok .success, s) =>
      match transition clock order .shipmentCreated with
      | .error e => (.error e, s)
      | .ok order => ((transition clock order .completed).map fun order => (none, order), s)

/-- The payment stage (`RunStagesAsync`, from the fan-out's success on). -/
def runPayment (order : Order) (s : σ) : Except Exn (Option OrderFailure × Order) × σ :=
  match transition clock order .inventoryReserved with
  | .error e => (.error e, s)
  | .ok order =>
    match dependencies.authorizeAsync order s with
    | (.error e, s) => (.error e, s)
    | (.ok (.failure kind reason), s) => (failWith clock order ⟨.payment, kind, reason⟩, s)
    | (.ok .success, s) => runShipping dependencies clock order s

/-- `RunStagesAsync`: the failure, if any, and the order after its transitions. -/
def runStagesAsync (order : Order) (s : σ) : Except Exn (Option OrderFailure × Order) × σ :=
  let (reservation, s) := dependencies.reserveAsync order s
  let (evaluation, s) := dependencies.evaluateAsync order s
  match reservation, evaluation with
  | .error e, _ => (.error e, s)
  | .ok _, .error e => (.error e, s)
  | .ok reservation, .ok evaluation =>
    match FanOutResolution.resolve reservation evaluation with
    | some failure => (failWith clock order failure, s)
    | none => runPayment dependencies clock order s

/-- One undo call. -/
def undoAsync (orderId : Guid) (s : σ) : CompensationAction → Except Exn StageResult × σ
  | .voidPayment => dependencies.voidAsync orderId s
  | .releaseInventory => dependencies.releaseAsync orderId s

def compensationStep (action : CompensationAction) : StageResult → CompensationStepResult
  | .success => ⟨action, .succeeded, "done"⟩
  | .failure kind reason => ⟨action, .failed, s!"{kind.name}: {reason}"⟩

/-- The loop of `CompensateAsync` over the actions of the plan. -/
def compensateAsync : List CompensationAction → Order → σ → Except Exn Order × σ
  | [], order, s => (.ok order, s)
  | action :: actions, order, s =>
    match undoAsync dependencies order.id s action with
    | (.error e, s) => (.error e, s)
    | (.ok result, s) =>
      compensateAsync actions (order.recordCompensation (compensationStep action result)) s

/-- `OrderTelemetry.StartTransaction`: with a listener it reads the item count. -/
def startTransaction (traced : Bool) (order : Order) : Except Exn Unit :=
  if traced ∧ order.itemCount.isNone then .error .overflow else .ok ()

/-- The stages and, after a failure, its compensation. -/
def process (order : Order) (s : σ) : Except Exn Order × σ :=
  match runStagesAsync dependencies clock order s with
  | (.error e, s) => (.error e, s)
  | (.ok (none, order), s) => (.ok order, s)
  | (.ok (some failure, order), s) =>
    compensateAsync dependencies (CompensationPlan.planFor failure) order s

/-- `ExecuteAsync`. `others` are the snapshots that other transactions save in between. -/
def executeAsync (traced : Bool) (others : List OrderSnapshot) (order : Order)
    (repository : OrderRepository) (s : σ) : Except Exn OrderSnapshot × OrderRepository × σ :=
  match order.toSnapshot with
  | .error e => (.error e, repository, s)
  | .ok first =>
    match startTransaction traced order with
    | .error e => (.error e, repository.save first, s)
    | .ok () =>
      let repository := others.foldl OrderRepository.save (repository.save first)
      match process dependencies clock order s with
      | (.error e, s) => (.error e, repository, s)
      | (.ok order, s) =>
        match order.toSnapshot with
        | .error e => (.error e, repository, s)
        | .ok snapshot => (.ok snapshot, repository.save snapshot, s)

/-! ## What a run amounts to

The coordinator's results split into the calls it makes (`stageOutcome`, `undoOutcome`) and the
bookkeeping on the order, which never throws for a pending order (`settled`). -/

/-- The stage calls alone: the failure they end in, if any. -/
def stageOutcome (order : Order) (s : σ) : Except Exn (Option OrderFailure) × σ :=
  let (reservation, s) := dependencies.reserveAsync order s
  let (evaluation, s) := dependencies.evaluateAsync order s
  match reservation, evaluation with
  | .error e, _ => (.error e, s)
  | .ok _, .error e => (.error e, s)
  | .ok reservation, .ok evaluation =>
    match FanOutResolution.resolve reservation evaluation with
    | some failure => (.ok (some failure), s)
    | none =>
      match dependencies.authorizeAsync order s with
      | (.error e, s) => (.error e, s)
      | (.ok (.failure kind reason), s) => (.ok (some ⟨.payment, kind, reason⟩), s)
      | (.ok .success, s) =>
        match dependencies.createAsync order s with
        | (.error e, s) => (.error e, s)
        | (.ok (.failure kind reason), s) => (.ok (some ⟨.shipping, kind, reason⟩), s)
        | (.ok .success, s) => (.ok none, s)

/-- The undo calls alone, with the steps they record. -/
def undoOutcome (orderId : Guid) :
    List CompensationAction → σ → Except Exn (List CompensationStepResult) × σ
  | [], s => (.ok [], s)
  | action :: actions, s =>
    match undoAsync dependencies orderId s action with
    | (.error e, s) => (.error e, s)
    | (.ok result, s) =>
      let (steps, s) := undoOutcome orderId actions s
      (steps.map fun steps => compensationStep action result :: steps, s)

/-- Stages and undo calls of the transaction. -/
def outcome (order : Order) (s : σ) :
    Except Exn (Option OrderFailure × List CompensationStepResult) × σ :=
  match stageOutcome dependencies order s with
  | (.error e, s) => (.error e, s)
  | (.ok none, s) => (.ok (none, []), s)
  | (.ok (some failure), s) =>
    let (steps, s) := undoOutcome dependencies order.id (CompensationPlan.planFor failure) s
    (steps.map fun steps => (some failure, steps), s)

/-- The order after an allowed transition. -/
def moved (order : Order) (target : OrderState) : Order :=
  { order with
    state := target
    updatedAt := clock order.history.length
    history := order.history ++ [⟨order.state, target, clock order.history.length⟩] }

/-- The states a transaction goes through on its way to its outcome. -/
def statesTo : Option OrderFailure → List OrderState
  | none => [.inventoryReserved, .paymentAuthorized, .shipmentCreated, .completed]
  | some ⟨.inventory, _, _⟩ => [.inventoryFailed]
  | some ⟨.fraud, _, _⟩ => [.fraudFailed]
  | some ⟨.payment, _, _⟩ => [.inventoryReserved, .paymentFailed]
  | some ⟨.shipping, _, _⟩ => [.inventoryReserved, .paymentAuthorized, .shippingFailed]

/-- The order once the stages have ended in `failure`, or succeeded. -/
def settled (order : Order) (failure : Option OrderFailure) : Order :=
  { (statesTo failure).foldl (moved clock) order with failure := failure }

theorem transition_eq (order : Order) (target : OrderState)
    (h : OrderStateMachine.canTransition order.state target = true) :
    transition clock order target = .ok (moved clock order target) := by
  simp [transition, Order.transitionTo, h, moved]

theorem failWith_eq (order : Order) (failure : OrderFailure)
    (h : OrderStateMachine.canTransition order.state (OrderStateMachine.failureStateFor failure.stage) = true) :
    failWith clock order failure = .ok (some failure,
      { moved clock order (OrderStateMachine.failureStateFor failure.stage) with failure := some failure }) := by
  simp [failWith, Order.fail, Order.transitionTo, h, moved, Except.map]

/-- The fan-out fails at its own two stages only. -/
theorem resolve_stage {reservation evaluation : StageResult} {failure : OrderFailure}
    (h : FanOutResolution.resolve reservation evaluation = some failure) :
    failure.stage = .inventory ∨ failure.stage = .fraud := by
  cases reservation <;> cases evaluation <;> cases h <;> simp

/-- **The stages of a pending order**: the calls decide, the bookkeeping follows. -/
theorem runStagesAsync_eq {order : Order} (hpending : order.state = .pending)
    (hfailure : order.failure = none) (s : σ) :
    runStagesAsync dependencies clock order s =
      ((stageOutcome dependencies order s).1.map fun failure => (failure, settled clock order failure),
        (stageOutcome dependencies order s).2) := by
  simp only [runStagesAsync, stageOutcome]
  cases hr : dependencies.reserveAsync order s with
  | mk reservation s₁ =>
  cases he : dependencies.evaluateAsync order s₁ with
  | mk evaluation s₂ =>
  cases reservation with
  | error e => simp [Except.map]
  | ok reservation =>
  cases evaluation with
  | error e => simp [Except.map]
  | ok evaluation =>
  cases hres : FanOutResolution.resolve reservation evaluation with
  | some failure =>
    obtain ⟨stage, kind, reason⟩ := failure
    obtain hs | hs := resolve_stage hres <;> cases hs <;>
      simp [hres, failWith_eq clock, hpending, OrderStateMachine.canTransition,
        OrderStateMachine.allowedTransitions, OrderStateMachine.failureStateFor, Except.map,
          settled, statesTo]
  | none =>
    -- from here on the order passed to the gateways differs in its bookkeeping fields only
    have h1 : transition clock order .inventoryReserved = .ok (moved clock order .inventoryReserved) :=
      transition_eq clock _ _ (by rw [hpending]; rfl)
    have hauth : dependencies.authorizeAsync (moved clock order .inventoryReserved) s₂ =
        dependencies.authorizeAsync order s₂ := rfl
    simp only [hres, runPayment, h1, hauth]
    cases ha : dependencies.authorizeAsync order s₂ with
    | mk authorization s₃ =>
    cases authorization with
    | error e => simp [Except.map]
    | ok authorization =>
    cases authorization with
    | failure kind reason =>
      simp only [failWith_eq clock (moved clock order .inventoryReserved) ⟨.payment, kind, reason⟩ rfl, Except.map]
      rfl
    | success =>
      have h2 : transition clock (moved clock order .inventoryReserved) .paymentAuthorized =
          .ok (moved clock (moved clock order .inventoryReserved) .paymentAuthorized) :=
            transition_eq clock _ _ rfl
      have hcreate : dependencies.createAsync
          (moved clock (moved clock order .inventoryReserved) .paymentAuthorized) s₃ =
          dependencies.createAsync order s₃ := rfl
      simp only [runShipping, h2, hcreate]
      cases hc : dependencies.createAsync order s₃ with
      | mk shipment s₄ =>
      cases shipment with
      | error e => simp [Except.map]
      | ok shipment =>
      cases shipment with
      | failure kind reason =>
        simp only [failWith_eq clock (moved clock (moved clock order .inventoryReserved) .paymentAuthorized)
          ⟨.shipping, kind, reason⟩ rfl, Except.map]
        rfl
      | success =>
        have h3 : transition clock (moved clock (moved clock order .inventoryReserved) .paymentAuthorized)
            .shipmentCreated = .ok (moved clock (moved clock (moved clock order .inventoryReserved)
              .paymentAuthorized) .shipmentCreated) := transition_eq clock _ _ rfl
        simp only [h3, transition_eq clock (moved clock (moved clock (moved clock order .inventoryReserved)
          .paymentAuthorized) .shipmentCreated) .completed rfl, Except.map]
        simp [settled, statesTo, moved, hfailure]

theorem compensateAsync_eq (actions : List CompensationAction) : ∀ (order : Order) (s : σ),
    compensateAsync dependencies actions order s =
      ((undoOutcome dependencies order.id actions s).1.map fun steps =>
          { order with compensation := order.compensation ++ steps },
        (undoOutcome dependencies order.id actions s).2) := by
  induction actions with
  | nil => intro order s; simp [compensateAsync, undoOutcome, Except.map]
  | cons action actions ih =>
    intro order s
    simp only [compensateAsync, undoOutcome]
    cases hu : undoAsync dependencies order.id s action with
    | mk result s₁ =>
    cases result with
    | error e => rfl
    | ok result =>
      dsimp only
      rw [ih]
      have hid : (order.recordCompensation (compensationStep action result)).id = order.id := rfl
      simp only [hid]
      cases undoOutcome dependencies order.id actions s₁ with
      | mk steps s₂ => cases steps <;> simp [Except.map, Order.recordCompensation]

/-- The final order of a transaction with its outcome. -/
def finalOrder (order : Order) (result : Option OrderFailure × List CompensationStepResult) : Order :=
  { settled clock order result.1 with compensation := result.2 }

theorem process_eq {order : Order} (hpending : order.state = .pending) (hfailure : order.failure = none)
    (hcompensation : order.compensation = []) (s : σ) :
    process dependencies clock order s =
      ((outcome dependencies order s).1.map (finalOrder clock order),
        (outcome dependencies order s).2) := by
  have hstill : ∀ failure, (settled clock order failure).compensation = [] := by
    rintro (_ | ⟨stage, kind, reason⟩)
    · exact hcompensation
    · cases stage <;> exact hcompensation
  have hid : ∀ failure, (settled clock order failure).id = order.id := by
    rintro (_ | ⟨stage, kind, reason⟩)
    · rfl
    · cases stage <;> rfl
  simp only [process, outcome, runStagesAsync_eq dependencies clock hpending hfailure]
  cases stageOutcome dependencies order s with
  | mk result s₁ =>
  cases result with
  | error e => rfl
  | ok failure =>
  cases failure with
  | none =>
    have : finalOrder clock order (none, []) = settled clock order none := by
      simp only [finalOrder]; rw [← hstill none]
    simp [Except.map, this]
  | some failure =>
    simp only [Except.map, compensateAsync_eq, hid, hstill, List.nil_append]
    cases undoOutcome dependencies order.id (CompensationPlan.planFor failure) s₁ with
    | mk steps s₂ => cases steps <;> simp [finalOrder, hid]

/-! ### The final order -/

theorem settled_state (order : Order) (failure : Option OrderFailure) :
    (settled clock order failure).state =
      match failure with
      | none => .completed
      | some failure => OrderStateMachine.failureStateFor failure.stage := by
  obtain _ | ⟨stage, kind, reason⟩ := failure
  · rfl
  · cases stage <;> rfl

/-- The bookkeeping never touches what the totals are computed from. -/
theorem totalAmount_finalOrder (order : Order)
    (result : Option OrderFailure × List CompensationStepResult) :
    (finalOrder clock order result).totalAmount = order.totalAmount := by
  obtain ⟨_ | ⟨stage, kind, reason⟩, steps⟩ := result
  · rfl
  · cases stage <;> rfl

theorem id_finalOrder (order : Order) (result : Option OrderFailure × List CompensationStepResult) :
    (finalOrder clock order result).id = order.id := by
  obtain ⟨_ | ⟨stage, kind, reason⟩, steps⟩ := result
  · rfl
  · cases stage <;> rfl

/-- The snapshot `ToSnapshot` takes once the total is known. -/
def snapshotOf (order : Order) (totalAmount : Decimal) : OrderSnapshot where
  id := order.id
  state := order.state
  lines := order.lines
  totalAmount := totalAmount
  currency := order.currency
  shippingZone := order.shippingZone
  failure := order.failure
  compensation := order.compensation
  history := order.history
  createdAt := order.createdAt
  updatedAt := order.updatedAt

theorem toSnapshot_eq {order : Order} {totalAmount : Decimal} (h : order.totalAmount = some totalAmount) :
    order.toSnapshot = .ok (snapshotOf order totalAmount) := by
  simp [Order.toSnapshot, h, snapshotOf]

/-- A new order, as `CreateOrderAsync` makes it. -/
structure IsNew (order : Order) : Prop where
  pending : order.state = .pending
  noFailure : order.failure = none
  noCompensation : order.compensation = []

theorem isNew_create (id : Guid) (lines : List OrderLine) (currency paymentToken shippingZone : String)
    (createdAt : DateTimeOffset) :
    IsNew (Order.create id lines currency paymentToken shippingZone createdAt) :=
  ⟨rfl, rfl, rfl⟩

/-- **`ExecuteAsync` of a new order with defined totals** returns the snapshot of its outcome and
saves it, or throws what a call threw. -/
theorem executeAsync_eq {order : Order} (hnew : IsNew order) {totalAmount : Decimal}
    (htotal : order.totalAmount = some totalAmount) (hcount : order.itemCount.isSome) (traced : Bool)
    (others : List OrderSnapshot) (repository : OrderRepository) (s : σ) :
    executeAsync dependencies clock traced others order repository s =
      let saved := others.foldl OrderRepository.save (repository.save (snapshotOf order totalAmount))
      match outcome dependencies order s with
      | (.error e, s) => (.error e, saved, s)
      | (.ok result, s) =>
        let snapshot := snapshotOf (finalOrder clock order result) totalAmount
        (.ok snapshot, saved.save snapshot, s) := by
  have hstart : startTransaction traced order = .ok () := by
    obtain ⟨itemCount, hc⟩ := Option.isSome_iff_exists.1 hcount
    simp [startTransaction, hc]
  simp only [executeAsync, toSnapshot_eq htotal, hstart,
    process_eq dependencies clock hnew.pending hnew.noFailure hnew.noCompensation]
  cases outcome dependencies order s with
  | mk result s₁ =>
  cases result with
  | error e => rfl
  | ok result =>
    simp only [Except.map, toSnapshot_eq ((totalAmount_finalOrder clock order result).trans htotal)]

/-- Without defined totals it throws. -/
theorem executeAsync_overflow {order : Order} (h : ¬ (order.totalAmount.isSome ∧ order.itemCount.isSome))
    (hnew : IsNew order) (traced : Bool) (others : List OrderSnapshot)
    (repository : OrderRepository) (s : σ) :
    ∃ e, (executeAsync dependencies clock traced others order repository s).1 = .error e := by
  cases ht : order.totalAmount with
  | none => exact ⟨.overflow, by simp [executeAsync, Order.toSnapshot, ht]⟩
  | some totalAmount =>
    have hc : order.itemCount = none := by
      cases hc : order.itemCount with
      | none => rfl
      | some itemCount => exact absurd ⟨by simp [ht], by simp [hc]⟩ h
    simp only [executeAsync, toSnapshot_eq ht]
    cases hs : startTransaction traced order with
    | error e => exact ⟨e, rfl⟩
    | ok _ =>
      have hstage : ∃ e, (stageOutcome dependencies order s).1 = .error e := by
        simp only [stageOutcome, Dependencies.evaluateAsync, ht, hc]
        cases dependencies.reserveAsync order s with
        | mk reservation s₁ => cases reservation <;> exact ⟨_, rfl⟩
      obtain ⟨e, hstage⟩ := hstage
      simp only [process_eq dependencies clock hnew.pending hnew.noFailure hnew.noCompensation, outcome]
      cases hso : stageOutcome dependencies order s with
      | mk result s₁ =>
        rw [hso] at hstage
        cases hstage
        exact ⟨e, rfl⟩

/-! ## Runs that return

What the calls of a run that returned its snapshot must have been. -/

/-- How the stages of a run ended, call by call. -/
theorem stageOutcome_ok {order : Order} {s s' : σ} {failure : Option OrderFailure}
    (h : stageOutcome dependencies order s = (.ok failure, s')) :
    ∃ reservation evaluation s₁ s₂, dependencies.reserveAsync order s = (.ok reservation, s₁) ∧
      dependencies.evaluateAsync order s₁ = (.ok evaluation, s₂) ∧
      ((∃ found, FanOutResolution.resolve reservation evaluation = some found ∧ failure = some found ∧ s' = s₂) ∨
      (reservation = .success ∧ evaluation = .success ∧
        ∃ authorization s₃, dependencies.authorizeAsync order s₂ = (.ok authorization, s₃) ∧
        ((∃ kind reason, authorization = .failure kind reason ∧ failure = some ⟨.payment, kind, reason⟩ ∧ s' = s₃) ∨
        (authorization = .success ∧ ∃ shipment, dependencies.createAsync order s₃ = (.ok shipment, s') ∧
          ((∃ kind reason, shipment = .failure kind reason ∧ failure = some ⟨.shipping, kind, reason⟩) ∨
          (shipment = .success ∧ failure = none)))))) := by
  simp only [stageOutcome] at h
  cases hr : dependencies.reserveAsync order s with
  | mk reservation s₁ =>
  cases he : dependencies.evaluateAsync order s₁ with
  | mk evaluation s₂ =>
  simp only [hr, he] at h
  cases reservation with
  | error e => cases h
  | ok reservation =>
  cases evaluation with
  | error e => cases h
  | ok evaluation =>
  refine ⟨reservation, evaluation, s₁, s₂, rfl, he, ?_⟩
  cases hres : FanOutResolution.resolve reservation evaluation with
  | some found => simp only [hres] at h; cases h; exact .inl ⟨found, rfl, rfl, rfl⟩
  | none =>
    right
    have hboth : reservation = .success ∧ evaluation = .success := by
      cases reservation <;> cases evaluation <;> simp [FanOutResolution.resolve] at hres ⊢
    refine ⟨hboth.1, hboth.2, ?_⟩
    simp only [hres] at h
    cases ha : dependencies.authorizeAsync order s₂ with
    | mk authorization s₃ =>
    simp only [ha] at h
    cases authorization with
    | error e => cases h
    | ok authorization =>
    refine ⟨authorization, s₃, rfl, ?_⟩
    cases authorization with
    | failure kind reason => cases h; exact .inl ⟨kind, reason, rfl, rfl, rfl⟩
    | success =>
      refine .inr ⟨rfl, ?_⟩
      simp only at h
      cases hc : dependencies.createAsync order s₃ with
      | mk shipment s₄ =>
      simp only [hc] at h
      cases shipment with
      | error e => cases h
      | ok shipment =>
      cases shipment with
      | failure kind reason => cases h; exact ⟨_, rfl, .inl ⟨kind, reason, rfl, rfl⟩⟩
      | success => cases h; exact ⟨_, rfl, .inr ⟨rfl, rfl⟩⟩

/-- When every recorded step succeeded, every undo call did. -/
theorem undoOutcome_succeeded {orderId : Guid} {action : CompensationAction}
    {actions : List CompensationAction} {s s' : σ} {steps : List CompensationStepResult}
    (h : undoOutcome dependencies orderId (action :: actions) s = (.ok steps, s'))
    (hall : ∀ step ∈ steps, step.status = .succeeded) :
    ∃ s₁ later, undoAsync dependencies orderId s action = (.ok .success, s₁) ∧
      undoOutcome dependencies orderId actions s₁ = (.ok later, s') ∧ ∀ step ∈ later,
        step.status = .succeeded := by
  simp only [undoOutcome] at h
  cases hu : undoAsync dependencies orderId s action with
  | mk result s₁ =>
  simp only [hu] at h
  cases result with
  | error e => cases h
  | ok result =>
  cases hl : undoOutcome dependencies orderId actions s₁ with
  | mk later s₂ =>
  simp only [hl] at h
  cases later with
  | error e => cases h
  | ok later =>
    cases h
    have hfirst := hall _ List.mem_cons_self
    cases result with
    | failure kind reason => cases hfirst
    | success => exact ⟨s₁, later, rfl, hl, fun step hmem => hall step (List.mem_cons_of_mem _ hmem)⟩

/-- An outcome is the end of the stages and, after a failure, the undo calls of its plan. -/
theorem outcome_ok {order : Order} {s s' : σ} {failure : Option OrderFailure}
    {steps : List CompensationStepResult}
    (h : outcome dependencies order s = (.ok (failure, steps), s')) :
    (failure = none ∧ stageOutcome dependencies order s = (.ok none, s')) ∨
    ∃ found s₁, failure = some found ∧ stageOutcome dependencies order s = (.ok (some found), s₁) ∧
      undoOutcome dependencies order.id (CompensationPlan.planFor found) s₁ = (.ok steps, s') := by
  simp only [outcome] at h
  cases hs : stageOutcome dependencies order s with
  | mk result s₁ =>
  simp only [hs] at h
  cases result with
  | error e => cases h
  | ok failure' =>
  cases failure' with
  | none => cases h; exact .inl ⟨rfl, rfl⟩
  | some found =>
    right
    cases hu : undoOutcome dependencies order.id (CompensationPlan.planFor found) s₁ with
    | mk steps' s₂ =>
    simp only [hu] at h
    cases steps' with
    | error e => cases h
    | ok steps' => cases h; exact ⟨found, s₁, rfl, rfl, hu⟩

/-- **A run of a new order that returns** has an outcome, and the snapshot tells it. -/
theorem executeAsync_ok {order : Order} (hnew : IsNew order) {traced : Bool} {others : List OrderSnapshot}
    {repository : OrderRepository} {s : σ} {snapshot : OrderSnapshot}
    (h : (executeAsync dependencies clock traced others order repository s).1 = .ok snapshot) :
    ∃ failure steps totalAmount itemCount s', order.totalAmount = some totalAmount ∧
      order.itemCount = some itemCount ∧
      outcome dependencies order s = (.ok (failure, steps), s') ∧
      (executeAsync dependencies clock traced others order repository s).2.2 = s' ∧
      (snapshot.state = match failure with
        | none => .completed
        | some failure => OrderStateMachine.failureStateFor failure.stage) ∧
      snapshot.compensation = steps ∧ snapshot.totalAmount = totalAmount := by
  by_cases htotals : order.totalAmount.isSome ∧ order.itemCount.isSome
  swap
  · obtain ⟨e, he⟩ := executeAsync_overflow dependencies clock htotals hnew traced others repository s
    rw [he] at h
    cases h
  obtain ⟨totalAmount, htotal⟩ := Option.isSome_iff_exists.1 htotals.1
  obtain ⟨itemCount, hcount⟩ := Option.isSome_iff_exists.1 htotals.2
  have hrun := executeAsync_eq dependencies clock hnew htotal htotals.2 traced others repository s
  cases hout : outcome dependencies order s with
  | mk result s' =>
  rw [hout] at hrun
  cases result with
  | error e => rw [hrun] at h; cases h
  | ok result =>
    obtain ⟨failure, steps⟩ := result
    rw [hrun] at h
    cases h
    exact ⟨failure, steps, totalAmount, itemCount, s', htotal, hcount, rfl, by rw [hrun],
      settled_state clock order failure, rfl, rfl⟩

end OrderTransactionCoordinator

end TxPlatform
