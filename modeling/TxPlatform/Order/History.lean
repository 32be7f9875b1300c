import TxPlatform.Order.Order

/-! # The history of an order (Order.cs:66-88)

The two throwing mutators statement by statement: a call runs on the order it is called on, and an
exception leaves behind what the statements before it wrote (`OrderM` keeps the order when it
throws). Arguments are whatever a caller can pass: an enum value need not be a declared member, and
the failure may be null.

`transitionTo_run` and `fail_run` say what one call does, in terms of `Order.transitionTo` and
`Order.fail`; the properties of whole call sequences follow from them.
-/

namespace TxPlatform

/-- A value of an enum type: a declared member, or any other number cast to the type. -/
inductive EnumValue (α : Type) where
  | declared (value : α)
  | undeclared (number : Int)

/-- `OrderFailure` as a caller passes it. -/
structure FailureArgument where
  stage : EnumValue FailureStage
  kind : FailureKind
  reason : String

/-- A call on an order: it returns or throws, and the order is what its statements have made of it. -/
abbrev OrderM := ExceptT Exn (StateM Order)

namespace OrderM

section Calls
variable {α β : Type}

/-- What the call returns or throws on this order, and the order afterwards. -/
def on (call : OrderM α) (order : Order) : Except Exn α × Order := call.run.run order

@[simp] theorem on_pure (value : α) (order : Order) :
    (pure value : OrderM α).on order = (.ok value, order) := rfl

@[simp] theorem on_throw (e : Exn) (order : Order) :
    (throw e : OrderM α).on order = (.error e, order) := rfl

@[simp] theorem on_get (order : Order) : (get : OrderM Order).on order = (.ok order, order) := rfl

@[simp] theorem on_modify (f : Order → Order) (order : Order) :
    (modify f : OrderM Unit).on order = (.ok (), f order) := rfl

@[simp] theorem on_bind (call : OrderM α) (next : α → OrderM β) (order : Order) :
    (call >>= next).on order = match call.on order with
      | (.error e, order) => (.error e, order)
      | (.ok value, order) => (next value).on order := by
  unfold on ExceptT.run StateT.run
  simp only [bind, ExceptT.bind, ExceptT.mk, StateT.bind]
  cases call order with
  | mk result after => cases result <;> rfl

@[simp] theorem on_map (f : α → β) (call : OrderM α) (order : Order) :
    (f <$> call).on order = ((call.on order).1.map f, (call.on order).2) := by
  rw [map_eq_pure_bind, on_bind]
  cases call.on order with
  | mk result after => cases result <;> rfl

end Calls

def cannotMove (order : Order) (target : String) : Exn :=
  .invalidOperation s!"Order {order.id.formatD} cannot move from {order.state.name} to {target}."

def transitionTo (target : EnumValue OrderState) (time : DateTimeOffset) : OrderM StateTransition := do
  match target with
  -- no list of targets contains the value, and it prints as its number
  | .undeclared number => throw (cannotMove (← get) (toString number))
  | .declared target =>
    if !OrderStateMachine.canTransition (← get).state target then
      throw (cannotMove (← get) target.name)
    let transition : StateTransition := ⟨(← get).state, target, time⟩
    modify fun order => { order with state := target }
    modify fun order => { order with updatedAt := time }
    modify fun order => { order with history := order.history ++ [transition] }
    return transition

/-- The stage is switched on before anything is written: a null failure and an undeclared stage throw
there. -/
def fail (failure : Option FailureArgument) (time : DateTimeOffset) : OrderM StateTransition := do
  match failure with
  | none => throw .nullValue
  | some ⟨.undeclared _, _, _⟩ => throw (.argumentOutOfRange "stage")
  | some ⟨.declared stage, kind, reason⟩ =>
    let transition ← transitionTo (.declared (OrderStateMachine.failureStateFor stage)) time
    modify fun order => { order with failure := some ⟨stage, kind, reason⟩ }
    return transition

def recordCompensation (result : CompensationStepResult) : OrderM Unit :=
  modify fun order => order.recordCompensation result

/-! ## What one call does -/

/-- A transition throws and changes nothing, or is the move `Order.transitionTo` makes. -/
theorem transitionTo_on (order : Order) (target : EnumValue OrderState) (time : DateTimeOffset) :
    (∃ e, (transitionTo target time).on order = (.error e, order)) ∨
    ∃ state order', target = .declared state ∧ order.transitionTo state time = .ok order' ∧
      (transitionTo target time).on order = (.ok ⟨order.state, state, time⟩, order') := by
  cases target with
  | undeclared number => exact .inl ⟨_, by simp [transitionTo]; rfl⟩
  | declared state =>
    by_cases h : OrderStateMachine.canTransition order.state state = true
    · exact .inr ⟨state, _, rfl, if_pos h, by simp [transitionTo, h, Except.map]⟩
    · exact .inl ⟨cannotMove order state.name, by simp [transitionTo, h]⟩

/-- `Fail` throws and changes nothing, or is the move `Order.fail` makes. -/
theorem fail_on (order : Order) (failure : Option FailureArgument) (time : DateTimeOffset) :
    (∃ e, (fail failure time).on order = (.error e, order)) ∨
    ∃ recorded order' transition, order.fail recorded time = .ok order' ∧
      (fail failure time).on order = (.ok transition, order') := by
  match failure with
  | none => exact .inl ⟨_, rfl⟩
  | some ⟨.undeclared _, _, _⟩ => exact .inl ⟨_, rfl⟩
  | some ⟨.declared stage, kind, reason⟩ =>
    obtain ⟨e, he⟩ | ⟨state, order', ht, hmove, hok⟩ :=
      transitionTo_on order (.declared (OrderStateMachine.failureStateFor stage)) time
    · exact .inl ⟨e, by simp [fail, he]⟩
    · cases ht
      refine .inr ⟨⟨stage, kind, reason⟩, { order' with failure := some ⟨stage, kind, reason⟩ },
        ⟨order.state, OrderStateMachine.failureStateFor stage, time⟩, ?_, ?_⟩
      · simp [Order.fail, hmove, Except.map]
      · simp [fail, hok, Except.map]

end OrderM

/-! ## Sequences of calls -/

inductive OrderCall where
  | transitionTo (target : EnumValue OrderState) (time : DateTimeOffset)
  | fail (failure : Option FailureArgument) (time : DateTimeOffset)
  | recordCompensation (result : CompensationStepResult)

def OrderCall.perform : OrderCall → OrderM Unit
  | .transitionTo target time => (fun _ => ()) <$> OrderM.transitionTo target time
  | .fail failure time => (fun _ => ()) <$> OrderM.fail failure time
  | .recordCompensation result => OrderM.recordCompensation result

/-- An order and how it got into its state. -/
structure TrackedOrder where
  order : Order
  enteredByFail : Bool

namespace TrackedOrder

/-- The order just constructed. -/
def start (id : Guid) (lines : List OrderLine) (currency paymentToken shippingZone : String)
    (createdAt : DateTimeOffset) : TrackedOrder :=
  ⟨Order.create id lines currency paymentToken shippingZone createdAt, false⟩

/-- One call. Only a call that returns can change how the state was entered. -/
def after (tracked : TrackedOrder) (call : OrderCall) : TrackedOrder :=
  match call.perform.on tracked.order with
  | (.error _, order) => { tracked with order }
  | (.ok _, order) =>
    match call with
    | .transitionTo .. => ⟨order, false⟩
    | .fail .. => ⟨order, true⟩
    | .recordCompensation _ => { tracked with order }

def afterCalls (tracked : TrackedOrder) (calls : List OrderCall) : TrackedOrder :=
  calls.foldl after tracked

end TrackedOrder

/-- The four things a call can do: throw and change nothing, move, fail, or note a compensation. -/
theorem OrderCall.perform_cases (call : OrderCall) (order : Order) :
    (∃ e, call.perform.on order = (.error e, order)) ∨
    (∃ target state time order', call = .transitionTo target time ∧
      order.transitionTo state time = .ok order' ∧ call.perform.on order = (.ok (), order')) ∨
    (∃ failure recorded time order', call = .fail failure time ∧
      order.fail recorded time = .ok order' ∧ call.perform.on order = (.ok (), order')) ∨
    ∃ result, call = .recordCompensation result ∧
      call.perform.on order = (.ok (), order.recordCompensation result) := by
  cases call with
  | transitionTo target time =>
    obtain ⟨e, he⟩ | ⟨state, order', _, hmove, hok⟩ := OrderM.transitionTo_on order target time
    · exact .inl ⟨e, by simp [perform, he, Except.map]⟩
    · exact .inr (.inl ⟨target, state, time, order', rfl, hmove, by simp [perform, hok, Except.map]⟩)
  | fail failure time =>
    obtain ⟨e, he⟩ | ⟨recorded, order', transition, hmove, hok⟩ := OrderM.fail_on order failure time
    · exact .inl ⟨e, by simp [perform, he, Except.map]⟩
    · exact .inr (.inr (.inl ⟨failure, recorded, time, order', rfl, hmove,
        by simp [perform, hok, Except.map]⟩))
  | recordCompensation result => exact .inr (.inr (.inr ⟨result, rfl, rfl⟩))

/-! ## The history is a chain -/

/-- The transitions lead from `source` to `state`: each starts where the one before it ended, and the
state machine allows it. -/
def Leads : OrderState → List StateTransition → OrderState → Prop
  | source, [], state => source = state
  | source, transition :: rest, state =>
    transition.source = source ∧ OrderStateMachine.canTransition source transition.target = true ∧
      Leads transition.target rest state

theorem Leads.append {source state target : OrderState} {history : List StateTransition}
    (h : Leads source history state) (hallowed : OrderStateMachine.canTransition state target = true)
    (time : DateTimeOffset) : Leads source (history ++ [⟨state, target, time⟩]) target := by
  induction history generalizing source with
  | nil =>
    cases h
    exact ⟨rfl, hallowed, rfl⟩
  | cons transition rest ih =>
    obtain ⟨hsource, hmove, hrest⟩ := h
    exact ⟨hsource, hmove, ih hrest⟩

namespace TrackedOrder

/-- What holds of an order whatever has been called on it. -/
structure Trustworthy (tracked : TrackedOrder) : Prop where
  chain : Leads .pending tracked.order.history tracked.order.state
  failed : tracked.order.failure.isSome = tracked.enteredByFail
  final : tracked.enteredByFail = true → OrderStateMachine.isFinal tracked.order.state = true

theorem trustworthy_start (id : Guid) (lines : List OrderLine)
    (currency paymentToken shippingZone : String) (createdAt : DateTimeOffset) :
    (start id lines currency paymentToken shippingZone createdAt).Trustworthy where
  chain := rfl
  failed := rfl
  final := nofun

/-- A state that an allowed move leaves was not entered through `Fail`. -/
theorem Trustworthy.not_enteredByFail {tracked : TrackedOrder} (h : tracked.Trustworthy)
    {target : OrderState} (hallowed : OrderStateMachine.canTransition tracked.order.state target = true) :
    tracked.enteredByFail = false := by
  by_contra hentered
  rw [OrderStateMachine.not_canTransition_of_isFinal (h.final (by simpa using hentered)) target] at hallowed
  cases hallowed

theorem trustworthy_after {tracked : TrackedOrder} (h : tracked.Trustworthy) (call : OrderCall) :
    (tracked.after call).Trustworthy := by
  obtain ⟨e, he⟩ | ⟨target, state, time, order', rfl, hmove, hok⟩ |
    ⟨failure, recorded, time, order', rfl, hmove, hok⟩ | ⟨result, rfl, hok⟩ :=
    call.perform_cases tracked.order
  · simpa only [after, he] using h
  · obtain ⟨hallowed, rfl⟩ := Order.transitionTo_ok hmove
    have hentered := h.not_enteredByFail hallowed
    simp only [after, hok]
    exact ⟨h.chain.append hallowed time, by rw [← hentered]; exact h.failed, nofun⟩
  · obtain ⟨moved, hmoved, rfl⟩ := Order.fail_ok hmove
    obtain ⟨hallowed, rfl⟩ := Order.transitionTo_ok hmoved
    simp only [after, hok]
    exact ⟨h.chain.append hallowed time, rfl, fun _ => OrderStateMachine.isFinal_failureStateFor _⟩
  · simp only [after, hok]
    exact ⟨h.chain, h.failed, h.final⟩

/-- The fields that no call changes once the order is final. -/
structure Frozen (before after : Order) : Prop where
  state : after.state = before.state
  history : after.history = before.history
  updatedAt : after.updatedAt = before.updatedAt
  failure : after.failure = before.failure

theorem frozen_after {tracked : TrackedOrder} (hfinal : OrderStateMachine.isFinal tracked.order.state = true)
    (call : OrderCall) : Frozen tracked.order (tracked.after call).order := by
  have hnot : ∀ {target time order'}, tracked.order.transitionTo target time ≠ .ok order' := by
    intro target time order' hmove
    have hallowed := (Order.transitionTo_ok hmove).1
    rw [OrderStateMachine.not_canTransition_of_isFinal hfinal target] at hallowed
    cases hallowed
  obtain ⟨e, he⟩ | ⟨target, state, time, order', rfl, hmove, hok⟩ |
    ⟨failure, recorded, time, order', rfl, hmove, hok⟩ | ⟨result, rfl, hok⟩ :=
    call.perform_cases tracked.order
  · simp only [after, he]
    exact ⟨rfl, rfl, rfl, rfl⟩
  · exact absurd hmove hnot
  · obtain ⟨moved, hmove, _⟩ := Order.fail_ok hmove
    exact absurd hmove hnot
  · simp only [after, hok]
    exact ⟨rfl, rfl, rfl, rfl⟩

theorem frozen_afterCalls {tracked : TrackedOrder}
    (hfinal : OrderStateMachine.isFinal tracked.order.state = true) (calls : List OrderCall) :
    Frozen tracked.order (tracked.afterCalls calls).order := by
  induction calls generalizing tracked with
  | nil => exact ⟨rfl, rfl, rfl, rfl⟩
  | cons call calls ih =>
    have hstep := frozen_after hfinal call
    have hrest : Frozen (tracked.after call).order ((tracked.after call).afterCalls calls).order :=
      ih (by rw [hstep.state]; exact hfinal)
    exact ⟨hrest.state.trans hstep.state, hrest.history.trans hstep.history,
      hrest.updatedAt.trans hstep.updatedAt, hrest.failure.trans hstep.failure⟩

theorem trustworthy_afterCalls {tracked : TrackedOrder} (h : tracked.Trustworthy) (calls : List OrderCall) :
    (tracked.afterCalls calls).Trustworthy := by
  induction calls generalizing tracked with
  | nil => exact h
  | cons call calls ih => exact ih (trustworthy_after h call)

/-- **The order's history is trustworthy.** Whatever has been called on an order, with whatever
arguments: its history leads from Pending to its state by allowed moves; the failure is set exactly
when the state was entered through `Fail`; a call that throws changes nothing; and from a final
state on no sequence of calls changes the state, the history, `UpdatedAt` or the failure. -/
theorem history_trustworthy (id : Guid) (lines : List OrderLine)
    (currency paymentToken shippingZone : String) (createdAt : DateTimeOffset) (calls : List OrderCall) :
    let tracked := (start id lines currency paymentToken shippingZone createdAt).afterCalls calls
    Leads .pending tracked.order.history tracked.order.state ∧
    (tracked.order.failure.isSome ↔ tracked.enteredByFail) ∧
    (∀ (call : OrderCall) (e : Exn) (order' : Order),
      call.perform.on tracked.order = (.error e, order') → order' = tracked.order) ∧
    (OrderStateMachine.isFinal tracked.order.state → ∀ later : List OrderCall,
      Frozen tracked.order (tracked.afterCalls later).order) := by
  intro tracked
  have h : tracked.Trustworthy := trustworthy_afterCalls
    (trustworthy_start id lines currency paymentToken shippingZone createdAt) calls
  refine ⟨h.chain, by rw [h.failed], fun call e order' hthrows => ?_,
    fun hfinal later => frozen_afterCalls hfinal later⟩
  obtain ⟨e', he⟩ | ⟨_, _, _, _, _, _, hok⟩ | ⟨_, _, _, _, _, _, hok⟩ | ⟨_, _, hok⟩ :=
    call.perform_cases tracked.order
  · rw [hthrows] at he
    cases he
    rfl
  all_goals
    rw [hthrows] at hok
    cases hok

end TrackedOrder

end TxPlatform
