import TxPlatform.Lib.Fifo
import TxPlatform.Dotnet.Http

/-! # The order aggregate (Order.cs, OrderState.cs, OrderStateMachine.cs, InMemoryOrderRepository.cs)

An order changes only through `transitionTo`, `fail` and `recordCompensation`; a transition that
the state machine does not allow throws and leaves the order as it was. Totals are computed with
the checked sums of the runtime, so reading them can throw as well.
-/

namespace TxPlatform

/-- Ticks since an epoch. -/
abbrev DateTimeOffset := Int

structure OrderLine where
  sku : String
  quantity : I32
  unitPrice : Decimal
  deriving DecidableEq

def OrderLine.lineTotal (line : OrderLine) : Option Decimal := line.unitPrice.mulInt line.quantity

/-! ## States (OrderState.cs, OrderStateMachine.cs) -/

inductive OrderState where
  | pending
  | inventoryReserved
  | paymentAuthorized
  | shipmentCreated
  | completed
  | inventoryFailed
  | fraudFailed
  | paymentFailed
  | shippingFailed
  deriving DecidableEq

inductive FailureStage where
  | inventory
  | fraud
  | payment
  | shipping
  deriving DecidableEq

inductive FailureKind where
  | businessRejection
  | dependencyError
  | timeout
  | unavailable
  deriving DecidableEq

def FailureKind.name : FailureKind → String
  | .businessRejection => "business_rejection"
  | .dependencyError => "dependency_error"
  | .timeout => "timeout"
  | .unavailable => "unavailable"

def OrderState.name : OrderState → String
  | .pending => "Pending"
  | .inventoryReserved => "InventoryReserved"
  | .paymentAuthorized => "PaymentAuthorized"
  | .shipmentCreated => "ShipmentCreated"
  | .completed => "Completed"
  | .inventoryFailed => "InventoryFailed"
  | .fraudFailed => "FraudFailed"
  | .paymentFailed => "PaymentFailed"
  | .shippingFailed => "ShippingFailed"

theorem OrderState.name_injective : Function.Injective OrderState.name := fun state state' h => by
  cases state <;> cases state' <;> first | rfl | exact absurd h (by decide)

namespace OrderStateMachine

/-- The entry of a state in `AllowedTransitions`; final states have none. -/
def allowedTransitions : OrderState → Option (List OrderState)
  | .pending => some [.inventoryReserved, .inventoryFailed, .fraudFailed]
  | .inventoryReserved => some [.paymentAuthorized, .paymentFailed]
  | .paymentAuthorized => some [.shipmentCreated, .shippingFailed]
  | .shipmentCreated => some [.completed]
  | _ => none

def canTransition (source target : OrderState) : Bool :=
  match allowedTransitions source with
  | some targets => target ∈ targets
  | none => false

def isFinal (state : OrderState) : Bool := (allowedTransitions state).isNone

def failureStateFor : FailureStage → OrderState
  | .inventory => .inventoryFailed
  | .fraud => .fraudFailed
  | .payment => .paymentFailed
  | .shipping => .shippingFailed

/-- A final state cannot be left. -/
theorem not_canTransition_of_isFinal {source : OrderState} (h : isFinal source) (target : OrderState) :
    canTransition source target = false := by
  cases source <;> first | rfl | cases h

theorem failureStateFor_ne_completed (stage : FailureStage) : failureStateFor stage ≠ .completed := by
  cases stage <;> simp [failureStateFor]

theorem isFinal_failureStateFor (stage : FailureStage) : isFinal (failureStateFor stage) = true := by
  cases stage <;> rfl

end OrderStateMachine

/-! ## The order (Order.cs) -/

structure StateTransition where
  source : OrderState
  target : OrderState
  time : DateTimeOffset
  deriving DecidableEq

structure OrderFailure where
  stage : FailureStage
  kind : FailureKind
  reason : String
  deriving DecidableEq

inductive CompensationAction where
  | voidPayment
  | releaseInventory
  deriving DecidableEq

inductive CompensationStatus where
  | succeeded
  | failed
  deriving DecidableEq

structure CompensationStepResult where
  action : CompensationAction
  status : CompensationStatus
  detail : String
  deriving DecidableEq

structure Order where
  id : Guid
  lines : List OrderLine
  currency : String
  paymentToken : String
  shippingZone : String
  createdAt : DateTimeOffset
  state : OrderState
  failure : Option OrderFailure
  updatedAt : DateTimeOffset
  history : List StateTransition
  compensation : List CompensationStepResult

structure OrderSnapshot where
  id : Guid
  state : OrderState
  lines : List OrderLine
  totalAmount : Decimal
  currency : String
  shippingZone : String
  failure : Option OrderFailure
  compensation : List CompensationStepResult
  history : List StateTransition
  createdAt : DateTimeOffset
  updatedAt : DateTimeOffset

namespace Order

/-- The constructor: a pending order without history. -/
def create (id : Guid) (lines : List OrderLine) (currency paymentToken shippingZone : String)
    (createdAt : DateTimeOffset) : Order where
  id := id
  lines := lines
  currency := currency
  paymentToken := paymentToken
  shippingZone := shippingZone
  createdAt := createdAt
  state := .pending
  failure := none
  updatedAt := createdAt
  history := []
  compensation := []

/-- `Lines.Sum(line => line.LineTotal)`; `none` is the `OverflowException`. -/
def totalAmount (order : Order) : Option Decimal :=
  order.lines.foldlM (fun sum line => do Decimal.add sum (← line.lineTotal)) Decimal.zero

/-- `Lines.Sum(line => line.Quantity)`, a checked sum. -/
def itemCount (order : Order) : Option I32 := I32.checkedSum (order.lines.map (·.quantity))

def transitionTo (order : Order) (target : OrderState) (time : DateTimeOffset) : Except Exn Order :=
  if OrderStateMachine.canTransition order.state target then
    .ok { order with
      state := target
      updatedAt := time
      history := order.history ++ [⟨order.state, target, time⟩] }
  else
    .error (.invalidOperation
      s!"Order {order.id.formatD} cannot move from {order.state.name} to {target.name}.")

def fail (order : Order) (failure : OrderFailure) (time : DateTimeOffset) : Except Exn Order :=
  (order.transitionTo (OrderStateMachine.failureStateFor failure.stage) time).map
    fun order => { order with failure := some failure }

/-- What `transitionTo` does when it does not throw. -/
theorem transitionTo_ok {order order' : Order} {target : OrderState} {time : DateTimeOffset}
    (h : order.transitionTo target time = .ok order') :
    OrderStateMachine.canTransition order.state target = true ∧
      order' = { order with
        state := target
        updatedAt := time
        history := order.history ++ [⟨order.state, target, time⟩] } := by
  unfold transitionTo at h
  split at h
  · rename_i hallowed
    cases h
    exact ⟨hallowed, rfl⟩
  · cases h

/-- What `fail` does when it does not throw: it moves to a final state and sets the failure. -/
theorem fail_ok {order order' : Order} {failure : OrderFailure} {time : DateTimeOffset}
    (h : order.fail failure time = .ok order') :
    ∃ moved, order.transitionTo (OrderStateMachine.failureStateFor failure.stage) time = .ok moved ∧
      order' = { moved with failure := some failure } := by
  unfold fail at h
  cases hmove : order.transitionTo (OrderStateMachine.failureStateFor failure.stage) time with
  | error e =>
    rw [hmove] at h
    cases h
  | ok moved =>
    rw [hmove] at h
    cases h
    exact ⟨moved, rfl, rfl⟩

def recordCompensation (order : Order) (result : CompensationStepResult) : Order :=
  { order with compensation := order.compensation ++ [result] }

def toSnapshot (order : Order) : Except Exn OrderSnapshot :=
  match order.totalAmount with
  | none => .error .overflow
  | some totalAmount => .ok {
      id := order.id
      state := order.state
      lines := order.lines
      totalAmount := totalAmount
      currency := order.currency
      shippingZone := order.shippingZone
      failure := order.failure
      compensation := order.compensation
      history := order.history
      createdAt := order.createdAt
      updatedAt := order.updatedAt }

end Order

/-! ## The repository (InMemoryOrderRepository.cs) -/

structure OrderRepository where
  orders : Dict Guid OrderSnapshot
  insertionOrder : List Guid

namespace OrderRepository

def capacity : Nat := 20000

def empty : OrderRepository := ⟨∅, []⟩

def save (repository : OrderRepository) (snapshot : OrderSnapshot) : OrderRepository :=
  match repository.orders.get snapshot.id with
  | none =>
    let (queue, kept) := evict capacity (repository.insertionOrder ++ [snapshot.id])
      (repository.orders.set snapshot.id snapshot)
    ⟨kept, queue⟩
  | some _ => { repository with orders := repository.orders.set snapshot.id snapshot }

def find (repository : OrderRepository) (id : Guid) : Option OrderSnapshot := repository.orders.get id

/-- Every repository that saves have built: the queue holds exactly the stored ids. -/
def WellFormed (repository : OrderRepository) : Prop :=
  Bounded capacity repository.insertionOrder repository.orders

theorem wellFormed_empty : empty.WellFormed := ⟨List.Perm.refl _, Nat.zero_le _⟩

/-- **A saved snapshot can be found**, also when the repository is full. -/
theorem wellFormed_save {repository : OrderRepository} (h : repository.WellFormed)
    (snapshot : OrderSnapshot) :
    (repository.save snapshot).WellFormed ∧
      (repository.save snapshot).find snapshot.id = some snapshot := by
  unfold save
  split
  · rename_i hnone
    exact bounded_insert snapshot h (by decide) hnone
  · rename_i old hold
    exact ⟨bounded_overwrite snapshot h hold, by simp [find]⟩

theorem wellFormed_saves {repository : OrderRepository} (h : repository.WellFormed)
    (snapshots : List OrderSnapshot) :
    (snapshots.foldl save repository).WellFormed := by
  induction snapshots generalizing repository with
  | nil => exact h
  | cons snapshot snapshots ih => exact ih (wellFormed_save h snapshot).1

end OrderRepository

end TxPlatform
