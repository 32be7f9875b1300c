import TxPlatform.Lib.Recent
import TxPlatform.Order.Order
import TxPlatform.Shipping.ShipmentBook

/-! # The order repository and the shipment book as bounded first-in-first-out maps

Both stores insert a new id behind a queue and evict from its front. The history of the insertions
is read off the store itself: an id is inserted by the call that finds it missing.
-/

namespace TxPlatform

/-! ## Orders (InMemoryOrderRepository.cs:15-31) -/

namespace OrderRepository

end OrderRepository

/-! ## Shipments (ShipmentBook.cs:26-47) -/

/-- The arguments of one `Create`, with the value of its `Guid.NewGuid()`. -/
structure CreateCall where
  newGuid : Guid
  orderId : Guid
  zone : String
  itemCount : I32

namespace ShipmentBook

def call (book : ShipmentBook) (create : CreateCall) :
    (ShipmentOutcome × Option Shipment) × ShipmentBook :=
  book.create create.newGuid create.orderId create.zone create.itemCount

def calls (book : ShipmentBook) (creates : List CreateCall) : ShipmentBook :=
  creates.foldl (fun book create => (book.call create).2) book

/-- Every shipment is stored under its own order, and the queue holds exactly those orders. -/
structure WellFormed (book : ShipmentBook) : Prop where
  bounded : Bounded capacity book.insertionOrder book.shipments
  own : ∀ orderId shipment, book.shipments.get orderId = some shipment → shipment.orderId = orderId

theorem wellFormed_empty : empty.WellFormed :=
  ⟨⟨List.Perm.refl _, Nat.zero_le _⟩, by simp [empty]⟩

end ShipmentBook

end TxPlatform
