import TxPlatform.Lib.Fifo
import TxPlatform.Faults.Injector

/-! # Shipments and the HTTP handler of ShippingService (ShipmentBook.cs, ShipmentEndpoints.cs)

Creating a shipment is idempotent per order; the zone is checked before the book is consulted. The
handler asks the fault injector first, also for an order whose shipment exists.
-/

namespace TxPlatform

structure Shipment where
  shipmentId : String
  orderId : Guid
  zone : String
  itemCount : I32
  deriving DecidableEq

inductive ShipmentOutcome where
  | created
  | alreadyCreated
  | zoneNotServiceable
  deriving DecidableEq

structure ShipmentBook where
  shipments : Dict Guid Shipment
  insertionOrder : List Guid

namespace ShipmentBook

def capacity : Nat := 50000

def empty : ShipmentBook := ⟨∅, []⟩

def serviceableZones : List String := ["domestic", "international"]

/-- `newGuid` is the value of `Guid.NewGuid()`. -/
def newShipment (newGuid orderId : Guid) (zone : String) (itemCount : I32) : Shipment :=
  ⟨String.ofList (("shp_" ++ newGuid.formatN).toList.take 20), orderId, zone, itemCount⟩

/-- The book right after the shipment was added, before the oldest are evicted. -/
def addShipment (book : ShipmentBook) (shipment : Shipment) : ShipmentBook :=
  ⟨book.shipments.set shipment.orderId shipment, book.insertionOrder ++ [shipment.orderId]⟩

def trim (book : ShipmentBook) : ShipmentBook :=
  let (queue, kept) := evict capacity book.insertionOrder book.shipments
  ⟨kept, queue⟩

/-- `Create` (ShipmentBook.cs:26-47). -/
def create (book : ShipmentBook) (newGuid orderId : Guid) (zone : String) (itemCount : I32) :
    (ShipmentOutcome × Option Shipment) × ShipmentBook :=
  if zone ∈ serviceableZones then
    match book.shipments.get orderId with
    | some stored => ((.alreadyCreated, some stored), book)
    | none =>
      let candidate := newShipment newGuid orderId zone itemCount
      ((.created, some candidate), (book.addShipment candidate).trim)
  else ((.zoneNotServiceable, none), book)

/-- Everything `create` can do. -/
theorem create_cases (book : ShipmentBook) (newGuid orderId : Guid) (zone : String) (itemCount : I32) :
    (zone ∉ serviceableZones ∧ book.create newGuid orderId zone itemCount = ((.zoneNotServiceable, none), book)) ∨
    (∃ stored, zone ∈ serviceableZones ∧ book.shipments.get orderId = some stored
      ∧ book.create newGuid orderId zone itemCount = ((.alreadyCreated, some stored), book)) ∨
    (zone ∈ serviceableZones ∧ book.shipments.get orderId = none
      ∧ book.create newGuid orderId zone itemCount =
          ((.created, some (newShipment newGuid orderId zone itemCount)),
            (book.addShipment (newShipment newGuid orderId zone itemCount)).trim)) := by
  unfold create
  split
  · rename_i hz
    split
    · rename_i stored hs; exact .inr (.inl ⟨stored, hz, hs, rfl⟩)
    · rename_i hs; exact .inr (.inr ⟨hz, hs, rfl⟩)
  · rename_i hz; exact .inl ⟨hz, rfl⟩

end ShipmentBook

/-! ## The handler (ShipmentEndpoints.cs:26-53) -/

structure CreateShipmentRequest where
  orderId : Guid
  zone : Option String
  itemCount : I32

namespace ShipmentEndpoints

def createOperation : String := "shipping.create"

/-- The check in front of `CreateAsync`, negated. -/
def isValid (request : CreateShipmentRequest) : Bool :=
  request.orderId ≠ Guid.empty ∧ !isNullOrWhiteSpace request.zone ∧ 1 ≤ request.itemCount.toInt

def shipmentBody (orderId : Guid) (shipment : Option Shipment) : Json :=
  .obj [("shipmentId", .str ((shipment.map (·.shipmentId)).getD "")), ("orderId", .str orderId.formatD),
    ("status", .str "created")]

def createReply (request : CreateShipmentRequest) : ShipmentOutcome × Option Shipment → HttpResponse
  | (.created, shipment) => Results.created (shipmentBody request.orderId shipment)
  | (.alreadyCreated, shipment) => Results.ok (shipmentBody request.orderId shipment)
  | (.zoneNotServiceable, _) =>
    Results.problem 422 "Zone not serviceable" (problemTypeBase ++ "zone-not-serviceable") request.zone

variable {φ : Type}

/-- `CreateAsync`. A simulated rejection skips the book and is answered like an unserviceable zone. -/
def createAsync (apply : ApplyAsync φ) (newGuid : Guid) (request : CreateShipmentRequest)
    (book : ShipmentBook) (faults : φ) : Except Exn HttpResponse × ShipmentBook × φ :=
  if isValid request then
    match apply createOperation .beforeEffect request.orderId.formatD faults with
    | (.error e, faults) => (.error e, book, faults)
    | (.ok fault, faults) =>
      if fault.outcome = .fail then (.ok (Results.injectedFault fault.statusCode), book, faults)
      else
        let created := if fault.outcome = .reject then ((.zoneNotServiceable, none), book)
          else book.create newGuid request.orderId (request.zone.getD "") request.itemCount
        match apply createOperation .afterEffect request.orderId.formatD faults with
        | (.error e, faults) => (.error e, created.2, faults)
        | (.ok _, faults) => (.ok (createReply request created.1), created.2, faults)
  else
    (.ok (Results.validationProblem "shipment" "orderId, zone and a positive itemCount are required"), book, faults)

end ShipmentEndpoints

end TxPlatform
