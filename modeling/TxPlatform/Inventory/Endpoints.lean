import TxPlatform.Faults.Injector
import TxPlatform.Inventory.StockLedger

/-! # The HTTP handlers of InventoryService (ReservationEndpoints.cs)

A handler takes the fault injector as a parameter: what `ApplyAsync` decides and how it changes
the injector's own state. The fault decision comes before the ledger is consulted, for a repeated
request like for a first one.
-/

namespace TxPlatform

structure ReserveStockRequest where
  orderId : Guid
  lines : Option (List ReservationLine)

/-- The negation of the test in front of `ReserveAsync`. -/
def ReserveStockRequest.isValid (request : ReserveStockRequest) : Bool :=
  match request.lines with
  | none => false
  | some lines => request.orderId ≠ Guid.empty ∧ 0 < lines.length ∧ ∀ line ∈ lines,
      1 ≤ line.quantity.toInt

namespace ReservationEndpoints

def reserveOperation : String := "inventory.reserve"
def releaseOperation : String := "inventory.release"

def orderStatus (orderId : Guid) (status : String) : Json :=
  .obj [("orderId", .str orderId.formatD), ("status", .str status)]

def insufficientStock (sku : String) : HttpResponse :=
  Results.problem 422 "Insufficient stock" (problemTypeBase ++ "insufficient-stock") (some sku)

/-- The reply for what the ledger answered. -/
def reserveReply (orderId : Guid) (result : ReserveResult) : HttpResponse :=
  match result.outcome with
  | .reserved => Results.created (orderStatus orderId "reserved")
  | .alreadyReserved => Results.ok (orderStatus orderId "reserved")
  | .insufficientStock => insufficientStock (result.sku.getD "")
  | .unknownSku => Results.problem 422 "Unknown SKU" (problemTypeBase ++ "unknown-sku") result.sku

variable {φ : Type}

/-- `ReserveAsync` (ReservationEndpoints.cs:33-63). -/
def reserveAsync (apply : ApplyAsync φ) (request : ReserveStockRequest) (ledger : StockLedger)
    (faults : φ) :
    Except Exn HttpResponse × StockLedger × φ :=
  if request.isValid then
    match apply reserveOperation .beforeEffect request.orderId.formatD faults with
    | (.error e, faults) => (.error e, ledger, faults)
    | (.ok fault, faults) =>
      match fault.outcome with
      | .fail => (.ok (Results.injectedFault fault.statusCode), ledger, faults)
      | .reject => (.ok (insufficientStock "simulated"), ledger, faults)
      | .continue_ =>
        let result := ledger.reserve request.orderId (request.lines.getD [])
        match apply reserveOperation .afterEffect request.orderId.formatD faults with
        | (.error e, faults) => (.error e, result.2, faults)
        | (.ok _, faults) => (.ok (reserveReply request.orderId result.1), result.2, faults)
  else
    (.ok (Results.validationProblem "lines" "an order id and at least one positive line are required"),
      ledger, faults)

/-- `ReleaseAsync` (ReservationEndpoints.cs:65-79). -/
def releaseAsync (apply : ApplyAsync φ) (orderId : Guid) (ledger : StockLedger) (faults : φ) :
    Except Exn HttpResponse × StockLedger × φ :=
  match apply releaseOperation .beforeEffect orderId.formatD faults with
  | (.error e, faults) => (.error e, ledger, faults)
  | (.ok fault, faults) =>
    if fault.outcome = .fail then (.ok (Results.injectedFault fault.statusCode), ledger, faults)
    else
      let released := ledger.release orderId
      match released.1 with
      | none => (.ok Results.notFound, released.2, faults)
      | some _ => (.ok (Results.ok (orderStatus orderId "released")), released.2, faults)

/-! ## What one request does to the ledger -/

/-- A reserve request leaves the ledger alone or is one validated `Reserve` call on it. -/
theorem reserveAsync_ledger (apply : ApplyAsync φ) (request : ReserveStockRequest) (ledger : StockLedger)
    (faults : φ) :
    (reserveAsync apply request ledger faults).2.1 = ledger ∨
    ∃ lines, request.lines = some lines ∧ request.isValid = true ∧
      (reserveAsync apply request ledger faults).2.1 = (ledger.reserve request.orderId lines).2 := by
  unfold reserveAsync
  split
  · rename_i hvalid
    split
    · exact .inl rfl
    · split
      · exact .inl rfl
      · exact .inl rfl
      · right
        cases hl : request.lines with
        | none => simp [ReserveStockRequest.isValid, hl] at hvalid
        | some lines =>
          refine ⟨lines, rfl, hvalid, ?_⟩
          simp only [Option.getD_some]
          split <;> rfl
  · exact .inl rfl

/-- A release request leaves the ledger alone or is one `Release` call on it. -/
theorem releaseAsync_ledger (apply : ApplyAsync φ) (orderId : Guid) (ledger : StockLedger) (faults : φ) :
    (releaseAsync apply orderId ledger faults).2.1 = ledger ∨
    (releaseAsync apply orderId ledger faults).2.1 = (ledger.release orderId).2 := by
  unfold releaseAsync
  split
  · exact .inl rfl
  · split
    · exact .inl rfl
    · right
      dsimp only
      split <;> rfl

end ReservationEndpoints

end TxPlatform
