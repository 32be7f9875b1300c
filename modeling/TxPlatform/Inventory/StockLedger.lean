import TxPlatform.Lib.Fifo
import TxPlatform.Dotnet.Primitives

/-! # Stock levels and reservations (StockLedger.cs)

`reserve` checks every line in one loop and subtracts in a second one, as the source does; amounts
are 32-bit integers and wrap. Every call runs under the ledger's lock, so one call is one step.

`reserve_cases` and `release_cases` list everything a call can do; no later proof unfolds them.
-/

namespace TxPlatform

structure ReservationLine where
  sku : String
  quantity : I32
  deriving DecidableEq

inductive ReservationStatus where
  | reserved
  | released
  deriving DecidableEq

structure Reservation where
  orderId : Guid
  lines : List ReservationLine
  status : ReservationStatus
  deriving DecidableEq

inductive ReserveOutcome where
  | reserved
  | alreadyReserved
  | insufficientStock
  | unknownSku
  deriving DecidableEq

structure ReserveResult where
  outcome : ReserveOutcome
  reservation : Option Reservation
  sku : Option String := none
  deriving DecidableEq

structure StockItem where
  sku : String := ""
  available : I32 := 0

structure StockLedger where
  available : Dict String I32
  reservations : Dict Guid Reservation
  reservationOrder : List Guid

namespace StockLedger

def reservationCapacity : Nat := 50000

def defaultStock : List StockItem :=
  [⟨"SKU-1001", 1000000⟩, ⟨"SKU-1002", 1000000⟩, ⟨"SKU-2001", 1000000⟩, ⟨"SKU-9000", 0⟩]

/-- The constructor; `ToDictionary` throws (`none`) when a SKU occurs twice. -/
def create (items : List StockItem) : Option StockLedger :=
  let items := if items.length > 0 then items else defaultStock
  (Dict.ofPairs (items.map fun item => (item.sku, item.available))).map fun available =>
    ⟨available, ∅, []⟩

/-! ## Reserving (StockLedger.cs:67-100) -/

/-- The checking loop: the first line that cannot be served, with the answer it causes. -/
def checkLines (available : Dict String I32) : List ReservationLine → Option ReserveResult
  | [] => none
  | line :: lines =>
    match available.get line.sku with
    | none => some ⟨.unknownSku, none, line.sku⟩
    | some stock =>
      if stock.toInt < line.quantity.toInt then some ⟨.insufficientStock, none, line.sku⟩
      else checkLines available lines

/-- The second loop: `available[line.Sku] -= line.Quantity`. -/
def takeLines (available : Dict String I32) (lines : List ReservationLine) : Dict String I32 :=
  lines.foldl (fun available line => available.modify line.sku (· - line.quantity)) available

/-- `available[line.Sku] += line.Quantity` for every line. -/
def returnLines (available : Dict String I32) (lines : List ReservationLine) : Dict String I32 :=
  lines.foldl (fun available line => available.modify line.sku (· + line.quantity)) available

def trimOldReservations (ledger : StockLedger) : StockLedger :=
  let (queue, kept) := evict reservationCapacity ledger.reservationOrder ledger.reservations
  { ledger with reservations := kept, reservationOrder := queue }

/-- The record of the order when it is currently reserved. -/
def reservedRecord (ledger : StockLedger) (orderId : Guid) : Option Reservation :=
  (ledger.reservations.get orderId).filter fun existing => existing.status = .reserved

/-- The ledger right after the record was written, before old records are trimmed. -/
def record (ledger : StockLedger) (orderId : Guid) (lines : List ReservationLine) : StockLedger where
  available := takeLines ledger.available lines
  reservations := ledger.reservations.set orderId ⟨orderId, lines, .reserved⟩
  reservationOrder := ledger.reservationOrder ++ [orderId]

def reserve (ledger : StockLedger) (orderId : Guid) (lines : List ReservationLine) :
    ReserveResult × StockLedger :=
  match ledger.reservedRecord orderId with
  | some existing => (⟨.alreadyReserved, some existing, none⟩, ledger)
  | none =>
    match checkLines ledger.available lines with
    | some refusal => (refusal, ledger)
    | none => (⟨.reserved, some ⟨orderId, lines, .reserved⟩, none⟩,
        (ledger.record orderId lines).trimOldReservations)

/-! ## Releasing (StockLedger.cs:103-126) -/

def release (ledger : StockLedger) (orderId : Guid) : Option Reservation × StockLedger :=
  match ledger.reservations.get orderId with
  | none => (none, ledger)
  | some reservation =>
    if reservation.status = .released then (some reservation, ledger)
    else
      let released := { reservation with status := .released }
      (some released, { ledger with
        available := returnLines ledger.available reservation.lines
        reservations := ledger.reservations.set orderId released })

def availableFor (ledger : StockLedger) (sku : String) : I32 := (ledger.available.get sku).getD 0

/-! ## What the loops do -/

/-- The quantities of the lines that name `sku`, added as the loops add them. -/
def linesTotal (lines : List ReservationLine) (sku : String) : I32 :=
  (lines.map fun line => if line.sku = sku then line.quantity else 0).sum

@[simp] theorem linesTotal_nil (sku : String) : linesTotal [] sku = 0 := rfl

@[simp] theorem linesTotal_cons (line : ReservationLine) (lines : List ReservationLine) (sku : String) :
    linesTotal (line :: lines) sku = (if line.sku = sku then line.quantity else 0) +
      linesTotal lines sku := by
  simp [linesTotal]

theorem get_takeLines (available : Dict String I32) (lines : List ReservationLine) (sku : String) :
    (takeLines available lines).get sku = (available.get sku).map (· - linesTotal lines sku) := by
  induction lines generalizing available with
  | nil => simp [takeLines]
  | cons line lines ih =>
    have h : takeLines available (line :: lines) =
        takeLines (available.modify line.sku (· - line.quantity)) lines := rfl
    rw [h, ih, Dict.get_modify, linesTotal_cons]
    by_cases hs : sku = line.sku
    · subst hs
      simp [Option.map_map, Function.comp_def, sub_add_eq_sub_sub]
    · simp [hs, Ne.symm hs]

theorem get_returnLines (available : Dict String I32) (lines : List ReservationLine) (sku : String) :
    (returnLines available lines).get sku = (available.get sku).map (· + linesTotal lines sku) := by
  induction lines generalizing available with
  | nil => simp [returnLines]
  | cons line lines ih =>
    have h : returnLines available (line :: lines) =
        returnLines (available.modify line.sku (· + line.quantity)) lines := rfl
    rw [h, ih, Dict.get_modify, linesTotal_cons]
    by_cases hs : sku = line.sku
    · subst hs
      simp [Option.map_map, Function.comp_def, add_assoc]
    · simp [hs, Ne.symm hs]

/-- The check passes exactly when every single line fits the stock of its SKU. -/
theorem checkLines_eq_none {available : Dict String I32} {lines : List ReservationLine} :
    checkLines available lines = none ↔
      ∀ line ∈ lines, ∃ stock, available.get line.sku = some stock ∧
        line.quantity.toInt ≤ stock.toInt := by
  induction lines with
  | nil => simp [checkLines]
  | cons line lines ih =>
    simp only [checkLines, List.forall_mem_cons]
    cases hg : available.get line.sku with
    | none => simp
    | some stock =>
      by_cases hlt : stock.toInt < line.quantity.toInt
      · simp [hlt]
      · simp only [hlt, if_false, ih]
        simp [Int.not_lt.1 hlt]

/-- A refusal carries no reservation and one of the two refusing outcomes. -/
theorem checkLines_eq_some {available : Dict String I32} {lines : List ReservationLine}
    {refusal : ReserveResult} (h : checkLines available lines = some refusal) :
    (refusal.outcome = .unknownSku ∨ refusal.outcome = .insufficientStock) ∧ refusal.reservation = none
      ∧ ∃ line ∈ lines, refusal.sku = some line.sku := by
  induction lines with
  | nil => cases h
  | cons line lines ih =>
    simp only [checkLines] at h
    split at h
    · cases h; exact ⟨.inl rfl, rfl, line, by simp, rfl⟩
    · split at h
      · cases h; exact ⟨.inr rfl, rfl, line, by simp, rfl⟩
      · obtain ⟨ho, hr, found, hm, hs⟩ := ih h
        exact ⟨ho, hr, found, List.mem_cons_of_mem _ hm, hs⟩

/-! ## What one call can do -/

/-- Trimming forgets records and changes none. -/
theorem get_trim {ledger : StockLedger} {orderId : Guid} {found : Reservation}
    (h : ledger.trimOldReservations.reservations.get orderId = some found) :
    ledger.reservations.get orderId = some found := evict_get h

theorem trim_of_count_le {ledger : StockLedger} (h : ledger.reservations.count ≤ reservationCapacity) :
    ledger.trimOldReservations = ledger := by
  simp [trimOldReservations, evict_of_count_le h]

theorem reservedRecord_eq_some {ledger : StockLedger} {orderId : Guid} {existing : Reservation} :
    ledger.reservedRecord orderId = some existing ↔
      ledger.reservations.get orderId = some existing ∧ existing.status = .reserved := by
  simp [reservedRecord, Option.filter_eq_some_iff]

theorem reservedRecord_eq_none {ledger : StockLedger} {orderId : Guid} :
    ledger.reservedRecord orderId = none ↔
      ∀ found, ledger.reservations.get orderId = some found → found.status = .released := by
  simp only [reservedRecord, Option.filter_eq_none_iff, decide_eq_true_eq]
  refine forall₂_congr fun found _ => ?_
  cases found.status <;> simp

/-- Everything `reserve` can do: find the order reserved, refuse a line, or take every line. -/
theorem reserve_cases (ledger : StockLedger) (orderId : Guid) (lines : List ReservationLine) :
    (∃ existing, ledger.reservedRecord orderId = some existing
        ∧ (ledger.reserve orderId lines).1 = ⟨.alreadyReserved, some existing, none⟩
        ∧ (ledger.reserve orderId lines).2 = ledger) ∨
    (∃ refusal, ledger.reservedRecord orderId = none ∧ checkLines ledger.available lines = some refusal
        ∧ (ledger.reserve orderId lines).1 = refusal ∧ (ledger.reserve orderId lines).2 = ledger) ∨
    (ledger.reservedRecord orderId = none ∧ checkLines ledger.available lines = none
        ∧ (ledger.reserve orderId lines).1 = ⟨.reserved, some ⟨orderId, lines, .reserved⟩, none⟩
        ∧ (ledger.reserve orderId lines).2 = (ledger.record orderId lines).trimOldReservations) := by
  unfold reserve
  split
  · rename_i existing he; exact .inl ⟨existing, he, rfl, rfl⟩
  · rename_i he
    split
    · rename_i refusal hc; exact .inr (.inl ⟨refusal, he, hc, rfl, rfl⟩)
    · rename_i hc; exact .inr (.inr ⟨he, hc, rfl, rfl⟩)

/-- Everything `release` can do: find nothing, find the order released, or return its lines. -/
theorem release_cases (ledger : StockLedger) (orderId : Guid) :
    (ledger.reservations.get orderId = none ∧ ledger.release orderId = (none, ledger)) ∨
    (∃ found, ledger.reservations.get orderId = some found ∧ found.status = .released
        ∧ ledger.release orderId = (some found, ledger)) ∨
    (∃ found, ledger.reservedRecord orderId = some found
        ∧ ledger.release orderId = (some { found with status := .released }, { ledger with
            available := returnLines ledger.available found.lines
            reservations := ledger.reservations.set orderId { found with status := .released } })) := by
  unfold release
  split
  · rename_i hg; exact .inl ⟨hg, rfl⟩
  · rename_i found hg
    split
    · rename_i hs; exact .inr (.inl ⟨found, hg, hs, rfl⟩)
    · rename_i hs
      refine .inr (.inr ⟨found, reservedRecord_eq_some.2 ⟨hg, ?_⟩, rfl⟩)
      cases hst : found.status with
      | reserved => rfl
      | released => exact absurd hst hs

end StockLedger

end TxPlatform
