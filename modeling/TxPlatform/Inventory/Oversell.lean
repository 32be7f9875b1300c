import TxPlatform.Inventory.Conservation
import TxPlatform.Inventory.Endpoints

/-! # When stock is oversold

The checking loop of `Reserve` looks at every line alone, the second loop subtracts all of them.
Lines that name one SKU twice can pass the check one by one and still take more than there is.
`never_oversold_iff` says that nothing else can go wrong: stock stays non-negative along exactly
the runs in which lines that fit one by one also fit together.

Amounts are compared as integers here. As long as stock is not oversold, every amount stays
between zero and its initial value, so the 32-bit operations never wrap.
-/

namespace TxPlatform

namespace StockLedger

/-- What a request asks of `sku`, as an integer. -/
def requestedTotal (lines : List ReservationLine) (sku : String) : Int :=
  (lines.map fun line => if line.sku = sku then line.quantity.toInt else 0).sum

/-- The request of the operation passes the check in front of `ReserveAsync`. -/
def validated : StockOp → Bool
  | .reserve orderId lines => ReserveStockRequest.isValid ⟨orderId, some lines⟩
  | .release _ => true

/-- The ledger behind the endpoint: only validated requests reach it. -/
def validatedMachine : Machine StockLedger StockOp where
  step ledger op := if validated op then stockMachine.step ledger op else none

/-- No stock is negative after the step, and a successful `Reserve` took only what was available. -/
def NotOversold (ledger : StockLedger) (op : StockOp) (ledger' : StockLedger) : Prop :=
  (∀ sku, 0 ≤ (ledger'.availableFor sku).toInt) ∧
  match op with
  | .reserve orderId lines => (ledger.reserve orderId lines).1.outcome = .reserved →
      ∀ sku, requestedTotal lines sku ≤ (ledger.availableFor sku).toInt
  | .release _ => True

/-- Lines that each fit the stock of their SKU also fit it together. -/
def FitsTogether (ledger : StockLedger) (op : StockOp) (_ : StockLedger) : Prop :=
  match op with
  | .reserve orderId lines => ledger.reservedRecord orderId = none →
      (∀ line ∈ lines, ∃ stock, ledger.available.get line.sku = some stock
        ∧ line.quantity.toInt ≤ stock.toInt) →
      ∀ sku, requestedTotal lines sku ≤ (ledger.availableFor sku).toInt
  | .release _ => True

/-! ## 32-bit totals as integers -/

theorem requestedTotal_cons (line : ReservationLine) (lines : List ReservationLine) (sku : String) :
    requestedTotal (line :: lines) sku =
      (if line.sku = sku then line.quantity.toInt else 0) + requestedTotal lines sku := by
  simp [requestedTotal]

theorem requestedTotal_nonneg {lines : List ReservationLine} (h : ∀ line ∈ lines, 1 ≤ line.quantity.toInt)
    (sku : String) : 0 ≤ requestedTotal lines sku := by
  induction lines with
  | nil => simp [requestedTotal]
  | cons line lines ih =>
    rw [requestedTotal_cons]
    have hline := h line (by simp)
    have hrest := ih fun l hl => h l (List.mem_cons_of_mem _ hl)
    split <;> omega

/-- The loops add modulo 2^32 what the request asks for. -/
theorem linesTotal_eq_ofInt (lines : List ReservationLine) (sku : String) :
    linesTotal lines sku = BitVec.ofInt 32 (requestedTotal lines sku) := by
  induction lines with
  | nil => rfl
  | cons line lines ih =>
    rw [linesTotal_cons, requestedTotal_cons, BitVec.ofInt_add, ih]
    split <;> simp

/-- A total inside the 32-bit range is read back unchanged. -/
theorem toInt_linesTotal {lines : List ReservationLine} {sku : String}
    (h0 : 0 ≤ requestedTotal lines sku) (h1 : requestedTotal lines sku ≤ I32.maxValue) :
    (linesTotal lines sku).toInt = requestedTotal lines sku := by
  simp only [I32.maxValue] at h1
  rw [linesTotal_eq_ofInt, BitVec.toInt_ofInt, Int.bmod_eq_of_le] <;> omega

/-! ## The invariant -/

/-- What a reservation holds, as an integer. -/
def heldAmount (sku : String) (reservation : Reservation) : Int :=
  if reservation.status = .reserved then requestedTotal reservation.lines sku else 0

/-- Nothing is negative, and what is available plus what is held never exceeds the initial
amount. (It can fall below it: a trimmed record forgets the stock it held.) -/
structure Sound (initial : Dict String I32) (ledger : StockLedger) : Prop where
  nonneg : ∀ sku stock, ledger.available.get sku = some stock → 0 ≤ stock.toInt
  positiveLines : ∀ orderId found, ledger.reservations.get orderId = some found →
    ∀ line ∈ found.lines, 1 ≤ line.quantity.toInt
  bounded : ∀ sku stock, ledger.available.get sku = some stock →
    ∃ first, initial.get sku = some first ∧
      stock.toInt + ledger.reservations.sum (fun _ => heldAmount sku) ≤ first.toInt

theorem heldAmount_nonneg {reservation : Reservation}
    (h : ∀ line ∈ reservation.lines, 1 ≤ line.quantity.toInt) (sku : String) :
    0 ≤ heldAmount sku reservation := by
  unfold heldAmount
  split
  · exact requestedTotal_nonneg h sku
  · exact le_refl _

theorem availableFor_nonneg {initial : Dict String I32} {ledger : StockLedger} (h : Sound initial ledger)
    (sku : String) : 0 ≤ (ledger.availableFor sku).toInt := by
  unfold availableFor
  cases hg : ledger.available.get sku with
  | none => simp
  | some stock => exact h.nonneg sku stock hg

theorem sound_create {items : List StockItem} {ledger : StockLedger} (h : create items = some ledger)
    (hitems : ∀ item ∈ items, 0 ≤ item.available.toInt) : Sound ledger.available ledger := by
  simp only [create, Option.map_eq_some_iff] at h
  obtain ⟨available, hpairs, rfl⟩ := h
  refine ⟨fun sku stock hg => ?_, by simp, fun sku stock hg => ⟨stock, hg, by simp⟩⟩
  obtain ⟨item, hmem, he⟩ := List.mem_map.1 (Dict.mem_of_ofPairs hpairs hg)
  cases he
  split at hmem
  · exact hitems item hmem
  · have hdefault : ∀ item ∈ defaultStock, 0 ≤ item.available.toInt := by decide
    exact hdefault item hmem

/-! ## One step -/

/-- Writing a reservation whose total fits keeps the ledger sound. -/
theorem sound_record {initial : Dict String I32} {ledger : StockLedger} {orderId : Guid}
    {lines : List ReservationLine} (h : Sound initial ledger)
    (hnone : ledger.reservedRecord orderId = none) (hpos : ∀ line ∈ lines, 1 ≤ line.quantity.toInt)
    (hfit : ∀ sku, requestedTotal lines sku ≤ (ledger.availableFor sku).toInt) :
    Sound initial (ledger.record orderId lines) := by
  have hsum : ∀ sku, (ledger.record orderId lines).reservations.sum (fun _ => heldAmount sku) =
      ledger.reservations.sum (fun _ => heldAmount sku) + requestedTotal lines sku := by
    intro sku
    have hnew : heldAmount sku ⟨orderId, lines, .reserved⟩ = requestedTotal lines sku := rfl
    simp only [record]
    cases hg : ledger.reservations.get orderId with
    | none => rw [Dict.sum_set_new _ _ hg, hnew]
    | some found =>
      have hold : heldAmount sku found =
        0 := by simp [heldAmount, reservedRecord_eq_none.1 hnone found hg]
      rw [Dict.sum_set_old _ _ hg, hnew, hold, sub_zero]
  have hstock : ∀ sku stock', (ledger.record orderId lines).available.get sku = some stock' →
      ∃ stock, ledger.available.get sku = some stock ∧
        stock'.toInt = stock.toInt - requestedTotal lines sku
        ∧ requestedTotal lines sku ≤ stock.toInt := by
    intro sku stock' hg
    simp only [record, get_takeLines, Option.map_eq_some_iff] at hg
    obtain ⟨stock, hg, rfl⟩ := hg
    have hf := hfit sku
    simp only [availableFor, hg, Option.getD_some] at hf
    have h0 := requestedTotal_nonneg hpos sku
    have hmax := (I32.toInt_bounds stock).2
    have ht := toInt_linesTotal h0 (hf.trans hmax)
    have hmin : I32.minValue ≤ 0 := by decide
    refine ⟨stock, hg, ?_, hf⟩
    rw [I32.toInt_sub, ht]
    rw [ht]
    omega
  refine ⟨fun sku stock' hg => ?_, fun other found hg => ?_, fun sku stock' hg => ?_⟩
  · obtain ⟨stock, _, he, hf⟩ := hstock sku stock' hg
    omega
  · simp only [record, Dict.get_set] at hg
    split at hg
    · cases hg; exact hpos
    · exact h.positiveLines other found hg
  · obtain ⟨stock, hs, he, _⟩ := hstock sku stock' hg
    obtain ⟨first, hf, hle⟩ := h.bounded sku stock hs
    exact ⟨first, hf, by rw [hsum]; omega⟩

theorem sound_trim {initial : Dict String I32} {ledger : StockLedger} (h : Sound initial ledger) :
    Sound initial ledger.trimOldReservations := by
  refine ⟨h.nonneg, fun orderId found hg => h.positiveLines orderId found (get_trim hg),
    fun sku stock hg => ?_⟩
  obtain ⟨first, hf, hle⟩ := h.bounded sku stock hg
  have hsum : ledger.trimOldReservations.reservations.sum (fun _ => heldAmount sku) ≤
      ledger.reservations.sum (fun _ => heldAmount sku) :=
    evict_sum_le fun orderId found hg => heldAmount_nonneg (h.positiveLines orderId found hg) sku
  exact ⟨first, hf, by omega⟩

/-- A release returns no more than the initial amount leaves room for, so it does not wrap. -/
theorem sound_release {initial : Dict String I32} {ledger : StockLedger} (h : Sound initial ledger)
    (orderId : Guid) : Sound initial (ledger.release orderId).2 := by
  obtain ⟨_, he⟩ | ⟨_, _, _, he⟩ | ⟨found, hf, he⟩ := release_cases ledger orderId
  · rw [he]; exact h
  · rw [he]; exact h
  · rw [he]
    obtain ⟨hg, hst⟩ := reservedRecord_eq_some.1 hf
    have hpos := h.positiveLines orderId found hg
    have hsum : ∀ sku, (ledger.reservations.set orderId { found with status := .released }).sum
        (fun _ => heldAmount sku) =
        ledger.reservations.sum (fun _ => heldAmount sku) - requestedTotal found.lines sku := by
      intro sku
      have hold : heldAmount sku found = requestedTotal found.lines sku := by simp [heldAmount, hst]
      have hnew : heldAmount sku { found with status := .released } = 0 := rfl
      rw [Dict.sum_set_old _ _ hg, hold, hnew, add_zero]
    have hlines : ∀ other found',
      (ledger.reservations.set orderId { found with status := .released }).get other
        = some found' → ∀ line ∈ found'.lines, 1 ≤ line.quantity.toInt := by
      intro other found' hg'
      simp only [Dict.get_set] at hg'
      split at hg'
      · cases hg'; exact hpos
      · exact h.positiveLines other found' hg'
    have hstock : ∀ sku stock', (returnLines ledger.available found.lines).get sku = some stock' →
        ∃ stock first, ledger.available.get sku = some stock ∧ initial.get sku = some first ∧
          stock.toInt + ledger.reservations.sum (fun _ => heldAmount sku) ≤ first.toInt ∧
          stock'.toInt = stock.toInt + requestedTotal found.lines sku := by
      intro sku stock' hg'
      simp only [get_returnLines, Option.map_eq_some_iff] at hg'
      obtain ⟨stock, hs, rfl⟩ := hg'
      obtain ⟨first, hfirst, hle⟩ := h.bounded sku stock hs
      have hrest : 0 ≤ (ledger.reservations.set orderId { found with status := .released }).sum
          (fun _ => heldAmount sku) :=
        Dict.sum_nonneg fun other found' hg' => heldAmount_nonneg (hlines other found' hg') sku
      rw [hsum] at hrest
      have h0 := requestedTotal_nonneg hpos sku
      have hn := h.nonneg sku stock hs
      have hmax := (I32.toInt_bounds first).2
      have hmin : I32.minValue ≤ 0 := by decide
      have ht := toInt_linesTotal h0 (by omega)
      refine ⟨stock, first, hs, hfirst, hle, ?_⟩
      rw [I32.toInt_add, ht]
      rw [ht]
      omega
    refine ⟨fun sku stock' hg' => ?_, hlines, fun sku stock' hg' => ?_⟩
    · obtain ⟨stock, _, hs, _, _, he⟩ := hstock sku stock' hg'
      have := h.nonneg sku stock hs
      have := requestedTotal_nonneg hpos sku
      omega
    · obtain ⟨stock, first, _, hfirst, hle, he⟩ := hstock sku stock' hg'
      exact ⟨first, hfirst, by rw [hsum]; omega⟩

/-- The ledger answers Reserved exactly when the order is not reserved and every line fits alone. -/
theorem outcome_reserved_iff (ledger : StockLedger) (orderId : Guid) (lines : List ReservationLine) :
    (ledger.reserve orderId lines).1.outcome = .reserved ↔
      ledger.reservedRecord orderId = none ∧ checkLines ledger.available lines = none := by
  obtain ⟨_, hr, ho, _⟩ | ⟨refusal, hr, hc, ho, _⟩ | ⟨hr, hc, ho, _⟩ := reserve_cases ledger orderId lines
  · simp [ho, hr]
  · obtain ⟨h, _⟩ := checkLines_eq_some hc
    rw [ho]
    rcases h with h | h <;> simp [h, hc]
  · simp [ho, hr, hc]

/-- Inversion of a validated step. -/
theorem validated_step {ledger ledger' : StockLedger} {op : StockOp}
    (h : validatedMachine.step ledger op = some ledger') :
    (∃ orderId lines, op = .reserve orderId lines ∧ (∀ line ∈ lines, 1 ≤ line.quantity.toInt)
      ∧ ledger' = (ledger.reserve orderId lines).2) ∨
    (∃ orderId, op = .release orderId ∧ ledger' = (ledger.release orderId).2) := by
  simp only [validatedMachine] at h
  split at h
  · rename_i hv
    cases op with
    | reserve orderId lines =>
      simp only [validated, ReserveStockRequest.isValid, decide_eq_true_eq] at hv
      exact .inl ⟨orderId, lines, rfl, hv.2.2, (Option.some.inj h).symm⟩
    | release orderId => exact .inr ⟨orderId, rfl, (Option.some.inj h).symm⟩
  · cases h

theorem sound_step {initial : Dict String I32} {ledger ledger' : StockLedger} {op : StockOp}
    (h : Sound initial ledger) (hs : validatedMachine.step ledger op = some ledger')
    (hfit : FitsTogether ledger op ledger') : Sound initial ledger' := by
  obtain ⟨orderId, lines, rfl, hpos, rfl⟩ | ⟨orderId, rfl, rfl⟩ := validated_step hs
  · obtain ⟨_, _, _, he⟩ | ⟨_, _, _, _, he⟩ | ⟨hnone, hc, _, he⟩ := reserve_cases ledger orderId lines
    · rw [he]; exact h
    · rw [he]; exact h
    · rw [he]
      exact sound_trim (sound_record h hnone hpos (hfit hnone (checkLines_eq_none.1 hc)))
  · exact sound_release h orderId

theorem fitsTogether_iff_notOversold {initial : Dict String I32} {ledger ledger' : StockLedger}
    {op : StockOp} (h : Sound initial ledger)
    (hs : validatedMachine.step ledger op = some ledger') :
    FitsTogether ledger op ledger' ↔ NotOversold ledger op ledger' := by
  constructor
  · intro hfit
    refine ⟨availableFor_nonneg (sound_step h hs hfit), ?_⟩
    cases op with
    | reserve orderId lines =>
      intro ho
      obtain ⟨hnone, hc⟩ := (outcome_reserved_iff ledger orderId lines).1 ho
      exact hfit hnone (checkLines_eq_none.1 hc)
    | release orderId => trivial
  · rintro ⟨_, htook⟩
    cases op with
    | reserve orderId lines =>
      exact fun hnone hlines => htook
        ((outcome_reserved_iff ledger orderId lines).2 ⟨hnone, checkLines_eq_none.2 hlines⟩)
    | release orderId => trivial

/-! ## Runs -/

/-- A request to the service, with what the injector decides at each of its fault points. -/
inductive StockRequest where
  | reserve (request : ReserveStockRequest) (decisions : FaultPhase → Except Exn FaultDecision)
  | release (orderId : Guid) (decisions : FaultPhase → Except Exn FaultDecision)

/-- The ledger under the HTTP handlers. -/
def endpointMachine : Machine StockLedger StockRequest where
  step ledger
    | .reserve request decisions => some (ReservationEndpoints.reserveAsync
        (fun _ phase _ faults => (decisions phase, faults)) request ledger ()).2.1
    | .release orderId decisions => some (ReservationEndpoints.releaseAsync
        (fun _ phase _ faults => (decisions phase, faults)) orderId ledger ()).2.1

/-- Whatever the handlers do to the ledger, validated calls do. -/
theorem endpoint_run_refines {requests : List StockRequest} {ledger ledger' : StockLedger}
    (h : endpointMachine.run ledger requests = some ledger') :
    ∃ ops, validatedMachine.run ledger ops = some ledger' := by
  induction requests generalizing ledger with
  | nil => exact ⟨[], h⟩
  | cons request requests ih =>
    obtain ⟨next, hs, hr⟩ := Machine.run_cons h
    obtain ⟨ops, hops⟩ := ih hr
    cases request with
    | reserve request decisions =>
      cases hs
      obtain he | ⟨lines, hl, hv, he⟩ := ReservationEndpoints.reserveAsync_ledger
        (fun _ phase _ faults => (decisions phase, faults)) request ledger ()
      · exact ⟨ops, by rwa [he] at hops⟩
      · refine ⟨.reserve request.orderId lines :: ops, ?_⟩
        rw [he] at hops
        have hvalid : validated (.reserve request.orderId lines) = true := by
          simp only [validated, ← hl]; exact hv
        simpa [Machine.run, validatedMachine, stockMachine, hvalid] using hops
    | release orderId decisions =>
      cases hs
      obtain he | he := ReservationEndpoints.releaseAsync_ledger
        (fun _ phase _ faults => (decisions phase, faults)) orderId ledger ()
      · exact ⟨ops, by rwa [he] at hops⟩
      · refine ⟨.release orderId :: ops, ?_⟩
        rw [he] at hops
        simpa [Machine.run, validatedMachine, stockMachine, validated] using hops

/-- **Exactly when stock is never oversold**: in every run from a non-negative initial stock, no
stock goes negative and no `Reserve` takes more than there is, if and only if lines that fit one
by one always fit together. -/
theorem never_oversold_iff (items : List StockItem) (initial : StockLedger) (ops : List StockOp)
    (h0 : create items = some initial) (hitems : ∀ item ∈ items, 0 ≤ item.available.toInt) :
    validatedMachine.Along NotOversold initial ops ↔ validatedMachine.Along FitsTogether initial ops :=
  (Machine.along_iff (I := Sound initial.available) (fun _ _ _ h hs => fitsTogether_iff_notOversold h hs)
    (fun _ _ _ h hs hfit => sound_step h hs hfit) (sound_create h0 hitems)).symm

theorem never_oversold_iff_one_item :
    validatedMachine.Along NotOversold ⟨Dict.set ∅ "SKU-1001" 5, ∅, []⟩ [.reserve 1 [⟨"SKU-1001", 3⟩]] ↔
    validatedMachine.Along FitsTogether ⟨Dict.set ∅ "SKU-1001" 5, ∅, []⟩ [.reserve 1 [⟨"SKU-1001", 3⟩]] :=
  never_oversold_iff [⟨"SKU-1001", 5⟩] _ _ rfl (by decide)

/-- Two lines of three pieces each pass the check against five pieces: the stock ends at -1. -/
theorem oversold_by_repeated_sku : ∃ initial ledger,
    create [⟨"SKU-1001", 5⟩] = some initial ∧
    validatedMachine.run initial [.reserve 1 [⟨"SKU-1001", 3⟩, ⟨"SKU-1001", 3⟩]] = some ledger ∧
    (initial.reserve 1 [⟨"SKU-1001", 3⟩, ⟨"SKU-1001", 3⟩]).1.outcome = .reserved ∧
    (ledger.availableFor "SKU-1001").toInt = -1 ∧
    ¬ validatedMachine.Along NotOversold initial [.reserve 1 [⟨"SKU-1001", 3⟩, ⟨"SKU-1001", 3⟩]] := by
  refine ⟨⟨Dict.set ∅ "SKU-1001" 5, ∅, []⟩, _, rfl, rfl, by decide, by decide, fun h => ?_⟩
  have hneg := h.1.1 "SKU-1001"
  revert hneg
  decide

end StockLedger

end TxPlatform
