import TxPlatform.Lib.Machine
import TxPlatform.Inventory.StockLedger

/-! # Stock is conserved

For every SKU, what is available plus what the stored reservations hold is the initial amount, in
32-bit arithmetic and whatever lines a reservation has. The one way to lose stock is to forget a
record that still holds some, so the runs considered never store more orders than the capacity.
-/

namespace TxPlatform

inductive StockOp where
  | reserve (orderId : Guid) (lines : List ReservationLine)
  | release (orderId : Guid)

namespace StockLedger

/-- The ledger under calls of `Reserve` and `Release`; every call is always possible. -/
def stockMachine : Machine StockLedger StockOp where
  step ledger
    | .reserve orderId lines => some (ledger.reserve orderId lines).2
    | .release orderId => some (ledger.release orderId).2

/-- A successful `Reserve` leaves at most `ReservationCapacity` orders stored. -/
def StoresAtMostCapacity (ledger : StockLedger) : StockOp → StockLedger → Prop
  | .reserve orderId lines, _ => (ledger.reserve orderId lines).1.outcome = .reserved →
      (ledger.record orderId lines).reservations.count ≤ reservationCapacity
  | .release _, _ => True

/-- What a reservation holds of `sku`: nothing once it is released. -/
def held (sku : String) (reservation : Reservation) : I32 :=
  if reservation.status = .reserved then linesTotal reservation.lines sku else 0

/-- The sum of the quantities of `sku` over all reservations with status Reserved. -/
def reservedTotal (ledger : StockLedger) (sku : String) : I32 :=
  ledger.reservations.sum fun _ => held sku

/-- Available plus reserved is the initial amount, SKU by SKU; no SKU appears or vanishes. -/
def Conserves (initial : Dict String I32) (ledger : StockLedger) : Prop :=
  ∀ sku, (ledger.available.get sku).map (· + ledger.reservedTotal sku) = initial.get sku

/-! ## One step -/

/-- Writing a fresh reservation adds what it holds; a released record held nothing before. -/
theorem reservedTotal_record {ledger : StockLedger} {orderId : Guid} (lines : List ReservationLine)
    (h : ledger.reservedRecord orderId = none) (sku : String) :
    (ledger.record orderId lines).reservedTotal sku = ledger.reservedTotal sku +
      linesTotal lines sku := by
  have hnew : held sku ⟨orderId, lines, .reserved⟩ = linesTotal lines sku := rfl
  simp only [reservedTotal, record]
  cases hg : ledger.reservations.get orderId with
  | none => rw [Dict.sum_set_new _ _ hg, hnew]
  | some found =>
    have hheld : held sku found = 0 := by simp [held, reservedRecord_eq_none.1 h found hg]
    rw [Dict.sum_set_old _ _ hg, hnew, hheld, sub_zero]

/-- Releasing a record takes out exactly what its lines held. -/
theorem reservedTotal_release {ledger : StockLedger} {orderId : Guid} {found : Reservation}
    (h : ledger.reservedRecord orderId = some found) (available : Dict String I32) (sku : String) :
    reservedTotal { ledger with
        available := available
        reservations := ledger.reservations.set orderId { found with status := .released } } sku
      = ledger.reservedTotal sku - linesTotal found.lines sku := by
  obtain ⟨hg, hs⟩ := reservedRecord_eq_some.1 h
  have hold : held sku found = linesTotal found.lines sku := by simp [held, hs]
  have hnew : held sku { found with status := .released } = 0 := rfl
  simp only [reservedTotal]
  rw [Dict.sum_set_old _ _ hg, hold, hnew, add_zero]

theorem conserves_record {initial : Dict String I32} {ledger : StockLedger} {orderId : Guid}
    (lines : List ReservationLine) (h : ledger.reservedRecord orderId = none)
    (hc : Conserves initial ledger) : Conserves initial (ledger.record orderId lines) := by
  intro sku
  rw [← hc sku, reservedTotal_record lines h, show (ledger.record orderId lines).available =
    takeLines ledger.available lines from rfl, get_takeLines, Option.map_map]
  congr 1
  funext stock
  simp only [Function.comp_apply]
  abel

theorem conserves_step {initial : Dict String I32} {ledger ledger' : StockLedger} {op : StockOp}
    (hc : Conserves initial ledger) (hs : stockMachine.step ledger op = some ledger')
    (hcap : StoresAtMostCapacity ledger op ledger') : Conserves initial ledger' := by
  cases op with
  | reserve orderId lines =>
    simp only [stockMachine, Option.some.injEq] at hs
    subst hs
    obtain ⟨_, _, _, he⟩ | ⟨_, _, _, _, he⟩ | ⟨hnone, _, ho, he⟩ := reserve_cases ledger orderId lines
    · rw [he]; exact hc
    · rw [he]; exact hc
    · rw [he, trim_of_count_le (hcap (by rw [ho]))]
      exact conserves_record lines hnone hc
  | release orderId =>
    simp only [stockMachine, Option.some.injEq] at hs
    subst hs
    obtain ⟨_, he⟩ | ⟨_, _, _, he⟩ | ⟨found, hf, he⟩ := release_cases ledger orderId
    · rw [he]; exact hc
    · rw [he]; exact hc
    · rw [he]
      intro sku
      rw [← hc sku, reservedTotal_release hf, get_returnLines, Option.map_map]
      congr 1
      funext stock
      simp only [Function.comp_apply]
      abel

theorem conserves_create {items : List StockItem} {ledger : StockLedger}
    (h : create items = some ledger) :
    Conserves ledger.available ledger := by
  simp only [create, Option.map_eq_some_iff] at h
  obtain ⟨available, _, rfl⟩ := h
  intro sku
  simp [reservedTotal]

/-! ## Calls that change nothing, and what a release returns -/

theorem reserve_unchanged {ledger : StockLedger} {orderId : Guid} {lines : List ReservationLine}
    (h : (ledger.reserve orderId lines).1.outcome ≠ .reserved) :
    (ledger.reserve orderId lines).2 = ledger := by
  obtain ⟨_, _, _, he⟩ | ⟨_, _, _, _, he⟩ | ⟨_, _, ho, _⟩ := reserve_cases ledger orderId lines
  · exact he
  · exact he
  · exact absurd (by rw [ho]) h

theorem release_of_not_reserved {ledger : StockLedger} {orderId : Guid}
    (h : ledger.reservedRecord orderId = none) : (ledger.release orderId).2 = ledger := by
  obtain ⟨_, he⟩ | ⟨_, _, _, he⟩ | ⟨_, hf, _⟩ := release_cases ledger orderId
  · rw [he]
  · rw [he]
  · rw [h] at hf; cases hf

/-- After a release the order is not reserved. -/
theorem reservedRecord_release (ledger : StockLedger) (orderId : Guid) :
    (ledger.release orderId).2.reservedRecord orderId = none := by
  obtain ⟨hg, he⟩ | ⟨found, hg, hs, he⟩ | ⟨found, _, he⟩ := release_cases ledger orderId
  · rw [he]; simp [reservedRecord, hg]
  · rw [he, reservedRecord_eq_none]
    intro other ho
    rw [hg] at ho; cases ho; exact hs
  · rw [he]; simp [reservedRecord]

/-- Calls for other orders never touch this order's record while nothing is trimmed; trimming can
only forget it. -/
theorem reservedRecord_none_step {ledger ledger' : StockLedger} {orderId : Guid} {op : StockOp}
    (h : ledger.reservedRecord orderId = none) (hop : ∀ lines, op ≠ .reserve orderId lines)
    (hs : stockMachine.step ledger op = some ledger') : ledger'.reservedRecord orderId = none := by
  rw [reservedRecord_eq_none] at h ⊢
  intro found hf
  cases op with
  | reserve other lines =>
    have hne : orderId ≠ other := by rintro rfl; exact hop lines rfl
    simp only [stockMachine, Option.some.injEq] at hs
    subst hs
    obtain ⟨_, _, _, he⟩ | ⟨_, _, _, _, he⟩ | ⟨_, _, _, he⟩ := reserve_cases ledger other lines
    · exact h found (by rwa [he] at hf)
    · exact h found (by rwa [he] at hf)
    · rw [he] at hf
      have := get_trim hf
      simp only [record, Dict.get_set, if_neg hne] at this
      exact h found this
  | release other =>
    simp only [stockMachine, Option.some.injEq] at hs
    subst hs
    obtain ⟨_, he⟩ | ⟨_, _, _, he⟩ | ⟨_, _, he⟩ := release_cases ledger other
    · exact h found (by rwa [he] at hf)
    · exact h found (by rwa [he] at hf)
    · rw [he] at hf
      simp only [Dict.get_set] at hf
      split at hf
      · cases hf; rfl
      · exact h found hf

/-- A reserved record stays as it is until the order is released. -/
theorem reservedRecord_some_step {ledger ledger' : StockLedger} {orderId : Guid} {found : Reservation}
    {op : StockOp} (h : ledger.reservedRecord orderId = some found) (hop : op ≠ .release orderId)
    (hs : stockMachine.step ledger op = some ledger') (hcap : StoresAtMostCapacity ledger op ledger') :
    ledger'.reservedRecord orderId = some found := by
  have h' := h
  rw [reservedRecord_eq_some] at h' ⊢
  refine ⟨?_, h'.2⟩
  cases op with
  | reserve other lines =>
    simp only [stockMachine, Option.some.injEq] at hs
    subst hs
    obtain ⟨_, _, _, he⟩ | ⟨_, _, _, _, he⟩ | ⟨hnone, _, ho, he⟩ := reserve_cases ledger other lines
    · rw [he]; exact h'.1
    · rw [he]; exact h'.1
    · have hne : orderId ≠ other := by rintro rfl; rw [h] at hnone; cases hnone
      rw [he, trim_of_count_le (hcap (by rw [ho]))]
      simp only [record, Dict.get_set, if_neg hne]
      exact h'.1
  | release other =>
    have hne : orderId ≠ other := by rintro rfl; exact hop rfl
    simp only [stockMachine, Option.some.injEq] at hs
    subst hs
    obtain ⟨_, he⟩ | ⟨_, _, _, he⟩ | ⟨_, _, he⟩ := release_cases ledger other
    · rw [he]; exact h'.1
    · rw [he]; exact h'.1
    · rw [he]
      simp only [Dict.get_set, if_neg hne]
      exact h'.1

/-! ## Runs -/

/-- The order is not reserved at the end of a run that starts with a release of it and does not
reserve it again. -/
theorem reservedRecord_none_run {orderId : Guid} {ops : List StockOp} :
    ∀ {ledger ledger' : StockLedger}, ledger.reservedRecord orderId = none →
    (∀ op ∈ ops, ∀ lines, op ≠ .reserve orderId lines) → stockMachine.run ledger ops = some ledger' →
    ledger'.reservedRecord orderId = none := by
  induction ops with
  | nil => intro ledger ledger' h _ hr; cases hr; exact h
  | cons op ops ih =>
    intro ledger ledger' h hops hr
    obtain ⟨next, hs, hr⟩ := Machine.run_cons hr
    exact ih (reservedRecord_none_step h (hops op (by simp)) hs)
      (fun o ho => hops o (List.mem_cons_of_mem _ ho)) hr

theorem reservedRecord_some_run {orderId : Guid} {found : Reservation} {ops : List StockOp} :
    ∀ {ledger ledger' : StockLedger}, ledger.reservedRecord orderId = some found →
    (∀ op ∈ ops, op ≠ .release orderId) → stockMachine.Along StoresAtMostCapacity ledger ops →
    stockMachine.run ledger ops = some ledger' → ledger'.reservedRecord orderId = some found := by
  induction ops with
  | nil => intro ledger ledger' h _ _ hr; cases hr; exact h
  | cons op ops ih =>
    intro ledger ledger' h hops hcap hr
    obtain ⟨next, hs, hr⟩ := Machine.run_cons hr
    simp only [Machine.Along, hs] at hcap
    exact ih (reservedRecord_some_step h (hops op (by simp)) hs hcap.1)
      (fun o ho => hops o (List.mem_cons_of_mem _ ho)) hcap.2 hr

theorem conserves_run {items : List StockItem} {initial ledger : StockLedger} {ops : List StockOp}
    (h0 : create items = some initial) (hcap : stockMachine.Along StoresAtMostCapacity initial ops)
    (hr : stockMachine.run initial ops = some ledger) : Conserves initial.available ledger :=
  Machine.run_inv_of_along (I := Conserves initial.available)
    (fun _ _ _ hc hs hcap => conserves_step hc hs hcap) (conserves_create h0) hcap hr

/-- A release returns, SKU by SKU, what the last successful `Reserve` of the order took. -/
theorem release_returns {ledger ledger' : StockLedger} {orderId : Guid} {lines : List ReservationLine}
    {ops : List StockOp} (hres : (ledger.reserve orderId lines).1.outcome = .reserved)
    (hcap : stockMachine.Along StoresAtMostCapacity ledger (.reserve orderId lines :: ops))
    (hops : ∀ op ∈ ops, op ≠ .release orderId)
    (hr : stockMachine.run ledger (.reserve orderId lines :: ops) = some ledger') (sku : String)
    (hsku : (ledger.available.get sku).isSome) (hsku' : (ledger'.available.get sku).isSome) :
    (ledger'.release orderId).2.availableFor sku = ledger'.availableFor sku
      + (ledger.availableFor sku - (ledger.reserve orderId lines).2.availableFor sku) := by
  have hstep : stockMachine.step ledger (.reserve orderId lines) =
    some (ledger.reserve orderId lines).2 := rfl
  obtain ⟨next, hs, hr⟩ := Machine.run_cons hr
  simp only [Machine.Along, hstep] at hcap
  rw [hstep, Option.some.injEq] at hs
  subst hs
  obtain ⟨_, _, ho, _⟩ | ⟨_, _, hc, ho, _⟩ | ⟨_, _, _, he⟩ := reserve_cases ledger orderId lines
  · rw [ho] at hres; cases hres
  · obtain ⟨hu | hi, _⟩ := checkLines_eq_some hc
    · rw [ho, hu] at hres; cases hres
    · rw [ho, hi] at hres; cases hres
  · rw [trim_of_count_le (hcap.1 hres)] at he
    have hrec : (ledger.reserve orderId lines).2.reservedRecord orderId = some ⟨orderId, lines,
      .reserved⟩ := by
      rw [he, reservedRecord_eq_some]
      exact ⟨by simp [record], rfl⟩
    have hlast := reservedRecord_some_run hrec hops hcap.2 hr
    obtain ⟨hg, _⟩ | ⟨found, hg, hst, _⟩ | ⟨found, hf, hrel⟩ := release_cases ledger' orderId
    · rw [(reservedRecord_eq_some.1 hlast).1] at hg; cases hg
    · rw [(reservedRecord_eq_some.1 hlast).1] at hg; cases hg; cases hst
    · rw [hlast] at hf
      cases hf
      obtain ⟨stock, hstock⟩ := Option.isSome_iff_exists.1 hsku
      obtain ⟨stock', hstock'⟩ := Option.isSome_iff_exists.1 hsku'
      rw [hrel, he]
      simp only [availableFor, get_returnLines, get_takeLines, record, hstock, hstock', Option.map_some,
        Option.getD_some]
      abel

/-- **Stock is conserved.** In every run that stores at most the capacity, available plus reserved
is the initial amount for every SKU; a refused or repeated call changes nothing; a release of a
reserved order returns exactly what its last successful `Reserve` took. -/
theorem stock_conserved (items : List StockItem) (initial ledger : StockLedger) (ops : List StockOp)
    (h0 : create items = some initial) (hcap : stockMachine.Along StoresAtMostCapacity initial ops)
    (hr : stockMachine.run initial ops = some ledger) :
    (∀ sku, (initial.available.get sku).isSome →
      ledger.availableFor sku + ledger.reservedTotal sku = initial.availableFor sku) ∧
    (∀ orderId lines, (ledger.reserve orderId lines).1.outcome ≠ .reserved →
      (ledger.reserve orderId lines).2 = ledger) ∧
    (∀ orderId later ledger', (∀ op ∈ later, ∀ lines, op ≠ .reserve orderId lines) →
      stockMachine.run ledger (.release orderId :: later) = some ledger' →
      (ledger'.release orderId).2 = ledger') ∧
    (∀ orderId lines later ledger', (ledger.reserve orderId lines).1.outcome = .reserved →
      stockMachine.Along StoresAtMostCapacity ledger (.reserve orderId lines :: later) →
      (∀ op ∈ later, op ≠ .release orderId) →
      stockMachine.run ledger (.reserve orderId lines :: later) = some ledger' →
      ∀ sku, (initial.available.get sku).isSome →
        (ledger'.release orderId).2.availableFor sku = ledger'.availableFor sku
          + (ledger.availableFor sku - (ledger.reserve orderId lines).2.availableFor sku)) := by
  have hc := conserves_run h0 hcap hr
  have hkeys : ∀ {l : StockLedger} {sku : String}, Conserves initial.available l →
      (initial.available.get sku).isSome → (l.available.get sku).isSome := by
    intro l sku hl hsome
    rw [← hl sku] at hsome
    simpa using hsome
  refine ⟨fun sku hsku => ?_, fun orderId lines h => reserve_unchanged h,
    fun orderId later ledger' hlater hr' =>
      ?_, fun orderId lines later ledger' hres hcap' hlater hr' sku hsku => ?_⟩
  · obtain ⟨stock, hstock⟩ := Option.isSome_iff_exists.1 (hkeys hc hsku)
    have := hc sku
    rw [hstock] at this
    simp [availableFor, hstock, ← this]
  · obtain ⟨next, hs, hr'⟩ := Machine.run_cons hr'
    simp only [stockMachine, Option.some.injEq] at hs
    subst hs
    exact release_of_not_reserved (reservedRecord_none_run (reservedRecord_release ledger orderId) hlater hr')
  · have hc' : Conserves initial.available ledger' := Machine.run_inv_of_along
      (I := Conserves initial.available) (fun _ _ _ hc hs hcap => conserves_step hc hs hcap) hc hcap' hr'
    exact release_returns hres hcap' hlater hr' sku (hkeys hc hsku) (hkeys hc' hsku)

def fiveUnits : StockLedger := ⟨Dict.set ∅ "SKU-1001" 5, ∅, []⟩

/-- Two orders, of which the first is given back. -/
def twoOrders : List StockOp := [.reserve 1 [⟨"SKU-1001", 3⟩], .reserve 2 [⟨"SKU-1001", 1⟩], .release 1]

def afterTwoOrders : StockLedger :=
  ((fiveUnits.reserve 1 [⟨"SKU-1001", 3⟩]).2.reserve 2 [⟨"SKU-1001", 1⟩] |>.2.release 1).2

theorem stock_conserved_twoOrders :
    stockMachine.run fiveUnits twoOrders = some afterTwoOrders ∧
    afterTwoOrders.availableFor "SKU-1001" + afterTwoOrders.reservedTotal "SKU-1001" = 5 ∧
    (afterTwoOrders.reserve 3 [⟨"SKU-1001", 9⟩]).2 = afterTwoOrders ∧ (afterTwoOrders.release 1).2 = afterTwoOrders ∧
    ∃ later, stockMachine.run afterTwoOrders [.reserve 3 [⟨"SKU-1001", 2⟩], .release 2] = some later ∧
      (later.release 3).2.availableFor "SKU-1001" = later.availableFor "SKU-1001" + 2 := by
  have hcapacity : stockMachine.Along StoresAtMostCapacity fiveUnits twoOrders :=
    ⟨fun _ => by decide, fun _ => by decide, trivial, trivial⟩
  have hlater : stockMachine.Along StoresAtMostCapacity afterTwoOrders [.reserve 3 [⟨"SKU-1001", 2⟩], .release 2] :=
    ⟨fun _ => by decide, trivial, trivial⟩
  have htook : afterTwoOrders.availableFor "SKU-1001" -
      (afterTwoOrders.reserve 3 [⟨"SKU-1001", 2⟩]).2.availableFor "SKU-1001" = 2 := by decide
  obtain ⟨htotal, hrefused, -, hreturned⟩ :=
    stock_conserved [⟨"SKU-1001", 5⟩] fiveUnits afterTwoOrders twoOrders rfl hcapacity rfl
  obtain ⟨-, -, hrepeated, -⟩ := stock_conserved [⟨"SKU-1001", 5⟩] fiveUnits _ (twoOrders.take 2) rfl
    ⟨fun _ => by decide, fun _ => by decide, trivial⟩ rfl
  refine ⟨rfl, htotal "SKU-1001" rfl, hrefused 3 _ (by decide), hrepeated 1 [] afterTwoOrders (by simp) rfl, _, rfl, ?_⟩
  have hgiven := hreturned 3 [⟨"SKU-1001", 2⟩] [.release 2] _ (by decide) hlater (by simp) rfl "SKU-1001" rfl
  rwa [htook] at hgiven

end StockLedger

end TxPlatform
