import TxPlatform.Lib.StaleFifo
import TxPlatform.Inventory.Conservation

/-! # Which reservations are forgotten (StockLedger.cs:67-143)

Every accepted `Reserve` queues its order, also one that reserves a released order again: the order
then stands in `reservationOrder` twice, and its old entry makes `TrimOldReservations` take the new
record for an old one. The ledger is run here call by call beside a clock that notes when each order
was reserved last.
-/

namespace TxPlatform

namespace StockLedger

/-- The ledger with the number of calls so far and the call that reserved each order last. -/
structure Traced where
  ledger : StockLedger
  clock : Nat
  reservedAt : Guid → Nat

namespace Traced

def start (available : Dict String I32) : Traced := ⟨⟨available, ∅, []⟩, 0, fun _ => 0⟩

def reserve (traced : Traced) (orderId : Guid) (lines : List ReservationLine) : Traced :=
  let (result, ledger) := traced.ledger.reserve orderId lines
  ⟨ledger, traced.clock + 1,
    if result.outcome = .reserved then Function.update traced.reservedAt orderId traced.clock
    else traced.reservedAt⟩

def release (traced : Traced) (orderId : Guid) : Traced :=
  { traced with ledger := (traced.ledger.release orderId).2, clock := traced.clock + 1 }

end Traced

def tracedMachine : Machine Traced StockOp where
  step traced
    | .reserve orderId lines => some (traced.reserve orderId lines)
    | .release orderId => some (traced.release orderId)

/-- What a call must leave behind: when it trimmed the record of an order, no other stored order was
reserved earlier, and the stored records fit. -/
structure ForgetsOldest (before : Traced) (op : StockOp) (after : Traced) : Prop where
  forgets : ∀ orderId lines, op = .reserve orderId lines →
    (before.ledger.reserve orderId lines).1.outcome = .reserved →
    ∀ forgotten, ((before.ledger.record orderId lines).reservations.get forgotten).isSome →
      after.ledger.reservations.get forgotten = none →
      ∀ other, ((before.ledger.record orderId lines).reservations.get other).isSome → other ≠ forgotten →
        ¬ after.reservedAt other < after.reservedAt forgotten
  fits : after.ledger.reservations.count ≤ reservationCapacity

/-- The order will be stored when `Reserve` has written the record of `orderId`. -/
def willBeStored (ledger : StockLedger) (orderId other : Guid) : Bool :=
  other = orderId ∨ (ledger.reservations.get other).isSome

/-- A `Reserve` that finds the ledger full trims the first order in the queue that is stored. No
stored order may have its last queue entry before the last entry of that one. -/
def TrimsFirstQueued (before : Traced) (op : StockOp) (_after : Traced) : Prop :=
  ∀ orderId lines, op = .reserve orderId lines →
    before.ledger.reservations.count = reservationCapacity →
      before.ledger.reservations.get orderId = none →
    checkLines before.ledger.available lines = none →
    ∀ first, (before.ledger.reservationOrder ++ [orderId]).find?
      (before.ledger.willBeStored orderId) = some first →
      ∀ other, before.ledger.willBeStored orderId other → other ≠ first →
        lastBefore (before.ledger.reservationOrder ++ [orderId]) other first = false

/-- No released order is reserved again while its record is stored. -/
def NoneReservedAgain (before : Traced) (op : StockOp) (_after : Traced) : Prop :=
  ∀ orderId lines, op = .reserve orderId lines → checkLines before.ledger.available lines = none →
    ∀ found, before.ledger.reservations.get orderId = some found → found.status = .reserved

/-! ## What one call can do -/

/-- Everything `Reserve` can do: leave the ledger alone, or record the order and trim. -/
theorem reserve_traced_cases (traced : Traced) (orderId : Guid) (lines : List ReservationLine) :
    ((traced.ledger.reserve orderId lines).1.outcome ≠ .reserved ∧
      ((traced.ledger.reservations.get orderId).isSome ∨
        checkLines traced.ledger.available lines ≠ none) ∧
      traced.reserve orderId lines = { traced with clock := traced.clock + 1 }) ∨
    ((traced.ledger.reserve orderId lines).1.outcome = .reserved ∧
      traced.ledger.reservedRecord orderId = none ∧ checkLines traced.ledger.available lines = none ∧
      traced.reserve orderId lines = ⟨(traced.ledger.record orderId lines).trimOldReservations,
        traced.clock + 1, Function.update traced.reservedAt orderId traced.clock⟩) := by
  obtain ⟨existing, hr, ho, he⟩ | ⟨refusal, hr, hc, ho, he⟩ | ⟨hr, hc, ho, he⟩ :=
    reserve_cases traced.ledger orderId lines
  · left
    have hstored := (reservedRecord_eq_some.1 hr).1
    simp [Traced.reserve, ho, he, hstored]
  · left
    obtain ⟨hout, _⟩ := checkLines_eq_some hc
    have hne : refusal.outcome ≠ .reserved := by rcases hout with h | h <;> simp [h]
    simp [Traced.reserve, ho, he, hc, hne]
  · right
    simp [Traced.reserve, ho, he, hc, hr]

/-- Releasing keeps the queue and the stored orders. -/
theorem release_traced_cases (traced : Traced) (orderId : Guid) :
    (traced.release orderId).ledger.reservationOrder = traced.ledger.reservationOrder ∧
    ((traced.release orderId).ledger.reservations = traced.ledger.reservations ∨
      ∃ old new, traced.ledger.reservations.get orderId = some old ∧
        (traced.release orderId).ledger.reservations = traced.ledger.reservations.set orderId new) := by
  obtain ⟨_, he⟩ | ⟨_, _, _, he⟩ | ⟨found, hf, he⟩ := release_cases traced.ledger orderId
  · simp [Traced.release, he]
  · simp [Traced.release, he]
  · simp only [Traced.release, he, true_and]
    exact .inr ⟨found, _, (reservedRecord_eq_some.1 hf).1, rfl⟩

/-! ## Every run -/

/-- The state of every run: each stored order is queued, the records fit, and the last queue entries
of the stored orders stand in the order of their last reservations. -/
structure Queued (traced : Traced) : Prop where
  covers : Covers reservationCapacity traced.ledger.reservationOrder traced.ledger.reservations
  ordered : ∀ a b, (traced.ledger.reservations.get a).isSome → (traced.ledger.reservations.get b).isSome →
    (lastBefore traced.ledger.reservationOrder a b ↔ traced.reservedAt a < traced.reservedAt b)
  past : ∀ orderId, (traced.ledger.reservations.get orderId).isSome →
    traced.reservedAt orderId < traced.clock

theorem queued_start (available : Dict String I32) : Queued (.start available) :=
  ⟨⟨fun _ _ h => by simp [Traced.start] at h, Nat.zero_le _⟩, by simp [Traced.start], by simp [Traced.start]⟩

namespace Queued

variable {traced : Traced}

theorem tick (h : Queued traced) : Queued { traced with clock := traced.clock + 1 } :=
  ⟨h.covers, h.ordered, fun orderId hs => Nat.lt_succ_of_lt (h.past orderId hs)⟩

theorem release (h : Queued traced) (orderId : Guid) : Queued (traced.release orderId) := by
  obtain ⟨hqueue, he | ⟨old, new, hold, he⟩⟩ := release_traced_cases traced orderId
  · refine ⟨?_, ?_, ?_⟩
    · rw [hqueue, he]; exact h.covers
    · rw [hqueue, he]; exact h.ordered
    · rw [he]; exact h.tick.past
  · have hstored : ∀ other, ((traced.ledger.reservations.set orderId new).get other).isSome →
        (traced.ledger.reservations.get other).isSome := by
      intro other hs
      rw [Dict.get_set] at hs
      split at hs
      · rename_i heq; rw [heq, hold]; rfl
      · exact hs
    refine ⟨?_, ?_, ?_⟩
    · rw [hqueue, he]; exact h.covers.overwrite new hold
    · rw [hqueue, he]
      exact fun a b ha hb => h.ordered a b (hstored a ha) (hstored b hb)
    · rw [he]
      exact fun other hs => h.tick.past other (hstored other hs)

/-- Right after the record is written, the last entries still stand in the order of the
reservations. -/
theorem recorded (h : Queued traced) (orderId : Guid) (lines : List ReservationLine) (a b : Guid)
    (ha : ((traced.ledger.record orderId lines).reservations.get a).isSome)
    (hb : ((traced.ledger.record orderId lines).reservations.get b).isSome) :
    lastBefore (traced.ledger.record orderId lines).reservationOrder a b ↔
      Function.update traced.reservedAt orderId traced.clock a <
        Function.update traced.reservedAt orderId traced.clock b := by
  simp only [record, Dict.get_set] at ha hb
  simp only [record]
  rw [lastBefore_concat]
  by_cases hao : a = orderId
  · subst hao
    by_cases hbo : b = a
    · simp [hbo]
    · simp only [hbo, if_false] at hb
      have := h.past b hb
      simp only [if_true, Function.update_self, Function.update_of_ne hbo]
      simp only [Bool.false_eq_true, false_iff]
      omega
  · simp only [hao, if_false] at ha
    by_cases hbo : b = orderId
    · subst hbo
      obtain ⟨record, hrecord⟩ := Option.isSome_iff_exists.1 ha
      have hqueued := h.covers.queued a record hrecord
      have := h.past a ha
      simp [hao, hqueued, this]
    · simp only [hbo, if_false] at hb
      simp only [hao, hbo, if_false, Function.update_of_ne hao, Function.update_of_ne hbo]
      exact h.ordered a b ha hb

end Queued

theorem willBeStored_eq (ledger : StockLedger) (orderId other : Guid) (lines : List ReservationLine) :
    ledger.willBeStored orderId other =
      ((ledger.record orderId lines).reservations.get other).isSome := by
  simp only [willBeStored, record, Dict.get_set]
  by_cases h : other = orderId <;> simp [h]

/-- What trimming does after a recording: nothing while the records fit; otherwise it dequeues up to
the first stored order, whose record goes. -/
theorem trim_cases {traced : Traced} (h : Queued traced) (orderId : Guid) (lines : List ReservationLine) :
    ((traced.ledger.record orderId lines).trimOldReservations = traced.ledger.record orderId lines ∧
      (traced.ledger.record orderId lines).reservations.count ≤ reservationCapacity ∧
      (traced.ledger.reservations.count < reservationCapacity ∨
        (traced.ledger.reservations.get orderId).isSome)) ∨
    (traced.ledger.reservations.count = reservationCapacity ∧
      traced.ledger.reservations.get orderId = none ∧
      ∃ skipped first rest,
        (traced.ledger.record orderId lines).reservationOrder = skipped ++ first :: rest ∧
        (∀ k ∈ skipped, (traced.ledger.record orderId lines).reservations.get k = none) ∧
        ((traced.ledger.record orderId lines).reservations.get first).isSome ∧
        (traced.ledger.record orderId lines).trimOldReservations.reservationOrder = rest ∧
        (traced.ledger.record orderId lines).trimOldReservations.reservations =
          (traced.ledger.record orderId lines).reservations.remove first) := by
  have hfits := h.covers.fits
  cases hget : traced.ledger.reservations.get orderId with
  | some old =>
    left
    have hcount : (traced.ledger.record orderId lines).reservations.count ≤ reservationCapacity := by
      simp only [record, Dict.count_set_old _ hget]
      exact hfits
    exact ⟨trim_of_count_le hcount, hcount, .inr rfl⟩
  | none =>
    have hcount : (traced.ledger.record orderId lines).reservations.count =
        traced.ledger.reservations.count + 1 := Dict.count_set_new _ hget
    by_cases hroom : traced.ledger.reservations.count < reservationCapacity
    · left
      exact ⟨trim_of_count_le (by omega), by omega, .inl hroom⟩
    · right
      have hone : (traced.ledger.record orderId lines).reservations.count =
        reservationCapacity + 1 := by omega
      obtain ⟨skipped, first, rest, hq, hskipped, hfirst, he, _⟩ :=
        evict_one (fun k v hk => h.covers.enqueue hk) hone
      refine ⟨by omega, rfl, skipped, first, rest, hq, hskipped, hfirst, ?_, ?_⟩
      · simp only [trimOldReservations]
        exact congrArg (·.1) he
      · simp only [trimOldReservations]
        exact congrArg (·.2) he

namespace Queued

variable {traced : Traced}

theorem reserve (h : Queued traced) (orderId : Guid) (lines : List ReservationLine) :
    Queued (traced.reserve orderId lines) := by
  obtain ⟨_, _, he⟩ | ⟨_, _, _, he⟩ := reserve_traced_cases traced orderId lines
  · rw [he]; exact h.tick
  · rw [he]
    have hcovers : Covers reservationCapacity
      (traced.ledger.record orderId lines).trimOldReservations.reservationOrder
        (traced.ledger.record orderId lines).trimOldReservations.reservations := covers_evict _ h.covers
    have hpast : ∀ other, ((traced.ledger.record orderId lines).reservations.get other).isSome →
        Function.update traced.reservedAt orderId traced.clock other < traced.clock + 1 := by
      intro other hs
      by_cases ho : other = orderId
      · rw [ho, Function.update_self]; omega
      · simp only [record, Dict.get_set, ho, if_false] at hs
        rw [Function.update_of_ne ho]
        exact Nat.lt_succ_of_lt (h.past other hs)
    obtain ⟨hkept, _, _⟩ | ⟨_, _, skipped, first, rest, hq, hskipped, _, hrest, hremoved⟩ :=
      trim_cases h orderId lines
    · rw [hkept] at hcovers ⊢
      exact ⟨hcovers, h.recorded orderId lines, hpast⟩
    · have hstored : ∀ other,
          ((traced.ledger.record orderId lines).trimOldReservations.reservations.get other).isSome →
          other ≠ first ∧ ((traced.ledger.record orderId lines).reservations.get other).isSome := by
        intro other hs
        rw [hremoved, Dict.get_remove] at hs
        split at hs
        · cases hs
        · rename_i hne
          exact ⟨hne, hs⟩
      refine ⟨hcovers, ?_, fun other hs => hpast other (hstored other hs).2⟩
      intro a b ha hb
      obtain ⟨hafirst, ha⟩ := hstored a ha
      obtain ⟨_, hb⟩ := hstored b hb
      have hfront : a ∉ skipped ++ [first] := by
        simp only [List.mem_append, List.mem_singleton, not_or]
        refine ⟨fun hmem => ?_, hafirst⟩
        rw [hskipped a hmem] at ha
        cases ha
      rw [← h.recorded orderId lines a b ha hb, hrest, hq]
      rw [List.append_cons, lastBefore_append hfront]

end Queued

theorem queued_step {before after : Traced} {op : StockOp} (h : Queued before)
    (hs : tracedMachine.step before op = some after) : Queued after := by
  cases op with
  | reserve orderId lines => cases hs; exact h.reserve orderId lines
  | release orderId => cases hs; exact h.release orderId

/-- **At most `ReservationCapacity` records are stored after every call.** -/
theorem fits_always {available : Dict String I32} {ops : List StockOp} {traced : Traced}
    (h : tracedMachine.run (.start available) ops = some traced) :
    traced.ledger.reservations.count ≤ reservationCapacity :=
  (Machine.run_inv (fun _ _ _ => queued_step) (queued_start available) h).covers.fits

theorem find_first {ledger : StockLedger} {orderId first : Guid} {lines : List ReservationLine}
    {skipped rest : List Guid}
    (hq : (ledger.record orderId lines).reservationOrder = skipped ++ first :: rest)
    (hskipped : ∀ k ∈ skipped, (ledger.record orderId lines).reservations.get k = none)
    (hfirst : ((ledger.record orderId lines).reservations.get first).isSome) :
    (ledger.reservationOrder ++ [orderId]).find? (ledger.willBeStored orderId) = some first := by
  have hqueue : ledger.reservationOrder ++ [orderId] = skipped ++ first :: rest := hq
  have hnone : skipped.find? (ledger.willBeStored orderId) = none := by
    rw [List.find?_eq_none]
    intro k hk
    rw [willBeStored_eq ledger orderId k lines, hskipped k hk]
    simp
  have hsome : ledger.willBeStored orderId first = true := by
    rw [willBeStored_eq ledger orderId first lines, hfirst]
  rw [hqueue, List.find?_append, hnone, List.find?_cons_of_pos hsome]
  rfl

/-- A step trims the oldest reservation exactly when the first stored order in the queue has its last
entry before those of all others. -/
theorem trimsFirstQueued_iff {before after : Traced} {op : StockOp} (h : Queued before)
    (hs : tracedMachine.step before op = some after) :
    TrimsFirstQueued before op after ↔ ForgetsOldest before op after := by
  constructor
  · intro hfirst
    refine ⟨?_, (queued_step h hs).covers.fits⟩
    rintro orderId lines rfl hreserved forgotten hforgotten hgone other hother hne
    cases hs
    obtain ⟨hrefused, _⟩ | ⟨_, _, hchecked, he⟩ := reserve_traced_cases before orderId lines
    · exact absurd hreserved hrefused
    · rw [he] at hgone ⊢
      obtain ⟨hkept, _⟩ | ⟨hfull, hnew, skipped, first, rest, hq, hskipped, hstored, _, hremoved⟩ :=
        trim_cases h orderId lines
      · rw [hkept] at hgone
        rw [hgone] at hforgotten
        cases hforgotten
      · have heq : forgotten = first := by
          by_contra hkept
          rw [hremoved, Dict.get_remove, if_neg hkept] at hgone
          rw [hgone] at hforgotten
          cases hforgotten
        subst heq
        have hlast := hfirst orderId lines rfl hfull hnew hchecked forgotten
          (find_first hq hskipped hstored)
          other (by rw [willBeStored_eq _ _ _ lines]; exact hother) hne
        have hordered := h.recorded orderId lines other forgotten hother hforgotten
        intro hearlier
        have := hordered.2 hearlier
        simp only [record] at this
        rw [hlast] at this
        cases this
  · rintro ⟨hforgets, _⟩ orderId lines rfl hfull hnew hchecked first hfound other hother hne
    cases hs
    obtain ⟨_, hrefused, _⟩ | ⟨hreserved, _, _, he⟩ := reserve_traced_cases before orderId lines
    · rcases hrefused with hstored | hrefusal
      · rw [hnew] at hstored; cases hstored
      · exact absurd hchecked hrefusal
    · obtain ⟨_, _, hroom⟩ | ⟨_, _, skipped, oldest, rest, hq, hskipped, hstored, _, hremoved⟩ :=
        trim_cases h orderId lines
      · rcases hroom with hroom | hstored
        · omega
        · rw [hnew] at hstored; cases hstored
      · rw [find_first hq hskipped hstored] at hfound
        cases hfound
        rw [willBeStored_eq _ _ _ lines] at hother
        have hgone : (before.reserve orderId lines).ledger.reservations.get first = none := by
          rw [he]
          show (before.ledger.record orderId lines).trimOldReservations.reservations.get first = none
          rw [hremoved, Dict.get_remove, if_pos rfl]
        have hnot := hforgets orderId lines rfl hreserved first hstored hgone other hother hne
        rw [he] at hnot
        have hordered := h.recorded orderId lines other first hother hstored
        cases hlast : lastBefore (before.ledger.reservationOrder ++ [orderId]) other first with
        | false => rfl
        | true => exact absurd (hordered.1 hlast) hnot

/-! ## Runs in which no released order is reserved again -/

/-- In such runs the queue holds exactly the stored orders. -/
theorem bounded_step {before after : Traced} {op : StockOp}
    (h : Bounded reservationCapacity before.ledger.reservationOrder before.ledger.reservations)
    (hs : tracedMachine.step before op = some after) (hop : NoneReservedAgain before op after) :
    TrimsFirstQueued before op after ∧
    Bounded reservationCapacity after.ledger.reservationOrder after.ledger.reservations := by
  cases op with
  | release orderId =>
    cases hs
    refine ⟨fun _ _ hop => (nomatch hop), ?_⟩
    obtain ⟨hqueue, he | ⟨old, new, hold, he⟩⟩ := release_traced_cases before orderId
    · rw [hqueue, he]; exact h
    · rw [hqueue, he]; exact bounded_overwrite new h hold
  | reserve orderId lines =>
    cases hs
    constructor
    · rintro orderId' lines' hsame hfull hnew _ first hfound other _ hne
      cases hsame
      have hnodup := h.queued.nodup_iff.2 before.ledger.reservations.keys_nodup
      cases hq : before.ledger.reservationOrder with
      | nil =>
        have := h.queued.length_eq
        rw [hq] at this
        have hzero : before.ledger.reservations.count = 0 := this.symm
        rw [hfull] at hzero
        cases hzero
      | cons oldest rest =>
        rw [hq] at hfound hnodup
        have holdest : before.ledger.willBeStored orderId oldest = true := by
          have hmem : oldest ∈ before.ledger.reservations.keys :=
            h.queued.subset (by rw [hq]; exact List.mem_cons_self)
          simp [willBeStored, Dict.isSome_get.2 hmem]
        rw [List.cons_append, List.find?_cons_of_pos holdest] at hfound
        cases hfound
        cases hlast : lastBefore (first :: rest ++ [orderId]) other first with
        | false => rfl
        | true =>
          rw [List.cons_append, show first :: (rest ++ [orderId]) = [first] ++ (rest ++ [orderId]) from rfl,
            lastBefore_append (by simpa using hne)] at hlast
          have hagain := (mem_of_lastBefore hlast).2
          rcases List.mem_append.1 hagain with hmem | hmem
          · exact absurd hmem (List.nodup_cons.1 hnodup).1
          · rw [List.mem_singleton] at hmem
            have hstored : first ∈ before.ledger.reservations.keys :=
              h.queued.subset (by rw [hq]; exact List.mem_cons_self)
            rw [hmem] at hstored
            exact absurd hstored (Dict.get_eq_none.1 hnew)
    · obtain ⟨_, _, he⟩ | ⟨_, hfree, hchecked, he⟩ := reserve_traced_cases before orderId lines
      · rw [he]; exact h
      · have hnew : before.ledger.reservations.get orderId = none := by
          cases hget : before.ledger.reservations.get orderId with
          | none => rfl
          | some found =>
            have hreserved := hop orderId lines rfl hchecked found hget
            rw [reservedRecord_eq_none.1 hfree found hget] at hreserved
            cases hreserved
        rw [he]
        exact (bounded_insert _ h (by decide) hnew).1

/-- **Exactly when the oldest reservations are forgotten first**: a run trims no reservation made
after that of another stored order if and only if, whenever it trims, the first stored order in the
queue has its last entry before all others. So it is in every run that reserves no released order
again while its record is stored. -/
theorem forgets_oldest_iff (available : Dict String I32) (ops : List StockOp) :
    (tracedMachine.Along ForgetsOldest (.start available) ops ↔
      tracedMachine.Along TrimsFirstQueued (.start available) ops) ∧
    (tracedMachine.Along NoneReservedAgain (.start available) ops →
      tracedMachine.Along ForgetsOldest (.start available) ops) := by
  have hiff : tracedMachine.Along TrimsFirstQueued (.start available) ops ↔
      tracedMachine.Along ForgetsOldest (.start available) ops :=
    Machine.along_iff (I := Queued) (fun _ _ _ h hs => trimsFirstQueued_iff h hs)
      (fun _ _ _ h hs _ => queued_step h hs) (queued_start available)
  refine ⟨hiff.symm, fun hnone => hiff.1 ?_⟩
  exact Machine.along_of_inv
    (I := fun traced => Bounded reservationCapacity traced.ledger.reservationOrder traced.ledger.reservations)
    (fun _ _ _ h hs hop => bounded_step h hs hop) ⟨List.Perm.refl _, Nat.zero_le _⟩ hnone

/-! ## Filling the ledger -/

def oneLine : List ReservationLine := [⟨"SKU-1001", 1⟩]

/-- Accepting one more order while there is room. -/
theorem reserve_room {traced : Traced} {orderId : Guid} {stock : I32}
    (hnew : traced.ledger.reservations.get orderId = none)
    (hroom : traced.ledger.reservations.count < reservationCapacity)
    (hstock : traced.ledger.available.get "SKU-1001" = some stock) (hleft : 1 ≤ stock.toInt) :
    traced.reserve orderId oneLine = ⟨traced.ledger.record orderId oneLine, traced.clock + 1,
        Function.update traced.reservedAt orderId traced.clock⟩ ∧
    ∃ stock', (traced.ledger.record orderId oneLine).available.get "SKU-1001" = some stock' ∧
      stock'.toInt = stock.toInt - 1 := by
  have hchecked : checkLines traced.ledger.available oneLine = none := by
    rw [checkLines_eq_none]
    intro line hline
    rw [List.mem_singleton.1 hline]
    exact ⟨stock, hstock, hleft⟩
  constructor
  · obtain ⟨_, hrefused | hrefused, _⟩ | ⟨_, _, _, he⟩ := reserve_traced_cases traced orderId oneLine
    · rw [hnew] at hrefused; cases hrefused
    · exact absurd hchecked hrefused
    · rw [he, trim_of_count_le]
      have := Dict.count_set_new (d := traced.ledger.reservations) ⟨orderId, oneLine, .reserved⟩ hnew
      simp only [record]
      omega
  · refine ⟨stock - 1, ?_, ?_⟩
    · simp [record, get_takeLines, hstock, oneLine]
    · have hbounds := I32.toInt_bounds stock
      have hone : (1 : I32).toInt = 1 := by decide
      rw [I32.toInt_sub] <;> rw [hone]
      simp only [I32.minValue, I32.maxValue] at *
      omega

/-- Any number of new orders is recorded behind the others while there is room and stock. -/
theorem reserve_many {traced : Traced} {ids : List Guid} {stock : I32} (hnodup : ids.Nodup)
    (hnew : ∀ id ∈ ids, traced.ledger.reservations.get id = none)
    (hroom : traced.ledger.reservations.count + ids.length ≤ reservationCapacity)
    (hstock : traced.ledger.available.get "SKU-1001" = some stock) (hleft : ids.length ≤ stock.toInt) :
    ∃ traced' stock', tracedMachine.run traced (ids.map (StockOp.reserve · oneLine)) = some traced' ∧
      traced'.ledger.reservationOrder = traced.ledger.reservationOrder ++ ids ∧
      traced'.ledger.reservations.count = traced.ledger.reservations.count + ids.length ∧
      traced'.ledger.available.get "SKU-1001" = some stock' ∧ stock'.toInt = stock.toInt - ids.length ∧
      ∀ id ∉ ids, traced'.ledger.reservations.get id = traced.ledger.reservations.get id ∧
        traced'.reservedAt id = traced.reservedAt id := by
  induction ids generalizing traced stock with
  | nil => exact ⟨traced, stock, rfl, by simp, by simp, hstock, by simp, fun _ _ => ⟨rfl, rfl⟩⟩
  | cons id ids ih =>
    obtain ⟨hid, hnodup⟩ := List.nodup_cons.1 hnodup
    simp only [List.length_cons] at hroom hleft
    have hidnew := hnew id List.mem_cons_self
    obtain ⟨he, next, hnext, hvalue⟩ := reserve_room hidnew (by omega) hstock (by omega)
    have hcount : (traced.ledger.record id oneLine).reservations.count =
        traced.ledger.reservations.count + 1 := Dict.count_set_new _ hidnew
    have hget : ∀ other, other ≠ id → (traced.ledger.record id oneLine).reservations.get other =
        traced.ledger.reservations.get other := by
      intro other hne
      simp [record, hne]
    obtain ⟨traced', stock', hrun, hqueue, hcount', hstock', hvalue', hsame⟩ :=
      @ih (traced.reserve id oneLine) next hnodup
        (by
          intro other hother
          rw [he, hget other (by rintro rfl; exact hid hother)]
          exact hnew other (List.mem_cons_of_mem _ hother))
        (by rw [he, hcount]; omega) (by rw [he]; exact hnext) (by omega)
    refine ⟨traced', stock', ?_, ?_, ?_, hstock', ?_, ?_⟩
    · simpa [Machine.run, tracedMachine] using hrun
    · rw [hqueue, he]
      simp [record]
    · rw [hcount', he, hcount, List.length_cons]
      omega
    · rw [hvalue', hvalue, List.length_cons]
      omega
    · intro other hother
      obtain ⟨hne, hother⟩ := not_or.1 (mt List.mem_cons.2 hother)
      obtain ⟨hrecords, htime⟩ := hsame other hother
      rw [hrecords, htime, he, hget other hne]
      exact ⟨rfl, Function.update_of_ne hne _ _⟩

/-- The order that a call reserves. -/
def reservedOrder : StockOp → Option Guid
  | .reserve orderId _ => some orderId
  | .release _ => none

/-- Only its own reservation gives an order a record. -/
theorem get_none_step {before after : Traced} {op : StockOp} {orderId : Guid} (hother : reservedOrder op ≠ some orderId)
    (hnone : before.ledger.reservations.get orderId = none) (hs : tracedMachine.step before op = some after) :
    after.ledger.reservations.get orderId = none := by
  cases op with
  | reserve reserving lines =>
    cases hs
    obtain ⟨_, _, he⟩ | ⟨_, _, _, he⟩ := reserve_traced_cases before reserving lines
    · rw [he]; exact hnone
    · have hne : orderId ≠ reserving := fun heq => hother (congrArg some heq.symm)
      rw [he, Option.eq_none_iff_forall_ne_some]
      intro found hfound
      have hrecorded := get_trim hfound
      simp only [record, Dict.get_set, hne, if_false, hnone] at hrecorded
      cases hrecorded
  | release released =>
    cases hs
    obtain ⟨-, he | ⟨old, new, hold, he⟩⟩ := release_traced_cases before released
    · rw [he]; exact hnone
    · have hne : orderId ≠ released := by
        rintro rfl
        rw [hnone] at hold
        cases hold
      rw [he, Dict.get_set, if_neg hne, hnone]

/-- A run that reserves each order once reserves none again. -/
theorem noneReservedAgain_of_nodup {traced : Traced} {ops : List StockOp} (hnodup : (ops.filterMap reservedOrder).Nodup)
    (hnew : ∀ orderId ∈ ops.filterMap reservedOrder, traced.ledger.reservations.get orderId = none) :
    tracedMachine.Along NoneReservedAgain traced ops := by
  induction ops generalizing traced with
  | nil => trivial
  | cons op ops ih =>
    simp only [Machine.Along]
    split
    · trivial
    · rename_i after hs
      refine ⟨?_, ?_⟩
      · rintro orderId lines rfl - found hget
        rw [hnew orderId (by simp [reservedOrder])] at hget
        cases hget
      · cases op with
        | reserve orderId lines =>
          simp only [List.filterMap_cons, reservedOrder] at hnodup hnew
          obtain ⟨hnot, hnodup⟩ := List.nodup_cons.1 hnodup
          refine ih hnodup fun other hother => get_none_step ?_ (hnew other (List.mem_cons_of_mem _ hother)) hs
          rintro ⟨⟩
          exact hnot hother
        | release orderId =>
          simp only [List.filterMap_cons, reservedOrder] at hnodup hnew
          exact ih hnodup fun other hother => get_none_step (by simp [reservedOrder]) (hnew other hother) hs

/-- The orders that fill the ledger. -/
def fillingOrders : List Guid := (List.range 49998).map fun n => BitVec.ofNat 128 (n + 3)

theorem fillingOrders_nodup : fillingOrders.Nodup := by
  refine List.Nodup.map_on ?_ List.nodup_range
  intro n hn k hk he
  rw [List.mem_range] at hn hk
  have := congrArg BitVec.toNat he
  simp only [BitVec.toNat_ofNat] at this
  omega

theorem length_fillingOrders : fillingOrders.length = 49998 := by simp [fillingOrders]

theorem ne_of_mem_fillingOrders {id : Guid} (h : id ∈ fillingOrders) : id ≠ 1 ∧ id ≠ 2 ∧ id ≠ 50001 := by
  obtain ⟨n, hn, rfl⟩ := List.mem_map.1 h
  rw [List.mem_range] at hn
  refine ⟨?_, ?_, ?_⟩ <;>
  · intro he
    have := congrArg BitVec.toNat he
    simp only [BitVec.ofNat_eq_ofNat, BitVec.toNat_ofNat] at this
    omega

/-- 49998 further orders fill a ledger that has the orders 1 and 2. -/
theorem reserve_fills {traced : Traced} {ids : List Guid} {stock : I32} (hnodup : ids.Nodup)
    (hlength : ids.length = 49998)
    (hother : ∀ id ∈ ids, id ≠ 1 ∧ id ≠ 2 ∧ id ≠ 50001) (hkeys : traced.ledger.reservations.keys.Perm [1, 2])
    (hstock : traced.ledger.available.get "SKU-1001" = some stock) (hleft : 50000 ≤ stock.toInt) :
    ∃ full, tracedMachine.run traced (ids.map (StockOp.reserve · oneLine)) = some full ∧
      full.ledger.reservationOrder = traced.ledger.reservationOrder ++ ids ∧
      full.ledger.reservations.count = reservationCapacity ∧ checkLines full.ledger.available oneLine = none ∧
      (∀ id, id = 1 ∨ id = 2 → (full.ledger.reservations.get id).isSome) ∧ full.ledger.reservations.get 50001 = none := by
  have hmem : ∀ id, id ∈ traced.ledger.reservations.keys ↔ id = 1 ∨ id = 2 := fun id => by
    rw [hkeys.mem_iff, List.mem_pair]
  have hcount : traced.ledger.reservations.count = 2 := by
    rw [Dict.count, hkeys.length_eq]
    rfl
  have hnew : ∀ id, id ≠ 1 → id ≠ 2 → traced.ledger.reservations.get id = none := by
    intro id h1 h2
    rw [Dict.get_eq_none, hmem, not_or]
    exact ⟨h1, h2⟩
  obtain ⟨full, stock', hfill, hqueue, hcount', hstock', hvalue, hsame⟩ :=
    reserve_many hnodup (fun id hid => hnew id (hother id hid).1 (hother id hid).2.1)
      (by rw [hcount, hlength]; decide) hstock (by omega)
  refine ⟨full, hfill, hqueue, ?_, ?_, ?_, ?_⟩
  · rw [hcount', hcount, hlength, reservationCapacity]
  · rw [checkLines_eq_none]
    intro line hline
    rw [List.mem_singleton.1 hline]
    refine ⟨stock', hstock', ?_⟩
    have hone : (1 : I32).toInt = 1 := by decide
    rw [hvalue, hlength]
    simp only [hone]
    omega
  · intro id hid
    have houtside : id ∉ ids := by
      intro hin
      obtain ⟨h1, h2, _⟩ := hother id hin
      tauto
    rw [(hsame id houtside).1, Dict.isSome_get, hmem]
    exact hid
  · rw [(hsame 50001 fun hin => (hother 50001 hin).2.2 rfl).1]
    exact hnew 50001 (by decide) (by decide)

/-- Order 1 is reserved and released, then others come. -/
def fillingRun (ids : List Guid) : List StockOp :=
  [.reserve 1 oneLine, .release 1, .reserve 2 oneLine] ++ ids.map (StockOp.reserve · oneLine)

theorem fillingRun_fills : ∃ full, tracedMachine.run (.start (Dict.set ∅ "SKU-1001" 1000000))
      (fillingRun fillingOrders) = some full ∧
    full.ledger.reservationOrder = 1 :: 2 :: fillingOrders ∧ checkLines full.ledger.available oneLine = none ∧
    full.ledger.reservations.count = reservationCapacity ∧
    (full.ledger.reservations.get 1).isSome ∧ full.ledger.reservations.get 50001 = none := by
  obtain ⟨traced, hrun, hqueue, hkeys, hstock⟩ : ∃ traced,
      tracedMachine.run (.start (Dict.set ∅ "SKU-1001" 1000000)) [.reserve 1 oneLine, .release 1, .reserve 2 oneLine] =
        some traced ∧
      traced.ledger.reservationOrder = [1, 2] ∧ traced.ledger.reservations.keys = [2, 1] ∧
      traced.ledger.available.get "SKU-1001" = some 999999 := by
    refine ⟨_, rfl, ?_, ?_, ?_⟩ <;> decide
  obtain ⟨full, hfill, hqueue', hcount, hchecked, hstored, hlast⟩ :=
    reserve_fills fillingOrders_nodup length_fillingOrders (fun _ => ne_of_mem_fillingOrders)
      (hkeys ▸ List.Perm.swap 1 2 []) hstock (by decide)
  refine ⟨full, ?_, by rw [hqueue', hqueue, List.cons_append, List.singleton_append], hchecked, hcount,
    hstored 1 (.inl rfl), hlast⟩
  rw [fillingRun, Machine.run_append, hrun, Option.bind_some, hfill]

/-- In the full ledger the next order takes the place of order 1. -/
theorem fillingRun_forgets : ∃ full after,
    tracedMachine.run (.start (Dict.set ∅ "SKU-1001" 1000000))
      (fillingRun fillingOrders) = some full ∧
    tracedMachine.step full (.reserve 50001 oneLine) = some after ∧
    (full.ledger.reservations.get 1).isSome ∧ after.ledger.reservations.get 1 = none := by
  obtain ⟨full, hrun, hqueue, hchecked, hcount, hfirst, hlast⟩ := fillingRun_fills
  refine ⟨full, _, hrun, rfl, hfirst, ?_⟩
  have hqueued : Queued full := Machine.run_inv (fun _ _ _ => queued_step) (queued_start _) hrun
  obtain ⟨_, hrefused | hrefused, _⟩ | ⟨_, _, _, he⟩ := reserve_traced_cases full 50001 oneLine
  · rw [hlast] at hrefused; cases hrefused
  · exact absurd hchecked hrefused
  rw [he]
  obtain ⟨_, _, hroom | hroom⟩ | ⟨_, _, skipped, first, rest, hq, hskipped, hsome, _, hremoved⟩ :=
    trim_cases hqueued 50001 oneLine
  · omega
  · rw [hlast] at hroom; cases hroom
  · have hstored : ((full.ledger.record 50001 oneLine).reservations.get 1).isSome := by
      simpa [record] using hfirst
    have hqueue' : (full.ledger.record 50001 oneLine).reservationOrder = 1 :: (2 :: fillingOrders ++ [50001]) := by
      simp [record, hqueue]
    -- nothing is skipped: order 1 heads the queue and is stored
    have hone : first = 1 := by
      rw [hqueue'] at hq
      cases skipped with
      | nil => exact (List.cons.inj hq).1.symm
      | cons k skipped =>
        obtain ⟨rfl, -⟩ := List.cons.inj hq
        rw [hskipped 1 List.mem_cons_self] at hstored
        cases hstored
    rw [hremoved, hone, Dict.get_remove, if_pos rfl]

theorem fillingRun_orders (ids : List Guid) :
    (fillingRun ids ++ [StockOp.reserve 50001 oneLine]).filterMap reservedOrder = 1 :: 2 :: (ids ++ [50001]) := by
  simp [fillingRun, reservedOrder, List.filterMap_cons, List.filterMap_map, Function.comp_def]

theorem fillingRun_reservesOnce : (1 :: 2 :: (fillingOrders ++ [50001])).Nodup := by
  have hlast : (fillingOrders ++ [50001]).Nodup := fillingOrders_nodup.append (List.nodup_singleton _)
    (List.disjoint_singleton.2 fun h => (ne_of_mem_fillingOrders h).2.2 rfl)
  refine List.nodup_cons.2 ⟨fun h => ?_, List.nodup_cons.2 ⟨fun h => ?_, hlast⟩⟩
  · obtain h | h := List.mem_cons.1 h
    · exact absurd h (by decide)
    · obtain h | h := List.mem_append.1 h
      · exact (ne_of_mem_fillingOrders h).1 rfl
      · exact absurd (List.mem_singleton.1 h) (by decide)
  · obtain h | h := List.mem_append.1 h
    · exact (ne_of_mem_fillingOrders h).2.1 rfl
    · exact absurd (List.mem_singleton.1 h) (by decide)

theorem forgets_oldest_full_ledger :
    tracedMachine.Along ForgetsOldest (.start (Dict.set ∅ "SKU-1001" 1000000))
      (fillingRun fillingOrders ++ [.reserve 50001 oneLine]) ∧
    ∃ full after, tracedMachine.run (.start (Dict.set ∅ "SKU-1001" 1000000))
      (fillingRun fillingOrders) = some full ∧
      tracedMachine.step full (.reserve 50001 oneLine) = some after ∧
      (full.ledger.reservations.get 1).isSome ∧ after.ledger.reservations.get 1 = none :=
  ⟨(forgets_oldest_iff _ _).2
      (noneReservedAgain_of_nodup (fillingRun_orders fillingOrders ▸ fillingRun_reservesOnce) fun _ _ => rfl),
    fillingRun_forgets⟩

/-! ## A reservation that is forgotten too early -/

/-- Order 1 is reserved, released and reserved again after order 2. -/
def reservedAgain : List StockOp :=
  [.reserve 1 oneLine, .release 1, .reserve 2 oneLine, .reserve 1 oneLine]

theorem reservedAgain_run :
    ∃ traced, tracedMachine.run (.start (Dict.set ∅ "SKU-1001" 1000000)) reservedAgain
      = some traced ∧
    traced.ledger.reservationOrder = [1, 2, 1] ∧ traced.ledger.reservations.keys = [1, 2] ∧
    traced.ledger.available.get "SKU-1001" = some 999998 := by
  refine ⟨_, rfl, ?_, ?_, ?_⟩ <;> decide

/-- Once 49998 further orders fill the ledger, the next one makes it trim: the old queue entry of
order 1 costs it its newer reservation, and order 2 stays. -/
theorem reservedAgain_forgotten {ids : List Guid} (hnodup : ids.Nodup) (hlength : ids.length = 49998)
    (hother : ∀ id ∈ ids, id ≠ 1 ∧ id ≠ 2 ∧ id ≠ 50001) :
    ¬ tracedMachine.Along ForgetsOldest (.start (Dict.set ∅ "SKU-1001" 1000000))
      (reservedAgain ++ ids.map (StockOp.reserve · oneLine) ++ [.reserve 50001 oneLine]) := by
  intro h
  obtain ⟨traced, hrun, hqueue, hkeys, hstock⟩ := reservedAgain_run
  obtain ⟨full, hfill, hqueue', hcount, hchecked, hstored, hlast⟩ :=
    reserve_fills hnodup hlength hother (hkeys ▸ List.Perm.refl _) hstock (by decide)
  have hall : tracedMachine.run (.start (Dict.set ∅ "SKU-1001" 1000000))
      (reservedAgain ++ ids.map (StockOp.reserve · oneLine)) = some full := by
    rw [Machine.run_append, hrun]
    exact hfill
  have hqueued : Queued full := Machine.run_inv (fun _ _ _ => queued_step) (queued_start _) hall
  have htrims := (trimsFirstQueued_iff hqueued rfl).2 (Machine.along_of_append h hall).1
  have hwill : ∀ id, id = 1 ∨ id = 2 → full.ledger.willBeStored 50001 id = true := by
    intro id hid
    simp [willBeStored, hstored id hid]
  have hfalse := htrims 50001 oneLine rfl hcount hlast hchecked 1
    (by rw [hqueue', hqueue]; exact List.find?_cons_of_pos (hwill 1 (.inl rfl))) 2
      (hwill 2 (.inr rfl)) (by decide)
  have hbehind : (2 : Guid) ∉ (1 : Guid) :: (ids ++ [50001]) := by
    intro hmem
    rcases List.mem_cons.1 hmem with he | hmem
    · exact absurd he (by decide)
    · rcases List.mem_append.1 hmem with hmem | hmem
      · exact (hother 2 hmem).2.1 rfl
      · exact absurd (List.mem_singleton.1 hmem) (by decide)
  have htrue : lastBefore (full.ledger.reservationOrder ++ [50001]) 2 1 = true := by
    rw [hqueue', hqueue, List.append_assoc]
    show lastBefore (1 :: 2 :: 1 :: (ids ++ [50001])) 2 1 = true
    rw [lastBefore, if_pos List.mem_cons_self, lastBefore, if_neg hbehind]
    simp
  rw [hfalse] at htrue
  cases htrue

/-- Order 1 is reserved, released, and reserved again after order 2; the 50001st order to come costs
it its record. -/
theorem rereserved_order_forgotten_first :
    ¬ tracedMachine.Along ForgetsOldest (.start (Dict.set ∅ "SKU-1001" 1000000))
      (reservedAgain ++ fillingOrders.map (StockOp.reserve · oneLine) ++ [.reserve 50001 oneLine]) :=
  reservedAgain_forgotten fillingOrders_nodup length_fillingOrders fun _ => ne_of_mem_fillingOrders

end StockLedger

end TxPlatform
