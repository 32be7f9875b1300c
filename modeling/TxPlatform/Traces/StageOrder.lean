import TxPlatform.Traces.Trace

/-! # The order of the stages (tracechecks.py:27-33, 106-127)

`single` finds a stage that occurs exactly once; a repeated stage is to it what a missing one is.
For inventory and fraud that is a problem of its own, for payment and shipping it ends the
comparison. `overlooked_iff` says what a verdict without problems therefore leaves open.
-/

namespace TxPlatform

namespace Traces

def stages : List String := ["inventory.reserve", "fraud.evaluate", "payment.authorize", "shipping.create"]
def compensationStages : List String := ["compensation.payment.void", "compensation.inventory.release"]

/-- `_single`. -/
def single (trace : Trace) (name : String) : Option Span :=
  match trace.named name with
  | [span] => some span
  | _ => none

/-- `max((s.end_unix_nano for name in STAGES for s in trace.named(name)), default=0)`. -/
def lastBusinessEnd (trace : Trace) : Int :=
  match (stages.flatMap trace.named).map (·.endUnixNano) with
  | [] => 0
  | first :: rest => rest.foldl max first

def paymentProblems (payment : Option Span) (fanOutEnd : Int) : List String :=
  match payment with
  | some payment =>
    if payment.startUnixNano < fanOutEnd then
      ["payment.authorize started before both parallel checks finished"] else []
  | none => []

def shippingProblems (shipping payment : Option Span) : List String :=
  match shipping, payment with
  | some shipping, some payment =>
    if shipping.startUnixNano < payment.endUnixNano then
      ["shipping.create started before payment.authorize finished"] else []
  | _, _ => []

def compensationProblems (trace : Trace) : List String :=
  compensationStages.flatMap fun name => (trace.named name).flatMap fun span =>
    if span.startUnixNano < lastBusinessEnd trace then
      [s!"{name} started before the failing stage finished"] else []

def stageOrder (trace : Trace) : List String :=
  match single trace "inventory.reserve", single trace "fraud.evaluate" with
  | some inventory, some fraud =>
    let payment := single trace "payment.authorize"
    let shipping := single trace "shipping.create"
    (if inventory.overlaps fraud then []
      else ["inventory.reserve and fraud.evaluate did not overlap in time"]) ++
    paymentProblems payment (max inventory.endUnixNano fraud.endUnixNano) ++
    shippingProblems shipping payment ++ compensationProblems trace
  | _, _ => ["inventory.reserve and fraud.evaluate must each appear exactly once"]

/-! ## What the checks say -/

theorem single_eq_some {trace : Trace} {name : String} {span : Span} :
    single trace name = some span ↔ trace.named name = [span] := by
  unfold single
  split
  · rename_i found hnamed
    simp [hnamed]
  · rename_i hmany
    simp only [reduceCtorEq, false_iff]
    exact hmany span

theorem foldl_max_le {ends : List Int} {first bound : Int} :
    ends.foldl max first ≤ bound ↔ first ≤ bound ∧ ∀ e ∈ ends, e ≤ bound := by
  induction ends generalizing first with
  | nil => simp
  | cons e ends ih => simp only [List.foldl_cons, ih, Int.max_le, List.forall_mem_cons, and_assoc]

/-- No business stage ends after the bound, if there is one at all. -/
theorem lastBusinessEnd_le {trace : Trace} {bound : Int} (h : stages.flatMap trace.named ≠ []) :
    lastBusinessEnd trace ≤ bound ↔ ∀ name ∈ stages, ∀ span ∈ trace.named name, span.endUnixNano ≤ bound := by
  have hmem : (∀ e ∈ (stages.flatMap trace.named).map (·.endUnixNano), e ≤ bound) ↔
      ∀ name ∈ stages, ∀ span ∈ trace.named name, span.endUnixNano ≤ bound := by
    simp only [List.mem_map, List.mem_flatMap]
    constructor
    · intro hall name hname span hspan
      exact hall _ ⟨span, ⟨name, hname, hspan⟩, rfl⟩
    · rintro hall _ ⟨span, ⟨name, hname, hspan⟩, rfl⟩
      exact hall name hname span hspan
  rw [← hmem, lastBusinessEnd]
  cases hends : (stages.flatMap trace.named).map (·.endUnixNano) with
  | nil => exact absurd (List.map_eq_nil_iff.1 hends) h
  | cons first rest => simp [foldl_max_le]

/-- Every compensation span starts at or after the end of every business stage span. -/
def CompensatesLast (trace : Trace) : Prop :=
  ∀ name ∈ compensationStages, ∀ span ∈ trace.named name,
    ∀ stage ∈ stages, ∀ business ∈ trace.named stage, business.endUnixNano ≤ span.startUnixNano

theorem compensationProblems_eq_nil {trace : Trace} (h : stages.flatMap trace.named ≠ []) :
    compensationProblems trace = [] ↔ CompensatesLast trace := by
  simp only [compensationProblems, List.flatMap_eq_nil_iff, CompensatesLast, ← lastBusinessEnd_le h]
  refine forall₂_congr fun name _ => forall₂_congr fun span _ => ?_
  split <;> simp <;> omega

theorem paymentProblems_eq_nil {trace : Trace} {fanOutEnd : Int} :
    paymentProblems (single trace "payment.authorize") fanOutEnd = [] ↔
      ∀ payment, trace.named "payment.authorize" = [payment] → fanOutEnd ≤ payment.startUnixNano := by
  cases hpayment : single trace "payment.authorize" with
  | none =>
    simp only [paymentProblems, true_iff]
    intro payment hnamed
    rw [single_eq_some.2 hnamed] at hpayment
    cases hpayment
  | some payment =>
    simp only [paymentProblems, single_eq_some.1 hpayment, List.cons.injEq, and_true, forall_eq']
    split <;> simp <;> omega

theorem shippingProblems_eq_nil {trace : Trace} :
    shippingProblems (single trace "shipping.create") (single trace "payment.authorize") = [] ↔
      ∀ payment shipping, trace.named "payment.authorize" = [payment] →
        trace.named "shipping.create" = [shipping] → payment.endUnixNano ≤ shipping.startUnixNano := by
  simp only [← single_eq_some]
  cases single trace "shipping.create" with
  | none => simp [shippingProblems]
  | some shipping =>
    cases single trace "payment.authorize" with
    | none => simp [shippingProblems]
    | some payment =>
      simp only [shippingProblems, Option.some.injEq]
      split <;> simp <;> omega

/-- **What a verdict without problems says**, check by check. -/
theorem stageOrder_eq_nil {trace : Trace} : stageOrder trace = [] ↔ ∃ inventory fraud,
    trace.named "inventory.reserve" = [inventory] ∧ trace.named "fraud.evaluate" = [fraud] ∧
    inventory.overlaps fraud = true ∧
    (∀ payment, trace.named "payment.authorize" = [payment] →
      inventory.endUnixNano ≤ payment.startUnixNano ∧ fraud.endUnixNano ≤ payment.startUnixNano) ∧
    (∀ payment shipping, trace.named "payment.authorize" = [payment] →
      trace.named "shipping.create" = [shipping] → payment.endUnixNano ≤ shipping.startUnixNano) ∧
    CompensatesLast trace := by
  unfold stageOrder
  split
  · rename_i inventory fraud hinventory hfraud
    rw [single_eq_some] at hinventory hfraud
    have hsome : stages.flatMap trace.named ≠ [] := by
      simp [stages, hinventory]
    simp only [List.append_eq_nil_iff, paymentProblems_eq_nil, shippingProblems_eq_nil,
      compensationProblems_eq_nil hsome, Int.max_le, hinventory, hfraud, List.cons.injEq, and_true]
    constructor
    · rintro ⟨⟨⟨hoverlap, hpayment⟩, hshipping⟩, hlast⟩
      exact ⟨inventory, fraud, rfl, rfl, by simpa using hoverlap, hpayment, hshipping, hlast⟩
    · rintro ⟨_, _, rfl, rfl, hoverlap, hpayment, hshipping, hlast⟩
      exact ⟨⟨⟨by simpa using hoverlap, hpayment⟩, hshipping⟩, hlast⟩
  · rename_i hmissing
    simp only [List.cons_ne_self, false_iff, not_exists, not_and]
    intro inventory fraud hinventory hfraud
    exact absurd (single_eq_some.2 hfraud) (hmissing inventory fraud (single_eq_some.2 hinventory))

/-! ## What it leaves open -/

/-- The stages of the trace ran in their order. -/
structure StagesInOrder (trace : Trace) : Prop where
  parallel : ∃ inventory fraud, trace.named "inventory.reserve" = [inventory] ∧
    trace.named "fraud.evaluate" = [fraud] ∧ inventory.overlaps fraud = true
  paid : ∀ payment ∈ trace.named "payment.authorize",
    ∀ check ∈ trace.named "inventory.reserve" ++ trace.named "fraud.evaluate",
      check.endUnixNano ≤ payment.startUnixNano
  shipped : ∀ shipping ∈ trace.named "shipping.create", trace.named "payment.authorize" ≠ [] ∧
    ∀ payment ∈ trace.named "payment.authorize", payment.endUnixNano ≤ shipping.startUnixNano
  compensated : CompensatesLast trace

/-- What the verdict does not look at: repeated payments, shipping without a payment, and payment
against shipping where one of them is repeated. -/
structure OverlookedInOrder (trace : Trace) : Prop where
  paid : 2 ≤ (trace.named "payment.authorize").length →
    ∀ payment ∈ trace.named "payment.authorize",
    ∀ check ∈ trace.named "inventory.reserve" ++ trace.named "fraud.evaluate",
      check.endUnixNano ≤ payment.startUnixNano
  unpaid : trace.named "payment.authorize" = [] → trace.named "shipping.create" = []
  shipped : 2 ≤ (trace.named "payment.authorize").length ∨ 2 ≤ (trace.named "shipping.create").length →
    ∀ shipping ∈ trace.named "shipping.create", ∀ payment ∈ trace.named "payment.authorize",
      payment.endUnixNano ≤ shipping.startUnixNano

/-- A list that is not longer than one and has a member is that member. -/
theorem eq_singleton_of_mem {spans : List Span} {span : Span} (hmem : span ∈ spans)
    (hshort : ¬ 2 ≤ spans.length) : spans = [span] := by
  match spans, hmem, hshort with
  | [found], hmem, _ => rw [List.mem_singleton.1 hmem]
  | _ :: _ :: _, _, hshort => simp at hshort

/-- **When a verdict without problems is right.** For every trace in which `stage_order` finds no
problem: the stages ran in order if and only if what it overlooks did. -/
theorem stagesInOrder_iff (trace : Trace) (h : stageOrder trace = []) :
    StagesInOrder trace ↔ OverlookedInOrder trace := by
  obtain ⟨inventory, fraud, hinventory, hfraud, hoverlap, hpayment, hshipping, hlast⟩ :=
    stageOrder_eq_nil.1 h
  constructor
  · intro horder
    refine ⟨fun _ => horder.paid, fun hunpaid => ?_, fun _ shipping hmem => (horder.shipped shipping hmem).2⟩
    refine List.eq_nil_iff_forall_not_mem.2 fun shipping hmem => ?_
    exact (horder.shipped shipping hmem).1 hunpaid
  · intro hoverlooked
    refine ⟨⟨inventory, fraud, hinventory, hfraud, hoverlap⟩, fun payment hmem check hcheck => ?_,
      fun shipping hmem => ⟨fun hunpaid => ?_, fun payment hpaid => ?_⟩, hlast⟩
    · by_cases hmany : 2 ≤ (trace.named "payment.authorize").length
      · exact hoverlooked.paid hmany payment hmem check hcheck
      · have hends := hpayment payment (eq_singleton_of_mem hmem hmany)
        rw [hinventory, hfraud] at hcheck
        simp only [List.cons_append, List.nil_append, List.mem_cons, List.not_mem_nil, or_false] at hcheck
        obtain rfl | rfl := hcheck
        · exact hends.1
        · exact hends.2
    · rw [hoverlooked.unpaid hunpaid] at hmem
      cases hmem
    · by_cases hmany : 2 ≤ (trace.named "payment.authorize").length ∨
          2 ≤ (trace.named "shipping.create").length
      · exact hoverlooked.shipped hmany shipping hmem payment hpaid
      · rw [not_or] at hmany
        exact hshipping payment shipping (eq_singleton_of_mem hpaid hmany.1)
          (eq_singleton_of_mem hmem hmany.2)

/-- Inventory and fraud side by side, then two payments, the second before fraud was done. -/
def paidTwice : Trace :=
  ⟨"60a34d4828a46b1e9747fb35905f9cdc",
    [.bare "order-service" "b1b1b1b1b1b1b1b1" "" "INTERNAL" "inventory.reserve" 1000 3000,
     .bare "order-service" "b2b2b2b2b2b2b2b2" "" "INTERNAL" "fraud.evaluate" 2000 4000,
     .bare "order-service" "b3b3b3b3b3b3b3b3" "" "INTERNAL" "payment.authorize" 5000 6000,
     .bare "order-service" "b4b4b4b4b4b4b4b4" "" "INTERNAL" "payment.authorize" 3500 4500]⟩

theorem stagesInOrder_iff_paidTwice : StagesInOrder paidTwice ↔ OverlookedInOrder paidTwice :=
  stagesInOrder_iff paidTwice (by decide)

/-- No problem is reported, and a payment started before fraud was done. -/
theorem stageOrder_misses_second_payment : stageOrder paidTwice = [] ∧ ¬ StagesInOrder paidTwice := by
  refine ⟨by decide, fun horder => ?_⟩
  have hpaid := horder.paid
    (.bare "order-service" "b4b4b4b4b4b4b4b4" "" "INTERNAL" "payment.authorize" 3500 4500)
    (by simp [paidTwice, Trace.named, Span.bare])
    (.bare "order-service" "b2b2b2b2b2b2b2b2" "" "INTERNAL" "fraud.evaluate" 2000 4000)
    (by simp [paidTwice, Trace.named, Span.bare])
  simp [Span.bare] at hpaid

end Traces

end TxPlatform
