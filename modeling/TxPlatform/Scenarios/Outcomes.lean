import TxPlatform.Scenarios.Contracts

/-! # What the contracts say about the orders (contracts.py:119-184)

If the stored trace of a request has the exported spans of the transaction that served it, the contract
of a scenario passes exactly if every transaction ended as the scenario is about: at its stage, with a
failure of the right sort, and in the expected number of attempts.
-/

namespace TxPlatform

open Traces Verdicts

namespace CompletedRun
variable {σ : Type} (run : CompletedRun σ)

/-- The fraud stage started before the inventory stage had ended. -/
def Overlapped : Prop := ∀ inventory fraud rest, run.recording.stages = inventory :: fraud :: rest →
  fraud.stage.startTime < inventory.stage.stopTime

/-- The calls of a stage were made in this number of attempts, all of them requests, and no budget cut off
the wait for another one. -/
def Attempted (stageName : String) (attempts : Int) : Prop := ∀ call ∈ run.log, call.call.stageName = stageName →
  attempts = call.made.1 ∧ call.refused = false ∧ call.made.2 = false

/-- The names of the states that the order went through. -/
def path : List String := run.snapshot.history.map (·.target.name)

theorem path_eq : run.path = (OrderTransactionCoordinator.statesTo run.snapshot.failure).map (·.name) := by
  obtain ⟨settled, hfailure, hhistory, htold⟩ := run.told_returned
  rw [path, ← hfailure, ← hhistory, ← htold.path, List.map_map]
  rfl

/-- A stage that the failure of the order made run has a call. -/
theorem exists_call {stageName : String} (h : stageName ∈ (callsTo run.snapshot.failure).map (·.stageName)) :
    ∃ call ∈ run.log, call.call.stageName = stageName := by
  obtain ⟨settled, hfailure, -, htold⟩ := run.told_returned
  rw [← hfailure, ← htold.calls, List.map_map] at h
  exact List.mem_map.1 h

variable {resource : Attributes} {trace : Trace}

theorem retries_eq_nil [Python] (h : Exports resource run.recording trace) {stageName : String}
    (hcalled : stageName ∈ (callsTo run.snapshot.failure).map (·.stageName)) (attempts : Int) :
    retries trace stageName attempts = [] ↔ run.Attempted stageName attempts := by
  obtain ⟨settled, -, -, htold⟩ := run.told_returned
  constructor
  · rintro hnone call hmem rfl
    exact (htold.retries_iff h hmem attempts).1 hnone
  · intro hattempted
    obtain ⟨call, hmem, rfl⟩ := run.exists_call hcalled
    exact (htold.retries_iff h hmem attempts).2 (hattempted call hmem rfl)

end CompletedRun

namespace Contracts

/-- The scenarios of a failed order with the stage that each is about. -/
def failedFlows : List (String × FailedFlow × FailureStage) :=
  [("payment-timeout", paymentTimeout, .payment), ("inventory-failure", inventoryFailure, .inventory),
    ("fraud-rejection", fraudRejection, .fraud), ("shipping-failure", shippingFailure, .shipping)]

/-- The path depends on the stage alone. -/
theorem statesTo_reason (stage : FailureStage) (kind : FailureKind) (reason : String) :
    OrderTransactionCoordinator.statesTo (some ⟨stage, kind, reason⟩) =
      OrderTransactionCoordinator.statesTo (some ⟨stage, kind, ""⟩) := by
  cases stage <;> rfl

/-- What the snapshot of an order has to say for a scenario of a failed order. -/
def FailsAs (flow : FailedFlow) (stage : FailureStage) (failure : Option OrderFailure) : Prop :=
  ∃ failed, failure = some failed ∧ failed.stage = stage ∧ (flow.technical = true ↔ failed.kind ≠ .businessRejection)

/-- Path, stages and error marking together tell where and how an order failed. -/
theorem failsAs_iff {name : String} {flow : FailedFlow} {stage : FailureStage} (hflow : (name, flow, stage) ∈ failedFlows)
    (failure : Option OrderFailure) :
    FailsAs flow stage failure ↔
      ((∀ name ∈ flow.stages, name ∈ (callsTo failure).map (·.stageName)) ∧
        ∀ name ∈ flow.forbiddenStages, name ∉ (callsTo failure).map (·.stageName)) ∧
      flow.path = (OrderTransactionCoordinator.statesTo failure).map (·.name) ∧
      (flow.technical = true ↔ Told.Technical failure) := by
  simp only [failedFlows, List.mem_cons, Prod.mk.injEq, List.not_mem_nil, or_false] at hflow
  obtain _ | ⟨stage', kind, reason⟩ := failure
  · rcases hflow with ⟨-, rfl, -⟩ | ⟨-, rfl, -⟩ | ⟨-, rfl, -⟩ | ⟨-, rfl, -⟩ <;>
      exact iff_of_false (by simp [FailsAs]) (fun h => absurd h.2.1 (by decide))
  · rw [callsTo_reason, statesTo_reason, FailsAs, Told.Technical]
    simp only [Option.some.injEq, exists_eq_left']
    rcases hflow with ⟨-, rfl, rfl⟩ | ⟨-, rfl, rfl⟩ | ⟨-, rfl, rfl⟩ | ⟨-, rfl, rfl⟩ <;> revert stage' kind <;>
      rintro (_ | _ | _ | _) (_ | _ | _ | _) <;> decide

theorem stageNames_of_flow {name : String} {flow : FailedFlow} {stage : FailureStage}
    (hflow : (name, flow, stage) ∈ failedFlows) :
    flow.stages ⊆ stages ++ compensationStages ∧ flow.forbiddenStages ⊆ stages ++ compensationStages := by
  simp only [failedFlows, List.mem_cons, Prod.mk.injEq, List.not_mem_nil, or_false] at hflow
  rcases hflow with ⟨-, rfl, -⟩ | ⟨-, rfl, -⟩ | ⟨-, rfl, -⟩ | ⟨-, rfl, -⟩ <;> decide

/-- A stage whose attempts are counted ran, if the order failed as the scenario says. -/
theorem called_of_retriedStage {name : String} {flow : FailedFlow} {stage : FailureStage}
    (hflow : (name, flow, stage) ∈ failedFlows) {stageName : String} {attempts : Int}
    (hretried : flow.retriedStage = some (stageName, attempts)) {failure : Option OrderFailure}
    (hcalled : ∀ name ∈ flow.stages, name ∈ (callsTo failure).map (·.stageName)) :
    stageName ∈ (callsTo failure).map (·.stageName) := by
  refine hcalled stageName ?_
  simp only [failedFlows, List.mem_cons, Prod.mk.injEq, List.not_mem_nil, or_false] at hflow
  rcases hflow with ⟨-, rfl, -⟩ | ⟨-, rfl, -⟩ | ⟨-, rfl, -⟩ | ⟨-, rfl, -⟩ <;> cases hretried
  decide

section Verdicts
variable [Python] {σ : Type} (run : CompletedRun σ) {resource : Attributes} {trace : Trace}

theorem clean_flowChecks {flow : FailedFlow} : Accepted (flowChecks flow trace) ↔
    topology trace flow.required flow.forbidden = [] ∧
      stagesPresent trace flow.stages flow.forbiddenStages = [] ∧ stageOrder trace = [] ∧
      statePath trace flow.path = some [] ∧ errorMarking trace flow.technical = [] ∧
      ∀ stageName attempts, flow.retriedStage = some (stageName, attempts) → retries trace stageName attempts = [] := by
  rw [flowChecks]
  rcases flow.retriedStage with _ | ⟨retried, count⟩ <;> cases statePath trace flow.path <;>
    simp [or_imp, forall_and]

/-- **The checks of a failed flow** accept the trace of a transaction exactly if the order failed at the
stage of the scenario, for a reason of the right sort. -/
theorem accepted_flowChecks (h : Exports resource run.recording trace) {name : String}
    {flow : FailedFlow} {stage : FailureStage} (hflow : (name, flow, stage) ∈ failedFlows) :
    Accepted (flowChecks flow trace) ↔ topology trace flow.required flow.forbidden = [] ∧ run.Overlapped ∧
      FailsAs flow stage run.snapshot.failure ∧
      ∀ stageName attempts, flow.retriedStage = some (stageName, attempts) → run.Attempted stageName attempts := by
  obtain ⟨hrequired, hforbidden⟩ := stageNames_of_flow hflow
  obtain ⟨settled, hfailure, hhistory, htold⟩ := run.told_returned
  have hstages := htold.stagesPresent_iff h hrequired hforbidden
  have hretries : (∀ name ∈ flow.stages, name ∈ (callsTo run.snapshot.failure).map (·.stageName)) →
      ((∀ stageName attempts, flow.retriedStage = some (stageName, attempts) → retries trace stageName attempts = []) ↔
        ∀ stageName attempts, flow.retriedStage = some (stageName, attempts) → run.Attempted stageName attempts) := by
    intro hcalled
    refine forall₃_congr fun stageName attempts hretried => ?_
    exact run.retries_eq_nil h (called_of_retriedStage hflow hretried hcalled) attempts
  rw [failsAs_iff hflow, ← run.path_eq, clean_flowChecks, hstages, htold.statePath_iff h,
    htold.errorMarking_iff h, CompletedRun.Overlapped, ← htold.stageOrder_iff h, CompletedRun.path, hfailure, hhistory]
  constructor
  · rintro ⟨htopology, hcalls, horder, hpath, herror, hattempts⟩
    exact ⟨htopology, horder, ⟨hcalls, hpath, herror⟩, (hretries hcalls.1).1 hattempts⟩
  · rintro ⟨htopology, horder, ⟨hcalls, hpath, herror⟩, hattempts⟩
    exact ⟨htopology, hcalls, horder, hpath, herror, (hretries hcalls.1).2 hattempts⟩

theorem clean_normalOrder : Accepted (normalChecks trace) ↔ topology trace allServices [] = [] ∧
    stageOrder trace = [] ∧ statePath trace fullPath = some [] ∧ errorMarking trace false = [] := by
  rw [normalChecks]
  cases statePath trace fullPath <;> simp

omit [Python] in
/-- Only a completed order goes through all states. -/
theorem fullPath_iff : fullPath = run.path ↔ run.snapshot.failure = none := by
  rw [run.path_eq]
  rcases run.snapshot.failure with _ | ⟨_ | _ | _ | _, kind, reason⟩ <;>
    simp [fullPath, OrderTransactionCoordinator.statesTo, OrderState.name]

theorem accepted_normalChecks (h : Exports resource run.recording trace) : Accepted (normalChecks trace) ↔
    topology trace allServices [] = [] ∧ run.Overlapped ∧ run.snapshot.failure = none := by
  obtain ⟨settled, hfailure, hhistory, htold⟩ := run.told_returned
  rw [clean_normalOrder, htold.statePath_iff h, htold.errorMarking_iff h, CompletedRun.Overlapped,
    ← htold.stageOrder_iff h, ← fullPath_iff, CompletedRun.path, hfailure, hhistory]
  constructor
  · rintro ⟨htopology, horder, hpath, -⟩
    exact ⟨htopology, horder, hpath⟩
  · rintro ⟨htopology, horder, hpath⟩
    have hcompleted := (fullPath_iff run).1 hpath
    exact ⟨htopology, horder, hpath, by simp [Told.Technical, hcompleted]⟩

theorem accepted_retryChecks [CheckRuntime] (h : Exports resource run.recording trace) : Accepted (retryChecks trace) ↔
    run.snapshot.failure = none ∧ run.Attempted "payment.authorize" 2 ∧ Replayed trace ∧
      Dominates trace "payment.authorize" (CheckRuntime.quotient 5 10) ∧ Lasted trace (CheckRuntime.quotient 1500 1) := by
  have hclean : Accepted (retryChecks trace) ↔ statePath trace fullPath = some [] ∧
      retries trace "payment.authorize" 2 = [] ∧ Replayed trace ∧
      Dominates trace "payment.authorize" (CheckRuntime.quotient 5 10) ∧ Lasted trace (CheckRuntime.quotient 1500 1) := by
    rw [retryChecks, ← idempotentReplay_eq_nil, ← latencyDominance_eq_nil]
    cases statePath trace fullPath <;> cases idempotentReplay trace <;>
      cases latencyDominance trace "payment.authorize" (CheckRuntime.quotient 5 10) (CheckRuntime.quotient 1500 1) <;>
      simp
    tauto
  obtain ⟨settled, -, hhistory, htold⟩ := run.told_returned
  rw [hclean, htold.statePath_iff h, hhistory, ← CompletedRun.path, fullPath_iff]
  refine and_congr_right fun hcompleted => and_congr_left' ?_
  exact run.retries_eq_nil h (by rw [hcompleted]; decide) 2

/-! ### A missing dependency -/

omit [Python] in
theorem failureKind_name_injective {kind kind' : FailureKind} (h : kind.name = kind'.name) : kind = kind' := by
  cases kind <;> cases kind' <;> first | rfl | exact absurd h (by decide)

omit [Python] in
/-- The span of the stage that failed says how. -/
theorem kind_of_failed (h : Exports resource run.recording trace) {failed : OrderFailure}
    (hfailed : run.snapshot.failure = some failed) : ∃ span, trace.named failed.stage.call.stageName = [span] ∧
      Python.get span.attributes "failure.kind" = .str failed.kind.name := by
  obtain ⟨settled, hfailure, -, htold⟩ := run.told_returned
  rw [← hfailure] at hfailed
  obtain ⟨call, hmem, hcall, hresult⟩ := htold.failing failed hfailed
  obtain ⟨record, hrecord, htells⟩ := htold.exists_record hmem
  refine ⟨_, by rw [← hcall, ← (name_of_toldBy htells).1]; exact htold.named_stage h hrecord, ?_⟩
  have hkind : record.stage.tags.lookup "failure.kind" = some (.str failed.kind.name) := by
    have hkind := htells.kind
    rw [hresult] at hkind
    exact hkind
  simp [Python.get, spanOf, hkind]

theorem clean_missingDependency : Accepted (some (missingDependency trace)) ↔
    (∃ stage rest, trace.named "shipping.create" = stage :: rest ∧
      Python.eq (Python.get stage.attributes "failure.kind") (.str "timeout") = true) ∧
    trace.byService "shipping-service" (some "SERVER") = [] ∧ retries trace "shipping.create" 3 = [] ∧
    stagesPresent trace ["compensation.payment.void", "compensation.inventory.release"] [] = [] := by
  rw [missingDependency]
  cases trace.named "shipping.create" <;> simp [and_assoc]

omit [Python] in
/-- Undo calls for both and a shipment that was asked for: the shipment failed. -/
theorem failed_at_shipping {failure : Option OrderFailure}
    (hundone : "compensation.payment.void" ∈ (callsTo failure).map (·.stageName))
    (hasked : "shipping.create" ∈ (callsTo failure).map (·.stageName)) :
    ∃ failed, failure = some failed ∧ failed.stage = .shipping := by
  obtain _ | ⟨stage, kind, reason⟩ := failure
  · exact absurd hundone (by decide)
  · refine ⟨_, rfl, (?_ : stage = .shipping)⟩
    rw [callsTo_reason] at hundone hasked
    revert stage kind
    rintro (_ | _ | _ | _) (_ | _ | _ | _) <;> decide

theorem accepted_missingDependency (h : Exports resource run.recording trace) :
    Accepted (some (missingDependency trace)) ↔
      (∃ failed, run.snapshot.failure = some failed ∧ failed.stage = .shipping ∧ failed.kind = .timeout) ∧
      trace.byService "shipping-service" (some "SERVER") = [] ∧ run.Attempted "shipping.create" 3 := by
  obtain ⟨settled, hfailure, -, htold⟩ := run.told_returned
  have hstages := htold.stagesPresent_iff h
    (show ["compensation.payment.void", "compensation.inventory.release"] ⊆ stages ++ compensationStages by decide)
    (List.nil_subset _)
  rw [clean_missingDependency, hstages, hfailure]
  constructor
  · rintro ⟨⟨stage, rest, hnamed, hkind⟩, hserver, hretries, hundone, -⟩
    have hasked : "shipping.create" ∈ (callsTo run.snapshot.failure).map (·.stageName) := by
      rw [← hfailure]
      exact (htold.named_ne_nil_iff h (by decide)).1 (hnamed ▸ List.cons_ne_nil stage rest)
    obtain ⟨failed, hfailed, hshipping⟩ := failed_at_shipping (hundone _ List.mem_cons_self) hasked
    obtain ⟨span, hspan, hname⟩ := kind_of_failed run h hfailed
    rw [hshipping] at hspan
    obtain ⟨rfl, rfl⟩ := List.cons.inj (hnamed.symm.trans hspan)
    rw [hname, eq_str] at hkind
    exact ⟨⟨failed, hfailed, hshipping, failureKind_name_injective hkind⟩, hserver, (run.retries_eq_nil h hasked 3).1 hretries⟩
  · rintro ⟨⟨failed, hfailed, hshipping, htimeout⟩, hserver, hattempted⟩
    have hcalls : ∀ name ∈ ["shipping.create", "compensation.payment.void", "compensation.inventory.release"],
        name ∈ (callsTo run.snapshot.failure).map (·.stageName) := by
      obtain ⟨stage, kind, reason⟩ := failed
      cases hshipping
      cases htimeout
      rw [hfailed, callsTo_reason]
      decide
    obtain ⟨span, hspan, hname⟩ := kind_of_failed run h hfailed
    rw [hshipping] at hspan
    refine ⟨⟨span, [], hspan, by rw [hname, htimeout, eq_str]; rfl⟩, hserver, ?_, ?_, by simp⟩
    · exact (run.retries_eq_nil h (hcalls _ List.mem_cons_self) 3).2 hattempted
    · exact fun name hmem => hcalls name (List.mem_cons_of_mem _ hmem)

end Verdicts

/-! ### What a passed contract says -/

section Passed
variable [Python] [CheckRuntime] (ctx : Context) {σ : Type} (runOf : SentRequest → CompletedRun σ)

/-- The stored trace of each request has the spans of the transaction that served it. -/
def Served (required : List String) (status : Int) : Prop := ∀ request ∈ ctx.requests status, ∀ trace,
  stored ctx required request = some trace → ∃ resource, Exports resource (runOf request).recording trace

/-- The requests of a contract, each with a stored trace of which the common checks and `topology` accept. -/
def Stored (required forbidden : List String) (request : SentRequest) : Prop := ∃ trace,
  stored ctx required request = some trace ∧ Sound ctx request trace ∧ topology trace required forbidden = []

/-- **A completed order** (`normal_order`). The contract passes exactly if some request was answered with 201,
the trace of each is stored and sound, its stages overlapped, and its order completed. -/
theorem normalOrder_passes (hserved : Served ctx runOf allServices 201) :
    Passes "normal-order" (normalOrder ctx) ↔ ctx.requests 201 ≠ [] ∧ ∀ request ∈ ctx.requests 201,
      Stored ctx allServices [] request ∧ (runOf request).Overlapped ∧ (runOf request).snapshot.failure = none := by
  rw [normalOrder, passes_overStored ctx (by decide)]
  refine and_congr_right fun _ => forall₂_congr fun request hmem => ?_
  constructor
  · rintro ⟨trace, hstored, hsound, haccepted⟩
    obtain ⟨resource, hexports⟩ := hserved request hmem trace hstored
    obtain ⟨htopology, hoverlapped, hcompleted⟩ := (accepted_normalChecks _ hexports).1 haccepted
    exact ⟨⟨trace, hstored, hsound, htopology⟩, hoverlapped, hcompleted⟩
  · rintro ⟨⟨trace, hstored, hsound, htopology⟩, hoverlapped, hcompleted⟩
    obtain ⟨resource, hexports⟩ := hserved request hmem trace hstored
    exact ⟨trace, hstored, hsound, (accepted_normalChecks _ hexports).2 ⟨htopology, hoverlapped, hcompleted⟩⟩

/-- **A retried payment** (`payment_retry`). The contract passes exactly if some request was answered with 201,
the trace of each is stored and sound, its order completed after two payment attempts, PaymentService
recorded one authorization and answered the last request as a replay, the payment stage was the longest step
and at least half of the transaction, and the trace lasted 1.5 s. -/
theorem paymentRetry_passes (hserved : Served ctx runOf allServices 201) :
    Passes "payment-retry" (paymentRetry ctx) ↔ ctx.requests 201 ≠ [] ∧ ∀ request ∈ ctx.requests 201,
      (∃ trace, stored ctx allServices request = some trace ∧ Sound ctx request trace ∧ Replayed trace ∧
        Dominates trace "payment.authorize" (CheckRuntime.quotient 5 10) ∧ Lasted trace (CheckRuntime.quotient 1500 1)) ∧
      (runOf request).snapshot.failure = none ∧ (runOf request).Attempted "payment.authorize" 2 := by
  rw [paymentRetry, passes_overStored ctx (by decide)]
  refine and_congr_right fun _ => forall₂_congr fun request hmem => ?_
  constructor
  · rintro ⟨trace, hstored, hsound, haccepted⟩
    obtain ⟨resource, hexports⟩ := hserved request hmem trace hstored
    obtain ⟨hcompleted, hattempted, hreplay⟩ := (accepted_retryChecks _ hexports).1 haccepted
    exact ⟨⟨trace, hstored, hsound, hreplay⟩, hcompleted, hattempted⟩
  · rintro ⟨⟨trace, hstored, hsound, hreplay⟩, hcompleted, hattempted⟩
    obtain ⟨resource, hexports⟩ := hserved request hmem trace hstored
    exact ⟨trace, hstored, hsound, (accepted_retryChecks _ hexports).2 ⟨hcompleted, hattempted, hreplay⟩⟩

/-- **A failed order** (`_failed_flow`). The contract of a scenario passes exactly if some request was answered
with its status, the trace of each is stored and sound, and every order failed at the stage of the scenario,
for a technical reason or for the client's, and in the number of attempts that the scenario asks for. -/
theorem failedFlow_passes {name : String} {flow : FailedFlow} {stage : FailureStage}
    (hflow : (name, flow, stage) ∈ failedFlows) (hserved : Served ctx runOf flow.required flow.status) :
    Passes name (failedFlow ctx flow) ↔ ctx.requests flow.status ≠ [] ∧ ∀ request ∈ ctx.requests flow.status,
      Stored ctx flow.required flow.forbidden request ∧ (runOf request).Overlapped ∧
        FailsAs flow stage (runOf request).snapshot.failure ∧
        ∀ stageName attempts, flow.retriedStage = some (stageName, attempts) →
          (runOf request).Attempted stageName attempts := by
  have hcontract : name ∈ contracts := by
    have hall : ∀ entry ∈ failedFlows.map (·.1), entry ∈ contracts := by decide
    exact hall name (List.mem_map_of_mem hflow)
  rw [failedFlow_eq, passes_unlessEmpty ctx hcontract]
  refine and_congr_right fun _ => forall₂_congr fun request hmem => ?_
  constructor
  · rintro ⟨trace, hstored, hsound, haccepted⟩
    obtain ⟨resource, hexports⟩ := hserved request hmem trace hstored
    obtain ⟨htopology, hrest⟩ := (accepted_flowChecks _ hexports hflow).1 haccepted
    exact ⟨⟨trace, hstored, hsound, htopology⟩, hrest⟩
  · rintro ⟨⟨trace, hstored, hsound, htopology⟩, hrest⟩
    obtain ⟨resource, hexports⟩ := hserved request hmem trace hstored
    exact ⟨trace, hstored, hsound, (accepted_flowChecks _ hexports hflow).2 ⟨htopology, hrest⟩⟩

/-- **An order without ShippingService** (`dependency_unavailable`). The contract passes exactly if some request
was answered with 504, the trace of each is stored and sound and has no span of a request that ShippingService
served, and every order failed at shipping with a timeout after three attempts. -/
theorem dependencyUnavailable_passes
    (hserved : Served ctx runOf ["kong-gateway", "order-service", "payment-service"] 504) :
    Passes "dependency-unavailable" (dependencyUnavailable ctx) ↔ ctx.requests 504 ≠ [] ∧
      ∀ request ∈ ctx.requests 504,
        (∃ trace, stored ctx ["kong-gateway", "order-service", "payment-service"] request = some trace ∧
          Sound ctx request trace ∧ trace.byService "shipping-service" (some "SERVER") = []) ∧
        (∃ failed, (runOf request).snapshot.failure = some failed ∧ failed.stage = .shipping ∧
          failed.kind = .timeout) ∧ (runOf request).Attempted "shipping.create" 3 := by
  rw [dependencyUnavailable_eq, passes_unlessEmpty ctx (by decide)]
  refine and_congr_right fun _ => forall₂_congr fun request hmem => ?_
  constructor
  · rintro ⟨trace, hstored, hsound, haccepted⟩
    obtain ⟨resource, hexports⟩ := hserved request hmem trace hstored
    obtain ⟨hfailed, hserver, hattempted⟩ := (accepted_missingDependency _ hexports).1 haccepted
    exact ⟨⟨trace, hstored, hsound, hserver⟩, hfailed, hattempted⟩
  · rintro ⟨⟨trace, hstored, hsound, hserver⟩, hfailed, hattempted⟩
    obtain ⟨resource, hexports⟩ := hserved request hmem trace hstored
    exact ⟨trace, hstored, hsound, (accepted_missingDependency _ hexports).2 ⟨hfailed, hserver, hattempted⟩⟩

end Passed

/-! ### Runs of one order -/

/-- What holds of some request and of all of them holds of the only one. -/
theorem requests_oneRequest [CheckRuntime] {status : Int} {trace : Trace} {P : SentRequest → Prop} :
    ((oneRequest status trace).requests status ≠ [] ∧ ∀ request ∈ (oneRequest status trace).requests status, P request) ↔
      P (oneSent status trace) := by
  have honly : (oneRequest status trace).requests status = [oneSent status trace] := by
    simp [Context.requests, oneRequest, oneSent]
  simp [honly]

theorem served_oneRequest [Python] [CheckRuntime] {status : Int} {run : CompletedRun Unit} {lasted : Int}
    {servers : List Span} (hservers : ∀ server ∈ servers, server.name ∉ transactionNames ∧ server.kind = "SERVER")
    (hdistinct : ((wholeTrace run lasted servers).spans.map (·.spanId)).Nodup) (required : List String) :
    Served (oneRequest status (wholeTrace run lasted servers)) (fun _ => run) required status := by
  intro request hmem trace hstored
  obtain ⟨-, hpoll, -⟩ := stored_mem _ hstored
  obtain rfl : trace = wholeTrace run lasted servers := by simpa [oneRequest] using hpoll
  exact ⟨_, exports_wholeTrace hservers hdistinct⟩

theorem served_slowWhole [Python] [CheckRuntime] (status : Int) (required : List String) :
    Served (oneRequest status slowWhole) (fun _ => slowRun) required status :=
  served_oneRequest (by decide) (by decide +kernel) required

/-- The first two stages of a run took the ticks from 0 to 3. -/
theorem overlapped_of_times {run : CompletedRun Unit} {times : List (Int × Int)}
    (h : run.recording.stages.map (fun record => (record.stage.startTime, record.stage.stopTime)) =
      (0, 3) :: (0, 3) :: times) : run.Overlapped := by
  intro inventory fraud rest hstages
  rw [hstages] at h
  simp only [List.map_cons, List.cons.injEq, Prod.mk.injEq] at h
  omega

def answeredCall : CallScript Budget := oneTick (answered [])

/-- The first attempt is not answered for 1.5 s. -/
def answeredLate : CallScript Budget where
  idle := 0
  before := 1
  attempts
    | 1 => ⟨15000000, Nat.zero_lt_succ _, .ends .timeoutRejected, false, [], 0, 1, none⟩
    | _ => ⟨1, Nat.one_pos, .ends (answered []), false, [], 0, 1, none⟩
  after := 1

def unshipped : OrderFailure := ⟨.shipping, .timeout, "timeout"⟩

theorem returned_answered : (resultOf (scripted answeredCall answeredCall)).1 = .ok (snapshotAfter (none, [])) ∧
    (resultOf (scripted answeredCall answeredCall)).2.2.1.isSome = true := by
  constructor <;> rfl

theorem returned_answeredLate : (resultOf (scripted answeredLate answeredCall)).1 = .ok (snapshotAfter (none, [])) ∧
    (resultOf (scripted answeredLate answeredCall)).2.2.1.isSome = true := by
  constructor <;> rfl

theorem returned_unshipped :
    (resultOf (scripted answeredCall (oneTick .timeoutRejected))).1 = .ok (snapshotAfter (some unshipped, undone)) ∧
      (resultOf (scripted answeredCall (oneTick .timeoutRejected))).2.2.1.isSome = true := by
  constructor <;> rfl

def completedRun : CompletedRun Unit := plainRun _ _ returned_answered
def retriedRun : CompletedRun Unit := plainRun _ _ returned_answeredLate
def unshippedRun : CompletedRun Unit := plainRun _ _ returned_unshipped

def completedWhole :
    Trace := wholeTrace completedRun 9000000 (servedBy "shipping-service" "#shipping.create" :: servedBefore)

def unshippedWhole : Trace := wholeTrace unshippedRun 9000000 servedBefore

def authorizationSpan (attempt : String) (startNano : Int) (attributes : Attributes) (events : List Event) : Span :=
  serverSpan "payment-service" "POST /payments/authorizations" ("server of " ++ attempt) attempt startNano
    (startNano + 100) (("scenario.run_id", .str "run-1") :: attributes) events

/-- The first attempt was recorded, the second is answered from the record. -/
def retriedWhole : Trace := wholeTrace retriedRun 1600000000
  [servedBy "inventory-service" "#inventory.reserve", servedBy "fraud-service" "#fraud.evaluate",
    authorizationSpan "##payment.authorize" 1500000600 [("payment.idempotent_replay", .bool true)] [],
    authorizationSpan "#payment.authorize" 500 [] [⟨"payment.authorization_recorded", 550, []⟩],
    servedBy "shipping-service" "#shipping.create"]

/-- The common checks accept the three traces. -/
theorem sound_wholes :
    letI := Python.plain
    letI := CheckRuntime.exact
    Sound (oneRequest 201 completedWhole) (oneSent 201 completedWhole) completedWhole ∧
      Sound (oneRequest 201 retriedWhole) (oneSent 201 retriedWhole) retriedWhole ∧
      Sound (oneRequest 504 unshippedWhole) (oneSent 504 unshippedWhole) unshippedWhole :=
  letI := Python.plain
  letI := CheckRuntime.exact
  ⟨sound_oneRequest (by decide +kernel) (by decide +kernel) (by decide +kernel) (by decide +kernel) (by decide +kernel),
    sound_oneRequest (by decide +kernel) (by decide +kernel) (by decide +kernel) (by decide +kernel) (by decide +kernel),
    sound_oneRequest (by decide +kernel) (by decide +kernel) (by decide +kernel) (by decide +kernel) (by decide +kernel)⟩

/-- An order that completed passes; one whose payment failed does not. -/
theorem normalOrder_passes_completedRun :
    letI := Python.plain
    letI := CheckRuntime.exact
    Passes "normal-order" (normalOrder (oneRequest 201 completedWhole)) ∧
      ¬ Passes "normal-order" (normalOrder (oneRequest 201 slowWhole)) :=
  letI := Python.plain
  letI := CheckRuntime.exact
  by
    constructor
    · have hserved : Served (oneRequest 201 completedWhole) (fun _ => completedRun) allServices 201 :=
        served_oneRequest (by decide) (by decide +kernel) _
      refine (normalOrder_passes _ _ hserved).2 (requests_oneRequest.2 ?_)
      exact ⟨⟨completedWhole, stored_oneRequest (by decide) (by decide +kernel), sound_wholes.1, by decide +kernel⟩,
        overlapped_of_times rfl, rfl⟩
    · intro hpasses
      obtain ⟨-, -, hcompleted⟩ := requests_oneRequest.1 ((normalOrder_passes _ _ (served_slowWhole 201 _)).1 hpasses)
      cases hcompleted

/-- A payment that is replayed after 1.5 s passes; one that failed does not. -/
theorem paymentRetry_passes_retriedRun :
    letI := Python.plain
    letI := CheckRuntime.exact
    Passes "payment-retry" (paymentRetry (oneRequest 201 retriedWhole)) ∧
      ¬ Passes "payment-retry" (paymentRetry (oneRequest 201 slowWhole)) :=
  letI := Python.plain
  letI := CheckRuntime.exact
  by
    constructor
    · have hserved : Served (oneRequest 201 retriedWhole) (fun _ => retriedRun) allServices 201 :=
        served_oneRequest (by decide) (by decide +kernel) _
      refine (paymentRetry_passes _ _ hserved).2 (requests_oneRequest.2 ?_)
      have hreplayed : Replayed retriedWhole := idempotentReplay_eq_nil.1 (by decide +kernel)
      have hdominates := latencyDominance_eq_nil.1 (show latencyDominance retriedWhole "payment.authorize"
        (CheckRuntime.quotient 5 10) (CheckRuntime.quotient 1500 1) = some [] by decide +kernel)
      have hattempted : ∀ call ∈ retriedRun.log, call.call.stageName = "payment.authorize" →
          2 = (call.made.1 : Int) ∧ call.refused = false ∧ call.made.2 = false := by decide +kernel
      exact ⟨⟨retriedWhole, stored_oneRequest (by decide) (by decide +kernel), sound_wholes.2.1, hreplayed, hdominates⟩,
        rfl, hattempted⟩
    · intro hpasses
      obtain ⟨-, hcompleted, -⟩ := requests_oneRequest.1 ((paymentRetry_passes _ _ (served_slowWhole 201 _)).1 hpasses)
      cases hcompleted

theorem failedFlow_passes_slowRun :
    letI := Python.plain
    letI := CheckRuntime.exact
    Passes "payment-timeout" (failedFlow (oneRequest 504 slowWhole) paymentTimeout) :=
  letI := Python.plain
  letI := CheckRuntime.exact
  by
    refine (failedFlow_passes _ _ List.mem_cons_self (served_slowWhole 504 _)).2 (requests_oneRequest.2 ?_)
    refine ⟨⟨slowWhole, stored_oneRequest (by decide) (by decide +kernel), sound_slowWhole, by decide +kernel⟩,
      overlapped_of_times rfl, ⟨slowFailure, rfl, rfl, by decide⟩, ?_⟩
    rintro stageName attempts ⟨⟩
    have hattempted : ∀ call ∈ slowRun.log, call.call.stageName = "payment.authorize" →
        3 = (call.made.1 : Int) ∧ call.refused = false ∧ call.made.2 = false := by decide +kernel
    exact hattempted

/-- A shipment that timed out passes; a payment that did is not taken for a missing ShippingService. -/
theorem dependencyUnavailable_passes_unshippedRun :
    letI := Python.plain
    letI := CheckRuntime.exact
    Passes "dependency-unavailable" (dependencyUnavailable (oneRequest 504 unshippedWhole)) ∧
      ¬ Passes "dependency-unavailable" (dependencyUnavailable (oneRequest 504 slowWhole)) :=
  letI := Python.plain
  letI := CheckRuntime.exact
  by
    constructor
    · have hserved : Served (oneRequest 504 unshippedWhole) (fun _ => unshippedRun)
          ["kong-gateway", "order-service", "payment-service"] 504 := served_oneRequest (by decide) (by decide +kernel) _
      refine (dependencyUnavailable_passes _ _ hserved).2 (requests_oneRequest.2 ?_)
      have hattempted : ∀ call ∈ unshippedRun.log, call.call.stageName = "shipping.create" →
          3 = (call.made.1 : Int) ∧ call.refused = false ∧ call.made.2 = false := by decide +kernel
      exact ⟨⟨unshippedWhole, stored_oneRequest (by decide) (by decide +kernel), sound_wholes.2.2, by decide +kernel⟩,
        ⟨unshipped, rfl, rfl, rfl⟩, hattempted⟩
    · intro hpasses
      obtain ⟨-, ⟨failed, hfailed, hshipping, -⟩, -⟩ :=
        requests_oneRequest.1 ((dependencyUnavailable_passes _ _ (served_slowWhole 504 _)).1 hpasses)
      cases hfailed
      cases hshipping

end Contracts

end TxPlatform
