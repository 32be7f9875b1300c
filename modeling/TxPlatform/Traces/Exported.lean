import TxPlatform.Order.Recording
import TxPlatform.Traces.Checks

/-! # The spans of a transaction in its trace (PlatformTelemetry.cs, traces.py:18-77)

A trace holds the spans that OrderService exported for a transaction among those of other services.
Stages have distinct names, so each is found by its name, and its requests are the client spans below
it. The trace may list all of this in any order.
-/

namespace TxPlatform

namespace Traces

open TelemetryConventions

def kindOf : ActivityKind → String
  | .internal => "INTERNAL"
  | .server => "SERVER"
  | .client => "CLIENT"

def statusOf : ActivityStatusCode → String
  | .unset => "UNSET"
  | .ok => "OK"
  | .error => "ERROR"

theorem statusOf_eq_error {status : ActivityStatusCode} : statusOf status = "ERROR" ↔ status = .error := by
  cases status <;> decide

/-- The span of an activity. Ticks are 100 ns. -/
def spanOf (traceId : String) (resource : Attributes) (activity : Activity) : Span where
  traceId := traceId
  spanId := activity.id
  parentSpanId := activity.parentId
  name := activity.name
  kind := kindOf activity.kind
  startUnixNano := 100 * activity.startTime
  endUnixNano := 100 * activity.stopTime
  status := statusOf activity.status
  attributes := activity.tags
  events := activity.events.map fun event => ⟨event.name, 100 * event.time, event.tags⟩
  resource := resource

/-- The activities of a recording. -/
def activitiesOf (r : Recording) : List Activity :=
  r.transaction :: r.stages.flatMap fun record => record.stage :: record.clients

/-- The names that only the coordinator gives its spans. -/
def transactionNames : List String := "order.transaction" :: (stages ++ compensationStages)

/-- The trace has the spans of the recording, among others that are no stages and no requests of one. -/
structure Exports (resource : Attributes) (r : Recording) (trace : Trace) : Prop where
  among : ∃ others : List Span,
    trace.spans.Perm (others ++ (activitiesOf r).map (spanOf trace.traceId resource)) ∧
    (∀ other ∈ others, other.name ∉ transactionNames) ∧
    ∀ other ∈ others, ∀ record ∈ r.stages, ¬ (other.kind = "CLIENT" ∧ other.parentSpanId = record.stage.id)
  distinct : (trace.spans.map (·.spanId)).Nodup

/-! ## Finding a span by its name -/

/-- Under distinct keys one item has the key. -/
theorem filter_eq_singleton {α β : Type} [DecidableEq β] {items : List α} {key : α → β} (hnodup : (items.map key).Nodup)
    {item : α} (hmem : item ∈ items) : (items.filter fun other => key other = key item) = [item] := by
  induction items with
  | nil => cases hmem
  | cons first items ih =>
    obtain ⟨hfirst, hnodup⟩ := List.nodup_cons.1 hnodup
    obtain rfl | hmem := List.mem_cons.1 hmem
    · have hnone : (items.filter fun other => key other = key item) = [] := by
        rw [List.filter_eq_nil_iff]
        intro other hother
        have hne : key other ≠ key item := fun heq => hfirst (heq ▸ List.mem_map_of_mem hother)
        simpa using hne
      simp [hnone]
    · have hne : key first ≠ key item := fun heq => hfirst (heq ▸ List.mem_map_of_mem hmem)
      simp [hne, ih hnodup hmem]

/-- The calls depend on where and how the transaction failed, not on the reason. -/
theorem callsTo_reason (stage : FailureStage) (kind : FailureKind) (reason : String) :
    callsTo (some ⟨stage, kind, reason⟩) = callsTo (some ⟨stage, kind, ""⟩) := by
  cases stage <;> cases kind <;> rfl

/-- The names of the stages are distinct, whatever the outcome. -/
theorem nodup_names_callsTo (failure : Option OrderFailure) : ((callsTo failure).map (·.stageName)).Nodup := by
  obtain _ | ⟨stage, kind, reason⟩ := failure
  · decide
  · rw [callsTo_reason]
    revert stage kind
    rintro (_ | _ | _ | _) (_ | _ | _ | _) <;> decide

theorem stageName_mem_of_callsTo (failure : Option OrderFailure) :
    ∀ name ∈ (callsTo failure).map (·.stageName), name ∈ stages ++ compensationStages := by
  obtain _ | ⟨stage, kind, reason⟩ := failure
  · decide
  · rw [callsTo_reason]
    revert stage kind
    rintro (_ | _ | _ | _) (_ | _ | _ | _) <;> decide

theorem method_not_mem_transactionNames (failure : Option OrderFailure) :
    ∀ method ∈ (callsTo failure).map (·.method), method ∉ transactionNames := by
  obtain _ | ⟨stage, kind, reason⟩ := failure
  · decide
  · rw [callsTo_reason]
    revert stage kind
    rintro (_ | _ | _ | _) (_ | _ | _ | _) <;> decide

/-- A stage record has the name and the id of its call. -/
theorem name_of_toldBy {tracer : Tracer} {id : Guid} {run : CallRun} {record : StageRecord}
    (h : run.ToldBy tracer id record) :
    record.stage.name = run.call.stageName ∧ record.stage.id = tracer.ids (.stage run.call.stageName) := by
  have hsame := (startStage_keeps tracer run.call.stageName id record.stage.startTime).1
  exact ⟨h.same.name.trans hsame.name, h.same.id.trans hsame.id⟩

end Traces

namespace Told

open Traces

variable {tracer : Tracer} {settled : Order} {log : List CallRun} {r : Recording} {resource : Attributes} {trace : Trace}
  {name : String}

theorem transaction_name (h : Told tracer settled log r) : r.transaction.name = "order.transaction" := by
  obtain ⟨start, htells⟩ := h.transaction
  exact htells.same.name

theorem names_eq (h : Told tracer settled log r) :
    r.stages.map (·.stage.name) = (callsTo settled.failure).map (·.stageName) := by
  have hnames : List.Forall₂ (fun record run => record.stage.name = run.call.stageName) r.stages log :=
    (h.told.imp fun _ _ hrun => (name_of_toldBy hrun).1).flip
  rw [← h.calls, List.map_map, ← List.forall₂_eq_eq_eq, List.forall₂_map_left_iff, List.forall₂_map_right_iff]
  exact hnames

theorem exists_run (h : Told tracer settled log r) {record : StageRecord} (hmem : record ∈ r.stages) :
    ∃ run ∈ log, run.ToldBy tracer settled.id record :=
  exists_of_forall₂ h.told.flip record hmem

theorem exists_record (h : Told tracer settled log r) {run : CallRun} (hmem : run ∈ log) :
    ∃ record ∈ r.stages, run.ToldBy tracer settled.id record :=
  exists_of_forall₂ h.told run hmem

/-- The requests have names of their own. -/
theorem client_name (h : Told tracer settled log r) {record : StageRecord} (hmem : record ∈ r.stages)
    {client : Activity} (hclient : client ∈ record.clients) : client.name ∉ transactionNames := by
  obtain ⟨run, hrun, htells⟩ := h.exists_run hmem
  obtain ⟨i, hi, rfl⟩ := List.getElem_of_mem hclient
  rw [(htells.clients i hi).name]
  have hcall : run.call ∈ callsTo settled.failure := h.calls ▸ List.mem_map_of_mem hrun
  exact method_not_mem_transactionNames settled.failure _ (List.mem_map_of_mem hcall)

/-- The activities with one of the names of the transaction. -/
theorem filter_activities (h : Told tracer settled log r) (hname : name ∈ transactionNames) :
    (activitiesOf r).filter (·.name = name) =
      (if r.transaction.name = name then [r.transaction] else []) ++
        (r.stages.filter (·.stage.name = name)).map (·.stage) := by
  have hstages : ∀ records : List StageRecord, (∀ record ∈ records, record ∈ r.stages) →
      (records.flatMap fun record => record.stage :: record.clients).filter (·.name = name) =
        (records.filter (·.stage.name = name)).map (·.stage) := by
    intro records hrecords
    induction records with
    | nil => rfl
    | cons record records ih =>
      have hclients : record.clients.filter (·.name = name) = [] := by
        rw [List.filter_eq_nil_iff]
        intro client hclient
        have hother := h.client_name (hrecords record List.mem_cons_self) hclient
        have hne : client.name ≠ name := fun heq => hother (heq ▸ hname)
        simpa using hne
      have ih := ih fun other hother => hrecords other (List.mem_cons_of_mem _ hother)
      rw [List.flatMap_cons, List.filter_append, ih, List.filter_cons, hclients]
      by_cases hstage : record.stage.name = name <;> simp [hstage]
  rw [activitiesOf, List.filter_cons, hstages r.stages fun _ hmem => hmem]
  by_cases htx : r.transaction.name = name <;> simp [htx]

/-- What is found under a name of the transaction was recorded under it. -/
theorem named_perm (hexports : Exports resource r trace) (hname : name ∈ transactionNames) :
    (trace.named name).Perm (((activitiesOf r).filter (·.name = name)).map (spanOf trace.traceId resource)) := by
  obtain ⟨others, hperm, hothers, -⟩ := hexports.among
  have hforeign : others.filter (·.name = name) = [] := by
    rw [List.filter_eq_nil_iff]
    intro other hother
    have hne : other.name ≠ name := fun heq => hothers other hother (heq ▸ hname)
    simpa using hne
  have hfiltered := hperm.filter (·.name = name)
  rw [List.filter_append, hforeign, List.nil_append, List.filter_map] at hfiltered
  exact hfiltered

theorem named_transaction (h : Told tracer settled log r) (hexports : Exports resource r trace) :
    trace.named "order.transaction" = [spanOf trace.traceId resource r.transaction] := by
  have hnone : r.stages.filter (·.stage.name = "order.transaction") = [] := by
    rw [List.filter_eq_nil_iff]
    intro record hmem heq
    have hmem : record.stage.name ∈ (callsTo settled.failure).map (·.stageName) :=
      h.names_eq ▸ List.mem_map_of_mem hmem
    have hstage := stageName_mem_of_callsTo settled.failure _ hmem
    rw [of_decide_eq_true heq] at hstage
    exact absurd hstage (by decide)
  have hperm := named_perm hexports (show "order.transaction" ∈ transactionNames by decide)
  rw [h.filter_activities (by decide), if_pos h.transaction_name, hnone] at hperm
  exact List.perm_singleton.1 hperm

/-- A stage that was called is found under its name. -/
theorem named_stage (h : Told tracer settled log r) (hexports : Exports resource r trace) {record : StageRecord}
    (hmem : record ∈ r.stages) : trace.named record.stage.name = [spanOf trace.traceId resource record.stage] := by
  have hnodup : (r.stages.map (·.stage.name)).Nodup := h.names_eq ▸ nodup_names_callsTo settled.failure
  have hcalled : record.stage.name ∈ (callsTo settled.failure).map (·.stageName) :=
    h.names_eq ▸ List.mem_map_of_mem hmem
  have hstage := stageName_mem_of_callsTo settled.failure _ hcalled
  have htx : r.transaction.name ≠ record.stage.name := by
    rw [h.transaction_name]
    rintro heq
    rw [← heq] at hstage
    exact absurd hstage (by decide)
  have hperm := named_perm hexports (List.mem_cons_of_mem _ hstage)
  rw [h.filter_activities (List.mem_cons_of_mem _ hstage), if_neg htx, List.nil_append,
    filter_eq_singleton hnodup hmem] at hperm
  exact List.perm_singleton.1 hperm

/-- A stage that was not called is not found. -/
theorem named_eq_nil (h : Told tracer settled log r) (hexports : Exports resource r trace)
    (hname : name ∈ stages ++ compensationStages) (hcalled : name ∉ (callsTo settled.failure).map (·.stageName)) :
    trace.named name = [] := by
  have htx : r.transaction.name ≠ name := by
    rw [h.transaction_name]
    rintro rfl
    exact absurd hname (by decide)
  have hnone : r.stages.filter (·.stage.name = name) = [] := by
    rw [List.filter_eq_nil_iff]
    intro record hmem heq
    rw [← h.names_eq] at hcalled
    exact hcalled (of_decide_eq_true heq ▸ List.mem_map_of_mem hmem)
  have hperm := named_perm hexports (List.mem_cons_of_mem _ hname)
  rw [h.filter_activities (List.mem_cons_of_mem _ hname), if_neg htx, hnone] at hperm
  exact List.perm_nil.1 hperm

/-! ### The requests of a stage -/

theorem kindOf_eq_client {kind : ActivityKind} : kindOf kind = "CLIENT" ↔ kind = .client := by
  cases kind <;> decide

/-- The spans have distinct ids, so the stages do. -/
theorem nodup_stage_ids (hexports : Exports resource r trace) : (r.stages.map (·.stage.id)).Nodup := by
  obtain ⟨others, hperm, -, -⟩ := hexports.among
  have hnodup : ((others ++ (activitiesOf r).map (spanOf trace.traceId resource)).map (·.spanId)).Nodup :=
    (hperm.map _).nodup_iff.1 hexports.distinct
  rw [List.map_append, List.map_map] at hnodup
  refine List.Nodup.sublist ?_ (List.nodup_append.1 hnodup).2.1
  have hsub : ∀ records : List StageRecord,
      (records.map (·.stage.id)).Sublist ((records.flatMap fun record => record.stage :: record.clients).map (·.id)) := by
    intro records
    induction records with
    | nil => exact List.Sublist.refl _
    | cons record records ih =>
      rw [List.flatMap_cons, List.map_append, List.map_cons, List.map_cons, List.cons_append]
      exact (ih.trans (List.sublist_append_right _ _)).cons_cons _
  exact (hsub r.stages).trans (List.sublist_cons_self _ _)

/-- A stage and its requests, as far as their kinds and parents go. -/
structure WellFormed (record : StageRecord) : Prop where
  stage : record.stage.kind = .internal
  clients : ∀ client ∈ record.clients, client.kind = .client ∧ client.parentId = record.stage.id

theorem WellFormed.filter {record : StageRecord} (h : WellFormed record) (id : String) :
    (record.stage :: record.clients).filter (fun activity => activity.kind = .client ∧ activity.parentId = id) =
      if record.stage.id = id then record.clients else [] := by
  rw [List.filter_cons, if_neg (by simp [h.stage])]
  split
  · rename_i hid
    rw [List.filter_eq_self]
    intro client hmem
    simpa [hid] using h.clients client hmem
  · rename_i hid
    rw [List.filter_eq_nil_iff]
    intro client hmem
    simp [h.clients client hmem, hid]

/-- The requests below a stage are its own. -/
theorem filter_clients {records : List StageRecord} (hnodup : (records.map (·.stage.id)).Nodup)
    (hrecords : ∀ record ∈ records, WellFormed record) {record : StageRecord} (hmem : record ∈ records) :
    (records.flatMap fun record => record.stage :: record.clients).filter
      (fun activity => activity.kind = .client ∧ activity.parentId = record.stage.id) = record.clients := by
  induction records with
  | nil => cases hmem
  | cons first records ih =>
    obtain ⟨hfirst, hnodup⟩ := List.nodup_cons.1 hnodup
    rw [List.flatMap_cons, List.filter_append, (hrecords first List.mem_cons_self).filter]
    have hlater : ∀ other ∈ records, WellFormed other := fun other hother => hrecords other (List.mem_cons_of_mem _ hother)
    obtain rfl | hmem := List.mem_cons.1 hmem
    · have hnone : (records.flatMap fun record => record.stage :: record.clients).filter
          (fun activity => activity.kind = .client ∧ activity.parentId = record.stage.id) = [] := by
        rw [List.filter_flatMap, List.flatMap_eq_nil_iff]
        intro other hother
        have hne : other.stage.id ≠ record.stage.id := fun heq => hfirst (List.mem_map.2 ⟨other, hother, heq⟩)
        rw [(hlater other hother).filter, if_neg hne]
      rw [if_pos rfl, hnone, List.append_nil]
    · have hne : first.stage.id ≠ record.stage.id := fun heq => hfirst (List.mem_map.2 ⟨record, hmem, heq.symm⟩)
      rw [if_neg hne, List.nil_append, ih hnodup hlater hmem]

theorem wellFormed (h : Told tracer settled log r) {record : StageRecord} (hmem : record ∈ r.stages) :
    WellFormed record := by
  obtain ⟨run, -, hrun⟩ := h.exists_run hmem
  refine ⟨hrun.same.kind.trans (startStage_keeps tracer run.call.stageName settled.id record.stage.startTime).1.kind, ?_⟩
  intro client hclient
  obtain ⟨i, hi, rfl⟩ := List.getElem_of_mem hclient
  exact ⟨(hrun.clients i hi).kind, (hrun.clients i hi).parent.trans (name_of_toldBy hrun).2.symm⟩

/-- **The client spans below a stage** are the requests that the stage recorded. -/
theorem clients_perm (h : Told tracer settled log r) (hexports : Exports resource r trace) {record : StageRecord}
    (hmem : record ∈ r.stages) :
    ((trace.childrenOf (spanOf trace.traceId resource record.stage)).filter (·.kind = "CLIENT")).Perm
      (record.clients.map (spanOf trace.traceId resource)) := by
  obtain ⟨others, hperm, -, hothers⟩ := hexports.among
  obtain ⟨start, htransaction⟩ := h.transaction
  have hforeign : others.filter (fun span => span.kind = "CLIENT" ∧ span.parentSpanId = record.stage.id) = [] := by
    rw [List.filter_eq_nil_iff]
    intro other hother
    simpa using hothers other hother record hmem
  have hclients : (activitiesOf r).filter
      (fun activity => activity.kind = .client ∧ activity.parentId = record.stage.id) = record.clients := by
    rw [activitiesOf, List.filter_cons, if_neg (by simp [htransaction.same.kind]),
      filter_clients (nodup_stage_ids hexports) (fun _ hmem => h.wellFormed hmem) hmem]
  have hfiltered := hperm.filter (fun span => span.kind = "CLIENT" ∧ span.parentSpanId = record.stage.id)
  rw [List.filter_append, hforeign, List.nil_append, List.filter_map] at hfiltered
  have hspans : ((activitiesOf r).filter ((fun span => decide (span.kind = "CLIENT" ∧ span.parentSpanId = record.stage.id)) ∘
      spanOf trace.traceId resource)) = record.clients := by
    rw [← hclients]
    refine List.filter_congr fun activity _ => ?_
    exact decide_eq_decide.2 (and_congr_left' kindOf_eq_client)
  rw [hspans] at hfiltered
  rw [Trace.childrenOf, List.filter_filter]
  simp only [Bool.decide_and] at hfiltered
  exact hfiltered

end Told

end TxPlatform
