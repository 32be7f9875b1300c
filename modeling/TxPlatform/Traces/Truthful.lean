import TxPlatform.Traces.Exported

/-! # What the checks find in the trace of a transaction (tracechecks.py:106-202, contracts.py:119-184)

A trace that holds the exported spans of a completed transaction passes a check exactly when the
transaction was what the check expects: the path of its states, a technical failure, the stages that ran,
the attempts of a call. So a verdict of these checks is a verdict about the transaction.
-/

namespace TxPlatform

open TelemetryConventions Traces

/-! ## Comparing texts and numbers -/

section Values
variable [Python]

theorem eq_str {text text' : String} : Python.eq (.str text) (.str text') = true ↔ text = text' := by
  simp [Python.eq, Python.eqScalar]

theorem eq_int {n n' : Int} : Python.eq (.int n) (.int n') = true ↔ n = n' := by
  simp [Python.eq, Python.eqScalar, Python.asInt]

/-- Lists of values of one type, where values are equal exactly if they are the same. -/
theorem eq_arr {α : Type} {write : α → Json} (h : ∀ a b, Python.eq (write a) (write b) = true ↔ a = b)
    (items items' : List α) :
    Python.eq (.arr (items.map write)) (.arr (items'.map write)) = true ↔ items = items' := by
  rw [Python.eq]
  induction items generalizing items' with
  | nil => cases items' <;> simp [Python.eqItems]
  | cons item items ih =>
    cases items' with
    | nil => simp [Python.eqItems]
    | cons item' items' => simp [Python.eqItems, h, ih]

end Values

theorem statesTo_ne_nil (failure : Option OrderFailure) : OrderTransactionCoordinator.statesTo failure ≠ [] := by
  obtain _ | ⟨stage, kind, reason⟩ := failure
  · exact List.cons_ne_nil _ _
  · cases stage <;> exact List.cons_ne_nil _ _

/-- A check adds a problem unless its condition holds. -/
theorem unless_eq_nil {condition : Prop} [Decidable condition] {problem : String} :
    (if condition then [] else [problem]) = [] ↔ condition := by
  split <;> simp_all

namespace Told
variable {tracer : Tracer} {settled : Order} {log : List CallRun} {r : Recording} {resource : Attributes} {trace : Trace}

theorem transaction_eq (h : Told tracer settled log r) (hexports : Exports resource r trace) :
    Traces.transaction trace = some (spanOf trace.traceId resource r.transaction) :=
  single_eq_some.2 (h.named_transaction hexports)

theorem moved (h : Told tracer settled log r) : settled.history ≠ [] := fun hnone =>
  statesTo_ne_nil settled.failure (by rw [← h.path, hnone, List.map_nil])

theorem events_spanOf (traceId : String) (activity : Activity) (name : String) :
    (spanOf traceId resource activity).events.filter (·.name = name) =
      (activity.eventsNamed name).map fun event => ⟨event.name, 100 * event.time, event.tags⟩ := by
  rw [spanOf, Activity.eventsNamed, List.filter_map]
  rfl

/-! ## The path of the states -/

/-- **`state_path` finds nothing exactly for the path that the order took.** -/
theorem statePath_iff [Python] (h : Told tracer settled log r) (hexports : Exports resource r trace)
    (path : List String) :
    statePath trace path = some [] ↔ path = settled.history.map (·.target.name) := by
  obtain ⟨start, htells⟩ := h.transaction
  have hpath : ((spanOf trace.traceId resource r.transaction).events.filter (·.name = "order.state_changed")).map
      (fun event => Python.get event.attributes "order.state.to") =
      (settled.history.map (·.target.name)).map .str := by
    have hmapped := congrArg (List.map fun found : Option Json => found.getD .null) htells.path
    rw [events_spanOf, List.map_map]
    simpa [Python.get, Function.comp_def, eventStateChanged] using hmapped
  have hlast : Python.get (spanOf trace.traceId resource r.transaction).attributes "order.state" =
      (settled.history.getLast?.map fun transition => Json.str transition.target.name).getD .null :=
    congrArg (Option.getD · Json.null) htells.state
  rw [statePath, h.transaction_eq hexports]
  simp only [hpath, hlast, List.getLast?_eq_some_getLast h.moved]
  cases path with
  | nil => simp [h.moved]
  | cons first rest =>
    rw [List.getLast?_eq_some_getLast (List.cons_ne_nil first rest)]
    simp only [Option.bind_eq_bind, Option.bind_some, Option.pure_def, Option.some.injEq, List.append_eq_nil_iff,
      unless_eq_nil, eq_arr fun _ _ => eq_str, Option.map_some, Option.getD_some, eq_str]
    constructor
    · rintro ⟨hsame, -⟩
      exact hsame.symm
    · intro hsame
      refine ⟨hsame.symm, ?_⟩
      have hlast := congrArg List.getLast? hsame
      rw [List.getLast?_eq_some_getLast (List.cons_ne_nil first rest), List.getLast?_map,
        List.getLast?_eq_some_getLast h.moved] at hlast
      exact (Option.some.inj hlast).symm

/-! ## Failures -/

/-- The transaction failed for a reason that is not the client's. -/
def Technical (failure : Option OrderFailure) : Prop := ∃ failed, failure = some failed ∧ failed.kind ≠ .businessRejection

theorem status_transaction (h : Told tracer settled log r) :
    statusOf r.transaction.status = "ERROR" ↔ Technical settled.failure := by
  obtain ⟨start, htells⟩ := h.transaction
  rw [statusOf_eq_error, htells.error, Technical]
  cases settled.failure <;> simp

/-- **`error_marking` finds nothing exactly if the transaction failed as expected.** -/
theorem errorMarking_iff (h : Told tracer settled log r) (hexports : Exports resource r trace) (technical : Bool) :
    errorMarking trace technical = [] ↔ (technical = true ↔ Technical settled.failure) := by
  rw [errorMarking, h.transaction_eq hexports]
  by_cases hfailed : Technical settled.failure
  · have hstatus := h.status_transaction.2 hfailed
    cases technical <;> simp [spanOf, hstatus, hfailed]
  · have hstatus := mt h.status_transaction.1 hfailed
    cases technical <;> simp [spanOf, hstatus, hfailed]

/-! ## Stages -/

theorem named_ne_nil_iff (h : Told tracer settled log r) (hexports : Exports resource r trace) {name : String}
    (hname : name ∈ stages ++ compensationStages) :
    trace.named name ≠ [] ↔ name ∈ (callsTo settled.failure).map (·.stageName) := by
  constructor
  · intro hfound
    by_contra hmissing
    exact hfound (h.named_eq_nil hexports hname hmissing)
  · intro hcalled
    rw [← h.names_eq] at hcalled
    obtain ⟨record, hmem, rfl⟩ := List.mem_map.1 hcalled
    rw [h.named_stage hexports hmem]
    exact List.cons_ne_nil _ _

/-- **`stages_present` finds nothing exactly if the required stages ran and the forbidden ones did not.** -/
theorem stagesPresent_iff (h : Told tracer settled log r) (hexports : Exports resource r trace)
    {required forbidden : List String} (hrequired : required ⊆ stages ++ compensationStages)
    (hforbidden : forbidden ⊆ stages ++ compensationStages) :
    stagesPresent trace required forbidden = [] ↔
      (∀ name ∈ required, name ∈ (callsTo settled.failure).map (·.stageName)) ∧
        ∀ name ∈ forbidden, name ∉ (callsTo settled.failure).map (·.stageName) := by
  simp only [stagesPresent, List.append_eq_nil_iff, List.map_eq_nil_iff, List.filter_eq_nil_iff, decide_eq_true_eq]
  constructor
  · rintro ⟨hpresent, habsent⟩
    exact ⟨fun name hname => (h.named_ne_nil_iff hexports (hrequired hname)).1 (hpresent name hname),
      fun name hname hcalled => habsent name hname ((h.named_ne_nil_iff hexports (hforbidden hname)).2 hcalled)⟩
  · rintro ⟨hpresent, habsent⟩
    exact ⟨fun name hname => (h.named_ne_nil_iff hexports (hrequired hname)).2 (hpresent name hname),
      fun name hname hfound => habsent name hname ((h.named_ne_nil_iff hexports (hforbidden hname)).1 hfound)⟩

/-! ## The order of the stages -/

/-- Of two items the one that cannot come first comes second. -/
theorem rel_of_pairwise {α : Type} {rel before : α → α → Prop} {items : List α} (hrel : items.Pairwise rel)
    (hbefore : items.Pairwise before) {first second : α} (hfirst : first ∈ items) (hsecond : second ∈ items)
    (hne : first ≠ second) (hnot : ¬ before second first) : rel first second := by
  induction items with
  | nil => cases hfirst
  | cons item items ih =>
    obtain ⟨hrelItem, hrel⟩ := List.pairwise_cons.1 hrel
    obtain ⟨hbeforeItem, hbefore⟩ := List.pairwise_cons.1 hbefore
    obtain rfl | hin := List.mem_cons.1 hfirst
    · obtain rfl | hother := List.mem_cons.1 hsecond
      · exact absurd rfl hne
      · exact hrelItem second hother
    · obtain rfl | hother := List.mem_cons.1 hsecond
      · exact absurd (hbeforeItem first hin) hnot
      · exact ih hrel hbefore hin hother

/-- A stage that ended before the other started. -/
def Before (record later : StageRecord) : Prop := record.stage.stopTime ≤ later.stage.startTime

/-- After the fan-out one stage follows the other. -/
theorem sequential_of_timeline {records : List StageRecord} {now : Int} (h : Timeline records now) :
    ∃ inventory fraud rest, records = inventory :: fraud :: rest ∧
      inventory.stage.startTime ≤ fraud.stage.startTime ∧ rest.Pairwise Before ∧
      (∀ later ∈ rest, Before inventory later ∧ Before fraud later) ∧
      ∀ record ∈ records, record.stage.stopTime ≤ now := by
  induction h with
  | @fanOut inventory fraud hstarts =>
    refine ⟨inventory, fraud, [], rfl, hstarts, .nil, (fun later h => by cases h), fun record hmem => ?_⟩
    obtain rfl | rfl := List.mem_pair.1 hmem
    · exact Int.le_max_left _ _
    · exact Int.le_max_right _ _
  | @add records now last _ hstarts htakes ih =>
    obtain ⟨inventory, fraud, rest, rfl, hfanOut, hrest, hlater, hended⟩ := ih
    have hall : ∀ record ∈ inventory :: fraud :: rest, Before record last := fun record hmem =>
      Int.le_trans (hended record hmem) hstarts
    refine ⟨inventory, fraud, rest ++ [last], rfl, hfanOut, ?_, ?_, ?_⟩
    · refine List.pairwise_append.2 ⟨hrest, List.pairwise_singleton _ _, fun record hmem other hother => ?_⟩
      rw [List.mem_singleton.1 hother]
      exact hall record (by simp [hmem])
    · intro later hmem
      obtain hmem | hmem := List.mem_append.1 hmem
      · exact hlater later hmem
      · rw [List.mem_singleton.1 hmem]
        exact ⟨hall inventory (by simp), hall fraud (by simp)⟩
    · intro record hmem
      obtain hmem | hmem := List.mem_append.1 hmem
      · have hbefore := hall record hmem
        simp only [Before] at hbefore
        omega
      · rw [List.mem_singleton.1 hmem]

def fanOutStages : List String := ["inventory.reserve", "fraud.evaluate"]

/-- Names that come in this order only: the fan-out first, payment before shipping, undo calls last. -/
def InOrder (name later : String) : Prop :=
  ¬ (name ∉ fanOutStages ∧ later ∈ fanOutStages) ∧ ¬ (name ∈ compensationStages ∧ later ∈ stages) ∧
    ¬ (name = "shipping.create" ∧ later = "payment.authorize")

instance : DecidableRel InOrder := fun _ _ => inferInstanceAs (Decidable (_ ∧ _))

theorem names_inOrder (failure : Option OrderFailure) : ((callsTo failure).map (·.stageName)).Pairwise InOrder := by
  obtain _ | ⟨stage, kind, reason⟩ := failure
  · decide
  · rw [callsTo_reason]
    revert stage kind
    rintro (_ | _ | _ | _) (_ | _ | _ | _) <;> decide

theorem callsTo_eq (failure : Option OrderFailure) : ∃ rest, callsTo failure = .reserve :: .evaluate :: rest := by
  obtain _ | ⟨stage, kind, reason⟩ := failure
  · exact ⟨_, rfl⟩
  · cases stage <;> exact ⟨_, rfl⟩

/-- The fan-out of a transaction and what follows it. -/
theorem fanOut (h : Told tracer settled log r) : ∃ inventory fraud rest, r.stages = inventory :: fraud :: rest ∧
    inventory.stage.name = "inventory.reserve" ∧ fraud.stage.name = "fraud.evaluate" ∧
    inventory.stage.startTime ≤ fraud.stage.startTime ∧ rest.Pairwise Before ∧
    ∀ later ∈ rest, Before inventory later ∧ Before fraud later := by
  obtain ⟨inventory, fraud, rest, hstages, hstarts, hrest, hlater, -⟩ := sequential_of_timeline h.timeline
  obtain ⟨calls, hcalls⟩ := callsTo_eq settled.failure
  have hnames := h.names_eq
  rw [hstages, hcalls] at hnames
  simp only [List.map_cons, List.cons.injEq] at hnames
  exact ⟨inventory, fraud, rest, hstages, hnames.1, hnames.2.1, hstarts, hrest, hlater⟩

/-- Of two stages with names that have an order, one ended before the other started. -/
theorem before_of_names (h : Told tracer settled log r) {record later : StageRecord} (hmem : record ∈ r.stages)
    (hlater : later ∈ r.stages) (hfanOut : later.stage.name ∉ fanOutStages) (hne : record ≠ later)
    (hnames : ¬ InOrder later.stage.name record.stage.name) : Before record later := by
  obtain ⟨inventory, fraud, rest, hstages, hinventory, hfraud, -, hrest, hafter⟩ := h.fanOut
  have horder : (r.stages.map (·.stage.name)).Pairwise InOrder := h.names_eq ▸ names_inOrder settled.failure
  rw [List.pairwise_map, hstages, List.pairwise_cons, List.pairwise_cons] at horder
  rw [hstages] at hmem hlater
  have hrested : later ∈ rest := by
    obtain rfl | hin := List.mem_cons.1 hlater
    · exact absurd (by simp [hinventory, fanOutStages]) hfanOut
    obtain rfl | hin := List.mem_cons.1 hin
    · exact absurd (by simp [hfraud, fanOutStages]) hfanOut
    · exact hin
  obtain rfl | hin := List.mem_cons.1 hmem
  · exact (hafter later hrested).1
  obtain rfl | hin := List.mem_cons.1 hin
  · exact (hafter later hrested).2
  · exact rel_of_pairwise hrest horder.2.2 hin hrested hne hnames

/-- The span of a stage that was called is the one under its name. -/
theorem exists_of_named (h : Told tracer settled log r) (hexports : Exports resource r trace) {name : String}
    (hname : name ∈ stages ++ compensationStages) {span : Span} (hfound : span ∈ trace.named name) :
    ∃ record ∈ r.stages, record.stage.name = name ∧ span = spanOf trace.traceId resource record.stage := by
  have hcalled := (h.named_ne_nil_iff hexports hname).1 (List.ne_nil_of_mem hfound)
  rw [← h.names_eq] at hcalled
  obtain ⟨record, hmem, rfl⟩ := List.mem_map.1 hcalled
  rw [h.named_stage hexports hmem] at hfound
  exact ⟨record, hmem, rfl, List.mem_singleton.1 hfound⟩

/-- **`stage_order` finds nothing exactly if the fraud stage started before the inventory stage had
ended**: the coordinator keeps the order of everything else. -/
theorem stageOrder_iff (h : Told tracer settled log r) (hexports : Exports resource r trace) :
    stageOrder trace = [] ↔ ∀ inventory fraud rest, r.stages = inventory :: fraud :: rest →
      fraud.stage.startTime < inventory.stage.stopTime := by
  obtain ⟨inventory, fraud, rest, hstages, hinventory, hfraud, hstarts, -, -⟩ := h.fanOut
  have hmemInventory : inventory ∈ r.stages := by simp [hstages]
  have hmemFraud : fraud ∈ r.stages := by simp [hstages]
  have hnamedInventory := h.named_stage hexports hmemInventory
  have hnamedFraud := h.named_stage hexports hmemFraud
  obtain ⟨run, -, htells⟩ := h.exists_run hmemFraud
  have htakes := htells.takesTime
  rw [hinventory] at hnamedInventory
  rw [hfraud] at hnamedFraud
  rw [stageOrder_eq_nil]
  constructor
  · rintro ⟨span, other, hspan, hother, hoverlaps, -⟩ inventory' fraud' rest' hstages'
    rw [hstages'] at hstages
    obtain ⟨rfl, rfl, -⟩ : inventory' = inventory ∧ fraud' = fraud ∧ rest' = rest := by simpa using hstages
    rw [hnamedInventory, List.cons.injEq] at hspan
    rw [hnamedFraud, List.cons.injEq] at hother
    rw [← hspan.1, ← hother.1] at hoverlaps
    have hboth : inventory'.stage.startTime < fraud'.stage.stopTime ∧
        fraud'.stage.startTime < inventory'.stage.stopTime := by
      simpa [Span.overlaps, spanOf] using hoverlaps
    exact hboth.2
  · intro hoverlap
    have hoverlap := hoverlap inventory fraud rest hstages
    refine ⟨_, _, hnamedInventory, hnamedFraud, ?_, ?_, ?_, ?_⟩
    · have hboth : inventory.stage.startTime < fraud.stage.stopTime ∧
          fraud.stage.startTime < inventory.stage.stopTime := ⟨by omega, hoverlap⟩
      simpa [Span.overlaps, spanOf] using hboth
    · intro payment hpayment
      obtain ⟨record, hmem, hname, rfl⟩ := h.exists_of_named hexports (by decide) (hpayment ▸ List.mem_singleton_self _)
      have hpaid : ∀ check ∈ r.stages, check.stage.name ∈ fanOutStages → Before check record := by
        intro check hcheck hcheckName
        have hnot : record.stage.name ∉ fanOutStages := by
          rw [hname]
          decide
        exact h.before_of_names hcheck hmem hnot (fun heq => hnot (heq ▸ hcheckName))
          fun horder => horder.1 ⟨hnot, hcheckName⟩
      have hfirst := hpaid inventory hmemInventory (by simp [hinventory, fanOutStages])
      have hsecond := hpaid fraud hmemFraud (by simp [hfraud, fanOutStages])
      simp only [Before] at hfirst hsecond
      simp only [spanOf]
      omega
    · intro payment shipping hpayment hshipping
      obtain ⟨paid, hpaid, hpaidName, rfl⟩ :=
        h.exists_of_named hexports (by decide) (hpayment ▸ List.mem_singleton_self _)
      obtain ⟨shipped, hshipped, hshippedName, rfl⟩ :=
        h.exists_of_named hexports (by decide) (hshipping ▸ List.mem_singleton_self _)
      have hne : paid ≠ shipped := by
        rintro rfl
        rw [hpaidName] at hshippedName
        exact absurd hshippedName (by decide)
      have hbefore := h.before_of_names hpaid hshipped (by rw [hshippedName]; decide) hne
        (by rw [hshippedName, hpaidName]; decide)
      simp only [Before] at hbefore
      simp only [spanOf]
      omega
    · intro name hname span hspan stage hstage business hbusiness
      obtain ⟨undone, hundone, rfl, rfl⟩ := h.exists_of_named hexports (List.mem_append_right _ hname) hspan
      obtain ⟨ran, hran, rfl, rfl⟩ := h.exists_of_named hexports (List.mem_append_left _ hstage) hbusiness
      have hnot : undone.stage.name ∉ stages := by
        have hall : ∀ name ∈ compensationStages, name ∉ stages := by decide
        exact hall _ hname
      have hne : ran ≠ undone := by
        rintro rfl
        exact hnot hstage
      have hfanOut : ∀ name ∈ fanOutStages, name ∈ stages := by decide
      have hbefore := h.before_of_names hran hundone (fun hin => hnot (hfanOut _ hin)) hne
        fun horder => horder.2.1 ⟨hname, hstage⟩
      simp only [Before] at hbefore
      simp only [spanOf]
      omega

/-! ## Retries -/

/-- Sorting by start time puts items back that started one after the other. -/
theorem insertionSort_eq_of_perm {spans sorted : List Span} (hperm : spans.Perm sorted)
    (hsorted : sorted.Pairwise fun span next => span.startUnixNano < next.startUnixNano) :
    spans.insertionSort Span.NotAfter = sorted := by
  have hunique : ∀ span other, span ∈ spans.insertionSort Span.NotAfter → other ∈ sorted →
      Span.NotAfter span other → Span.NotAfter other span → span = other := by
    intro span other hspan hother hle hge
    simp only [Span.NotAfter] at hle hge
    have hspan : span ∈ sorted := hperm.mem_iff.1 ((List.mem_insertionSort _).1 hspan)
    by_contra hne
    have hlt := rel_of_pairwise hsorted hsorted hspan hother hne (by omega)
    omega
  exact List.Perm.eq_of_pairwise hunique (List.pairwise_insertionSort _ _) (hsorted.imp fun hlt => Int.le_of_lt hlt)
    ((List.perm_insertionSort _ _).trans hperm)

/-- The requests of a stage, in the order in which they were sent. -/
theorem attempts_eq [Python] (h : Told tracer settled log r) (hexports : Exports resource r trace) {record : StageRecord}
    (hmem : record ∈ r.stages) :
    attempts trace record.stage.name = record.clients.map (spanOf trace.traceId resource) := by
  obtain ⟨run, -, hrun⟩ := h.exists_run hmem
  rw [attempts, single_eq_some.2 (h.named_stage hexports hmem)]
  refine insertionSort_eq_of_perm (h.clients_perm hexports hmem) ?_
  rw [List.pairwise_map]
  exact hrun.increasing.imp fun hlt => by simp only [spanOf]; omega

/-- The attempt numbers of the requests are `1, 2, …`. -/
theorem numbers_eq [Python] (h : Told tracer settled log r) (hexports : Exports resource r trace) {record : StageRecord}
    (hmem : record ∈ r.stages) {run : CallRun} (hrun : run.ToldBy tracer settled.id record) :
    ((attempts trace record.stage.name).map fun span => Python.get span.attributes "retry.attempt") =
      (List.range run.sent).map fun i : Nat => Json.int (i + 1) := by
  rw [h.attempts_eq hexports hmem, List.map_map]
  refine List.ext_getElem (by simp [hrun.length]) fun i hi _ => ?_
  rw [List.length_map] at hi
  have hattempt : (record.clients[i].tags.lookup "retry.attempt") = some (.int (i + 1 : Nat)) := (hrun.clients i hi).attempt
  simp [Python.get, spanOf, hattempt]

/-- **`retries` finds nothing exactly if the call was made in the expected number of attempts**, all of
them requests, and no budget cut off the wait for another one. -/
theorem retries_iff [Python] (h : Told tracer settled log r) (hexports : Exports resource r trace) {run : CallRun}
    (hmem : run ∈ log) (expectedAttempts : Int) :
    retries trace run.call.stageName expectedAttempts = [] ↔
      expectedAttempts = run.made.1 ∧ run.refused = false ∧ run.made.2 = false := by
  obtain ⟨record, hrecord, htells⟩ := h.exists_record hmem
  have hname := (name_of_toldBy htells).1
  have hnumbers := h.numbers_eq hexports hrecord htells
  have hevents : ((spanOf trace.traceId resource record.stage).events.filter (·.name = "retry")).length = run.retried := by
    rw [events_spanOf, List.length_map]
    exact htells.retries
  have hcount : Python.get (spanOf trace.traceId resource record.stage).attributes "retry.count" =
      if run.retried = 0 then .null else .int run.retried := by
    have hcount : record.stage.tags.lookup "retry.count" = if run.retried = 0 then none else some (.int run.retried) :=
      htells.count
    rw [Python.get, spanOf, hcount]
    split <;> rfl
  have hpos := run.made_pos
  rw [← hname, retries, single_eq_some.2 (h.named_stage hexports hrecord)]
  have hsent : Python.eq (.arr ((List.range run.sent).map fun i : Nat => Json.int (i + 1)))
      (.arr ((List.range expectedAttempts.toNat).map fun i : Nat => Json.int (i + 1))) = true ↔ run.sent = expectedAttempts.toNat := by
    have hnumber : ∀ a b : Nat, Python.eq (.int (a + 1)) (.int (b + 1)) = true ↔ a = b := fun a b => by
      rw [eq_int]
      omega
    rw [eq_arr hnumber]
    constructor
    · intro hranges
      simpa using congrArg List.length hranges
    · intro hlength
      rw [hlength]
  have hexpected : ((List.range expectedAttempts.toNat).map fun i => .int (i + 1) : List Json) =
      (List.range expectedAttempts.toNat).map fun i : Nat => Json.int (i + 1) := by
    change List.map _ (List.flatMap (fun a : Nat => [(a : Int)]) _) = _
    rw [← List.map_eq_flatMap, List.map_map]
    rfl
  simp only [hnumbers, hexpected, hevents, hcount, List.append_eq_nil_iff, unless_eq_nil, hsent]
  -- the tag of the number of retries is as good as their events
  have htag : run.retried = expectedAttempts - 1 → ¬ (1 < expectedAttempts ∧
      Python.eq (if run.retried = 0 then .null else .int run.retried) (.int (expectedAttempts - 1)) = false) := by
    rintro hretried ⟨hmany, hdiffers⟩
    rw [if_neg (by omega), hretried, eq_int.2 rfl] at hdiffers
    cases hdiffers
  have hsentEq : run.sent = if run.refused = true then run.made.1 - 1 else run.made.1 := rfl
  have hretriedEq : run.retried = if run.made.2 = true then run.made.1 else run.made.1 - 1 := rfl
  constructor
  · rintro ⟨⟨hsame, hretried⟩, -⟩
    cases hrefused : run.refused <;> cases hcut : run.made.2 <;>
      simp only [hrefused, hcut, Bool.false_eq_true, if_false, if_true] at hsentEq hretriedEq <;>
      refine ⟨?_, ?_, ?_⟩ <;> first | rfl | omega
  · rintro ⟨rfl, hrefused, hcut⟩
    rw [if_neg (by simp [hrefused])] at hsentEq
    rw [if_neg (by simp [hcut])] at hretriedEq
    have hretried : (run.retried : Int) = run.made.1 - 1 := by omega
    exact ⟨⟨by omega, hretried⟩, if_neg (htag hretried)⟩

end Told

/-! ## What the verdicts say about a transaction -/

namespace CompletedRun
variable {σ : Type} (run : CompletedRun σ) {resource : Attributes} {trace : Trace}

/-- What the snapshot has of the order. -/
theorem of_toSnapshot {settled : Order} {snapshot : OrderSnapshot} (h : settled.toSnapshot = .ok snapshot) :
    snapshot.id = settled.id ∧ snapshot.failure = settled.failure ∧ snapshot.history = settled.history ∧
      snapshot.compensation = settled.compensation := by
  obtain ⟨totalAmount, -, rfl⟩ := snapshot_eq h
  exact ⟨rfl, rfl, rfl, rfl⟩

/-- The recording tells the order that was returned. -/
theorem told_returned : ∃ settled, settled.failure = run.snapshot.failure ∧ settled.history = run.snapshot.history ∧
    Told run.tracer settled run.log run.recording := by
  obtain ⟨settled, hsnapshot, htold⟩ := run.told
  obtain ⟨-, hfailure, hhistory, -⟩ := of_toSnapshot hsnapshot
  exact ⟨settled, hfailure.symm, hhistory.symm, htold⟩

/-- **The state path**: `state_path` accepts the history of the order that was returned, and no other
path. -/
theorem statePath_verdict [Python] (h : Exports resource run.recording trace) (path : List String) :
    statePath trace path = some [] ↔ path = run.snapshot.history.map (·.target.name) := by
  obtain ⟨settled, -, hhistory, htold⟩ := run.told_returned
  rw [← hhistory]
  exact htold.statePath_iff h path

/-- **The error marking**: `error_marking` accepts a technical failure exactly if the order that was
returned has one. -/
theorem errorMarking_verdict (h : Exports resource run.recording trace) (technical : Bool) :
    errorMarking trace technical = [] ↔ (technical = true ↔ Told.Technical run.snapshot.failure) := by
  obtain ⟨settled, hfailure, -, htold⟩ := run.told_returned
  rw [← hfailure]
  exact htold.errorMarking_iff h technical

/-- **The stages**: `stages_present` accepts what the failure of the order made run, and nothing else. -/
theorem stagesPresent_verdict (h : Exports resource run.recording trace) {required forbidden : List String}
    (hrequired : required ⊆ stages ++ compensationStages) (hforbidden : forbidden ⊆ stages ++ compensationStages) :
    stagesPresent trace required forbidden = [] ↔
      (∀ name ∈ required, name ∈ (callsTo run.snapshot.failure).map (·.stageName)) ∧
        ∀ name ∈ forbidden, name ∉ (callsTo run.snapshot.failure).map (·.stageName) := by
  obtain ⟨settled, hfailure, -, htold⟩ := run.told_returned
  rw [← hfailure]
  exact htold.stagesPresent_iff h hrequired hforbidden

/-- **The order of the stages**: `stage_order` accepts every run whose fraud stage started before its
inventory stage had ended. -/
theorem stageOrder_verdict (h : Exports resource run.recording trace) :
    stageOrder trace = [] ↔ ∀ inventory fraud rest, run.recording.stages = inventory :: fraud :: rest →
      fraud.stage.startTime < inventory.stage.stopTime := by
  obtain ⟨settled, -, htold⟩ := run.told
  exact htold.stageOrder_iff h

/-- **The attempts**: of a call that the run made, `retries` accepts the number of its attempts, if each
was sent and the last one was not cut off before it started. -/
theorem retries_verdict [Python] (h : Exports resource run.recording trace) {call : CallRun} (hcall : call ∈ run.log)
    (expectedAttempts : Int) :
    retries trace call.call.stageName expectedAttempts = [] ↔
      expectedAttempts = call.made.1 ∧ call.refused = false ∧ call.made.2 = false := by
  obtain ⟨settled, -, htold⟩ := run.told
  exact htold.retries_iff h hcall expectedAttempts

end CompletedRun

/-! ### A run whose payment times out -/

def slowFailure : OrderFailure := ⟨.payment, .timeout, "timeout"⟩

/-- Both undo calls, answered. -/
def undone : List CompensationStepResult := [⟨.voidPayment, .succeeded, "done"⟩, ⟨.releaseInventory, .succeeded, "done"⟩]

def snapshotAfter (result : Option OrderFailure × List CompensationStepResult) : OrderSnapshot :=
  OrderTransactionCoordinator.snapshotOf (OrderTransactionCoordinator.finalOrder (fun _ => 0) slowOrder result) Decimal.zero

def resultOf (pipelines : Pipelines Unit) : Except Exn OrderSnapshot × OrderRepository × Option Recording × Unit :=
  TracedCoordinator.executeAsync pipelines plainTracer (fun _ => 0) [] slowOrder OrderRepository.empty 0 ()

/-- The run of one order that returns this snapshot. -/
def plainRun (pipelines : Pipelines Unit) (snapshot : OrderSnapshot)
    (h : (resultOf pipelines).1 = .ok snapshot ∧ (resultOf pipelines).2.2.1.isSome = true) : CompletedRun Unit where
  pipelines := pipelines
  tracer := plainTracer
  clock := fun _ => 0
  order := slowOrder
  isCreated := ⟨_, _, _, _, _, _, rfl⟩
  others := []
  repository := OrderRepository.empty
  time := 0
  state := ()
  snapshot := snapshot
  recording := (resultOf pipelines).2.2.1.get h.2
  returned := h.1
  recorded := (Option.some_get h.2).symm

theorem returned_slowPayment : (resultOf slowPayment).1 = .ok (snapshotAfter (some slowFailure, undone)) ∧
    (resultOf slowPayment).2.2.1.isSome = true := by
  constructor <;> rfl

def slowRun : CompletedRun Unit := plainRun slowPayment _ returned_slowPayment

/-- Its spans alone. -/
def slowTrace : Trace := ⟨"5b8aa5a2d2c872e8321cf37308d69df2", (activitiesOf slowRun.recording).map
  (spanOf "5b8aa5a2d2c872e8321cf37308d69df2" [("service.name", .str "order-service")])⟩

theorem exports_slowTrace : Exports [("service.name", .str "order-service")] slowRun.recording slowTrace where
  among := ⟨[], List.Perm.refl _, by simp, by simp⟩
  distinct := by decide +kernel

section Witnesses

theorem statePath_verdict_slowRun :
    letI := Python.plain
    statePath slowTrace ["InventoryReserved", "PaymentFailed"] = some [] :=
  letI := Python.plain
  (slowRun.statePath_verdict exports_slowTrace _).2 rfl

theorem errorMarking_verdict_slowRun : errorMarking slowTrace true = [] :=
  (slowRun.errorMarking_verdict exports_slowTrace true).2 ⟨fun _ => ⟨slowFailure, rfl, by decide⟩, fun _ => rfl⟩

theorem stagesPresent_verdict_slowRun :
    stagesPresent slowTrace ["payment.authorize", "compensation.payment.void"] ["shipping.create"] = [] :=
  (slowRun.stagesPresent_verdict exports_slowTrace (by decide) (by decide)).2 ⟨by decide, by decide⟩

theorem stageOrder_verdict_slowRun : stageOrder slowTrace = [] :=
  (slowRun.stageOrder_verdict exports_slowTrace).2 fun inventory fraud rest hstages => by
    have htimes : slowRun.recording.stages.map (fun record => (record.stage.startTime, record.stage.stopTime)) =
        [(0, 3), (0, 3), (3, 10), (10, 13), (13, 16)] := rfl
    rw [hstages] at htimes
    simp only [List.map_cons, List.cons.injEq, Prod.mk.injEq] at htimes
    omega

theorem retries_verdict_slowRun :
    letI := Python.plain
    retries slowTrace "payment.authorize" 3 = [] :=
  letI := Python.plain
  (slowRun.retries_verdict exports_slowTrace (List.get_mem slowRun.log ⟨2, by decide⟩) 3).2 ⟨rfl, rfl, rfl⟩

end Witnesses

end TxPlatform
