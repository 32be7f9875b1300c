import TxPlatform.Lib.Machine
import TxPlatform.Scenarios.Expectations
import TxPlatform.Scenarios.Records

/-! # Who writes `passed` (scenario_cli.py:43-82, engine.py:159-204, contracts.py:52-72, 429-453)

Commands are executed one after the other. A `run` saves its record twice: when it starts and in its
`finally` block; what happens in between adds checks one at a time and may stop anywhere. `verify`
loads a record, drops its telemetry checks, adds those of the contract and writes the status anew. A
`verify` that raises saves nothing, and `list`, `show` and `report` only read.
-/

namespace TxPlatform

namespace Verdicts

/-! ## The telemetry contract -/

/-- What a contract tells its `Context`. -/
inductive ContractCall where
  | check (name : String) (problems : List String) (subject : String)
  | note (name subject : String)

/-- `Context`, its dictionaries in insertion order. -/
structure Findings where
  problems : List (String × List String) := []
  subjects : List (String × List String) := []
  notes : List (String × List String) := []

/-- `xs.setdefault(key, []).extend(values)`. -/
def extendAt (xs : List (String × List String)) (key : String) (values : List String) :
    List (String × List String) :=
  if key ∈ xs.map Prod.fst then xs.map fun entry =>
    if entry.1 = key then (entry.1, entry.2 ++ values) else entry
  else xs ++ [(key, values)]

/-- `Context.check` and `Context.note`. -/
def Findings.apply (findings : Findings) : ContractCall → Findings
  | .check name problems subject =>
    { findings with
      problems := extendAt findings.problems name
        (problems.map fun problem => if subject = "" then problem else subject ++ ": " ++ problem)
      subjects := if subject = "" then findings.subjects else extendAt findings.subjects name [subject] }
  | .note name subject => { findings with notes := extendAt findings.notes name [subject] }

def kongGapNote : String := "gateway span gap (known Kong 3.9 limitation)"

def kongGapDetail (count : Nat) : String :=
  toString count ++ " trace(s): Kong answered a 5xx upstream response with a new balancer span, " ++
    "so OrderService's parent span id is never exported"

/-- The keys of `CONTRACTS`. -/
def contracts : List String :=
  ["normal-order", "slow-payment", "payment-retry", "payment-timeout", "inventory-failure",
    "fraud-rejection", "shipping-failure", "dependency-unavailable", "pod-deletion",
    "rolling-restart", "readiness-loss",
    "replica-degradation", "kong-rate-limit", "oversized-request", "auth-denied", "traffic-spike",
      "collector-outage",
    "trace-storage-outage"]

def telemetryCheck (name : String) (passed : Bool) (detail : String) : Check :=
  { layer := "telemetry", name, passed, detail }

def problemCheck (findings : Findings) (name : String) (problems : List String) : Check :=
  let unique := problems.eraseDups
  let checked := ((findings.subjects.lookup name).getD []).eraseDups.length
  let detail := "; ".intercalate (unique.take 6) ++
    if unique.length > 6 then " (+" ++ toString (unique.length - 6) ++ " more)" else ""
  let passedDetail := if checked = 0 then "as expected" else toString checked ++ " trace(s) as expected"
  telemetryCheck name unique.isEmpty (if detail = "" then passedDetail else detail)

def noteCheck (name : String) (subjects : List String) : Check :=
  let unique := subjects.eraseDups
  telemetryCheck name true
    (if name = kongGapNote then kongGapDetail unique.length else "; ".intercalate (unique.take 3))

/-- The checks `contracts.verify` adds, in this order, for a contract that made these calls. -/
def telemetryChecks (contract : Option String) (calls : List ContractCall) : List Check :=
  match contract with
  | none => []
  | some contract =>
    if contract ∈ contracts then
      let findings := calls.foldl Findings.apply {}
      (findings.problems.map fun entry => problemCheck findings entry.1 entry.2) ++
        (findings.notes.map fun entry => noteCheck entry.1 entry.2) ++
        if findings.problems.isEmpty then
          [telemetryCheck "telemetry contract" false "the contract produced no checks"]
        else []
    else [telemetryCheck "telemetry contract" false ("unknown contract '" ++ contract ++ "'")]

/-! ## The commands -/

/-- How far the `try` block of `run` has come; what is left to be added is listed. -/
inductive RunStage where
  | traffic
  | application (todo : List Check)
  | telemetry (todo : List Check)
  | finishing

/-- `files` are the saved records, `active` the run under way with its record in memory. `evaluated`
keeps the application checks that a run has evaluated. -/
structure System where
  files : String → Option RunRecord := fun _ => none
  active : Option (RunRecord × RunStage) := none
  evaluated : String → Option (List Check) := fun _ => none

inductive Command where
  /-- `run` saves the new record. -/
  | begin (runId scenarioId startedAt : String)
  | preflightFailed (error : String)
  | sent (requests : List Json)
  | evaluate (repr : String → String) (expectations : ApplicationExpectations)
      (requests : List RequestRecord) (orders : List (String × OrderView))
      (ledger : Option (String → Int))
  | addCheck
  /-- `contracts.verify`, or none with `--skip-telemetry`. -/
  | verifyTelemetry (contract : Option String) (calls : List ContractCall)
  | verdict
  /-- An exception or Ctrl+C in the `try` block. -/
  | raises (interrupt : Bool) (error : String)
  | finish (finishedAt : String)
  /-- The process ends without saving. -/
  | dies
  /-- `restore_interrupted_runs`, for one record. -/
  | restored (runId : String)
  | verify (runId : String) (contract : Option String) (calls : List ContractCall)

/-- The checks as `record.add_check` stores them. -/
def applicationLayer (results : List CheckResult) : List Check :=
  results.map fun result =>
    { layer := "application", name := result.name, passed := result.passed,
      detail := result.detail }

/-- `"passed" if record.passed else "failed"`. -/
def verdictOf (record : RunRecord) : RunRecord :=
  { record with status := if record.allPassed then .passed else .failed }

/-- `_cmd_verify`, on the record it has loaded. -/
def verified (record : RunRecord) (contract : Option String) (calls : List ContractCall) : RunRecord :=
  verdictOf { record with
    checks := (record.checks.filter fun check => check.layer ≠ "telemetry") ++
      telemetryChecks contract calls }

namespace System

def save (s : System) (record : RunRecord) : System :=
  { s with files := Function.update s.files record.runId (some record) }

end System

def machine : Machine System Command where
  step s
    | .begin runId scenarioId startedAt =>
      match s.active with
      | some _ => none
      | none =>
        let record : RunRecord := { runId, scenarioId, startedAt }
        some { s.save record with
          active := some (record, .traffic)
          evaluated := Function.update s.evaluated runId none }
    | .preflightFailed error =>
      match s.active with
      | some (record, .traffic) =>
        some { s with active := some ({ record with status := .error, error := error,
                                                    restored := true }, .finishing) }
      | _ => none
    | .sent requests =>
      match s.active with
      | some (record, .traffic) =>
        some { s with active := some ({ record with requests := requests }, .traffic) }
      | _ => none
    | .evaluate repr expectations requests orders ledger =>
      match s.active with
      | some (record, .traffic) =>
        let results := applicationLayer (applicationChecks repr expectations requests orders ledger)
        some { s with
          active := some (record, .application results)
          evaluated := Function.update s.evaluated record.runId (some results) }
      | _ => none
    | .addCheck =>
      match s.active with
      | some (record, .application (check :: todo)) =>
        some { s with active := some ({ record with checks := record.checks ++ [check] }, .application todo) }
      | some (record, .telemetry (check :: todo)) =>
        some { s with active := some ({ record with checks := record.checks ++ [check] }, .telemetry todo) }
      | _ => none
    | .verifyTelemetry contract calls =>
      match s.active with
      | some (record, .application []) =>
        some { s with active := some (record, .telemetry (telemetryChecks contract calls)) }
      | _ => none
    | .verdict =>
      match s.active with
      | some (record, .telemetry []) => some { s with active := some (verdictOf record, .finishing) }
      | _ => none
    | .raises interrupt error =>
      match s.active with
      | some (_, .finishing) => none
      | some (record, _) =>
        some { s with active := some ({ record with
          status := if interrupt then .interrupted else .error
          error := if interrupt then record.error else error }, .finishing) }
      | none => none
    | .finish finishedAt =>
      match s.active with
      | some (record, .finishing) =>
        some { s.save { record with finishedAt := finishedAt, restored := true } with active := none }
      | _ => none
    | .dies => some { s with active := none }
    | .restored runId =>
      match s.files runId with
      | some record => if record.restored then none else some (s.save record.marked)
      | none => none
    | .verify runId contract calls =>
      match s.active, s.files runId with
      | none, some record => some (s.save (verified record contract calls))
      | _, _ => none

/-! ## Passed records -/

/-- All application checks that the run has evaluated are in the record. -/
def Complete (s : System) (record : RunRecord) : Prop :=
  ∃ results, s.evaluated record.runId = some results ∧ ∀ check ∈ results, check ∈ record.checks

/-- A saved status `passed` stands on the application checks of the run, and all checks passed. -/
structure Earned (s : System) (record : RunRecord) : Prop where
  complete : Complete s record
  statuses : ∃ check ∈ record.checks, check.layer = "application" ∧ check.name = "HTTP statuses"
  passed : ∀ check ∈ record.checks, check.passed

/-- `verify` is given a run whose record contains its application checks. -/
def VerifiesComplete (before : System) (command : Command) (_after : System) : Prop :=
  ∀ runId contract calls record, command = .verify runId contract calls →
    before.files runId = some record →
    Complete before record

/-! ## What every step keeps -/

/-- What the run under way may still come to. -/
def StageSound (s : System) (record : RunRecord) : RunStage → Prop
  | .traffic => record.status ≠ .passed
  | .application todo => record.status ≠ .passed ∧ ∃ results, s.evaluated record.runId = some results ∧
      ∀ check ∈ results, check ∈ record.checks ∨ check ∈ todo
  | .telemetry _ => record.status ≠ .passed ∧ Complete s record
  | .finishing => record.status = .passed → Complete s record ∧ ∀ check ∈ record.checks, check.passed

structure Inv (s : System) : Prop where
  keyed : ∀ runId record, s.files runId = some record → record.runId = runId
  saved : ∀ runId record, s.files runId = some record → record.status = .passed →
    Complete s record ∧ ∀ check ∈ record.checks, check.passed
  results : ∀ runId results, s.evaluated runId = some results →
    (∀ check ∈ results, check.layer = "application") ∧ ∃ check ∈ results, check.name = "HTTP statuses"
  active : ∀ record stage, s.active = some (record, stage) → StageSound s record stage
  live : ∀ record stage saved, s.active = some (record, stage) → s.files record.runId = some saved →
    saved.status ≠ .passed

theorem inv_start : Inv {} where
  keyed := by intro _ _ h; cases h
  saved := by intro _ _ h; cases h
  results := by intro _ _ h; cases h
  active := by intro _ _ h; cases h
  live := by intro _ _ _ h; cases h

theorem allPassed_iff {record : RunRecord} :
    record.allPassed ↔ record.checks ≠ [] ∧ ∀ check ∈ record.checks, check.passed := by
  simp [RunRecord.allPassed]

/-- A verdict is `passed` only if all checks passed. -/
theorem passed_of_verdictOf {record : RunRecord} (h : (verdictOf record).status = .passed) :
    ∀ check ∈ record.checks, check.passed := by
  unfold verdictOf at h
  simp only at h
  split at h
  · rename_i hall
    exact (allPassed_iff.1 hall).2
  · cases h

theorem layer_applicationLayer {results : List CheckResult} {check : Check}
    (h : check ∈ applicationLayer results) :
    check.layer = "application" := by
  obtain ⟨_, _, rfl⟩ := List.mem_map.1 h
  rfl

/-- The first application check is about the HTTP statuses. -/
theorem statuses_mem_applicationLayer (repr : String → String) (expectations : ApplicationExpectations)
    (requests : List RequestRecord) (orders : List (String × OrderView))
    (ledger : Option (String → Int)) :
    ∃ check ∈ applicationLayer (applicationChecks repr expectations requests orders ledger),
      check.name = "HTTP statuses" :=
  ⟨_, List.mem_map_of_mem (mem_applicationChecks.2 (.inl rfl)), rfl⟩

theorem saved_cases {s : System} {record other : RunRecord} {runId : String}
    (h : (s.save record).files runId = some other) :
    (runId = record.runId ∧ record = other) ∨ s.files runId = some other := by
  by_cases hid : runId = record.runId
  · subst hid
    simp only [System.save, Function.update_self, Option.some.injEq] at h
    exact .inl ⟨rfl, h⟩
  · simp only [System.save, Function.update_of_ne hid] at h
    exact .inr h

namespace Inv

variable {s : System}

theorem earned (h : Inv s) {runId : String} {record : RunRecord} (hfile : s.files runId = some record)
    (hpassed : record.status = .passed) : Earned s record := by
  obtain ⟨hcomplete, hall⟩ := h.saved runId record hfile hpassed
  obtain ⟨results, hresults, hmem⟩ := hcomplete
  obtain ⟨hlayer, check, hcheck, hname⟩ := h.results _ results hresults
  exact ⟨⟨results, hresults, hmem⟩, ⟨check, hmem check hcheck, hlayer check hcheck, hname⟩, hall⟩

/-- The record of the run under way changes, and nothing on disk. -/
theorem setActive (h : Inv s) {record record' : RunRecord} {stage stage' : RunStage}
    (hactive : s.active = some (record, stage)) (hid : record'.runId = record.runId)
    (hsound : StageSound s record' stage') : Inv { s with active := some (record', stage') } := by
  refine ⟨h.keyed, h.saved, h.results, ?_, ?_⟩
  · intro _ _ heq
    cases heq
    cases stage' <;> exact hsound
  · intro _ _ saved heq hfile
    cases heq
    exact h.live record stage saved hactive (hid ▸ hfile)

theorem clearActive (h : Inv s) : Inv { s with active := none } := by
  refine ⟨h.keyed, h.saved, h.results, ?_, ?_⟩
  · intro _ _ heq
    cases heq
  · intro _ _ _ heq
    cases heq

/-- A record is saved whose status, if it is `passed`, is earned. -/
theorem save (h : Inv s) {record : RunRecord}
    (hpassed : record.status = .passed → Complete s record ∧ ∀ check ∈ record.checks, check.passed)
    (hlive : ∀ current stage, s.active = some (current, stage) → current.runId = record.runId →
      record.status ≠ .passed) : Inv (s.save record) := by
  refine ⟨?_, ?_, h.results, ?_, ?_⟩
  · intro runId other hfile
    rcases saved_cases hfile with ⟨hid, rfl⟩ | hfile
    · exact hid.symm
    · exact h.keyed runId other hfile
  · intro runId other hfile
    rcases saved_cases hfile with ⟨_, rfl⟩ | hfile
    · exact hpassed
    · exact h.saved runId other hfile
  · intro current stage hactive
    have := h.active current stage hactive
    cases stage <;> exact this
  · intro current stage saved hactive hfile
    rcases saved_cases hfile with ⟨hid, rfl⟩ | hfile
    · exact hlive current stage hactive hid
    · exact h.live current stage saved hactive hfile

/-- What is known about the checks of one run changes, together with the run under way. -/
theorem setEvaluated (h : Inv s) {record : RunRecord} {stage : RunStage} {results : Option (List Check)}
    (hresults : ∀ found, results = some found →
      (∀ check ∈ found, check.layer = "application") ∧ ∃ check ∈ found, check.name = "HTTP statuses")
    (hunpassed : ∀ saved, s.files record.runId = some saved → saved.status ≠ .passed)
    (hsound : StageSound { s with evaluated := Function.update s.evaluated record.runId results } record stage) :
    Inv { s with active := some (record, stage)
                 evaluated := Function.update s.evaluated record.runId results } := by
  refine ⟨h.keyed, ?_, ?_, ?_, ?_⟩
  · intro runId saved hfile hpassed
    have hid : saved.runId ≠ record.runId := by
      intro hid
      rw [← h.keyed runId saved hfile, hid] at hfile
      exact hunpassed saved hfile hpassed
    obtain ⟨⟨found, hfound, hmem⟩, hall⟩ := h.saved runId saved hfile hpassed
    refine ⟨⟨found, ?_, hmem⟩, hall⟩
    show Function.update s.evaluated record.runId results saved.runId = some found
    rw [Function.update_of_ne hid]
    exact hfound
  · intro runId found hfound
    have hfound : Function.update s.evaluated record.runId results runId = some found := hfound
    by_cases hid : runId = record.runId
    · subst hid
      rw [Function.update_self] at hfound
      exact hresults found hfound
    · rw [Function.update_of_ne hid] at hfound
      exact h.results runId found hfound
  · intro _ _ heq
    cases heq
    cases stage <;> exact hsound
  · intro _ _ saved heq hfile
    cases heq
    exact hunpassed saved hfile

/-- A new run, saved before it does anything. -/
theorem begin (h : Inv s) (hidle : s.active = none) {record : RunRecord}
    (hnew : record.status ≠ .passed) :
    Inv { s.save record with
      active := some (record, .traffic)
      evaluated := Function.update s.evaluated record.runId none } := by
  have hsaved : Inv (s.save record) := by
    refine h.save ?_ ?_
    · intro hpassed
      exact absurd hpassed hnew
    · intro _ _ hactive
      rw [hidle] at hactive
      cases hactive
  refine @setEvaluated _ hsaved record .traffic none ?_ ?_ hnew
  · intro _ heq
    cases heq
  · intro saved hfile
    simp only [System.save, Function.update_self, Option.some.injEq] at hfile
    rw [← hfile]
    exact hnew

theorem evaluate (h : Inv s) {record : RunRecord} (hactive : s.active = some (record, .traffic))
    (repr : String → String) (expectations : ApplicationExpectations)
    (requests : List RequestRecord) (orders : List (String × OrderView))
    (ledger : Option (String → Int)) :
    let results := applicationLayer (applicationChecks repr expectations requests orders ledger)
    Inv { s with
      active := some (record, .application results)
      evaluated := Function.update s.evaluated record.runId (some results) } := by
  intro results
  refine h.setEvaluated ?_ (fun saved => h.live record .traffic saved hactive)
    ⟨h.active record .traffic hactive, ?_⟩
  · intro _ heq
    cases heq
    exact ⟨fun _ => layer_applicationLayer,
      statuses_mem_applicationLayer repr expectations requests orders ledger⟩
  · exact ⟨_, Function.update_self _ _ _, fun _ hcheck => .inr hcheck⟩

theorem addApplicationCheck (h : Inv s) {record : RunRecord} {check : Check} {todo : List Check}
    (hactive : s.active = some (record, .application (check :: todo))) :
    Inv { s with
      active := some ({ record with checks := record.checks ++ [check] }, .application todo) } := by
  obtain ⟨hstatus, results, hresults, hmem⟩ := h.active record _ hactive
  refine h.setActive hactive rfl ⟨hstatus, results, hresults, ?_⟩
  intro found hfound
  rcases hmem found hfound with hin | htodo
  · exact .inl (List.mem_append_left _ hin)
  · rcases List.mem_cons.1 htodo with rfl | htodo
    · exact .inl (by simp)
    · exact .inr htodo

theorem addTelemetryCheck (h : Inv s) {record : RunRecord} {check : Check} {todo : List Check}
    (hactive : s.active = some (record, .telemetry (check :: todo))) :
    Inv { s with
      active := some ({ record with checks := record.checks ++ [check] }, .telemetry todo) } := by
  obtain ⟨hstatus, results, hresults, hmem⟩ := h.active record _ hactive
  refine h.setActive hactive rfl ⟨hstatus, results, hresults, ?_⟩
  intro found hfound
  exact List.mem_append_left _ (hmem found hfound)

/-- Once no application check is left to be added, the record has them all. -/
theorem verifyTelemetry (h : Inv s) {record : RunRecord}
    (hactive : s.active = some (record, .application [])) (todo : List Check) :
    Inv { s with active := some (record, .telemetry todo) } := by
  obtain ⟨hstatus, results, hresults, hmem⟩ := h.active record _ hactive
  refine h.setActive hactive rfl ⟨hstatus, results, hresults, ?_⟩
  intro found hfound
  exact (hmem found hfound).resolve_right List.not_mem_nil

theorem verdict (h : Inv s) {record : RunRecord} (hactive : s.active = some (record, .telemetry [])) :
    Inv { s with active := some (verdictOf record, .finishing) } := by
  obtain ⟨_, hcomplete⟩ := h.active record _ hactive
  refine h.setActive hactive rfl ?_
  intro hpassed
  exact ⟨hcomplete, passed_of_verdictOf hpassed⟩

theorem verify (h : Inv s) (hidle : s.active = none) {record : RunRecord} (hcomplete : Complete s record)
    (contract : Option String) (calls : List ContractCall) :
    Inv (s.save (verified record contract calls)) := by
  refine h.save ?_ ?_
  · intro hpassed
    obtain ⟨results, hresults, hmem⟩ := hcomplete
    refine ⟨⟨results, hresults, ?_⟩, passed_of_verdictOf hpassed⟩
    intro check hcheck
    -- an application check is none of those that were dropped
    have hlayer := (h.results _ results hresults).1 check hcheck
    exact List.mem_append_left _ (List.mem_filter.2 ⟨hmem check hcheck, by simp [hlayer]⟩)
  · intro current stage hactive
    rw [hidle] at hactive
    cases hactive

theorem restored (h : Inv s) {runId : String} {record : RunRecord} (hfile : s.files runId = some record) :
    Inv (s.save record.marked) := by
  have hstatus : record.marked.status = .passed → record.status = .passed := by
    unfold RunRecord.marked
    intro hpassed
    by_cases hrunning : record.status = .running <;> simp_all
  refine h.save ?_ ?_
  · intro hpassed
    exact h.saved runId record hfile (hstatus hpassed)
  · intro current stage hactive hid hpassed
    have hkeyed : record.marked.runId = runId := h.keyed runId record hfile
    exact h.live current stage record hactive (by rw [hid, hkeyed]; exact hfile) (hstatus hpassed)

/-! ### One command -/

variable {s' : System}

theorem step_begin (h : Inv s) {runId scenarioId startedAt : String}
    (hstep : machine.step s (.begin runId scenarioId startedAt) = some s') : Inv s' := by
  simp only [machine] at hstep
  split at hstep
  · cases hstep
  · rename_i hidle
    cases hstep
    exact h.begin hidle nofun

theorem step_preflightFailed (h : Inv s) {error : String}
    (hstep : machine.step s (.preflightFailed error) = some s') : Inv s' := by
  dsimp only [machine] at hstep
  split at hstep
  · rename_i record hactive
    cases hstep
    refine h.setActive hactive rfl ?_
    intro hpassed
    cases hpassed
  · cases hstep

theorem step_sent (h : Inv s) {requests : List Json}
    (hstep : machine.step s (.sent requests) = some s') : Inv s' := by
  dsimp only [machine] at hstep
  split at hstep
  · rename_i record hactive
    cases hstep
    exact h.setActive hactive rfl (h.active record .traffic hactive)
  · cases hstep

theorem step_evaluate (h : Inv s) {repr : String → String} {expectations : ApplicationExpectations}
    {requests : List RequestRecord}
    {orders : List (String × OrderView)} {ledger : Option (String → Int)}
    (hstep : machine.step s (.evaluate repr expectations requests orders ledger) = some s') : Inv s' := by
  dsimp only [machine] at hstep
  split at hstep
  · rename_i record hactive
    cases hstep
    exact h.evaluate hactive repr expectations requests orders ledger
  · cases hstep

theorem step_addCheck (h : Inv s)
    (hstep : machine.step s .addCheck = some s') : Inv s' := by
  dsimp only [machine] at hstep
  split at hstep
  · rename_i record check todo hactive
    cases hstep
    exact h.addApplicationCheck hactive
  · rename_i record check todo hactive
    cases hstep
    exact h.addTelemetryCheck hactive
  · cases hstep

theorem step_verifyTelemetry (h : Inv s) {contract : Option String} {calls : List ContractCall}
    (hstep : machine.step s (.verifyTelemetry contract calls) = some s') : Inv s' := by
  dsimp only [machine] at hstep
  split at hstep
  · rename_i record hactive
    cases hstep
    exact h.verifyTelemetry hactive (telemetryChecks contract calls)
  · cases hstep

theorem step_verdict (h : Inv s)
    (hstep : machine.step s .verdict = some s') : Inv s' := by
  dsimp only [machine] at hstep
  split at hstep
  · rename_i record hactive
    cases hstep
    exact h.verdict hactive
  · cases hstep

theorem step_raises (h : Inv s) {interrupt : Bool} {error : String}
    (hstep : machine.step s (.raises interrupt error) = some s') : Inv s' := by
  dsimp only [machine] at hstep
  split at hstep
  · cases hstep
  · rename_i record stage _ hactive
    cases hstep
    refine h.setActive hactive rfl ?_
    intro hpassed
    cases interrupt <;> cases hpassed
  · cases hstep

theorem step_finish (h : Inv s) {finishedAt : String}
    (hstep : machine.step s (.finish finishedAt) = some s') : Inv s' := by
  dsimp only [machine] at hstep
  split at hstep
  · rename_i record hactive
    cases hstep
    refine h.clearActive.save (h.active record .finishing hactive) ?_
    intro _ _ heq
    cases heq
  · cases hstep

theorem step_restored (h : Inv s) {runId : String}
    (hstep : machine.step s (.restored runId) = some s') : Inv s' := by
  dsimp only [machine] at hstep
  split at hstep
  · rename_i record hfile
    split at hstep
    · cases hstep
    · cases hstep
      exact h.restored hfile
  · cases hstep

theorem step_verify (h : Inv s) {runId : String} {contract : Option String} {calls : List ContractCall}
    (hgood : VerifiesComplete s (.verify runId contract calls) s')
    (hstep : machine.step s (.verify runId contract calls) = some s') : Inv s' := by
  dsimp only [machine] at hstep
  split at hstep
  · rename_i record hidle hfile
    cases hstep
    exact h.verify hidle (hgood runId contract calls record rfl hfile) contract calls
  · cases hstep

end Inv

theorem inv_step (s : System) (command : Command) (s' : System) (h : Inv s)
    (hstep : machine.step s command = some s') (hgood : VerifiesComplete s command s') : Inv s' := by
  cases command with
  | begin runId scenarioId startedAt => exact h.step_begin hstep
  | preflightFailed error => exact h.step_preflightFailed hstep
  | sent requests => exact h.step_sent hstep
  | evaluate repr expectations requests orders ledger => exact h.step_evaluate hstep
  | addCheck => exact h.step_addCheck hstep
  | verifyTelemetry contract calls => exact h.step_verifyTelemetry hstep
  | verdict => exact h.step_verdict hstep
  | raises interrupt error => exact h.step_raises hstep
  | finish finishedAt => exact h.step_finish hstep
  | dies =>
    cases hstep
    exact h.clearActive
  | restored runId => exact h.step_restored hstep
  | verify runId contract calls => exact h.step_verify hgood hstep

/-- **`passed` is earned**, in every sequence of commands in which `verify` is given only runs that have
evaluated their application checks and whose records contain them: a record that says `passed` contains all application
checks its run has evaluated, the one about the HTTP statuses among them, and all its
checks passed. -/
theorem passed_is_earned {commands : List Command} {s : System} (hrun : machine.run {} commands = some s)
    (hgood : machine.Along VerifiesComplete {} commands) :
    ∀ runId record, s.files runId = some record → record.status = .passed → Earned s record := by
  intro runId record hfile hpassed
  exact (Machine.run_inv_of_along inv_step inv_start hgood hrun).earned hfile hpassed

/-- A run of one order, without telemetry. -/
def passingRun : List Command :=
  [.begin "run-1" "normal-order" "", .sent [],
    .evaluate id { statuses := [(201, { all := true })], states := [("Completed", { all := true })] }
      [⟨201, "a", "Completed"⟩] [("a", ⟨"a", "Completed", []⟩)] none,
    .addCheck, .addCheck, .verifyTelemetry none [], .verdict, .finish ""]

theorem along_of_run {s : System} {commands : List Command}
    (h : ∀ command ∈ commands, ∀ runId contract calls, command ≠ .verify runId contract calls) :
    machine.Along VerifiesComplete s commands := by
  induction commands generalizing s with
  | nil => trivial
  | cons command commands ih =>
    simp only [Machine.Along]
    split
    · trivial
    · refine ⟨?_, ih fun other hother => h other (List.mem_cons_of_mem _ hother)⟩
      intro runId contract calls record heq
      exact absurd heq (h command List.mem_cons_self runId contract calls)

theorem passing_run_is_earned : ∃ s record, machine.run {} passingRun = some s ∧
      s.files "run-1" = some record ∧
    record.status = .passed ∧ Earned s record := by
  have hpassed : ∃ s record, machine.run {} passingRun = some s ∧ s.files "run-1" = some record ∧
      record.status = .passed := ⟨_, _, rfl, rfl, rfl⟩
  obtain ⟨s, record, hrun, hfile, hstatus⟩ := hpassed
  refine ⟨s, record, hrun, hfile, hstatus,
    passed_is_earned hrun (along_of_run ?_) "run-1" record hfile hstatus⟩
  intro command hcommand runId contract calls
  simp only [passingRun, List.mem_cons, List.not_mem_nil, or_false] at hcommand
  rcases hcommand with rfl | rfl | rfl | rfl | rfl | rfl | rfl | rfl <;> simp

/-- The orders could not be read back; the traces of the run are fine. -/
def verifiedAfterError : List Command :=
  [.begin "run-1" "normal-order" "", .sent [], .raises false "ConnectError", .finish "",
    .verify "run-1" (some "normal-order") [.check "trace integrity" [] "trace-1"]]

theorem verify_passes_after_error : ¬ ∀ commands s, machine.run {} commands = some s →
    ∀ runId record, s.files runId = some record → record.status = .passed → Earned s record := by
  intro h
  have hearned := h verifiedAfterError _ rfl "run-1" _ rfl rfl
  obtain ⟨results, hresults, _⟩ := hearned.complete
  cases hresults

end Verdicts

end TxPlatform
