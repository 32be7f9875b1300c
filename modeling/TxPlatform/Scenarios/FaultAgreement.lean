import TxPlatform.Scenarios.Schema
import TxPlatform.Faults.Binding

/-! # Scenario files and services agree on fault rules (schema.py:23-90, FaultRuleValidator.cs)

The schema checks each field of a `FaultSpec` against its range and then the fields against each
other. `to_rule` writes the rule that the addressed pod binds and validates a second time.
-/

namespace TxPlatform

/-! ## The schema (schema.py:23-78) -/

/-- `FAULT_OPERATIONS`. -/
def faultOperations : Workload → List String
  | .inventoryService => ["inventory.reserve", "inventory.release", "readiness"]
  | .fraudService => ["fraud.evaluate", "readiness"]
  | .paymentService => ["payment.authorize", "payment.void", "readiness"]
  | .shippingService => ["shipping.create", "readiness"]
  | _ => []

/-- `DOWNSTREAM_SERVICES`: the literals `service` may be, with the service each of them names. -/
def downstreamService : Workload → Option PlatformService
  | .inventoryService => some .inventoryService
  | .fraudService => some .fraudService
  | .paymentService => some .paymentService
  | .shippingService => some .shippingService
  | _ => none

def maxFaultTtlSeconds : Int := 1800

/-- `Field(ge=low, le=high)` of an optional field; `none` for a bound that is not set. -/
def withinField (low : Int) (high : Option Int) : Option Int → Bool
  | none => true
  | some value => low ≤ value ∧ ∀ bound ∈ high, value ≤ bound

namespace FaultSpec

def fieldsInRange (spec : FaultSpec) : Bool :=
  (downstreamService spec.service).isSome && withinField 1 (some 120000) spec.delayMs
    && withinField 400 (some 599) spec.statusCode && withinField 1 none spec.failAttempts
    && withinField 2 none spec.everyNth && withinField 1 none spec.maxActivations
    && withinField 10 (some maxFaultTtlSeconds) (some spec.ttlSeconds)

/-- `check_parameters`: the first error, or nothing. -/
def checkParameters (spec : FaultSpec) : Except String Unit :=
  let service := spec.service.name
  let operation := spec.operation
  let mode := spec.mode.literal
  if operation ∉ faultOperations spec.service then
    .error s!"{service} has no operation '{operation}'"
  else if (spec.mode = .readinessLoss) ≠ (operation = "readiness") then
    .error "readiness-loss faults must use the 'readiness' operation, and only they may"
  else if spec.mode = .readinessLoss ∧ spec.isScoped then
    .error "readiness-loss faults affect a whole pod and must set scoped: false"
  else if spec.mode = .latency ∧ spec.delayMs = none then
    .error "latency faults need delayMs"
  else if (spec.mode = .httpError ∨ spec.mode = .intermittent) ∧ spec.statusCode = none then
    .error s!"{mode} faults need statusCode"
  else if spec.mode = .intermittent ∧ (spec.failAttempts = none) = (spec.everyNth = none) then
    .error "intermittent faults need exactly one of failAttempts or everyNth"
  else if spec.phase = some .afterEffect ∧ spec.mode ≠ .latency then
    .error "only latency faults can run after the business effect"
  else .ok ()

/-- The specification is one of a validated scenario. -/
def isValid (spec : FaultSpec) : Bool := spec.fieldsInRange && spec.checkParameters.isOk

/-- What `check_parameters` leaves of a specification. -/
structure Consistent (spec : FaultSpec) : Prop where
  operation : spec.operation ∈ faultOperations spec.service
  readiness : spec.mode = .readinessLoss ↔ spec.operation = "readiness"
  latency : spec.mode = .latency → spec.delayMs ≠ none
  status : spec.mode = .httpError ∨ spec.mode = .intermittent → spec.statusCode ≠ none
  attempts : spec.mode = .intermittent → ¬ (spec.failAttempts = none ↔ spec.everyNth = none)
  phase : spec.phase = some .afterEffect → spec.mode = .latency

theorem ite_error_isOk {ε α : Type} {c : Prop} [Decidable c] {e : ε} {x : Except ε α} :
    (if c then .error e else x).isOk = true ↔ ¬ c ∧ x.isOk = true := by
  by_cases h : c <;> simp [h, Except.isOk, Except.toBool]

theorem consistent_of_isOk {spec : FaultSpec} (h : spec.checkParameters.isOk) : spec.Consistent := by
  simp only [checkParameters, ite_error_isOk, not_not, ne_eq, eq_iff_iff, not_and] at h
  obtain ⟨hoperation, hreadiness, _, hlatency, hstatus, hattempts, hphase, _⟩ := h
  exact ⟨hoperation, hreadiness, hlatency, hstatus, hattempts, hphase⟩

/-- The ranges of the fields. -/
structure InRange (spec : FaultSpec) : Prop where
  service : ∃ service, downstreamService spec.service = some service
  delay : ∀ ms, spec.delayMs = some ms → 1 ≤ ms ∧ ms ≤ 120000
  status : ∀ code, spec.statusCode = some code → 400 ≤ code ∧ code ≤ 599
  attempts : ∀ n, spec.failAttempts = some n → 1 ≤ n
  nth : ∀ n, spec.everyNth = some n → 2 ≤ n
  activations : ∀ n, spec.maxActivations = some n → 1 ≤ n
  ttl : 10 ≤ spec.ttlSeconds ∧ spec.ttlSeconds ≤ 1800

theorem withinField_iff {low : Int} {high : Option Int} {value : Option Int} :
    withinField low high value ↔ ∀ v, value = some v → low ≤ v ∧ ∀ bound ∈ high, v ≤ bound := by
  cases value <;> simp [withinField]

theorem inRange_of_fieldsInRange {spec : FaultSpec} (h : spec.fieldsInRange) : spec.InRange := by
  simp only [fieldsInRange, Bool.and_eq_true, withinField_iff, Option.mem_def,
    Option.some.injEq, forall_eq', reduceCtorEq, false_imp_iff, implies_true, and_true,
    Option.isSome_iff_exists, maxFaultTtlSeconds] at h
  obtain ⟨⟨⟨⟨⟨⟨hservice, hdelay⟩, hstatus⟩, hattempts⟩, hnth⟩, hactivations⟩, httl⟩ := h
  exact ⟨hservice, hdelay, hstatus, hattempts, hnth, hactivations, httl⟩

end FaultSpec

/-! ## What the pod reads -/

def FaultSpecMode.faultMode : FaultSpecMode → FaultMode
  | .latency => .latency
  | .httpError => .httpError
  | .timeout => .timeout
  | .intermittent => .intermittent
  | .businessRejection => .businessRejection
  | .readinessLoss => .readinessLoss

def FaultSpecPhase.faultPhase : FaultSpecPhase → FaultPhase
  | .beforeEffect => .beforeEffect
  | .afterEffect => .afterEffect

namespace FaultSpec

/-- The members `to_rule` chooses from. -/
def ruleMembers (spec : FaultSpec) (scenarioRunId : String) : List (String × Option Json) :=
  [("operation", some (.str spec.operation)), ("mode", some (.str spec.mode.literal)),
    ("ttlSeconds", some (.int spec.ttlSeconds)), ("delayMs", spec.delayMs.map .int),
    ("statusCode", spec.statusCode.map .int), ("phase", spec.phase.map (.str ·.literal)),
    ("failAttempts", spec.failAttempts.map .int), ("everyNth", spec.everyNth.map .int),
    ("maxActivations", spec.maxActivations.map .int),
    ("scenarioRunId", if spec.isScoped then some (.str scenarioRunId) else none)]

theorem toRule_eq (spec : FaultSpec) (scenarioRunId : String) :
    spec.toRule scenarioRunId = .obj (Json.present (spec.ruleMembers scenarioRunId)) := rfl

theorem member_toRule {spec : FaultSpec} {scenarioRunId key : String} {value : Option Json}
    (h : (key, value) ∈ spec.ruleMembers scenarioRunId) :
    Json.member (Json.present (spec.ruleMembers scenarioRunId)) key = value := by
  refine Json.member_present ?_ h
  show List.Nodup ["operation", "mode", "ttlSeconds", "delayMs", "statusCode", "phase",
    "failAttempts", "everyNth", "maxActivations", "scenarioRunId"]
  decide

/-- An optional number fits the `int?` it is bound to. -/
def Fits (value : Option Int) : Prop := ∀ n, value = some n → I32.minValue ≤ n ∧ n ≤ I32.maxValue

instance (value : Option Int) : Decidable (Fits value) :=
  match value with
  | none => .isTrue (fun _ h => nomatch h)
  | some n => decidable_of_iff (I32.minValue ≤ n ∧ n ≤ I32.maxValue) (by simp [Fits])

theorem readInt_int (n : Int) :
    FaultRuleRequest.readInt (.int n) = if Fits (some n) then some (BitVec.ofInt 32 n) else none := by
  simp [FaultRuleRequest.readInt, Fits]

theorem nullable_readInt (value : Option Int) :
    FaultRuleRequest.nullable FaultRuleRequest.readInt (value.map .int) =
      if Fits value then some (value.map (BitVec.ofInt 32)) else none := by
  cases value with
  | none => simp [FaultRuleRequest.nullable, Fits]
  | some n =>
    simp only [Option.map_some, FaultRuleRequest.nullable, readInt_int]
    split <;> rfl

/-- The request the pod binds. -/
def request (spec : FaultSpec) (scenarioRunId : String) : FaultRuleRequest where
  operation := some spec.operation
  mode := spec.mode.faultMode
  ttlSeconds := BitVec.ofInt 32 spec.ttlSeconds
  delayMs := spec.delayMs.map (BitVec.ofInt 32)
  statusCode := spec.statusCode.map (BitVec.ofInt 32)
  phase := spec.phase.map (·.faultPhase)
  failAttempts := spec.failAttempts.map (BitVec.ofInt 32)
  everyNth := spec.everyNth.map (BitVec.ofInt 32)
  scenarioRunId := if spec.isScoped then some scenarioRunId else none
  maxActivations := spec.maxActivations.map (BitVec.ofInt 32)

/-- Every number of the rule fits. -/
def NumbersFit (spec : FaultSpec) : Prop :=
  Fits (some spec.ttlSeconds) ∧ Fits spec.delayMs ∧ Fits spec.statusCode ∧ Fits spec.failAttempts ∧
    Fits spec.everyNth ∧ Fits spec.maxActivations

instance (spec : FaultSpec) : Decidable spec.NumbersFit := inferInstanceAs (Decidable (_ ∧ _))

theorem readMode_literal (mode : FaultSpecMode) :
    FaultRuleRequest.readMode (.str mode.literal) = some mode.faultMode := by
  cases mode <;> decide

theorem nullable_readPhase (phase : Option FaultSpecPhase) :
    FaultRuleRequest.nullable FaultRuleRequest.readPhase (phase.map (.str ·.literal)) =
      some (phase.map (·.faultPhase)) := by
  cases phase with
  | none => rfl
  | some phase => cases phase <;> decide

theorem nullable_readString (isScoped : Bool) (scenarioRunId : String) :
    FaultRuleRequest.nullable FaultRuleRequest.readString
      (if isScoped then some (.str scenarioRunId) else none) =
      some (if isScoped then some scenarioRunId else none) := by
  cases isScoped <;> rfl

theorem bind_ite {α β : Type} {c : Prop} [Decidable c] (a : α) (f : α → Option β) :
    ((if c then some a else none) >>= f) = if c then f a else none := by
  split <;> rfl

/-- The pod binds a rule exactly when its numbers fit. -/
theorem bind_toRule (spec : FaultSpec) (scenarioRunId : String) :
    FaultRuleRequest.bind (spec.toRule scenarioRunId) =
      if spec.NumbersFit then some (spec.request scenarioRunId) else none := by
  have hmember := fun key value => @member_toRule spec scenarioRunId key value
  rw [toRule_eq, FaultRuleRequest.bind]
  simp only [hmember "operation" (some (.str spec.operation)) (by simp [ruleMembers]),
    hmember "mode" (some (.str spec.mode.literal)) (by simp [ruleMembers]),
    hmember "ttlSeconds" (some (.int spec.ttlSeconds)) (by simp [ruleMembers]),
    hmember "delayMs" (spec.delayMs.map .int) (by simp [ruleMembers]),
    hmember "statusCode" (spec.statusCode.map .int) (by simp [ruleMembers]),
    hmember "phase" (spec.phase.map (.str ·.literal)) (by simp [ruleMembers]),
    hmember "failAttempts" (spec.failAttempts.map .int) (by simp [ruleMembers]),
    hmember "everyNth" (spec.everyNth.map .int) (by simp [ruleMembers]),
    hmember "maxActivations" (spec.maxActivations.map .int) (by simp [ruleMembers]),
    hmember "scenarioRunId" (if spec.isScoped then some (.str scenarioRunId) else none)
    (by simp [ruleMembers]), nullable_readInt, nullable_readPhase, nullable_readString,
    FaultRuleRequest.valueType, readMode_literal,
    readInt_int, bind_ite]
  show (if Fits (some spec.ttlSeconds) then if Fits spec.delayMs then if Fits spec.statusCode then
    if Fits spec.failAttempts then if Fits spec.everyNth then if Fits spec.maxActivations then
      some (spec.request scenarioRunId) else none else none else none else none else none else none) = _
  by_cases h : spec.NumbersFit
  · obtain ⟨httl, hdelay, hstatus, hattempts, hnth, hactivations⟩ := id h
    simp only [h, httl, hdelay, hstatus, hattempts, hnth, hactivations, if_true]
  · rw [if_neg h]
    split_ifs with httl hdelay hstatus hattempts hnth hactivations <;> try rfl
    exact absurd ⟨httl, hdelay, hstatus, hattempts, hnth, hactivations⟩ h

/-- The three counts of a rule fit an `int`; the schema gives them no upper bound. -/
def CountsFit (spec : FaultSpec) : Prop :=
  ∀ n, spec.failAttempts = some n ∨ spec.everyNth = some n ∨ spec.maxActivations = some n → n ≤ 2147483647

theorem numbersFit_iff {spec : FaultSpec} (h : spec.InRange) : spec.NumbersFit ↔ spec.CountsFit := by
  have hmin : I32.minValue = -2147483648 := rfl
  have hmax : I32.maxValue = 2147483647 := rfl
  constructor
  · rintro ⟨_, _, _, hattempts, hnth, hactivations⟩ n (hn | hn | hn)
    · exact (hattempts n hn).2
    · exact (hnth n hn).2
    · exact (hactivations n hn).2
  · intro hcounts
    refine ⟨?_, ?_, ?_, ?_, ?_, ?_⟩
    · rintro n hn
      cases hn
      have := h.ttl
      omega
    · intro n hn
      have := h.delay n hn
      omega
    · intro n hn
      have := h.status n hn
      omega
    · intro n hn
      have := h.attempts n hn
      have := hcounts n (.inl hn)
      omega
    · intro n hn
      have := h.nth n hn
      have := hcounts n (.inr (.inl hn))
      omega
    · intro n hn
      have := h.activations n hn
      have := hcounts n (.inr (.inr hn))
      omega

/-- A bound number keeps its value. -/
theorem exists_of_map {value : Option Int} {v : I32} (hfits : Fits value)
    (h : value.map (BitVec.ofInt 32) = some v) : ∃ n, value = some n ∧ v.toInt = n := by
  obtain ⟨n, hn, rfl⟩ := Option.map_eq_some_iff.1 h
  exact ⟨n, hn, I32.toInt_ofInt (hfits n hn)⟩

theorem faultMode_inj (mode mode' : FaultSpecMode) : mode.faultMode = mode'.faultMode ↔ mode = mode' := by
  cases mode <;> cases mode' <;> decide

/-- The operations of the schema, readiness apart, are those of the service. -/
theorem mem_faultOperations {workload : Workload} {service : PlatformService} {operation : String}
    (hservice : downstreamService workload = some service) (h : operation ∈ faultOperations workload)
    (hready : operation ≠ "readiness") : operation ∈ service.faultOperations := by
  cases workload <;> cases hservice <;>
    simp only [faultOperations, List.mem_cons, List.not_mem_nil, or_false, hready] at h <;>
    simpa [PlatformService.faultOperations, ReservationEndpoints.reserveOperation,
      ReservationEndpoints.releaseOperation, EvaluationEndpoints.evaluateOperation,
      PaymentEndpoints.authorizeOperation, PaymentEndpoints.voidOperation,
        ShipmentEndpoints.createOperation] using h

theorem hasParameters_request {spec : FaultSpec} (hrange : spec.InRange) (hconsistent : spec.Consistent)
    (hfit : spec.NumbersFit) (scenarioRunId : String) :
    FaultRuleValidator.HasParameters (spec.request scenarioRunId) := by
  obtain ⟨_, _, _, hattempts, hnth, _⟩ := hfit
  refine ⟨?_, ?_, ?_⟩
  · intro hmode
    have := hconsistent.latency ((faultMode_inj spec.mode .latency).1 hmode)
    simpa [request, Option.isSome_iff_ne_none] using this
  · intro hmode
    have := hconsistent.status (.inl ((faultMode_inj spec.mode .httpError).1 hmode))
    simpa [request, Option.isSome_iff_ne_none] using this
  · intro hmode
    have hspec := (faultMode_inj spec.mode .intermittent).1 hmode
    have hstatus := hconsistent.status (.inr hspec)
    refine ⟨by simpa [request, Option.isSome_iff_ne_none] using hstatus, ?_⟩
    have hone := hconsistent.attempts hspec
    cases hfail : spec.failAttempts with
    | none =>
      cases hevery : spec.everyNth with
      | none => simp [hfail, hevery] at hone
      | some n =>
        refine .inr ⟨BitVec.ofInt 32 n, by simp [request, hfail], by simp [request, hevery], ?_⟩
        rw [I32.toInt_ofInt (hnth n hevery)]
        exact hrange.nth n hevery
    | some n =>
      cases hevery : spec.everyNth with
      | some _ => simp [hfail, hevery] at hone
      | none =>
        refine .inl ⟨BitVec.ofInt 32 n, by simp [request, hfail], by simp [request, hevery], ?_⟩
        rw [I32.toInt_ofInt (hattempts n hfail)]
        exact hrange.attempts n hfail

/-- The service accepts every rule of a valid specification whose numbers fit. -/
theorem accepts_request {spec : FaultSpec} {service : PlatformService} (hrange : spec.InRange)
    (hconsistent : spec.Consistent) (hfit : spec.NumbersFit)
    (hservice : downstreamService spec.service = some service) (scenarioRunId : String) :
    FaultRuleValidator.accepts (spec.request scenarioRunId) service.faultOperations
      FaultOptions.defaultMaxTtlSeconds := by
  have hparameters := hasParameters_request hrange hconsistent hfit scenarioRunId
  obtain ⟨httl, hdelay, hstatus, _, _, hactivations⟩ := hfit
  rw [FaultRuleValidator.accepts_iff]
  constructor
  · have hvalue : (spec.request scenarioRunId).ttlSeconds.toInt = spec.ttlSeconds :=
      I32.toInt_ofInt (httl _ rfl)
    have := hrange.ttl
    rw [hvalue, FaultOptions.defaultMaxTtlSeconds]
    omega
  · by_cases hmode : spec.mode = .readinessLoss
    · left
      exact ⟨(faultMode_inj _ .readinessLoss).2 hmode, congrArg some (hconsistent.readiness.1 hmode)⟩
    · right
      have hready : spec.operation ≠ "readiness" := fun h => hmode (hconsistent.readiness.2 h)
      refine ⟨fun h => hmode ((faultMode_inj _ .readinessLoss).1 h), ?_, ?_, ?_, hparameters, ?_, ?_⟩
      · exact List.mem_map_of_mem (mem_faultOperations hservice hconsistent.operation hready)
      · intro ms hms
        obtain ⟨n, hn, hvalue⟩ := exists_of_map hdelay hms
        rw [hvalue]
        exact hrange.delay n hn
      · intro code hcode
        obtain ⟨n, hn, hvalue⟩ := exists_of_map hstatus hcode
        rw [hvalue]
        exact hrange.status n hn
      · intro hphase
        obtain ⟨phase, hp, he⟩ := Option.map_eq_some_iff.1 hphase
        have hafter : phase = .afterEffect := by
          cases phase with
          | beforeEffect => exact absurd he (by decide)
          | afterEffect => rfl
        exact (faultMode_inj _ .latency).2 (hconsistent.phase (hafter ▸ hp))
      · intro max hmax
        obtain ⟨n, hn, hvalue⟩ := exists_of_map hactivations hmax
        rw [hvalue]
        exact hrange.activations n hn

end FaultSpec

/-- **Exactly when scenario files and services agree**: the rule of a valid specification binds and is
accepted by the service it addresses if and only if its counts fit an `int`. -/
theorem fault_rules_agree_iff (spec : FaultSpec) (scenarioRunId : String) (hvalid : spec.isValid) :
    (∃ service request, downstreamService spec.service = some service ∧
      FaultRuleRequest.bind (spec.toRule scenarioRunId) = some request ∧
      FaultRuleValidator.accepts request service.faultOperations FaultOptions.defaultMaxTtlSeconds) ↔
    spec.CountsFit := by
  simp only [FaultSpec.isValid, Bool.and_eq_true] at hvalid
  have hrange := FaultSpec.inRange_of_fieldsInRange hvalid.1
  have hconsistent := FaultSpec.consistent_of_isOk hvalid.2
  rw [← FaultSpec.numbersFit_iff hrange]
  constructor
  · rintro ⟨_, request, _, hbind, _⟩
    rw [FaultSpec.bind_toRule] at hbind
    split at hbind
    · assumption
    · cases hbind
  · intro hfit
    obtain ⟨service, hservice⟩ := hrange.service
    refine ⟨service, spec.request scenarioRunId, hservice, ?_,
      FaultSpec.accepts_request hrange hconsistent hfit hservice scenarioRunId⟩
    rw [FaultSpec.bind_toRule, if_pos hfit]

/-- A latency fault on payments, applied to at most `activations` requests. -/
def slowPayments (activations : Int) : FaultSpec where
  service := .paymentService
  operation := "payment.authorize"
  mode := .latency
  delayMs := some 1200
  maxActivations := some activations
  ttlSeconds := 120

theorem fault_rules_agree_slow_payments :
    ∃ service request, downstreamService .paymentService = some service ∧
      FaultRuleRequest.bind ((slowPayments 3).toRule "run-1") = some request ∧
      FaultRuleValidator.accepts request service.faultOperations FaultOptions.defaultMaxTtlSeconds :=
  (fault_rules_agree_iff (slowPayments 3) "run-1" (by decide)).2
    (by rintro n (h | h | h) <;> cases h; decide)

/-- The schema accepts three billion activations; the service cannot read the rule. -/
theorem unreadable_rule : (slowPayments 3000000000).isValid = true ∧
    ¬ ∃ service request, downstreamService .paymentService = some service ∧
      FaultRuleRequest.bind ((slowPayments 3000000000).toRule "run-1") = some request ∧
      FaultRuleValidator.accepts request service.faultOperations FaultOptions.defaultMaxTtlSeconds := by
  refine ⟨by decide, ?_⟩
  rintro ⟨_, request, _, hbind, _⟩
  have hnone : FaultRuleRequest.bind ((slowPayments 3000000000).toRule "run-1") = none := by decide
  rw [hnone] at hbind
  cases hbind

end TxPlatform
