import TxPlatform.Lib.Machine
import TxPlatform.Faults.Binding

/-! # Can every accepted rule be executed? (FaultRuleValidator.cs, FaultStrategies.cs,
FaultInjector.cs)

The strategies read optional fields without a check: the validator has checked them. It takes a mode
or a phase that is no declared member for granted, a phase at which the handler of the operation
never asks, and a scenario run whose id no request can carry.
-/

namespace TxPlatform

namespace FaultRule

/-- The rule was created from the request. -/
structure IsFrom (rule : FaultRule) (request : FaultRuleRequest) : Prop where
  operation : rule.operation = request.operation
  mode : rule.mode = request.mode
  delayMs : rule.delayMs = request.delayMs
  statusCode : rule.statusCode = request.statusCode
  phase : rule.phase = request.phase.getD .beforeEffect
  failAttempts : rule.failAttempts = request.failAttempts
  everyNth : rule.everyNth = request.everyNth
  scenarioRunId : rule.scenarioRunId = request.scenarioRunId
  maxActivations : rule.maxActivations = request.maxActivations

/-- The milliseconds the strategy of the rule waits, if it waits. -/
def awaited (rule : FaultRule) : Option Int :=
  if rule.mode = .latency then rule.delayMs.map (·.toInt)
  else if rule.mode = .timeout then some ((rule.delayMs.map (·.toInt)).getD defaultHoldMs)
  else none

end FaultRule

/-- The modes of `FaultMode`. -/
def FaultMode.declared : List FaultMode := FaultMode.wireNames.map (·.2)

/-- What `ApplyAsync` may give: a decision whose status is an error status if it fails the request, or
the exception of a request that was cancelled while the strategy waited. -/
def SafeResult (env : FaultEnv) : Except Exn FaultDecision → Prop
  | .ok decision => decision.outcome = .fail → 400 ≤ decision.statusCode ∧ decision.statusCode ≤ 599
  | .error e => e = .operationCanceled ∧ env.cancelled

/-! ## The store of one pod -/

inductive StoreOp where
  | put (request : FaultRuleRequest) (newGuid : Guid) (now : Int)
  | apply (operation : String) (phase : FaultPhase) (key : String) (env : FaultEnv)
  | remove (id : String)
  | clear
  | list (now : Int)

/-- The operator's requests and the handlers' calls; only validated rules are added. -/
def storeMachine (service : PlatformService) (maxTtlSeconds : Int) : Machine FaultRuleStore StoreOp where
  step store
    | .put request newGuid now =>
      if FaultRuleValidator.accepts request service.faultOperations maxTtlSeconds then
        some (store.add request newGuid now)
      else some store
    | .apply operation phase key env =>
      some (FaultInjector.applyAsync (fun _ => env) operation phase key store).2
    | .remove id => some (store.remove id).2
    | .clear => some store.clear.2
    | .list now => some (store.listActive now)

/-- In no run does a call that matches a rule of the request throw, fail with a status that is none,
or wait outside the limits. -/
def ExecutesSafely (service : PlatformService) (maxTtlSeconds : Int)
    (request : FaultRuleRequest) : Prop :=
  ∀ ops store, (storeMachine service maxTtlSeconds).run .empty ops = some store →
    ∀ operation phase key env rule,
      store.findMatch operation phase env.scenarioRunId env.now = some rule →
      rule.IsFrom request →
      SafeResult env (FaultInjector.applyAsync (fun _ => env) operation phase key store).1 ∧
      ∀ ms, rule.awaited = some ms → 1 ≤ ms ∧ ms ≤ FaultRuleValidator.maxDelayMs ∨ ms = defaultHoldMs

/-- The scenario run ids a request can carry in its baggage. `Baggage` has no entry without a value. -/
structure BaggageIds where
  carried : String → Prop
  neverEmpty : ¬ carried ""

/-- What `GetBaggage` may return. -/
def BaggageIds.CanBe (ids : BaggageIds) (scenarioRunId : Option String) : Prop :=
  ∀ runId, scenarioRunId = some runId → ids.carried runId

/-- A rule that is not about readiness matches some call its operation's handler makes while it
lives. -/
def MatchesSomeCall (ids : BaggageIds) (request : FaultRuleRequest) : Prop :=
  request.mode ≠ .readinessLoss → ∀ newGuid now, ∃ operation, request.operation = some operation ∧
    ∃ phase ∈ PlatformService.faultPoints operation, ∃ env : FaultEnv, now ≤ env.now ∧
      ids.CanBe env.scenarioRunId ∧
      ((FaultRuleStore.empty.add request newGuid now).findMatch operation phase env.scenarioRunId env.now).isSome

/-- The mode is a declared one, the phase one at which the handler asks, and the scenario run, if the
rule is about one, has an id that requests can carry. -/
def RunsSomewhere (ids : BaggageIds) (request : FaultRuleRequest) : Prop :=
  request.mode ∈ FaultMode.declared ∧
  (request.mode ≠ .readinessLoss → ids.CanBe request.scenarioRunId ∧
    ∃ operation, request.operation = some operation ∧
      request.phase.getD .beforeEffect ∈ PlatformService.faultPoints operation)

/-! ## Rules keep what they were created with -/

theorem FaultRule.IsFrom.recordActivation {rule : FaultRule} {request : FaultRuleRequest}
    (h : rule.IsFrom request) :
    rule.recordActivation.IsFrom request :=
  ⟨h.operation, h.mode, h.delayMs, h.statusCode, h.phase, h.failAttempts, h.everyNth, h.scenarioRunId,
    h.maxActivations⟩

theorem isFrom_intermittent {rule : FaultRule} {request : FaultRuleRequest}
    (h : rule.IsFrom request) (key : String) :
    (intermittentShouldFail rule key).2.IsFrom request := by
  unfold intermittentShouldFail
  split <;>
    exact ⟨h.operation, h.mode, h.delayMs, h.statusCode, h.phase, h.failAttempts, h.everyNth,
      h.scenarioRunId, h.maxActivations⟩

theorem isFrom_execute {rule : FaultRule} {request : FaultRuleRequest} (h : rule.IsFrom request)
    (env : FaultEnv) (key : String) : (executeStrategy env rule key).2.IsFrom request := by
  unfold executeStrategy
  split
  · exact h
  · split
    · exact h
    · split
      · exact h
      · split
        · have hcounted := isFrom_intermittent h key
          unfold intermittentStrategy
          split <;> rename_i he <;> rw [he] at hcounted <;> exact hcounted
        · split <;> exact h

theorem isFrom_add {store : FaultRuleStore} {request : FaultRuleRequest} {newGuid : Guid} {now : Int}
    {rule : FaultRule} (h : rule ∈ (store.add request newGuid now).rules) :
    rule ∈ store.rules ∨ rule.IsFrom request := by
  rcases List.mem_append.1 h with h | h
  · exact .inl h
  · rw [List.mem_singleton] at h
    subst h
    exact .inr ⟨rfl, rfl, rfl, rfl, rfl, rfl, rfl, rfl, rfl⟩

theorem mem_updateFirst {p : FaultRule → Bool} {rule' rule : FaultRule} {rules : List FaultRule}
    (h : rule ∈ FaultRuleStore.updateFirst p rule' rules) : rule = rule' ∨ rule ∈ rules := by
  induction rules with
  | nil => cases h
  | cons first rules ih =>
    simp only [FaultRuleStore.updateFirst] at h
    split at h
    · rcases List.mem_cons.1 h with h | h
      · exact .inl h
      · exact .inr (List.mem_cons_of_mem _ h)
    · rcases List.mem_cons.1 h with h | h
      · exact .inr (h ▸ List.mem_cons_self)
      · exact (ih h).imp_right (List.mem_cons_of_mem _)

variable {service : PlatformService} {maxTtlSeconds : Int}

/-- Every stored rule was created from a request the validator accepted. -/
def FromAccepted (service : PlatformService) (maxTtlSeconds : Int) (store : FaultRuleStore) : Prop :=
  ∀ rule ∈ store.rules, ∃ request,
    FaultRuleValidator.accepts request service.faultOperations maxTtlSeconds ∧ rule.IsFrom request

theorem fromAccepted_step {store store' : FaultRuleStore} {op : StoreOp}
    (h : FromAccepted service maxTtlSeconds store)
    (hs : (storeMachine service maxTtlSeconds).step store op = some store') :
    FromAccepted service maxTtlSeconds store' := by
  cases op with
  | put request newGuid now =>
    simp only [storeMachine] at hs
    split at hs
    · rename_i haccepted
      cases hs
      intro rule hrule
      rcases isFrom_add hrule with hrule | hrule
      · exact h rule hrule
      · exact ⟨request, haccepted, hrule⟩
    · cases hs
      exact h
  | apply operation phase key env =>
    cases hs
    simp only [FaultInjector.applyAsync]
    split
    · exact h
    · rename_i matched hmatch
      intro rule hrule
      rcases mem_updateFirst hrule with rfl | hrule
      · obtain ⟨request, haccepted, hfrom⟩ := h matched (List.mem_of_find?_eq_some hmatch)
        exact ⟨request, haccepted, isFrom_execute hfrom.recordActivation env key⟩
      · exact h rule hrule
  | remove id =>
    cases hs
    exact fun rule hrule => h rule (List.mem_of_mem_filter hrule)
  | clear =>
    cases hs
    exact fun _ hrule => absurd hrule List.not_mem_nil
  | list now =>
    cases hs
    exact fun rule hrule => h rule (List.mem_of_mem_filter hrule)

/-- So a call only ever matches rules of accepted requests. -/
theorem fromAccepted_run {store : FaultRuleStore} {ops : List StoreOp}
    (h : (storeMachine service maxTtlSeconds).run .empty ops = some store) :
    FromAccepted service maxTtlSeconds store :=
  Machine.run_inv (fun _ _ _ => fromAccepted_step) (by simp [FromAccepted, FaultRuleStore.empty]) h

/-! ## One execution -/

theorem safe_delay {env : FaultEnv} {afterwards : FaultDecision} (h : SafeResult env (.ok afterwards)) :
    SafeResult env (delay env afterwards) := by
  unfold delay
  split
  · rename_i hcancelled
    exact ⟨rfl, hcancelled⟩
  · exact h

theorem safe_failWith {env : FaultEnv} {statusCode : Option I32} (hsome : statusCode.isSome)
    (hrange : ∀ code, statusCode = some code → 400 ≤ code.toInt ∧ code.toInt ≤ 599) :
    SafeResult env (failWith statusCode) := by
  cases statusCode with
  | none => cases hsome
  | some code => exact fun _ => hrange code rfl

theorem mem_declared {mode : FaultMode} : mode ∈ FaultMode.declared ↔
    mode = .latency ∨ mode = .httpError ∨ mode = .timeout ∨ mode = .intermittent ∨
      mode = .businessRejection ∨
      mode = .readinessLoss := by
  simp [FaultMode.declared, FaultMode.wireNames]

/-- The strategy of a declared mode finds every parameter it reads. -/
theorem safe_execute {rule : FaultRule} {request : FaultRuleRequest} {operations : List String}
    (hfrom : rule.IsFrom request) (hsound : FaultRuleValidator.Sound request operations)
    (hdeclared : request.mode ∈ FaultMode.declared) (hready : request.mode ≠ .readinessLoss)
    (env : FaultEnv) (key : String) : SafeResult env (executeStrategy env rule key).1 := by
  obtain ⟨hlatency, herror, hintermittent⟩ := hsound.parameters
  have hstatus : ∀ code, rule.statusCode = some code → 400 ≤ code.toInt ∧ code.toInt ≤ 599 := by
    intro code hcode
    exact hsound.status code (hfrom.statusCode ▸ hcode)
  unfold executeStrategy
  rw [hfrom.mode]
  rcases mem_declared.1 hdeclared with hm | hm | hm | hm | hm | hm
  · rw [if_pos hm]
    obtain ⟨ms, hms⟩ := Option.isSome_iff_exists.1 (hlatency hm)
    simp only [latencyStrategy, hfrom.delayMs, hms]
    exact safe_delay (fun h => (nomatch h))
  · rw [hm]
    exact safe_failWith (hfrom.statusCode ▸ herror hm) hstatus
  · rw [hm]
    exact safe_delay (fun _ => ⟨by decide, by decide⟩)
  · obtain ⟨hsome, hcount⟩ := hintermittent hm
    rw [hm]
    show SafeResult env (intermittentStrategy rule key).1
    have hcounted : ∃ fails, (intermittentShouldFail rule key).1 = .ok fails := by
      unfold intermittentShouldFail
      rw [hfrom.failAttempts, hfrom.everyNth]
      obtain ⟨failAttempts, hf, _, _⟩ | ⟨everyNth, hf, he, hpos⟩ := hcount
      · simp [hf]
      · have hne : everyNth.toInt ≠ 0 := by omega
        simp [hf, he, everyNthHits, hne]
    obtain ⟨fails, hfails⟩ := hcounted
    unfold intermittentStrategy
    generalize intermittentShouldFail rule key = counted at hfails
    obtain ⟨result, rule'⟩ := counted
    cases hfails
    cases fails with
    | false => exact fun h => (nomatch h)
    | true => exact safe_failWith (hfrom.statusCode ▸ hsome) hstatus
  · rw [hm]
    exact fun h => (nomatch h)
  · exact absurd hm hready

/-- What the strategy waits is a validated delay or the default hold time. -/
theorem safe_awaited {rule : FaultRule} {request : FaultRuleRequest} {operations : List String}
    (hfrom : rule.IsFrom request) (hsound : FaultRuleValidator.Sound request operations) {ms : Int}
    (h : rule.awaited = some ms) : 1 ≤ ms ∧ ms ≤ FaultRuleValidator.maxDelayMs ∨ ms = defaultHoldMs := by
  have hdelay : ∀ delay, rule.delayMs = some delay → 1 ≤ delay.toInt ∧
    delay.toInt ≤ FaultRuleValidator.maxDelayMs :=
    fun delay hd => hsound.delay delay (hfrom.delayMs ▸ hd)
  unfold FaultRule.awaited at h
  cases hd : rule.delayMs with
  | none =>
    rw [hd] at h
    split at h
    · cases h
    · split at h
      · cases h; exact .inr rfl
      · cases h
  | some delay =>
    rw [hd] at h
    split at h
    · cases h; exact .inl (hdelay delay hd)
    · split at h
      · cases h; exact .inl (hdelay delay hd)
      · cases h

/-- An undeclared mode has no strategy. -/
theorem execute_undeclared {rule : FaultRule} (h : rule.mode ∉ FaultMode.declared) (env : FaultEnv)
    (key : String) :
    (executeStrategy env rule key).1 = .error .keyNotFound := by
  simp only [mem_declared, not_or] at h
  obtain ⟨hlatency, herror, htimeout, hintermittent, hrejection, _⟩ := h
  simp [executeStrategy, hlatency, herror, htimeout, hintermittent, hrejection]

/-- What a matching rule is like. -/
theorem applies_of_findMatch {store : FaultRuleStore} {operation : String} {phase : FaultPhase}
    {scenarioRunId : Option String} {now : Int} {rule : FaultRule}
    (h : store.findMatch operation phase scenarioRunId now = some rule) :
    rule ∈ store.rules ∧ rule.operation = some operation ∧ rule.mode ≠ .readinessLoss ∧
      rule.phase = phase ∧ (rule.scenarioRunId = none ∨ rule.scenarioRunId = scenarioRunId) := by
  have happlies := List.find?_some h
  simp only [FaultRuleStore.applies, decide_eq_true_eq] at happlies
  obtain ⟨hoperation, hmode, hphase, -, -, hrun⟩ := happlies
  exact ⟨List.mem_of_find?_eq_some h, hoperation, hmode, hphase, hrun⟩

theorem sound_of_accepts {request : FaultRuleRequest}
    (h : FaultRuleValidator.accepts request service.faultOperations maxTtlSeconds)
    (hready : request.mode ≠ .readinessLoss) :
    FaultRuleValidator.Sound request service.faultOperations := by
  obtain ⟨_, ⟨hmode, _⟩ | ⟨_, hsound⟩⟩ := (FaultRuleValidator.accepts_iff _ _ _).1 h
  · exact absurd hmode hready
  · exact hsound

theorem executesSafely_of_declared {request : FaultRuleRequest}
    (haccepted : FaultRuleValidator.accepts request service.faultOperations maxTtlSeconds)
    (hdeclared : request.mode ∈ FaultMode.declared) : ExecutesSafely service maxTtlSeconds request := by
  intro ops store _ operation phase key env rule hmatch hfrom
  obtain ⟨_, _, hmode, _⟩ := applies_of_findMatch hmatch
  have hready : request.mode ≠ .readinessLoss := hfrom.mode ▸ hmode
  have hsound := sound_of_accepts haccepted hready
  constructor
  · simp only [FaultInjector.applyAsync, hmatch]
    exact safe_execute hfrom.recordActivation hsound hdeclared hready env key
  · exact fun ms hms => safe_awaited hfrom hsound hms

/-- A rule that was just added is found by a call of its operation and phase. -/
theorem findMatch_added {request : FaultRuleRequest} {operation : String} (newGuid : Guid) (now : Int)
    (httl : 1 ≤ request.ttlSeconds.toInt)
    (hmax : ∀ max, request.maxActivations = some max → 1 ≤ max.toInt)
    (hready : request.mode ≠ .readinessLoss) (hoperation : request.operation = some operation) :
    ((FaultRuleStore.empty.add request newGuid now).findMatch operation (request.phase.getD .beforeEffect)
      request.scenarioRunId now).isSome := by
  have hlive : 0 < request.ttlSeconds.toInt * FaultRuleStore.ticksPerSecond := by
    simp only [FaultRuleStore.ticksPerSecond]
    omega
  have hfresh : ∀ max, request.maxActivations = some max → ¬ max.toInt ≤ (0 : I32).toInt := by
    intro max hm
    have := hmax max hm
    have hzero : (0 : I32).toInt = 0 := by decide
    omega
  simp only [FaultRuleStore.findMatch, FaultRuleStore.add, FaultRuleStore.empty, List.nil_append,
    List.find?_isSome, List.mem_singleton, exists_eq_left, FaultRuleStore.applies,
    FaultRule.isExpired, FaultRule.isExhausted]
  cases hm : request.maxActivations with
  | none => simp [hoperation, hready, hlive]
  | some max =>
    have hleft : 0 < max.toInt := by simpa using hfresh max hm
    simp [hoperation, hready, hlive, hleft]

theorem matchesSomeCall_of_runsSomewhere {ids : BaggageIds} {request : FaultRuleRequest}
    (haccepted : FaultRuleValidator.accepts request service.faultOperations maxTtlSeconds)
    (h : RunsSomewhere ids request) : MatchesSomeCall ids request := by
  intro hready newGuid now
  obtain ⟨hrun, operation, hoperation, hphase⟩ := h.2 hready
  obtain ⟨⟨httl, _⟩, _⟩ := (FaultRuleValidator.accepts_iff _ _ _).1 haccepted
  have hsound := sound_of_accepts haccepted hready
  exact ⟨operation, hoperation, _, hphase,
    { now := now, scenarioRunId := request.scenarioRunId }, le_refl _, hrun,
    findMatch_added newGuid now httl hsound.activations hready hoperation⟩

/-- A rule about the scenario run with the empty id matches nothing. -/
theorem matches_nothing_of_empty {ids : BaggageIds} {request : FaultRuleRequest}
    (hready : request.mode ≠ .readinessLoss) (hempty : request.scenarioRunId = some "") :
    ¬ MatchesSomeCall ids request := by
  intro hmatches
  obtain ⟨operation, _, phase, _, env, _, hcarried, hsome⟩ := hmatches hready 0 0
  obtain ⟨rule, hmatch⟩ := Option.isSome_iff_exists.1 hsome
  obtain ⟨hmem, _, _, _, hrun⟩ := applies_of_findMatch hmatch
  have hfrom : rule.IsFrom request := (isFrom_add hmem).resolve_left (by simp [FaultRuleStore.empty])
  rw [hfrom.scenarioRunId, hempty] at hrun
  exact ids.neverEmpty (hcarried "" (hrun.resolve_left (fun h => nomatch h)).symm)

/-- **Exactly when an accepted rule can be executed**: its mode is a declared one and, unless it is
about readiness, its phase is one at which the handler of its operation asks and its scenario run one
that requests can name. -/
theorem accepted_rule_runs_iff (service : PlatformService) (maxTtlSeconds : Int) (ids : BaggageIds)
    (request : FaultRuleRequest)
    (haccepted : FaultRuleValidator.accepts request service.faultOperations maxTtlSeconds) :
    ExecutesSafely service maxTtlSeconds request ∧ MatchesSomeCall ids request ↔ RunsSomewhere ids request := by
  constructor
  · rintro ⟨hsafe, hmatches⟩
    by_cases hready : request.mode = .readinessLoss
    · refine ⟨?_, fun h => absurd hready h⟩
      rw [hready]
      decide
    · obtain ⟨operation, hoperation, phase, hphase, env, _, hcarried, hsome⟩ := hmatches hready 0 0
      obtain ⟨rule, hmatch⟩ := Option.isSome_iff_exists.1 hsome
      obtain ⟨hmem, _, _, hrulePhase, hrun⟩ := applies_of_findMatch hmatch
      have hfrom : rule.IsFrom request := (isFrom_add hmem).resolve_left (by simp [FaultRuleStore.empty])
      rw [hfrom.scenarioRunId] at hrun
      refine ⟨?_, fun _ => ⟨fun runId hrunId => ?_, operation, hoperation, ?_⟩⟩
      · by_contra hundeclared
        have hrun : (storeMachine service maxTtlSeconds).run .empty [.put request 0 0] =
            some (FaultRuleStore.empty.add request 0 0) := by
          simp [Machine.run, storeMachine, haccepted]
        obtain ⟨hresult, _⟩ := hsafe _ _ hrun operation phase "" env rule hmatch hfrom
        have hthrows : (FaultInjector.applyAsync (fun _ => env) operation phase ""
            (FaultRuleStore.empty.add request 0 0)).1 = .error .keyNotFound := by
          simp only [FaultInjector.applyAsync, hmatch]
          exact execute_undeclared (hfrom.recordActivation.mode ▸ hundeclared) env ""
        rw [hthrows] at hresult
        cases hresult.1
      · obtain hnone | hsame := hrun
        · rw [hnone] at hrunId
          cases hrunId
        · exact hcarried runId (hsame ▸ hrunId)
      · rw [← hfrom.phase, hrulePhase]
        exact hphase
  · intro h
    exact ⟨executesSafely_of_declared haccepted h.1, matchesSomeCall_of_runsSomewhere haccepted h⟩

/-- A latency rule for one scenario run runs. -/
theorem latency_rule_runs : ExecutesSafely .paymentService 3600
      { operation := some "payment.authorize", mode := .latency, ttlSeconds := 60,
        delayMs := some 1200, scenarioRunId := some "run-1" } ∧
    MatchesSomeCall ⟨fun runId => runId ≠ "", fun h => h rfl⟩
      { operation := some "payment.authorize", mode := .latency, ttlSeconds := 60,
        delayMs := some 1200, scenarioRunId := some "run-1" } :=
  (accepted_rule_runs_iff .paymentService 3600 _ _ (by decide)).2
    ⟨by decide, fun _ => ⟨fun runId h => Option.some.inj h ▸ by decide, _, rfl, by decide⟩⟩

/-- The binder reads the mode 6 and the validator accepts the rule; the first payment throws. -/
theorem undeclared_mode_throws :
    FaultRuleRequest.bind
      (.obj [("operation", .str "payment.authorize"), ("mode", .int 6), ("ttlSeconds", .int 60)]) =
      some { operation := some "payment.authorize", mode := ⟨6⟩, ttlSeconds := 60 } ∧
    FaultRuleValidator.accepts { operation := some "payment.authorize", mode := ⟨6⟩, ttlSeconds := 60 }
      PlatformService.paymentService.faultOperations 3600 ∧
    (FaultInjector.applyAsync (fun _ => { now := 0 }) "payment.authorize" .beforeEffect "order-1"
      (FaultRuleStore.empty.add { operation := some "payment.authorize", mode := ⟨6⟩, ttlSeconds := 60 } 7 0)).1 =
      .error .keyNotFound := by
  refine ⟨rfl, by decide, rfl⟩

end TxPlatform
