import TxPlatform.Faults.Rules

/-! # Fault store, strategies and injector (FaultRuleStore.cs, FaultStrategies.cs, FaultInjector.cs)

A handler asks the injector at its two fault points. The injector takes the oldest rule that
matches, counts the activation and runs the strategy of the rule's mode. A delay either ends or is
cut short by the caller giving up; `FaultEnv.cancelled` says which.
-/

namespace TxPlatform

/-- What one `ApplyAsync` call sees of its surroundings: the clock, the scenario run id in the
baggage, and whether the token is cancelled while a strategy waits. -/
structure FaultEnv where
  now : Int
  scenarioRunId : Option String := none
  cancelled : Bool := false

/-! ## The store (FaultRuleStore.cs:6-90) -/

structure FaultRuleStore where
  rules : List FaultRule

namespace FaultRuleStore

def empty : FaultRuleStore := ⟨[]⟩

def ticksPerSecond : Int := 10000000

/-- `Add`; `newGuid` is the value of `Guid.NewGuid()`. -/
def add (store : FaultRuleStore) (request : FaultRuleRequest) (newGuid : Guid) (now : Int) :
    FaultRuleStore :=
  ⟨store.rules ++ [{
    id := String.ofList (newGuid.formatN.toList.take 12)
    operation := request.operation
    mode := request.mode
    delayMs := request.delayMs
    statusCode := request.statusCode
    phase := request.phase.getD .beforeEffect
    failAttempts := request.failAttempts
    everyNth := request.everyNth
    scenarioRunId := request.scenarioRunId
    maxActivations := request.maxActivations
    createdAt := now
    expiresAt := now + request.ttlSeconds.toInt * ticksPerSecond }]⟩

/-- `ListActive` forgets the expired rules. -/
def listActive (store : FaultRuleStore) (now : Int) : FaultRuleStore :=
  ⟨store.rules.filter fun rule => !rule.isExpired now⟩

/-- How many rules there were, and the empty store. -/
def clear (store : FaultRuleStore) : Nat × FaultRuleStore := (store.rules.length, ⟨[]⟩)

/-- Whether a rule had the id, and the store without it. -/
def remove (store : FaultRuleStore) (id : String) : Bool × FaultRuleStore :=
  (store.rules.any fun rule => rule.id = id, ⟨store.rules.filter fun rule => rule.id ≠ id⟩)

/-- The predicate of `FindMatch`. -/
def applies (operation : String) (phase : FaultPhase) (scenarioRunId : Option String) (now : Int)
    (rule : FaultRule) : Bool :=
  rule.operation = some operation ∧ rule.mode ≠ .readinessLoss ∧ rule.phase = phase ∧ !rule.isExpired now
    ∧ !rule.isExhausted ∧ (rule.scenarioRunId = none ∨ rule.scenarioRunId = scenarioRunId)

/-- The oldest rule that applies to this call. -/
def findMatch (store : FaultRuleStore) (operation : String) (phase : FaultPhase)
    (scenarioRunId : Option String) (now : Int) : Option FaultRule :=
  store.rules.find? (applies operation phase scenarioRunId now)

/-- A rule is shared by reference: writes to the first match of `p` go to the list. -/
def updateFirst (p : FaultRule → Bool) (rule' : FaultRule) : List FaultRule → List FaultRule
  | [] => []
  | rule :: rules => if p rule then rule' :: rules else rule :: updateFirst p rule' rules

end FaultRuleStore

/-! ## The strategies (FaultStrategies.cs:14-68) -/

def defaultHoldMs : Int := 60000

/-- `Task.Delay` with the request's token. -/
def delay (env : FaultEnv) (afterwards : FaultDecision) : Except Exn FaultDecision :=
  if env.cancelled then .error .operationCanceled else .ok afterwards

/-- `FaultDecision.Fail(rule.StatusCode!.Value)`: without a status the null value is read. -/
def failWith : Option I32 → Except Exn FaultDecision
  | some code => .ok (.fail code.toInt)
  | none => .error .nullValue

def latencyStrategy (env : FaultEnv) (rule : FaultRule) : Except Exn FaultDecision :=
  match rule.delayMs with
  | some _ => delay env .continue_
  | none => .error .nullValue

/-- `number % everyNth == 0`, with the remainder of C#. -/
def everyNthHits (number : I32) : Option I32 → Except Exn Bool
  | some everyNth =>
    if everyNth.toInt = 0 then .error .divideByZero else .ok (number.toInt.tmod everyNth.toInt == 0)
  | none => .error .nullValue

/-- Whether this attempt fails, and the rule with its counter advanced. -/
def intermittentShouldFail (rule : FaultRule) (key : String) : Except Exn Bool × FaultRule :=
  match rule.failAttempts with
  | some failAttempts =>
    let attempts := match rule.attemptsPerKey.get key with
      | some attempts => attempts + 1
      | none => 1
    (.ok (attempts.toInt ≤ failAttempts.toInt),
      { rule with attemptsPerKey := rule.attemptsPerKey.set key attempts })
  | none =>
    let number := rule.requestCount + 1
    (everyNthHits number rule.everyNth, { rule with requestCount := number })

def intermittentStrategy (rule : FaultRule) (key : String) : Except Exn FaultDecision × FaultRule :=
  match intermittentShouldFail rule key with
  | (.error e, rule') => (.error e, rule')
  | (.ok true, rule') => (failWith rule.statusCode, rule')
  | (.ok false, rule') => (.ok .continue_, rule')

/-- `strategiesByMode[rule.Mode].ExecuteAsync(rule, key, ct)`: readiness loss has no strategy, like
every undeclared mode. -/
def executeStrategy (env : FaultEnv) (rule : FaultRule) (key : String) :
    Except Exn FaultDecision × FaultRule :=
  if rule.mode = .latency then (latencyStrategy env rule, rule)
  else if rule.mode = .httpError then (failWith rule.statusCode, rule)
  else if rule.mode = .timeout then (delay env (.fail 504), rule)
  else if rule.mode = .intermittent then intermittentStrategy rule key
  else if rule.mode = .businessRejection then (.ok .reject, rule)
  else (.error .keyNotFound, rule)

/-! ## Which rules reject -/

namespace FaultRule

/-- The rule simulates a business rejection. -/
def Rejects (rule : FaultRule) : Prop := rule.mode = .businessRejection

/-- The rule answers this attempt at once with the HTTP status `status`. -/
def FailsWith (rule : FaultRule) (status : Int) (key : String) : Prop :=
  (∃ code, rule.statusCode = some code ∧ code.toInt = status) ∧
  (rule.mode = .httpError ∨ (rule.mode = .intermittent ∧ (intermittentShouldFail rule key).1 = .ok true))

end FaultRule

theorem failWith_eq_ok {statusCode : Option I32} {decision : FaultDecision} :
    failWith statusCode = .ok decision ↔ ∃ code, statusCode = some code ∧
      decision = .fail code.toInt := by
  cases statusCode <;> simp [failWith, eq_comm]

theorem delay_eq_ok {env : FaultEnv} {afterwards decision : FaultDecision}
    (h : delay env afterwards = .ok decision) : decision = afterwards := by
  unfold delay at h
  split at h <;> cases h
  rfl

theorem latencyStrategy_eq_ok {env : FaultEnv} {rule : FaultRule} {decision : FaultDecision}
    (h : latencyStrategy env rule = .ok decision) : decision = .continue_ := by
  unfold latencyStrategy at h
  split at h
  · exact delay_eq_ok h
  · cases h

/-- A decision other than to continue is a rejection, a failing rule's status, or an expired hold. -/
theorem executeStrategy_eq_ok {env : FaultEnv} {rule : FaultRule} {key : String}
    {decision : FaultDecision} (h : (executeStrategy env rule key).1 = .ok decision) :
    decision = .continue_ ∨ decision = .fail 504 ∨ (rule.Rejects ∧ decision = .reject) ∨
    (∃ status, rule.FailsWith status key ∧ decision = .fail status) := by
  unfold executeStrategy at h
  split at h
  · exact .inl (latencyStrategy_eq_ok h)
  · split at h
    · rename_i hm
      obtain ⟨code, hc, rfl⟩ := failWith_eq_ok.1 h
      exact .inr (.inr (.inr ⟨code.toInt, ⟨⟨code, hc, rfl⟩, .inl hm⟩, rfl⟩))
    · split at h
      · exact .inr (.inl (delay_eq_ok h))
      · split at h
        · rename_i hm
          simp only [intermittentStrategy] at h
          split at h
          · cases h
          · rename_i hs
            obtain ⟨code, hc, rfl⟩ := failWith_eq_ok.1 h
            exact .inr (.inr (.inr ⟨code.toInt, ⟨⟨code, hc, rfl⟩, .inr ⟨hm, by rw [hs]⟩⟩, rfl⟩))
          · cases h; exact .inl rfl
        · split at h
          · rename_i hm; cases h; exact .inr (.inr (.inl ⟨hm, rfl⟩))
          · cases h

theorem executeStrategy_of_rejects {env : FaultEnv} {rule : FaultRule} {key : String} (h : rule.Rejects) :
    (executeStrategy env rule key).1 = .ok .reject := by
  have hm : rule.mode = .businessRejection := h
  simp [executeStrategy, hm, FaultMode.businessRejection, FaultMode.latency, FaultMode.httpError,
    FaultMode.timeout, FaultMode.intermittent]

theorem executeStrategy_of_failsWith {env : FaultEnv} {rule : FaultRule} {key : String} {status : Int}
    (h : rule.FailsWith status key) : (executeStrategy env rule key).1 = .ok (.fail status) := by
  obtain ⟨⟨code, hc, rfl⟩, hm | ⟨hm, hs⟩⟩ := h
  · simp [executeStrategy, hm, FaultMode.latency, FaultMode.httpError, hc, failWith]
  · have hi : executeStrategy env rule key = intermittentStrategy rule key := by
      simp [executeStrategy, hm, FaultMode.latency, FaultMode.httpError, FaultMode.timeout,
        FaultMode.intermittent]
    rw [hi, intermittentStrategy]
    generalize hsf : intermittentShouldFail rule key = found at hs ⊢
    obtain ⟨result, rule'⟩ := found
    cases hs
    simp [hc, failWith]

/-! ## The injector (FaultInjector.cs:10-30) -/

/-- The injector as a handler sees it: operation, phase and key, over a state `φ`. -/
abbrev ApplyAsync (φ : Type) := String → FaultPhase → String → φ → Except Exn FaultDecision × φ

/-- What the environment decides in one step of a handler: the result of `ApplyAsync` (a decision, or an
exception such as a cancellation) and the next `Guid.NewGuid()`. -/
structure StepChoice where
  fault : Except Exn FaultDecision := .ok .continue_
  newGuid : Guid := 0

/-- Counting the activation does not change what the rule decides. -/
theorem rejects_recordActivation {rule : FaultRule} :
    rule.recordActivation.Rejects ↔ rule.Rejects := Iff.rfl

theorem failsWith_recordActivation {rule : FaultRule} {status : Int} {key : String} :
    rule.recordActivation.FailsWith status key ↔ rule.FailsWith status key := by
  have h : (intermittentShouldFail rule.recordActivation key).1 =
    (intermittentShouldFail rule key).1 := by
    unfold intermittentShouldFail FaultRule.recordActivation
    cases rule.failAttempts <;> rfl
  unfold FaultRule.FailsWith
  rw [h]
  rfl

namespace FaultInjector

/-- `ApplyAsync`; `env` gives the surroundings of the call at each phase. -/
def applyAsync (env : FaultPhase → FaultEnv) : ApplyAsync FaultRuleStore :=
  fun operation phase key store =>
  let e := env phase
  match store.findMatch operation phase e.scenarioRunId e.now with
  | none => (.ok .continue_, store)
  | some rule =>
    let (decision, rule') := executeStrategy e rule.recordActivation key
    (decision, ⟨FaultRuleStore.updateFirst (FaultRuleStore.applies operation phase e.scenarioRunId e.now)
      rule' store.rules⟩)

/-- Without rules the injector never interferes. -/
@[simp] theorem applyAsync_empty (env : FaultPhase → FaultEnv) (operation : String) (phase : FaultPhase)
    (key : String) : applyAsync env operation phase key .empty = (.ok .continue_, .empty) := rfl

/-- The rule that decides a call is the first one that applies. -/
def Meets (env : FaultPhase → FaultEnv) (operation : String) (phase : FaultPhase) (store : FaultRuleStore)
    (P : FaultRule → Prop) : Prop :=
  ∃ rule, store.findMatch operation phase (env phase).scenarioRunId (env phase).now = some rule ∧ P rule

variable {env : FaultPhase → FaultEnv} {operation : String} {phase : FaultPhase} {key : String}
  {store : FaultRuleStore}

theorem applyAsync_eq_ok {decision : FaultDecision}
    (h : (applyAsync env operation phase key store).1 = .ok decision) :
    decision = .continue_ ∨ decision = .fail 504 ∨
    (Meets env operation phase store FaultRule.Rejects ∧ decision = .reject) ∨
    (∃ status, Meets env operation phase store (·.FailsWith status key) ∧ decision = .fail status) := by
  simp only [applyAsync] at h
  split at h
  · cases h; exact .inl rfl
  · rename_i rule hm
    obtain h | h | ⟨hr, h⟩ | ⟨status, hf, h⟩ := executeStrategy_eq_ok h
    · exact .inl h
    · exact .inr (.inl h)
    · exact .inr (.inr (.inl ⟨⟨rule, hm, hr⟩, h⟩))
    · exact .inr (.inr (.inr ⟨status, ⟨rule, hm, failsWith_recordActivation.1 hf⟩, h⟩))

theorem applyAsync_of_rejects (h : Meets env operation phase store FaultRule.Rejects) :
    (applyAsync env operation phase key store).1 = .ok .reject := by
  obtain ⟨rule, hm, hr⟩ := h
  simp only [applyAsync, hm]
  exact executeStrategy_of_rejects (rejects_recordActivation.2 hr)

theorem applyAsync_of_failsWith {status : Int}
    (h : Meets env operation phase store (·.FailsWith status key)) :
    (applyAsync env operation phase key store).1 = .ok (.fail status) := by
  obtain ⟨rule, hm, hf⟩ := h
  simp only [applyAsync, hm]
  exact executeStrategy_of_failsWith (failsWith_recordActivation.2 hf)

end FaultInjector

end TxPlatform
