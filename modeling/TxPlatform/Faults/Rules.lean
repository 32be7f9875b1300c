import TxPlatform.Lib.Dict
import TxPlatform.Dotnet.Http

/-! # Fault rules and their validation (FaultModel.cs, FaultRuleValidator.cs)

Modes and phases are integer enumerations: the binder admits any 32-bit value for them, so both
are modelled by their value and the declared members are constants. A rule request keeps every
optional field; `validate` is the operator-facing check, with its fields and messages.
-/

namespace TxPlatform

/-! ## The model (FaultModel.cs:7-107) -/

structure FaultMode where
  value : I32
  deriving DecidableEq

namespace FaultMode
def latency : FaultMode := ⟨0⟩
def httpError : FaultMode := ⟨1⟩
def timeout : FaultMode := ⟨2⟩
def intermittent : FaultMode := ⟨3⟩
def businessRejection : FaultMode := ⟨4⟩
def readinessLoss : FaultMode := ⟨5⟩
end FaultMode

/-- Where in a handler the fault runs: before or after the business effect. -/
structure FaultPhase where
  value : I32
  deriving DecidableEq

namespace FaultPhase
def beforeEffect : FaultPhase := ⟨0⟩
def afterEffect : FaultPhase := ⟨1⟩
end FaultPhase

/-- What the handler must do after the fault logic ran. -/
inductive FaultOutcome where
  | continue_
  | fail
  | reject
  deriving DecidableEq

structure FaultDecision where
  outcome : FaultOutcome
  statusCode : Int := 0
  deriving DecidableEq

namespace FaultDecision
def continue_ : FaultDecision := { outcome := .continue_ }
@[simp] theorem outcome_continue : continue_.outcome = .continue_ := rfl
def fail (statusCode : Int) : FaultDecision := { outcome := .fail, statusCode := statusCode }
def reject : FaultDecision := { outcome := .reject }
end FaultDecision

structure FaultRuleRequest where
  operation : Option String
  mode : FaultMode
  ttlSeconds : I32
  delayMs : Option I32 := none
  statusCode : Option I32 := none
  phase : Option FaultPhase := none
  failAttempts : Option I32 := none
  everyNth : Option I32 := none
  scenarioRunId : Option String := none
  maxActivations : Option I32 := none

/-- An active rule. Times are in ticks; `attemptsPerKey` and the two counters change as the rule
is applied. -/
structure FaultRule where
  id : String
  operation : Option String
  mode : FaultMode
  delayMs : Option I32
  statusCode : Option I32
  phase : FaultPhase
  failAttempts : Option I32
  everyNth : Option I32
  scenarioRunId : Option String
  maxActivations : Option I32
  createdAt : Int
  expiresAt : Int
  activations : I32 := 0
  requestCount : I32 := 0
  attemptsPerKey : Dict String I32 := ∅

namespace FaultRule

def isExpired (rule : FaultRule) (now : Int) : Bool := rule.expiresAt ≤ now

def isExhausted (rule : FaultRule) : Bool :=
  match rule.maxActivations with
  | some max => max.toInt ≤ rule.activations.toInt
  | none => false

def recordActivation (rule : FaultRule) : FaultRule :=
  { rule with activations := rule.activations + 1 }

end FaultRule

/-! ## The validator (FaultRuleValidator.cs:6-85) -/

namespace FaultRuleValidator

def readinessOperation : String := "readiness"
def maxDelayMs : Int := 120000

abbrev Errors := Dict String (List String)

/-- `if (condition) errors[field] = [message];` -/
def addIf (condition : Bool) (field message : String) (errors : Errors) : Errors :=
  if condition then errors.set field [message] else errors

/-- `value is < low or > high`: the null pattern never matches. -/
def outside (low high : Int) : Option I32 → Bool
  | some value => value.toInt < low ∨ high < value.toInt
  | none => false

def below (low : Int) : Option I32 → Bool
  | some value => value.toInt < low
  | none => false

/-- The parameters an intermittent rule needs; the second message replaces nothing because the two
cases exclude each other. -/
def checkIntermittent (request : FaultRuleRequest) (errors : Errors) : Errors :=
  let errors := addIf request.statusCode.isNone "statusCode" "is required for intermittent faults" errors
  if request.failAttempts.isNone == request.everyNth.isNone then
    errors.set "failAttempts" ["set exactly one of failAttempts or everyNth"]
  else
    addIf (below 1 request.failAttempts || below 2 request.everyNth) "failAttempts"
      "failAttempts must be at least 1 and everyNth at least 2" errors

def checkMode (request : FaultRuleRequest) (errors : Errors) : Errors :=
  if request.mode = .latency then
    addIf request.delayMs.isNone "delayMs" "is required for latency faults" errors
  else if request.mode = .httpError then
    addIf request.statusCode.isNone "statusCode" "is required for http-error faults" errors
  else if request.mode = .intermittent then checkIntermittent request errors
  else errors

def validate (request : FaultRuleRequest) (knownOperations : List String)
    (maxTtlSeconds : Int) : Errors :=
  let errors := addIf (request.ttlSeconds.toInt < 1 ∨
    maxTtlSeconds < request.ttlSeconds.toInt) "ttlSeconds"
    s!"must be between 1 and {maxTtlSeconds} seconds so every fault expires" ∅
  if request.mode = .readinessLoss then
    addIf (request.operation ≠ some readinessOperation) "operation"
      s!"readiness-loss faults must use the '{readinessOperation}' operation" errors
  else
    let known := String.intercalate ", " knownOperations
    let errors := addIf (request.operation ∉ knownOperations.map some) "operation"
      s!"unknown operation; known operations: {known}" errors
    let errors := addIf (outside 1 maxDelayMs request.delayMs) "delayMs"
      s!"must be between 1 and {maxDelayMs}" errors
    let errors := addIf (outside 400 599 request.statusCode) "statusCode"
      "must be an HTTP error status between 400 and 599" errors
    let errors := checkMode request errors
    let errors := addIf (request.phase = some .afterEffect ∧ request.mode ≠ .latency) "phase"
      "only latency faults can run after the business effect" errors
    addIf (below 1 request.maxActivations) "maxActivations" "must be at least 1" errors

/-- `errors.Count == 0`: the rule is accepted. -/
def accepts (request : FaultRuleRequest) (knownOperations : List String) (maxTtlSeconds : Int) : Bool :=
  (validate request knownOperations maxTtlSeconds).count = 0

/-! ### What an accepted request satisfies -/

/-- An error that was reported stays reported: overwriting a field's entry keeps the field. -/
theorem count_set_pos (errors : Errors) (field : String) (messages : List String) :
    (errors.set field messages).count ≠ 0 := by
  cases h : errors.get field with
  | none => rw [Dict.count_set_new _ h]; omega
  | some old =>
    rw [Dict.count_set_old _ h]
    have := List.length_pos_of_mem (Dict.isSome_get.1 (by simp [h] : (errors.get field).isSome))
    simp only [Dict.count]
    omega

@[simp] theorem count_addIf (condition : Bool) (field message : String) (errors : Errors) :
    (addIf condition field message errors).count = 0 ↔ condition = false ∧ errors.count = 0 := by
  unfold addIf
  cases condition with
  | false => simp
  | true => simp [count_set_pos]

/-- The parameters the mode needs are there. -/
def HasParameters (request : FaultRuleRequest) : Prop :=
  (request.mode = .latency → request.delayMs.isSome) ∧
  (request.mode = .httpError → request.statusCode.isSome) ∧
  (request.mode = .intermittent → request.statusCode.isSome ∧
    ((∃ failAttempts, request.failAttempts = some failAttempts ∧ request.everyNth = none ∧
        1 ≤ failAttempts.toInt) ∨
      (∃ everyNth, request.failAttempts = none ∧ request.everyNth = some everyNth ∧ 2 ≤ everyNth.toInt)))

theorem count_checkIntermittent (request : FaultRuleRequest) (errors : Errors) :
    (checkIntermittent request errors).count = 0 ↔ errors.count = 0 ∧ request.statusCode.isSome ∧
      ((∃ failAttempts, request.failAttempts = some failAttempts ∧ request.everyNth = none ∧
        1 ≤ failAttempts.toInt) ∨
      (∃ everyNth, request.failAttempts = none ∧ request.everyNth = some everyNth ∧
        2 ≤ everyNth.toInt)) := by
  unfold checkIntermittent
  cases request.failAttempts with
  | none =>
    cases request.everyNth with
    | none => simp [count_set_pos]
    | some everyNth => simp [below]; tauto
  | some failAttempts =>
    cases request.everyNth with
    | none => simp [below]; tauto
    | some everyNth => simp [count_set_pos]

theorem count_checkMode (request : FaultRuleRequest) (errors : Errors) :
    (checkMode request errors).count = 0 ↔ errors.count = 0 ∧ HasParameters request := by
  unfold checkMode HasParameters
  split
  · rename_i h
    simp [h, FaultMode.latency, FaultMode.httpError, FaultMode.intermittent, and_comm]
  · rename_i hlatency
    split
    · rename_i h
      simp [h, FaultMode.latency, FaultMode.httpError, FaultMode.intermittent, and_comm]
    · rename_i herror
      split
      · rename_i h
        rw [count_checkIntermittent]
        simp [h, FaultMode.latency, FaultMode.httpError, FaultMode.intermittent]
      · rename_i h
        simp [hlatency, herror, h]

/-- What a request must satisfy beside its lifetime when it is about an operation of the service. -/
structure Sound (request : FaultRuleRequest) (knownOperations : List String) : Prop where
  operation : request.operation ∈ knownOperations.map some
  delay : ∀ ms, request.delayMs = some ms → 1 ≤ ms.toInt ∧ ms.toInt ≤ maxDelayMs
  status : ∀ code, request.statusCode = some code → 400 ≤ code.toInt ∧ code.toInt ≤ 599
  parameters : HasParameters request
  phase : request.phase = some .afterEffect → request.mode = .latency
  activations : ∀ max, request.maxActivations = some max → 1 ≤ max.toInt

theorem outside_eq_false {low high : Int} {value : Option I32} :
    outside low high value = false ↔ ∀ v, value = some v → low ≤ v.toInt ∧ v.toInt ≤ high := by
  cases value <;> simp [outside]

theorem below_eq_false {low : Int} {value : Option I32} :
    below low value = false ↔ ∀ v, value = some v → low ≤ v.toInt := by
  cases value <;> simp [below]

/-- **What the validator accepts.** -/
theorem accepts_iff (request : FaultRuleRequest) (knownOperations : List String) (maxTtlSeconds : Int) :
    accepts request knownOperations maxTtlSeconds ↔
      (1 ≤ request.ttlSeconds.toInt ∧ request.ttlSeconds.toInt ≤ maxTtlSeconds) ∧
      (request.mode = .readinessLoss ∧ request.operation = some readinessOperation ∨
        request.mode ≠ .readinessLoss ∧ Sound request knownOperations) := by
  have hempty : (∅ : Errors).count = 0 := rfl
  unfold accepts validate
  by_cases h : request.mode = .readinessLoss
  · simp [h, hempty]
    tauto
  · rw [if_neg h]
    simp only [decide_eq_true_eq, count_addIf, count_checkMode, outside_eq_false, below_eq_false,
      hempty]
    constructor
    · rintro ⟨hmax, hphase, ⟨hstatus, hdelay, hoperation, httl, _⟩, hparameters⟩
      simp only [decide_eq_false_iff_not, not_or, not_lt, not_not, not_and,
        ne_eq] at httl hoperation hphase
      exact ⟨httl, .inr ⟨h, hoperation, hdelay, hstatus, hparameters, hphase, hmax⟩⟩
    · rintro ⟨httl, ⟨hmode, _⟩ | ⟨_, hsound⟩⟩
      · exact absurd hmode h
      · simp only [decide_eq_false_iff_not, not_or, not_lt, not_not, not_and, ne_eq]
        exact ⟨hsound.activations, hsound.phase,
          ⟨hsound.status, hsound.delay, hsound.operation, httl, trivial⟩,
          hsound.parameters⟩

end FaultRuleValidator

end TxPlatform
