import Mathlib.Data.List.Perm.Basic
import TxPlatform.Lib.Machine
import TxPlatform.Faults.Injector

/-! # Does MaxActivations bound the applications? (FaultInjector.cs:14-28, FaultRuleStore.cs:66-80)

`ApplyAsync` takes three steps that other calls may interleave with: `FindMatch` under the lock of the
store, `RecordActivation` on the rule it returned, and the strategy. A rule is an object that the
store lists and the calls in flight hold, so it is a reference here: its position among all rules
ever made.
-/

namespace TxPlatform

/-- A call that has matched a rule. -/
structure InjectorCall where
  rule : Nat
  key : String
  env : FaultEnv
  recorded : Bool

/-- `executed` counts the executions of each rule's strategy. -/
structure InjectorState where
  rules : List FaultRule
  listed : List Nat
  calls : List InjectorCall
  executed : Nat → Nat

inductive InjectorStep where
  | put (request : FaultRuleRequest) (newGuid : Guid) (now : Int)
  | remove (id : String)
  | clear
  | list (now : Int)
  | findMatch (operation : String) (phase : FaultPhase) (key : String) (env : FaultEnv)
  | recordActivation (call : Nat)
  | execute (call : Nat)

/-- `strategiesByMode` has an entry for the mode. -/
def FaultMode.hasStrategy (mode : FaultMode) : Bool :=
  mode ∈ [FaultMode.latency, .httpError, .timeout, .intermittent, .businessRejection]

namespace InjectorState

def empty : InjectorState := ⟨[], [], [], fun _ => 0⟩

/-- The listed rules that satisfy `p`. -/
def listedWith (s : InjectorState) (p : FaultRule → Bool) : List Nat :=
  s.listed.filter fun ref => (s.rules[ref]?).any p

def clear (s : InjectorState) : Nat × InjectorState := (s.listed.length, { s with listed := [] })

def remove (s : InjectorState) (id : String) : Bool × InjectorState :=
  (s.listed.any fun ref => (s.rules[ref]?).any (·.id = id), { s with listed := s.listedWith (·.id ≠ id) })

def findMatch (s : InjectorState) (operation : String) (phase : FaultPhase)
    (env : FaultEnv) : Option Nat :=
  s.listed.find? fun ref =>
    (s.rules[ref]?).any (FaultRuleStore.applies operation phase env.scenarioRunId env.now)

/-- A call goes on with the rule it has matched. -/
def push (s : InjectorState) (rule : Nat) (key : String) (env : FaultEnv) : InjectorState :=
  { s with calls := s.calls ++ [⟨rule, key, env, false⟩] }

def recordActivation (s : InjectorState) (i : Nat) (call : InjectorCall) : InjectorState :=
  { s with
    rules := s.rules.modify call.rule FaultRule.recordActivation
    calls := s.calls.eraseIdx i ++ [{ call with recorded := true }] }

/-- The dictionary lookup throws for a mode without a strategy: nothing is executed then. -/
def execute (s : InjectorState) (i : Nat) (call : InjectorCall) : InjectorState where
  rules := s.rules.modify call.rule fun rule => (executeStrategy call.env rule call.key).2
  listed := s.listed
  calls := s.calls.eraseIdx i
  executed ref := s.executed ref +
    if ref = call.rule ∧ (s.rules[ref]?).any (·.mode.hasStrategy) then 1 else 0

end InjectorState

def injectorMachine : Machine InjectorState InjectorStep where
  step s
    | .put request newGuid now => some { s with
        rules := s.rules ++ (FaultRuleStore.empty.add request newGuid now).rules
        listed := s.listed ++ [s.rules.length] }
    | .remove id => some (s.remove id).2
    | .clear => some s.clear.2
    | .list now => some { s with listed := s.listedWith (!·.isExpired now) }
    | .findMatch operation phase key env =>
      match s.findMatch operation phase env with
      | none => some s
      | some rule => some (s.push rule key env)
    | .recordActivation i =>
      match s.calls[i]? with
      | none => none
      | some call => if call.recorded then none else some (s.recordActivation i call)
    | .execute i =>
      match s.calls[i]? with
      | none => none
      | some call => if call.recorded then some (s.execute i call) else none

/-- No rule's strategy was executed more often than its `MaxActivations`. -/
def NeverOverApplied (s : InjectorState) : Prop :=
  ∀ ref rule max, s.rules[ref]? = some rule → rule.maxActivations = some max →
    s.executed ref ≤ max.toInt.toNat

namespace InjectorState

/-- The calls that matched the rule and have not recorded the activation yet. -/
def matched (s : InjectorState) (ref : Nat) : Nat :=
  s.calls.countP fun call => call.rule = ref ∧ !call.recorded

/-- The calls that recorded the activation and have not executed the strategy yet. -/
def recorded (s : InjectorState) (ref : Nat) : Nat :=
  s.calls.countP fun call => call.rule = ref ∧ call.recorded

end InjectorState

/-- `FindMatch` finds a rule only while its activations, together with the calls that matched it and
have not recorded theirs, are below its `MaxActivations`. -/
def MatchesWithin (before : InjectorState) (label : InjectorStep) (_after : InjectorState) : Prop :=
  ∀ operation phase key env, label = .findMatch operation phase key env →
    ∀ ref rule max, before.findMatch operation phase env = some ref → before.rules[ref]? = some rule →
      rule.maxActivations = some max → rule.mode.hasStrategy →
        rule.activations.toInt + before.matched ref < max.toInt

/-! ## What a strategy leaves alone -/

theorem execute_keeps (env : FaultEnv) (rule : FaultRule) (key : String) :
    (executeStrategy env rule key).2.maxActivations = rule.maxActivations ∧
    (executeStrategy env rule key).2.mode = rule.mode ∧
    (executeStrategy env rule key).2.activations = rule.activations := by
  have hcounted : (intermittentShouldFail rule key).2.maxActivations = rule.maxActivations ∧
      (intermittentShouldFail rule key).2.mode = rule.mode ∧
      (intermittentShouldFail rule key).2.activations = rule.activations := by
    unfold intermittentShouldFail
    split <;> exact ⟨rfl, rfl, rfl⟩
  unfold executeStrategy
  split
  · exact ⟨rfl, rfl, rfl⟩
  · split
    · exact ⟨rfl, rfl, rfl⟩
    · split
      · exact ⟨rfl, rfl, rfl⟩
      · split
        · unfold intermittentStrategy
          split <;> rename_i he <;> rw [he] at hcounted <;> exact hcounted
        · split <;> exact ⟨rfl, rfl, rfl⟩

/-- Taking one call out of the list. -/
theorem countP_eraseIdx {calls : List InjectorCall} {i : Nat} {call : InjectorCall}
    (h : calls[i]? = some call) (p : InjectorCall → Bool) :
    calls.countP p = (calls.eraseIdx i).countP p + if p call then 1 else 0 := by
  obtain ⟨hi, rfl⟩ := List.getElem?_eq_some_iff.1 h
  rw [← (List.getElem_cons_eraseIdx_perm hi).countP_eq p, List.countP_cons]

/-- The rules after a write to one of them. -/
theorem modify_cases {rules : List FaultRule} {f : FaultRule → FaultRule} {written ref : Nat}
    {rule : FaultRule} (h : (rules.modify written f)[ref]? = some rule) :
    (written ≠ ref ∧ rules[ref]? = some rule) ∨
    (written = ref ∧ ∃ old, rules[ref]? = some old ∧ rule = f old) := by
  rw [List.getElem?_modify] at h
  obtain ⟨old, hold, hrule⟩ := Option.map_eq_some_iff.1 h
  by_cases hsame : written = ref
  · rw [if_pos hsame] at hrule
    exact .inr ⟨hsame, old, hold, hrule.symm⟩
  · rw [if_neg hsame] at hrule
    exact .inl ⟨hsame, hrule ▸ hold⟩

namespace InjectorState

variable {s : InjectorState} {i : Nat} {call : InjectorCall}

theorem recorded_push (rule : Nat) (key : String) (env : FaultEnv) (ref : Nat) :
    (s.push rule key env).recorded ref = s.recorded ref := by
  simp [push, recorded, List.countP_append]

theorem matched_push (rule : Nat) (key : String) (env : FaultEnv) (ref : Nat) :
    (s.push rule key env).matched ref = s.matched ref + if rule = ref then 1 else 0 := by
  simp [push, matched, List.countP_append, List.countP_singleton]

theorem recorded_recordActivation (hcall : s.calls[i]? = some call)
    (h : call.recorded = false) (ref : Nat) :
    (s.recordActivation i call).recorded ref = s.recorded ref + if call.rule = ref then 1 else 0 := by
  simp [recordActivation, recorded, List.countP_append, List.countP_singleton, countP_eraseIdx hcall, h]

theorem matched_recordActivation (hcall : s.calls[i]? = some call)
    (h : call.recorded = false) (ref : Nat) :
    s.matched ref = (s.recordActivation i call).matched ref + if call.rule = ref then 1 else 0 := by
  simp [recordActivation, matched, List.countP_append, countP_eraseIdx hcall, h]

theorem recorded_execute (hcall : s.calls[i]? = some call) (h : call.recorded = true) (ref : Nat) :
    s.recorded ref = (s.execute i call).recorded ref + if call.rule = ref then 1 else 0 := by
  simp [execute, recorded, countP_eraseIdx hcall, h]

theorem matched_execute (hcall : s.calls[i]? = some call) (h : call.recorded = true) (ref : Nat) :
    (s.execute i call).matched ref = s.matched ref := by
  simp [execute, matched, countP_eraseIdx hcall, h]

end InjectorState

/-! ## The activations count the applications -/

/-- For a rule with a bound, the activations are the executions and the calls about to execute, and
with the calls about to record they stay within the bound. -/
structure Counted (s : InjectorState) : Prop where
  valid : ∀ call ∈ s.calls, call.rule < s.rules.length
  fresh : ∀ ref, s.rules.length ≤ ref → s.executed ref = 0
  idle : ∀ ref rule, s.rules[ref]? = some rule → rule.mode.hasStrategy = false → s.executed ref = 0
  counted : ∀ ref rule max, s.rules[ref]? = some rule → rule.maxActivations = some max →
    rule.mode.hasStrategy →
    rule.activations.toInt = ((s.executed ref + s.recorded ref : Nat) : Int) ∧
    s.executed ref + s.recorded ref + s.matched ref ≤ max.toInt.toNat

theorem counted_empty : Counted .empty :=
  ⟨by simp [InjectorState.empty], by simp [InjectorState.empty], by simp [InjectorState.empty],
    by simp [InjectorState.empty]⟩

theorem Counted.neverOverApplied {s : InjectorState} (h : Counted s) : NeverOverApplied s := by
  intro ref rule max hrule hmax
  cases hmode : rule.mode.hasStrategy with
  | false =>
    have := h.idle ref rule hrule hmode
    omega
  | true =>
    have := (h.counted ref rule max hrule hmax hmode).2
    omega

namespace Counted

variable {s : InjectorState}

theorem relist (h : Counted s) (listed : List Nat) : Counted { s with listed := listed } :=
  ⟨h.valid, h.fresh, h.idle, h.counted⟩

/-- A rule that was just made has no executions and no calls. -/
theorem put (h : Counted s) (request : FaultRuleRequest) (newGuid : Guid) (now : Int) :
    Counted { s with
      rules := s.rules ++ (FaultRuleStore.empty.add request newGuid now).rules
      listed := s.listed ++ [s.rules.length] } := by
  have hnone : ∀ p : InjectorCall → Bool, (∀ call, p call = true → call.rule = s.rules.length) →
      s.calls.countP p = 0 := by
    intro p hp
    rw [List.countP_eq_zero]
    intro call hcall hpc
    have := h.valid call hcall
    have := hp call hpc
    omega
  have hnew : ∀ ref rule,
    (s.rules ++ (FaultRuleStore.empty.add request newGuid now).rules)[ref]? = some rule →
      s.rules[ref]? = some rule ∨ (ref = s.rules.length ∧ rule.activations = 0) := by
    intro ref rule hrule
    rw [List.getElem?_append] at hrule
    split at hrule
    · exact .inl hrule
    · rename_i hge
      obtain ⟨hlt, he⟩ := List.getElem?_eq_some_iff.1 hrule
      have hone : (FaultRuleStore.empty.add request newGuid now).rules.length = 1 := rfl
      have hzero : ref - s.rules.length = 0 := by omega
      refine .inr ⟨by omega, ?_⟩
      simp only [hzero] at he
      rw [← he]
      rfl
  refine ⟨?_, ?_, ?_, ?_⟩
  · intro call hcall
    have := h.valid call hcall
    simp only [List.length_append]
    omega
  · intro ref href
    simp only [List.length_append] at href
    exact h.fresh ref (by omega)
  · intro ref rule hrule hmode
    rcases hnew ref rule hrule with hrule | ⟨rfl, _⟩
    · exact h.idle ref rule hrule hmode
    · exact h.fresh _ (le_refl _)
  · intro ref rule max hrule hmax hmode
    rcases hnew ref rule hrule with hrule | ⟨rfl, hactivations⟩
    · exact h.counted ref rule max hrule hmax hmode
    · have hexecuted := h.fresh s.rules.length (le_refl _)
      have hrecorded : s.calls.countP (fun call => call.rule = s.rules.length ∧ call.recorded) = 0 :=
        hnone _ fun call hcall => (of_decide_eq_true hcall).1
      have hmatched : s.calls.countP (fun call => call.rule = s.rules.length ∧ !call.recorded) = 0 :=
        hnone _ fun call hcall => (of_decide_eq_true hcall).1
      simp only [InjectorState.recorded, InjectorState.matched, hexecuted, hrecorded,
        hmatched, hactivations]
      exact ⟨by decide, Nat.zero_le _⟩

/-- A match within the bound leaves room for its activation. -/
theorem findMatch (h : Counted s) {ref : Nat} (key : String) (env : FaultEnv)
    (href : ref < s.rules.length)
    (hwithin : ∀ rule max, s.rules[ref]? = some rule → rule.maxActivations = some max →
      rule.mode.hasStrategy →
      rule.activations.toInt + s.matched ref < max.toInt) :
    Counted (s.push ref key env) := by
  refine ⟨?_, h.fresh, h.idle, ?_⟩
  · intro call hcall
    rcases List.mem_append.1 hcall with hcall | hcall
    · exact h.valid call hcall
    · rw [List.mem_singleton.1 hcall]
      exact href
  · intro other rule max hrule hmax hmode
    obtain ⟨hcount, hbound⟩ := h.counted other rule max hrule hmax hmode
    rw [InjectorState.recorded_push, InjectorState.matched_push]
    show _ = ((s.executed other + _ : Nat) : Int) ∧ s.executed other + _ + _ ≤ _
    refine ⟨hcount, ?_⟩
    by_cases hsame : ref = other
    · subst hsame
      have hlt := hwithin rule max hrule hmax hmode
      rw [if_pos rfl]
      omega
    · rw [if_neg hsame]
      exact hbound

theorem recordActivation (h : Counted s) {i : Nat} {call : InjectorCall} (hcall : s.calls[i]? = some call)
    (hrecorded : call.recorded = false) : Counted (s.recordActivation i call) := by
  have hin : call ∈ s.calls := List.mem_of_getElem? hcall
  refine ⟨?_, ?_, ?_, ?_⟩
  · intro other hother
    show other.rule < (s.rules.modify _ _).length
    rw [List.length_modify]
    rcases List.mem_append.1 hother with hother | hother
    · exact h.valid other (List.mem_of_mem_eraseIdx hother)
    · rw [List.mem_singleton.1 hother]
      exact h.valid call hin
  · intro ref href
    rw [show (s.recordActivation i call).rules = s.rules.modify _ _ from rfl, List.length_modify] at href
    exact h.fresh ref href
  · intro ref rule hrule hmode
    rcases modify_cases hrule with ⟨_, hrule⟩ | ⟨_, old, hold, rfl⟩
    · exact h.idle ref rule hrule hmode
    · exact h.idle ref old hold hmode
  · intro ref rule max hrule hmax hmode
    have hrecord := InjectorState.recorded_recordActivation hcall hrecorded ref
    have hmatch := InjectorState.matched_recordActivation hcall hrecorded ref
    show _ = ((s.executed ref + _ : Nat) : Int) ∧ s.executed ref + _ + _ ≤ _
    rcases modify_cases hrule with ⟨hother, hrule⟩ | ⟨hsame, old, hold, rfl⟩
    · rw [if_neg hother] at hrecord hmatch
      obtain ⟨hcount, hbound⟩ := h.counted ref rule max hrule hmax hmode
      rw [hrecord]
      exact ⟨hcount, by omega⟩
    · rw [if_pos hsame] at hrecord hmatch
      obtain ⟨hcount, hbound⟩ := h.counted ref old max hold hmax hmode
      refine ⟨?_, by omega⟩
      -- the bound is a 32-bit number, so the increment does not wrap
      have hmaxValue := (I32.toInt_bounds max).2
      have hone : (1 : I32).toInt = 1 := by decide
      show (old.activations + 1).toInt = _
      rw [I32.toInt_add (by simp only [I32.minValue, hone]; omega), hone]
      omega

theorem execute (h : Counted s) {i : Nat} {call : InjectorCall} (hcall : s.calls[i]? = some call)
    (hrecorded : call.recorded = true) : Counted (s.execute i call) := by
  have hin : call ∈ s.calls := List.mem_of_getElem? hcall
  have hlt := h.valid call hin
  refine ⟨?_, ?_, ?_, ?_⟩
  · intro other hother
    show other.rule < (s.rules.modify _ _).length
    rw [List.length_modify]
    exact h.valid other (List.mem_of_mem_eraseIdx hother)
  · intro ref href
    rw [show (s.execute i call).rules = s.rules.modify _ _ from rfl, List.length_modify] at href
    show s.executed ref + _ = 0
    rw [h.fresh ref href, if_neg (by omega)]
  · intro ref rule hrule hmode
    show s.executed ref + (if ref = call.rule ∧ (s.rules[ref]?).any (·.mode.hasStrategy) then 1 else 0) = 0
    rcases modify_cases hrule with ⟨hother, hrule⟩ | ⟨hsame, old, hold, rfl⟩
    · rw [h.idle ref rule hrule hmode, if_neg (fun hand => hother hand.1.symm)]
    · rw [(execute_keeps call.env old call.key).2.1] at hmode
      rw [h.idle ref old hold hmode, hold, if_neg (by simp [hmode])]
  · intro ref rule max hrule hmax hmode
    have hrecord := InjectorState.recorded_execute hcall hrecorded ref
    have hmatch := InjectorState.matched_execute hcall hrecorded ref
    have hexecuted : (s.execute i call).executed ref =
        s.executed ref + if ref = call.rule ∧ (s.rules[ref]?).any
          (·.mode.hasStrategy) then 1 else 0 := rfl
    rcases modify_cases hrule with ⟨hother, hrule⟩ | ⟨hsame, old, hold, rfl⟩
    · obtain ⟨hcount, hbound⟩ := h.counted ref rule max hrule hmax hmode
      rw [if_neg (fun hand => hother hand.1.symm)] at hexecuted
      rw [if_neg hother] at hrecord
      exact ⟨by omega, by omega⟩
    · obtain ⟨hmaxKept, hmodeKept, hactivations⟩ := execute_keeps call.env old call.key
      rw [hmaxKept] at hmax
      rw [hmodeKept] at hmode
      obtain ⟨hcount, hbound⟩ := h.counted ref old max hold hmax hmode
      rw [hold, if_pos ⟨hsame.symm, hmode⟩] at hexecuted
      rw [if_pos hsame] at hrecord
      rw [hactivations]
      exact ⟨by omega, by omega⟩

end Counted

/-- `FindMatch` returns a listed rule. -/
theorem InjectorState.findMatch_lt {s : InjectorState} {operation : String} {phase : FaultPhase}
    {env : FaultEnv} {ref : Nat} (h : s.findMatch operation phase env = some ref) :
    ref < s.rules.length := by
  have happlies := List.find?_some h
  cases hrule : s.rules[ref]? with
  | none => simp [hrule] at happlies
  | some rule => exact (List.getElem?_eq_some_iff.1 hrule).1

theorem injectorMachine_counted (s : InjectorState) (label : InjectorStep) (s' : InjectorState)
    (h : Counted s) (hstep : injectorMachine.step s label = some s')
    (hwithin : MatchesWithin s label s') : Counted s' := by
  cases label with
  | put request newGuid now => cases hstep; exact h.put request newGuid now
  | remove id => cases hstep; exact h.relist _
  | clear => cases hstep; exact h.relist _
  | list now => cases hstep; exact h.relist _
  | findMatch operation phase key env =>
    simp only [injectorMachine] at hstep
    split at hstep
    · cases hstep; exact h
    · rename_i ref hfound
      cases hstep
      exact h.findMatch key env (InjectorState.findMatch_lt hfound) fun rule max hrule hmax hmode =>
        hwithin operation phase key env rfl ref rule max hfound hrule hmax hmode
  | recordActivation i =>
    simp only [injectorMachine] at hstep
    split at hstep
    · cases hstep
    · rename_i call hcall
      split at hstep
      · cases hstep
      · rename_i hrecorded
        cases hstep
        exact h.recordActivation hcall (Bool.eq_false_iff.2 hrecorded)
  | execute i =>
    simp only [injectorMachine] at hstep
    split at hstep
    · cases hstep
    · rename_i call hcall
      split at hstep
      · rename_i hrecorded
        cases hstep
        exact h.execute hcall hrecorded
      · cases hstep

/-- Where every match leaves room for the activations still to be recorded, no rule is applied more
often than its `MaxActivations`. -/
theorem applied_at_most_max {labels : List InjectorStep} {s : InjectorState}
    (hrun : injectorMachine.run .empty labels = some s)
    (hwithin : injectorMachine.Along MatchesWithin .empty labels) : NeverOverApplied s :=
  (Machine.run_inv_of_along injectorMachine_counted counted_empty hwithin hrun).neverOverApplied

/-- A delay of 100 ms for one authorization. -/
def slowOnce : FaultRuleRequest :=
  { operation := some "payment.authorize", mode := .latency, ttlSeconds := 60, delayMs := some 100,
    maxActivations := some 1 }

def atTheStart : FaultEnv := { now := 0 }

/-- One authorization matches the rule. -/
def authorize : InjectorStep := .findMatch "payment.authorize" .beforeEffect "" atTheStart

def oneCall : List InjectorStep := [.put slowOnce 0 0, authorize, .recordActivation 0, .execute 0]

theorem applied_once : ∃ s, injectorMachine.run .empty oneCall = some s ∧ s.executed 0 = 1 ∧
      NeverOverApplied s := by
  refine ⟨_, rfl, rfl, @applied_at_most_max oneCall _ rfl ⟨?_, ?_, ?_, ?_, trivial⟩⟩
  · intro _ _ _ _ h
    cases h
  · intro _ _ _ _ h ref rule max hfound hrule hmax _
    cases h
    cases hfound
    cases hrule
    cases hmax
    decide
  · intro _ _ _ _ h
    cases h
  · intro _ _ _ _ h
    cases h

/-- Both calls match before either records its activation. -/
def twoCalls : List InjectorStep :=
  [.put slowOnce 0 0, authorize, authorize, .recordActivation 0, .recordActivation 0,
    .execute 0, .execute 0]

theorem applied_twice : ¬ ∀ labels s, injectorMachine.run .empty labels = some s →
      NeverOverApplied s := by
  intro h
  have htwice := h twoCalls _ rfl 0 _ 1 rfl rfl
  exact absurd htwice (by decide)

end TxPlatform
