import TxPlatform.Faults.Injector

/-! # Repeatable intermittent faults (FaultStrategies.cs:46-60, FaultModel.cs:97-106)

The comment on the strategy promises faults that behave the same in every run: the first N attempts
per key fail, or every Nth request does. A call is one atomic update of a counter, so calls that run
side by side are a list of calls in some order. The counters are 32-bit and wrap: a key that is
called often enough starts to fail again (`wraps`).
-/

namespace TxPlatform

/-- An intermittent rule as the validator lets it in. -/
structure IntermittentRequest (knownOperations : List String) (maxTtlSeconds : Int) where
  request : FaultRuleRequest
  mode : request.mode = .intermittent
  accepted : FaultRuleValidator.accepts request knownOperations maxTtlSeconds = true

/-- The rule the store makes of it. -/
def IntermittentRequest.rule {knownOperations : List String} {maxTtlSeconds : Int}
    (request : IntermittentRequest knownOperations maxTtlSeconds) (newGuid : Guid) (now : Int) : FaultRule :=
  (FaultRuleStore.empty.add request.request newGuid now).rules.head (List.append_ne_nil_of_right_ne_nil _
    (List.cons_ne_nil _ _))

namespace IntermittentStrategy

abbrev Outcome := Except Exn FaultDecision

/-- `key ?? string.Empty`. -/
def keyOf (key : Option String) : String := key.getD ""

/-- Calls of `ExecuteAsync` on one rule, in the order in which they update its counters. -/
def executeAll (rule : FaultRule) : List (Option String) → List (String × Outcome)
  | [] => []
  | key :: calls =>
    (keyOf key, (intermittentStrategy rule (keyOf key)).1) ::
      executeAll (intermittentStrategy rule (keyOf key)).2 calls

/-- What the calls with a key see, one after the other. -/
def seenBy (key : String) (outcomes : List (String × Outcome)) : List Outcome :=
  (outcomes.filter (·.1 = key)).map (·.2)

/-- How often a key is called. -/
def callsOf (key : String) (calls : List (Option String)) : Nat := calls.countP (keyOf · = key)

/-- Two interleavings of the same sequences of calls. -/
def SameCalls (calls calls' : List (Option String)) : Prop :=
  ∀ key, calls.filter (keyOf · = key) = calls'.filter (keyOf · = key)

/-- The first `n` fail with the status, all later ones continue. -/
def FailsFirst (n status : Int) (outcomes : List Outcome) : Prop :=
  ∀ (i : Nat) (h : i < outcomes.length),
    outcomes[i] = .ok (if (i : Int) < n then .fail status else .continue_)

def isFailure : Outcome → Bool
  | .ok decision => decision.outcome = .fail
  | .error _ => false

/-- What the comment promises of a rule for these calls. -/
structure Repeatable (rule : FaultRule) (calls : List (Option String)) : Prop where
  failAttempts : ∀ n, rule.failAttempts = some n → ∃ status, rule.statusCode = some status ∧
    ∀ calls', SameCalls calls calls' → ∀ key,
      seenBy key (executeAll rule calls') = seenBy key (executeAll rule calls) ∧
      FailsFirst n.toInt status.toInt (seenBy key (executeAll rule calls'))
  everyNth : ∀ n, rule.everyNth = some n → calls.length < 2 ^ 31 →
    (executeAll rule calls).countP (isFailure ·.2) = calls.length / n.toInt.toNat

/-! ## Attempts per key -/

/-- The counters say that each key has been called `count key` times, up to the 32 bits. -/
def Counted (rule : FaultRule) (count : String → Nat) : Prop :=
  ∀ key, rule.attemptsPerKey.get key = if count key = 0 then none else some (BitVec.ofNat 32 (count key))

/-- The outcome of the `m`-th attempt. -/
def attempt (n status : I32) (m : Nat) : Outcome :=
  .ok (if (BitVec.ofNat 32 m).toInt ≤ n.toInt then .fail status.toInt else .continue_)

section Attempts
variable {rule : FaultRule} {n status : I32} {count : String → Nat}

/-- One call: the next attempt of its key, and no other counter moves. -/
theorem intermittentStrategy_attempt (hn : rule.failAttempts = some n) (hs : rule.statusCode = some status)
    (hcount : Counted rule count) (key : String) :
    (intermittentStrategy rule key).1 = attempt n status (count key + 1) ∧
      (intermittentStrategy rule key).2 =
        { rule with attemptsPerKey := rule.attemptsPerKey.set key (BitVec.ofNat 32 (count key + 1)) } := by
  have hshould : intermittentShouldFail rule key =
      (.ok ((BitVec.ofNat 32 (count key + 1)).toInt ≤ n.toInt),
        { rule with attemptsPerKey := rule.attemptsPerKey.set key (BitVec.ofNat 32 (count key + 1)) }) := by
    have hget := hcount key
    by_cases hzero : count key = 0
    · rw [if_pos hzero] at hget
      simp [intermittentShouldFail, hn, hget, hzero]
    · rw [if_neg hzero] at hget
      simp [intermittentShouldFail, hn, hget, BitVec.ofNat_add]
  rw [intermittentStrategy, hshould, attempt]
  by_cases hle : (BitVec.ofNat 32 (count key + 1)).toInt ≤ n.toInt
  · simp [hle, failWith, hs]
  · simp [hle]

theorem Counted.set (hcount : Counted rule count) (key : String) :
    Counted { rule with attemptsPerKey := rule.attemptsPerKey.set key (BitVec.ofNat 32 (count key + 1)) }
      (Function.update count key (count key + 1)) := by
  intro other
  by_cases hkey : other = key
  · subst hkey
    simp
  · have hother := hcount other
    simp [hkey, hother]

/-- What a key sees depends on its own calls alone. -/
theorem seenBy_executeAll (hn : rule.failAttempts = some n) (hs : rule.statusCode = some status)
    (hcount : Counted rule count) (key : String) (calls : List (Option String)) :
    seenBy key (executeAll rule calls) =
      (List.range (callsOf key calls)).map fun i => attempt n status (count key + i + 1) := by
  induction calls generalizing rule count with
  | nil => rfl
  | cons call calls ih =>
    obtain ⟨hresult, hrule⟩ := intermittentStrategy_attempt hn hs hcount (keyOf call)
    have hrest := ih (show (intermittentStrategy rule (keyOf call)).2.failAttempts = some n by rw [hrule]; exact hn)
      (by rw [hrule]; exact hs) (by rw [hrule]; exact hcount.set (keyOf call))
    simp only [executeAll, seenBy, callsOf, List.filter_cons, List.countP_cons] at hrest ⊢
    by_cases hkey : keyOf call = key
    · subst hkey
      simp only [decide_true, if_true, List.map_cons, hrest, hresult, List.range_succ_eq_map, List.map_map,
        Function.update_self, List.cons.injEq, Nat.add_zero, true_and]
      exact List.map_congr_left fun i _ => by
        simp only [Function.comp, Nat.succ_eq_add_one]
        congr 1
        omega
    · simp only [hkey, decide_false, Bool.false_eq_true, if_false, hrest, Nat.add_zero,
        Function.update_of_ne (Ne.symm hkey)]

end Attempts

/-- Below 2^31 calls a counter shows the attempts. -/
theorem attempt_of_lt {n status : I32} {i : Nat} (h : i + 1 < 2 ^ 31) :
    attempt n status (i + 1) = .ok (if (i : Int) < n.toInt then .fail status.toInt else .continue_) := by
  have htoInt : (BitVec.ofNat 32 (i + 1)).toInt = i + 1 := by
    rw [BitVec.toInt_ofNat', Int.bmod_eq_of_le] <;> omega
  simp only [attempt, htoInt, Int.add_one_le_iff]

/-- **The counter wraps**: attempt 2^31 fails whatever the number of failing attempts is. -/
theorem wraps {n status : I32} : attempt n status (2 ^ 31 - 1 + 1) = .ok (.fail status.toInt) := by
  have hmin : (BitVec.ofNat 32 (2 ^ 31 - 1 + 1)).toInt = I32.minValue := by decide
  rw [attempt, if_pos]
  rw [hmin]
  exact (I32.toInt_bounds n).1

/-! ## Every Nth request -/

section Requests
variable {rule : FaultRule} {n status : I32} {k : Nat}

/-- One call: the next number, and it fails when `n` divides it. -/
theorem intermittentStrategy_number (hnone : rule.failAttempts = none) (hn : rule.everyNth = some n)
    (hs : rule.statusCode = some status) (hpos : 2 ≤ n.toInt) (hk : rule.requestCount = BitVec.ofNat 32 k)
    (hlt : k + 1 < 2 ^ 31) (key : String) :
    isFailure (intermittentStrategy rule key).1 = decide (n.toInt.toNat ∣ k + 1) ∧
      (intermittentStrategy rule key).2 = { rule with requestCount := BitVec.ofNat 32 (k + 1) } := by
  have hnext : rule.requestCount + 1 = BitVec.ofNat 32 (k + 1) := by
    rw [hk, BitVec.ofNat_add]
    rfl
  have hhits : everyNthHits (BitVec.ofNat 32 (k + 1)) (some n) = .ok (n.toInt.toNat ∣ k + 1) := by
    have htoInt : (BitVec.ofNat 32 (k + 1)).toInt = ((k + 1 : Nat) : Int) := by
      rw [BitVec.toInt_ofNat', Int.bmod_eq_of_le] <;> omega
    have hnat : n.toInt = (n.toInt.toNat : Int) := by omega
    have hne : n.toInt ≠ 0 := by omega
    have hmod : ((k + 1 : Nat) : Int).tmod n.toInt = (((k + 1) % n.toInt.toNat : Nat) : Int) := by
      rw [hnat, Int.toNat_natCast, Int.ofNat_tmod]
    simp only [everyNthHits, hne, if_false, htoInt, hmod, Except.ok.injEq]
    rw [Bool.eq_iff_iff, beq_iff_eq, decide_eq_true_eq, Nat.dvd_iff_mod_eq_zero]
    omega
  rw [intermittentStrategy, intermittentShouldFail, hnone]
  simp only [hnext, hn, hhits]
  by_cases hdvd : n.toInt.toNat ∣ k + 1
  · simp [hdvd, failWith, hs, isFailure, FaultDecision.fail]
  · simp [hdvd, isFailure]

theorem countP_executeAll (hnone : rule.failAttempts = none) (hn : rule.everyNth = some n)
    (hs : rule.statusCode = some status) (hpos : 2 ≤ n.toInt) (hk : rule.requestCount = BitVec.ofNat 32 k)
    (calls : List (Option String)) (hlt : k + calls.length < 2 ^ 31) :
    k / n.toInt.toNat + (executeAll rule calls).countP (isFailure ·.2) =
      (k + calls.length) / n.toInt.toNat := by
  induction calls generalizing rule k with
  | nil => simp [executeAll]
  | cons call calls ih =>
    rw [List.length_cons] at hlt ⊢
    obtain ⟨hresult, hrule⟩ := intermittentStrategy_number hnone hn hs hpos hk (by omega) (keyOf call)
    have hrest := ih (k := k + 1)
      (show (intermittentStrategy rule (keyOf call)).2.failAttempts = none by rw [hrule]; exact hnone)
      (by rw [hrule]; exact hn) (by rw [hrule]; exact hs) (by rw [hrule]) (by omega)
    have hsum : k + (calls.length + 1) = k + 1 + calls.length := by omega
    rw [hsum, ← hrest, Nat.succ_div]
    simp only [executeAll, List.countP_cons, hresult, decide_eq_true_eq]
    omega

end Requests

/-! ## The promise -/

section Promise
variable {knownOperations : List String} {maxTtlSeconds : Int}
  (request : IntermittentRequest knownOperations maxTtlSeconds)

theorem parameters : ∃ status, request.request.statusCode = some status ∧
    ((∃ n, request.request.failAttempts = some n ∧ request.request.everyNth = none) ∨
      (∃ n, request.request.failAttempts = none ∧ request.request.everyNth = some n ∧ 2 ≤ n.toInt)) := by
  obtain ⟨-, ⟨hmode, -⟩ | ⟨-, hsound⟩⟩ := (FaultRuleValidator.accepts_iff ..).1 request.accepted
  · rw [request.mode] at hmode
    cases hmode
  · obtain ⟨hstatus, hcase⟩ := hsound.parameters.2.2 request.mode
    obtain ⟨status, hstatus⟩ := Option.isSome_iff_exists.1 hstatus
    refine ⟨status, hstatus, ?_⟩
    obtain ⟨n, hn, hnone, -⟩ | hcase := hcase
    · exact .inl ⟨n, hn, hnone⟩
    · exact .inr hcase

theorem callsOf_eq {calls calls' : List (Option String)} (h : SameCalls calls calls') (key : String) :
    callsOf key calls' = callsOf key calls := by
  rw [callsOf, callsOf, List.countP_eq_length_filter, List.countP_eq_length_filter, h key]

/-- What each key of a rule that counts attempts sees. -/
theorem seenBy_rule {n status : I32} (hs : request.request.statusCode = some status)
    (hn : request.request.failAttempts = some n) (newGuid : Guid) (now : Int) (calls : List (Option String))
    (key : String) :
    seenBy key (executeAll (request.rule newGuid now) calls) =
      (List.range (callsOf key calls)).map fun i => attempt n status (i + 1) := by
  have hcounted : Counted (request.rule newGuid now) fun _ => 0 := fun key => by
    simp [IntermittentRequest.rule, FaultRuleStore.add, FaultRuleStore.empty]
  have hseen := seenBy_executeAll (show (request.rule newGuid now).failAttempts = some n from hn) hs hcounted key calls
  simpa using hseen

/-- A key that is called 2^31 times sees its counter wrap. -/
theorem callsOf_lt_of_repeatable {newGuid : Guid} {now : Int} {calls : List (Option String)}
    (hrepeatable : Repeatable (request.rule newGuid now) calls)
    (hsome : request.request.failAttempts.isSome) (key : String) : callsOf key calls < 2 ^ 31 := by
  obtain ⟨n, hn⟩ := Option.isSome_iff_exists.1 hsome
  obtain ⟨status, hs, hsame⟩ := hrepeatable.failAttempts n hn
  have hfails := (hsame calls (fun _ => rfl) key).2
  rw [seenBy_rule request hs hn] at hfails
  by_contra hmany
  have hlast := hfails (2 ^ 31 - 1) (by simp only [List.length_map, List.length_range]; omega)
  rw [List.getElem_map, List.getElem_range, wraps, if_neg] at hlast
  · cases hlast
  · have hmax := (I32.toInt_bounds n).2
    simp only [I32.maxValue] at hmax
    omega

/-- **When intermittent faults are repeatable.** For every accepted intermittent rule and all calls: each
key sees its own first attempts fail in every interleaving, and every Nth request fails, if and only if a
rule that counts attempts is called fewer than 2^31 times with each key. -/
theorem repeatable_iff (newGuid : Guid) (now : Int) (calls : List (Option String)) :
    Repeatable (request.rule newGuid now) calls ↔
      (request.request.failAttempts.isSome → ∀ key, callsOf key calls < 2 ^ 31) := by
  refine ⟨callsOf_lt_of_repeatable request, fun hfew => ?_⟩
  obtain ⟨status, hs, ⟨n, hn, hnone⟩ | ⟨n, hnone, hn, hpos⟩⟩ := parameters request
  · refine ⟨fun n' hn' => ?_, fun n' hn' => ?_⟩
    · cases hn.symm.trans hn'
      refine ⟨status, hs, fun calls' hcalls key => ?_⟩
      have hlt := hfew (by rw [hn]; rfl) key
      simp only [seenBy_rule request hs hn, callsOf_eq hcalls, true_and]
      intro i hi
      rw [List.length_map, List.length_range] at hi
      rw [List.getElem_map, List.getElem_range]
      exact attempt_of_lt (by omega)
    · cases hnone.symm.trans hn'
  · refine ⟨fun n' hn' => ?_, fun n' hn' hlt => ?_⟩
    · cases hnone.symm.trans hn'
    · cases hn.symm.trans hn'
      have hcount := countP_executeAll (k := 0) (show (request.rule newGuid now).failAttempts = none from hnone) hn hs hpos rfl calls
        (by omega)
      simpa using hcount

end Promise

/-- The first attempt of every authorization fails with 503. -/
def firstAttemptFails : IntermittentRequest ["payment.authorize"] 900 where
  request :=
    { operation := some "payment.authorize", mode := .intermittent, ttlSeconds := 60,
      statusCode := some 503, failAttempts := some 1 }
  mode := rfl
  accepted := by decide

/-- After 2^31 - 1 attempts the next one under the same key fails again. -/
theorem fails_again_after_wrap : ¬ Repeatable (firstAttemptFails.rule 1 0)
    (List.replicate (2 ^ 31) (some "order-1-authorize")) := by
  intro hrepeatable
  have hfew := callsOf_lt_of_repeatable firstAttemptFails hrepeatable rfl "order-1-authorize"
  rw [callsOf, List.countP_replicate, if_pos (by decide)] at hfew
  omega

end IntermittentStrategy

end TxPlatform
