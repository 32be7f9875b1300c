import TxPlatform.Faults.Activations

/-! # When a rule ends (FaultRuleStore.cs:40-90, FaultRuleValidator.cs:17-21)

A rule counts until it expires, but the store forgets it only when an operator lists the rules. Every
reader tests the expiry itself, so no request to the service shows whether and when somebody listed them.
Only what the operator's `DELETE` answers can (`clear_list_eq_iff`). The clock never goes back.
-/

namespace TxPlatform

namespace InjectorStep

/-- The time that a step reads. -/
def time : InjectorStep → Option Int
  | .put _ _ now => some now
  | .list now => some now
  | .findMatch _ _ _ env => some env.now
  | _ => none

def lists : InjectorStep → Bool
  | .list _ => true
  | _ => false

end InjectorStep

namespace InjectorState

/-- What `ListActive` returns. -/
def active (s : InjectorState) (now : Int) : List Nat := s.listedWith (!·.isExpired now)

/-- `HasActiveReadinessLoss`. -/
def hasActiveReadinessLoss (s : InjectorState) (now : Int) : Bool :=
  s.listed.any fun ref => (s.rules[ref]?).any fun rule => rule.mode = .readinessLoss ∧ !rule.isExpired now

/-! ## Readers see active rules only -/

theorem findMatch_eq_active (s : InjectorState) (operation : String) (phase : FaultPhase) (env : FaultEnv) :
    s.findMatch operation phase env = (s.active env.now).find? fun ref =>
      (s.rules[ref]?).any (FaultRuleStore.applies operation phase env.scenarioRunId env.now) := by
  rw [findMatch, active, listedWith, List.find?_filter]
  congr 1
  funext ref
  cases s.rules[ref]? with
  | none => rfl
  | some rule =>
    by_cases hexpired : rule.isExpired env.now <;> simp [FaultRuleStore.applies, hexpired]

theorem hasActiveReadinessLoss_eq_active (s : InjectorState) (now : Int) :
    s.hasActiveReadinessLoss now = (s.active now).any fun ref =>
      (s.rules[ref]?).any fun rule => rule.mode = .readinessLoss := by
  rw [hasActiveReadinessLoss, active, listedWith, List.any_filter]
  congr 1
  funext ref
  cases s.rules[ref]? with
  | none => rfl
  | some rule =>
    by_cases hexpired : rule.isExpired now <;> simp [hexpired]

/-! ## Two stores that no request can tell apart from `now` on -/

structure SameFrom (now : Int) (s t : InjectorState) : Prop where
  rules : s.rules = t.rules
  calls : s.calls = t.calls
  executed : s.executed = t.executed
  valid : ∀ ref, ref ∈ s.listed ∨ ref ∈ t.listed → ref < s.rules.length
  active : ∀ later, now ≤ later → s.active later = t.active later

theorem isExpired_mono {rule : FaultRule} {now later : Int} (h : now ≤ later) (hexpired : rule.isExpired now = true) :
    rule.isExpired later = true := by
  simp only [FaultRule.isExpired, decide_eq_true_eq] at *
  omega

/-- Listing drops nothing that is active later. -/
theorem active_list (s : InjectorState) {now later : Int} (h : now ≤ later) :
    { s with listed := s.active now }.active later = s.active later := by
  simp only [active, listedWith, List.filter_filter]
  congr 1
  funext ref
  cases s.rules[ref]? with
  | none => rfl
  | some rule =>
    simp only [Option.any_some]
    cases hnow : rule.isExpired now with
    | false => simp
    | true => simp [isExpired_mono h hnow]

/-- After a listing, `Clear` returns another number if some listed rule had expired. -/
theorem clear_list_eq_iff (s : InjectorState) (now : Int) :
    ({ s with listed := s.active now } : InjectorState).clear.1 = s.clear.1 ↔
      ∀ ref ∈ s.listed, (s.rules[ref]?).any (!·.isExpired now) = true :=
  List.length_filter_eq_length_iff

/-- A rule that is added comes last. -/
theorem active_put (s : InjectorState) (rule : FaultRule) (hvalid : ∀ ref ∈ s.listed, ref < s.rules.length)
    (later : Int) :
    { s with rules := s.rules ++ [rule], listed := s.listed ++ [s.rules.length] }.active later =
      s.active later ++ if rule.isExpired later then [] else [s.rules.length] := by
  simp only [active, listedWith, List.filter_append]
  congr 1
  · refine List.filter_congr fun ref hmem => ?_
    rw [List.getElem?_append_left (hvalid ref hmem)]
  · cases hexpired : rule.isExpired later <;> simp [hexpired]

/-- `Remove` of active rules. -/
theorem active_remove (s : InjectorState) (id : String) (later : Int) :
    { s with listed := s.listedWith (·.id ≠ id) }.active later =
      (s.active later).filter fun ref => (s.rules[ref]?).any (·.id ≠ id) := by
  simp only [active, listedWith, List.filter_filter]
  congr 1
  funext ref
  exact Bool.and_comm _ _

/-- Writes to a rule that is in use do not move its end. -/
theorem active_modify (s : InjectorState) (i : Nat) {f : FaultRule → FaultRule}
    (hf : ∀ rule, (f rule).expiresAt = rule.expiresAt)
    (calls : List InjectorCall) (executed : Nat → Nat) (later : Int) :
    InjectorState.active ⟨s.rules.modify i f, s.listed, calls, executed⟩ later = s.active later := by
  simp only [active, listedWith]
  congr 1
  funext ref
  rw [List.getElem?_modify]
  cases s.rules[ref]? with
  | none => rfl
  | some rule =>
    by_cases hi : i = ref
    · simp [hi, FaultRule.isExpired, hf]
    · simp [hi]

theorem expiresAt_executeStrategy (env : FaultEnv) (rule : FaultRule) (key : String) :
    (executeStrategy env rule key).2.expiresAt = rule.expiresAt := by
  have hcounted : (intermittentShouldFail rule key).2.expiresAt = rule.expiresAt := by
    unfold intermittentShouldFail
    split <;> rfl
  unfold executeStrategy
  split_ifs <;> try rfl
  unfold intermittentStrategy
  split <;> rename_i heq <;> rw [heq] at hcounted <;> exact hcounted

namespace SameFrom

variable {now : Int} {s t : InjectorState}

theorem later (h : SameFrom now s t) {later : Int} (hlater : now ≤ later) : SameFrom later s t :=
  { h with active := fun time htime => h.active time (hlater.trans htime) }

theorem findMatch (h : SameFrom now s t) (operation : String) (phase : FaultPhase) {env : FaultEnv}
    (hnow : now ≤ env.now) :
    s.findMatch operation phase env = t.findMatch operation phase env := by
  rw [findMatch_eq_active, findMatch_eq_active, h.rules, h.active _ hnow]

theorem hasActiveReadinessLoss (h : SameFrom now s t) {later : Int} (hlater : now ≤ later) :
    s.hasActiveReadinessLoss later = t.hasActiveReadinessLoss later := by
  rw [hasActiveReadinessLoss_eq_active, hasActiveReadinessLoss_eq_active, h.rules, h.active _ hlater]

/-- Only one of the two stores is listed. -/
theorem list (h : SameFrom now s t) : SameFrom now { s with listed := s.active now } t where
  rules := h.rules
  calls := h.calls
  executed := h.executed
  valid := fun ref hmem => h.valid ref (hmem.imp_left List.mem_of_mem_filter)
  active := fun later hlater => (active_list s hlater).trans (h.active later hlater)

theorem put (h : SameFrom now s t) (rule : FaultRule) : SameFrom now
    { s with rules := s.rules ++ [rule], listed := s.listed ++ [s.rules.length] }
    { t with rules := t.rules ++ [rule], listed := t.listed ++ [t.rules.length] } where
  rules := by rw [h.rules]
  calls := h.calls
  executed := h.executed
  valid := by
    intro ref hmem
    simp only [List.mem_append, List.mem_singleton, ← h.rules] at hmem
    have hold := h.valid ref
    rw [List.length_append, List.length_singleton]
    grind
  active := fun later hlater => by
    rw [active_put s rule (fun ref hmem => h.valid ref (.inl hmem)), h.rules,
      active_put t rule (fun ref hmem => h.rules ▸ h.valid ref (.inr hmem)), h.active later hlater]

theorem remove (h : SameFrom now s t) (id : String) : SameFrom now
    { s with listed := s.listedWith (·.id ≠ id) } { t with listed := t.listedWith (·.id ≠ id) } where
  rules := h.rules
  calls := h.calls
  executed := h.executed
  valid := fun ref hmem => h.valid ref (hmem.imp List.mem_of_mem_filter List.mem_of_mem_filter)
  active := fun later hlater => by rw [active_remove, active_remove, h.active later hlater, h.rules]

theorem clear (h : SameFrom now s t) : SameFrom now { s with listed := [] } { t with listed := [] } where
  rules := h.rules
  calls := h.calls
  executed := h.executed
  valid := fun _ hmem => absurd hmem (by simp)
  active := fun _ _ => rfl

theorem push (h : SameFrom now s t) (rule : Nat) (key : String) (env : FaultEnv) :
    SameFrom now (s.push rule key env) (t.push rule key env) where
  rules := h.rules
  calls := by simp only [InjectorState.push, h.calls]
  executed := h.executed
  valid := h.valid
  active := h.active

/-- A write to a rule, by a call that both stores have. -/
theorem modify (h : SameFrom now s t) (i : Nat) {f : FaultRule → FaultRule}
    (hf : ∀ rule, (f rule).expiresAt = rule.expiresAt)
    (calls : List InjectorCall) (executed : Nat → Nat) : SameFrom now
    ⟨s.rules.modify i f, s.listed, calls, executed⟩ ⟨t.rules.modify i f, t.listed, calls, executed⟩ where
  rules := by rw [h.rules]
  calls := rfl
  executed := rfl
  valid := fun ref hmem => by simpa using h.valid ref hmem
  active := fun later hlater => by rw [active_modify s i hf, active_modify t i hf, h.active later hlater]

theorem recordActivation (h : SameFrom now s t) (i : Nat) (call : InjectorCall) :
    SameFrom now (s.recordActivation i call) (t.recordActivation i call) := by
  have hkeeps : ∀ rule : FaultRule, rule.recordActivation.expiresAt = rule.expiresAt := fun _ => rfl
  have hsame := h.modify call.rule hkeeps (s.recordActivation i call).calls s.executed
  simpa only [InjectorState.recordActivation, h.calls, h.executed] using hsame

theorem execute (h : SameFrom now s t) (i : Nat) (call : InjectorCall) :
    SameFrom now (s.execute i call) (t.execute i call) := by
  have hsame := h.modify call.rule (expiresAt_executeStrategy call.env · call.key) (s.execute i call).calls
    (s.execute i call).executed
  simpa only [InjectorState.execute, h.calls, h.executed, h.rules] using hsame

end SameFrom

end InjectorState

/-- A step that lists is made by the first store only. -/
theorem sameFrom_step {now : Int} {s s' t : InjectorState} {label : InjectorStep} (h : s.SameFrom now t)
    (hstep : injectorMachine.step s label = some s') (hclock : ∀ time, label.time = some time → now ≤ time) :
    ∃ t', injectorMachine.run t ([label].filter (!·.lists)) = some t' ∧ s'.SameFrom (label.time.getD now) t' := by
  cases label with
  | put request newGuid time =>
    cases hstep
    exact ⟨_, rfl, (h.later (hclock time rfl)).put _⟩
  | remove id =>
    cases hstep
    exact ⟨_, rfl, h.remove id⟩
  | clear =>
    cases hstep
    exact ⟨_, rfl, h.clear⟩
  | list time =>
    cases hstep
    exact ⟨_, rfl, (h.later (hclock time rfl)).list⟩
  | findMatch operation phase key env =>
    have hmatch := h.findMatch operation phase (hclock env.now rfl)
    have hlater := h.later (hclock env.now rfl)
    simp only [injectorMachine] at hstep
    cases hfound : s.findMatch operation phase env with
    | none =>
      rw [hfound] at hstep
      cases hstep
      exact ⟨t, by simp [Machine.run, injectorMachine, InjectorStep.lists, ← hmatch, hfound], hlater⟩
    | some rule =>
      rw [hfound] at hstep
      cases hstep
      exact ⟨t.push rule key env, by simp [Machine.run, injectorMachine, InjectorStep.lists, ← hmatch, hfound],
        hlater.push rule key env⟩
  | recordActivation i =>
    simp only [injectorMachine] at hstep
    split at hstep
    · cases hstep
    · rename_i call hcall
      split at hstep
      · cases hstep
      · rename_i hrecorded
        cases hstep
        exact ⟨t.recordActivation i call,
          by simp [Machine.run, injectorMachine, InjectorStep.lists, ← h.calls, hcall, hrecorded], h.recordActivation i call⟩
  | execute i =>
    simp only [injectorMachine] at hstep
    split at hstep
    · cases hstep
    · rename_i call hcall
      split at hstep
      · rename_i hrecorded
        cases hstep
        exact ⟨t.execute i call,
          by simp [Machine.run, injectorMachine, InjectorStep.lists, ← h.calls, hcall, hrecorded], h.execute i call⟩
      · cases hstep

/-- A run in which rules are listed, and the same run without. -/
theorem sameFrom_run {labels : List InjectorStep} {now : Int} {s s' t : InjectorState} (h : s.SameFrom now t)
    (hrun : injectorMachine.run s labels = some s') (hclock : ((now :: labels.filterMap (·.time)).Pairwise (· ≤ ·))) :
    ∃ t', injectorMachine.run t (labels.filter (!·.lists)) = some t' ∧
      ∀ later, (∀ time ∈ now :: labels.filterMap (·.time), time ≤ later) → s'.SameFrom later t' := by
  induction labels generalizing now s t with
  | nil =>
    cases hrun
    exact ⟨t, rfl, fun later hlater => h.later (hlater now List.mem_cons_self)⟩
  | cons label labels ih =>
    obtain ⟨u, hstep, hrun⟩ := Machine.run_cons hrun
    have htimes : (label :: labels).filterMap (·.time) = label.time.toList ++ labels.filterMap (·.time) := by
      cases htime : label.time <;> simp [htime]
    rw [htimes, List.pairwise_cons, List.pairwise_append] at hclock
    obtain ⟨hnow, _, hlabels, hbefore⟩ := hclock
    obtain ⟨v, hv, hsame⟩ := sameFrom_step h hstep fun time htime => hnow time (by simp [htime])
    obtain ⟨t', ht', hend⟩ := ih hsame hrun (by
      refine List.pairwise_cons.2 ⟨fun time hmem => ?_, hlabels⟩
      cases htime : label.time with
      | none => exact hnow time (by simp [hmem])
      | some first => exact hbefore first (by simp [htime]) time hmem)
    refine ⟨t', ?_, fun later hlater => hend later fun time hmem => ?_⟩
    · have hsplit : (label :: labels).filter (!·.lists) = [label].filter (!·.lists) ++ labels.filter (!·.lists) :=
        List.filter_append [label] labels
      rw [hsplit, Machine.run_append, hv]
      exact ht'
    · rw [htimes] at hlater
      obtain rfl | hmem := List.mem_cons.1 hmem
      · cases htime : label.time with
        | none => exact hlater _ (by simp)
        | some first => exact hlater _ (by simp [htime])
      · exact hlater time (by simp [hmem])

/-- **No request shows that rules were listed**: after every run, readers see what they would see if nobody had
listed the rules and no listing had forgotten one. -/
theorem list_unobserved {labels : List InjectorStep} {s : InjectorState}
    (hrun : injectorMachine.run .empty labels = some s)
    (hclock : (labels.filterMap (·.time)).Pairwise (· ≤ ·)) {now : Int}
    (hnow : ∀ time ∈ labels.filterMap (·.time), time ≤ now) :
    ∃ t, injectorMachine.run .empty (labels.filter (!·.lists)) = some t ∧
      s.rules = t.rules ∧ s.calls = t.calls ∧ s.executed = t.executed ∧
      s.active now = t.active now ∧ s.hasActiveReadinessLoss now = t.hasActiveReadinessLoss now ∧
      ∀ operation phase env, env.now = now → s.findMatch operation phase env = t.findMatch operation phase env := by
  have hempty : ∀ first, InjectorState.empty.SameFrom first InjectorState.empty := fun first =>
    ⟨rfl, rfl, rfl, by simp [InjectorState.empty], fun _ _ => rfl⟩
  obtain ⟨first, hfirst, hle⟩ : ∃ first, (first :: labels.filterMap (·.time)).Pairwise (· ≤ ·) ∧ first ≤ now := by
    cases htimes : labels.filterMap (·.time) with
    | nil => exact ⟨now, List.pairwise_singleton _ _, le_refl now⟩
    | cons time times =>
      rw [htimes] at hclock hnow
      refine ⟨time, List.pairwise_cons.2 ⟨fun other hmem => ?_, hclock⟩, hnow time List.mem_cons_self⟩
      obtain rfl | hmem := List.mem_cons.1 hmem
      · exact le_refl other
      · exact List.rel_of_pairwise_cons hclock hmem
  obtain ⟨t, ht, hsame⟩ := sameFrom_run (hempty first) hrun hfirst
  have hsame := hsame now fun time hmem => (List.mem_cons.1 hmem).elim (· ▸ hle) (hnow time)
  refine ⟨t, ht, hsame.rules, hsame.calls, hsame.executed, hsame.active now (le_refl now),
    hsame.hasActiveReadinessLoss (le_refl now), ?_⟩
  rintro operation phase env rfl
  exact hsame.findMatch operation phase (le_refl env.now)

/-- A rule is listed once while it is in use and once after it has expired. -/
def listedTwice : List InjectorStep :=
  [.put slowOnce 0 0, authorize, .recordActivation 0, .list 500000000, .execute 0, .list 700000000]

theorem list_unobserved_listedTwice : ∃ s t, injectorMachine.run .empty listedTwice = some s ∧
    injectorMachine.run .empty (listedTwice.filter (!·.lists)) = some t ∧ s.listed ≠ t.listed ∧
      s.active 700000000 = t.active 700000000 := by
  obtain ⟨t, ht, -, -, -, hactive, -⟩ := @list_unobserved listedTwice _ rfl (by decide) 700000000 (by decide)
  cases ht
  exact ⟨_, _, rfl, rfl, by decide, hactive⟩

/-! ## No fault stays -/

/-- All rules end by `bound`. -/
def EndBy (bound : Int) (s : InjectorState) : Prop := ∀ rule ∈ s.rules, rule.expiresAt ≤ bound

theorem endBy_modify {bound : Int} {rules : List FaultRule} (h : ∀ rule ∈ rules, rule.expiresAt ≤ bound) (i : Nat)
    {f : FaultRule → FaultRule} (hf : ∀ rule, (f rule).expiresAt = rule.expiresAt) :
    ∀ rule ∈ rules.modify i f, rule.expiresAt ≤ bound := by
  intro rule hmem
  obtain ⟨ref, href⟩ := List.mem_iff_getElem?.1 hmem
  obtain ⟨-, hrule⟩ | ⟨-, old, hold, rfl⟩ := modify_cases href
  · exact h rule (List.mem_of_getElem? hrule)
  · exact (hf old).trans_le (h old (List.mem_of_getElem? hold))

/-- A label adds only rules that the validator accepts, until `lastPut`. -/
def AddsBy (operations : List String) (maxTtlSeconds lastPut : Int) (label : InjectorStep) : Prop :=
  ∀ request newGuid now, label = .put request newGuid now →
    FaultRuleValidator.accepts request operations maxTtlSeconds ∧ now ≤ lastPut

theorem endBy_step {operations : List String} {maxTtlSeconds lastPut : Int} (s : InjectorState) (label : InjectorStep)
    (s' : InjectorState) (h : EndBy (lastPut + maxTtlSeconds * FaultRuleStore.ticksPerSecond) s)
    (hstep : injectorMachine.step s label = some s') (hadds : AddsBy operations maxTtlSeconds lastPut label) :
    EndBy (lastPut + maxTtlSeconds * FaultRuleStore.ticksPerSecond) s' := by
  cases label with
  | put request newGuid now =>
    cases hstep
    obtain ⟨haccepted, hnow⟩ := hadds request newGuid now rfl
    have httl := ((FaultRuleValidator.accepts_iff request operations maxTtlSeconds).1 haccepted).1.2
    intro rule hmem
    obtain hmem | hmem := List.mem_append.1 hmem
    · exact h rule hmem
    · obtain rfl := List.mem_singleton.1 hmem
      simp only [FaultRuleStore.ticksPerSecond]
      omega
  | remove id =>
    cases hstep
    exact h
  | clear =>
    cases hstep
    exact h
  | list now =>
    cases hstep
    exact h
  | findMatch operation phase key env =>
    simp only [injectorMachine] at hstep
    split at hstep <;> cases hstep <;> exact h
  | recordActivation i =>
    simp only [injectorMachine] at hstep
    split at hstep
    · cases hstep
    · split at hstep
      · cases hstep
      · cases hstep
        exact endBy_modify h _ fun _ => rfl
  | execute i =>
    simp only [injectorMachine] at hstep
    split at hstep
    · cases hstep
    · split at hstep
      · cases hstep
        exact endBy_modify h _ fun rule => InjectorState.expiresAt_executeStrategy _ rule _
      · cases hstep

/-- **Every fault ends by itself**: `maxTtlSeconds` after the last rule was added none is active, whatever else
happened and even if nobody removes one. -/
theorem no_fault_stays {labels : List InjectorStep} {s : InjectorState}
    (hrun : injectorMachine.run .empty labels = some s)
    {operations : List String} {maxTtlSeconds lastPut : Int}
    (hadds : ∀ label ∈ labels, AddsBy operations maxTtlSeconds lastPut label)
    {now : Int} (hnow : lastPut + maxTtlSeconds * FaultRuleStore.ticksPerSecond ≤ now) :
    s.active now = [] ∧ s.hasActiveReadinessLoss now = false ∧
      ∀ operation phase env, env.now = now → s.findMatch operation phase env = none := by
  have hend : EndBy (lastPut + maxTtlSeconds * FaultRuleStore.ticksPerSecond) s :=
    Machine.run_inv_of_along endBy_step (fun _ hmem => absurd hmem List.not_mem_nil) (Machine.along_of_labels hadds) hrun
  have hnone : s.active now = [] := by
    refine List.filter_eq_nil_iff.2 fun ref _ => ?_
    cases hrule : s.rules[ref]? with
    | none => simp
    | some rule =>
      have := hend rule (List.mem_of_getElem? hrule)
      simp only [Option.any_some, FaultRule.isExpired]
      simpa using this.trans hnow
  refine ⟨hnone, ?_, ?_⟩
  · rw [InjectorState.hasActiveReadinessLoss_eq_active, hnone]
    rfl
  · rintro operation phase env rfl
    rw [InjectorState.findMatch_eq_active, hnone]
    rfl

theorem no_fault_stays_listedTwice : ∃ s, injectorMachine.run .empty listedTwice = some s ∧
    s.findMatch "payment.authorize" .beforeEffect { now := 36000000000 } = none := by
  refine ⟨_, rfl, (@no_fault_stays listedTwice _ rfl ["payment.authorize"] 3600 0 ?_ 36000000000 (by decide)).2.2 _ _ _ rfl⟩
  intro label hmem request newGuid now hput
  subst hput
  simp only [listedTwice, authorize, List.mem_cons, InjectorStep.put.injEq, reduceCtorEq, List.not_mem_nil, or_false] at hmem
  obtain ⟨rfl, -, rfl⟩ := hmem
  exact ⟨by decide, le_refl 0⟩

end TxPlatform
