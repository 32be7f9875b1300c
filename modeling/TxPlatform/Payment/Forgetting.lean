import TxPlatform.Lib.StaleFifo
import TxPlatform.Lib.Machine
import TxPlatform.Payment.Stores

/-! # Which idempotency records are forgotten (PaymentStores.cs:10-46)

`TryBegin` queues the key it adds and `Trim` dequeues, but `Abandon` takes a record away and leaves
its key in `insertionOrder`. The store is run here call by call beside a clock that notes when the
current record of each key was started.
-/

namespace TxPlatform

namespace IdempotencyStore

inductive Call where
  | tryBegin (key fingerprint : String)
  | complete (key : String) (response : StoredResponse)
  | abandon (key : String)

/-- The store with the number of calls so far and the call that started each key last. -/
structure Traced where
  store : IdempotencyStore
  clock : Nat
  startedAt : String → Nat

def Traced.empty : Traced := ⟨.empty, 0, fun _ => 0⟩

namespace Traced

def tryBegin (traced : Traced) (key fingerprint : String) : Traced :=
  let (answer, store) := traced.store.tryBegin key fingerprint
  ⟨store, traced.clock + 1,
    if answer.1 = .startNew then Function.update traced.startedAt key traced.clock else traced.startedAt⟩

/-- A `Complete` without a record throws and changes nothing. -/
def complete (traced : Traced) (key : String) (response : StoredResponse) : Traced :=
  match traced.store.complete key response with
  | .ok store => { traced with store := store, clock := traced.clock + 1 }
  | .error _ => { traced with clock := traced.clock + 1 }

def abandon (traced : Traced) (key : String) : Traced :=
  { traced with store := traced.store.abandon key, clock := traced.clock + 1 }

end Traced

def callMachine : Machine Traced Call where
  step traced
    | .tryBegin key fingerprint => some (traced.tryBegin key fingerprint)
    | .complete key response => some (traced.complete key response)
    | .abandon key => some (traced.abandon key)

/-- What a call must leave behind: `insertionOrder` holds every stored key exactly once and nothing
else, in the order in which their records were started; a record that `Trim` removed was started
before all others that were stored; the store and its queue are bounded. -/
structure OldestFirst (before : Traced) (call : Call) (after : Traced) : Prop where
  queued : ∀ key, key ∈ after.store.insertionOrder ↔ (after.store.records.get key).isSome
  once : after.store.insertionOrder.Nodup
  ordered : after.store.insertionOrder.Pairwise fun a b => after.startedAt a < after.startedAt b
  forgets : ∀ key fingerprint added, call = .tryBegin key fingerprint →
    before.store.tryAdd key fingerprint = some added →
    ∀ forgotten, (added.records.get forgotten).isSome → after.store.records.get forgotten = none →
      ∀ other, (added.records.get other).isSome → other ≠ forgotten →
        after.startedAt forgotten < after.startedAt other
  fits : after.store.records.count ≤ capacity
  queueFits : after.store.insertionOrder.length ≤ after.store.records.count

/-- No call abandons a key that is stored. -/
def NoStoredAbandoned (before : Traced) (call : Call) (_after : Traced) : Prop :=
  ∀ key, call = .abandon key → before.store.records.get key = none

/-! ## What one call can do -/

/-- Everything `TryBegin` can do: find the key taken, or add and queue it. -/
theorem tryBegin_cases (traced : Traced) (key fingerprint : String) :
    ((traced.store.records.get key).isSome ∧
      traced.tryBegin key fingerprint = { traced with clock := traced.clock + 1 }) ∨
    (traced.store.records.get key = none ∧
      traced.store.tryAdd key fingerprint =
        some ⟨traced.store.records.set key (started key fingerprint), traced.store.insertionOrder⟩ ∧
      (traced.tryBegin key fingerprint).store.insertionOrder = (evict capacity
        (traced.store.insertionOrder ++ [key])
          (traced.store.records.set key (started key fingerprint))).1 ∧
      (traced.tryBegin key fingerprint).store.records = (evict capacity
        (traced.store.insertionOrder ++ [key])
          (traced.store.records.set key (started key fingerprint))).2 ∧
      (traced.tryBegin key fingerprint).clock = traced.clock + 1 ∧
      (traced.tryBegin key fingerprint).startedAt =
        Function.update traced.startedAt key traced.clock) := by
  unfold Traced.tryBegin IdempotencyStore.tryBegin
  cases hget : traced.store.records.get key with
  | some record =>
    left
    have hadd : traced.store.tryAdd key fingerprint = none := by simp [tryAdd, hget]
    simp [hadd, lookup_ne_startNew]
  | none =>
    right
    have hadd : traced.store.tryAdd key fingerprint =
        some ⟨traced.store.records.set key (started key fingerprint), traced.store.insertionOrder⟩ := by
      simp [tryAdd, hget]
    simp [hadd, enqueue]

/-- Everything `Complete` can do: throw, or overwrite the record. -/
theorem complete_cases (traced : Traced) (key : String) (response : StoredResponse) :
    traced.complete key response = { traced with clock := traced.clock + 1 } ∨
    ∃ old new, traced.store.records.get key = some old ∧ traced.complete key response =
      ⟨⟨traced.store.records.set key new, traced.store.insertionOrder⟩, traced.clock + 1,
        traced.startedAt⟩ := by
  unfold Traced.complete IdempotencyStore.complete
  cases hget : traced.store.records.get key with
  | none => exact .inl rfl
  | some old => exact .inr ⟨old, _, rfl, rfl⟩

/-! ## Every run -/

/-- What abandoned keys cannot break: every stored key is queued and the store fits. -/
theorem covers_step {traced traced' : Traced} {call : Call}
    (h : Covers capacity traced.store.insertionOrder traced.store.records)
    (hs : callMachine.step traced call = some traced') :
    Covers capacity traced'.store.insertionOrder traced'.store.records := by
  cases call with
  | tryBegin key fingerprint =>
    cases hs
    obtain ⟨_, he⟩ | ⟨_, _, hqueue, hrecords, _⟩ := tryBegin_cases traced key fingerprint
    · rw [he]; exact h
    · rw [hqueue, hrecords]
      exact covers_evict _ h
  | complete key response =>
    cases hs
    obtain he | ⟨old, new, hget, he⟩ := complete_cases traced key response
    · rw [he]; exact h
    · rw [he]
      exact h.overwrite new hget
  | abandon key =>
    cases hs
    exact h.remove key

/-- **The store never exceeds its capacity**, whatever is abandoned. -/
theorem fits_always {traced : Traced} {calls : List Call}
    (h : callMachine.run .empty calls = some traced) :
    traced.store.records.count ≤ capacity := by
  have h0 : Covers capacity Traced.empty.store.insertionOrder Traced.empty.store.records :=
    ⟨fun _ _ h => by simp [Traced.empty, empty] at h, Nat.zero_le _⟩
  exact (Machine.run_inv (I := fun traced => Covers capacity traced.store.insertionOrder traced.store.records)
    (fun _ _ _ => covers_step) h0 h).fits

/-- The queue does: every abandoned key leaves an entry behind. -/
theorem abandoned_keys_pile_up (key fingerprint : String) (n : Nat) :
    ∃ traced, callMachine.run .empty
      (List.replicate n [Call.tryBegin key fingerprint, .abandon key]).flatten
        = some traced ∧
      traced.store.records = ∅ ∧ traced.store.insertionOrder = List.replicate n key := by
  induction n with
  | zero => exact ⟨.empty, rfl, rfl, rfl⟩
  | succ n ih =>
    obtain ⟨traced, hrun, hrecords, hqueue⟩ := ih
    have hnone : traced.store.records.get key = none := by rw [hrecords]; exact Dict.get_empty key
    have hone : (traced.store.records.set key (started key fingerprint)).count ≤ capacity := by
      rw [Dict.count_set_new _ hnone, hrecords]
      decide
    rw [List.replicate_succ', List.flatten_append, Machine.run_append, hrun]
    refine ⟨_, rfl, ?_, ?_⟩
    · obtain ⟨hsome, _⟩ | ⟨_, _, _, hadded, _⟩ := tryBegin_cases traced key fingerprint
      · rw [hnone] at hsome; cases hsome
      · show (traced.tryBegin key fingerprint).store.records.remove key = ∅
        rw [hadded, evict_of_count_le hone, Dict.remove_set_new _ hnone, hrecords]
    · obtain ⟨hsome, _⟩ | ⟨_, _, hqueued, _, _⟩ := tryBegin_cases traced key fingerprint
      · rw [hnone] at hsome; cases hsome
      · show (traced.tryBegin key fingerprint).store.insertionOrder = List.replicate (n + 1) key
        rw [hqueued, evict_of_count_le hone, hqueue, List.replicate_succ']

/-! ## Runs in which nothing stored is abandoned -/

/-- The state such a run is in. -/
structure InOrder (traced : Traced) : Prop where
  bounded : Bounded capacity traced.store.insertionOrder traced.store.records
  ordered : traced.store.insertionOrder.Pairwise fun a b => traced.startedAt a < traced.startedAt b
  past : ∀ key ∈ traced.store.insertionOrder, traced.startedAt key < traced.clock

theorem inOrder_empty : InOrder .empty :=
  ⟨⟨List.Perm.refl _, Nat.zero_le _⟩, List.Pairwise.nil, by simp [Traced.empty, empty]⟩

namespace InOrder

theorem mem_queue {traced : Traced} (h : InOrder traced) (key : String) :
    key ∈ traced.store.insertionOrder ↔ (traced.store.records.get key).isSome := by
  rw [h.bounded.queued.mem_iff, Dict.isSome_get]

/-- What is left to show of a step once its state is in order: whom `Trim` removed. -/
theorem oldestFirst {before after : Traced} {call : Call} (h : InOrder after)
    (hforgets : ∀ key fingerprint added, call = .tryBegin key fingerprint →
      before.store.tryAdd key fingerprint = some added →
      ∀ forgotten, (added.records.get forgotten).isSome → after.store.records.get forgotten = none →
        ∀ other, (added.records.get other).isSome → other ≠ forgotten →
          after.startedAt forgotten < after.startedAt other) : OldestFirst before call after where
  queued := h.mem_queue
  once := h.bounded.queued.nodup_iff.2 after.store.records.keys_nodup
  ordered := h.ordered
  forgets := hforgets
  fits := h.bounded.fits
  queueFits := h.bounded.queued.length_eq.le

/-- Noting that a call was made changes nothing. -/
theorem tick {traced : Traced} (h : InOrder traced) : InOrder { traced with clock := traced.clock + 1 } :=
  ⟨h.bounded, h.ordered, fun key hk => Nat.lt_succ_of_lt (h.past key hk)⟩

/-- The queue with the new key behind it is ordered by the starts. -/
theorem enqueue {traced : Traced} (h : InOrder traced) {key : String}
    (hnone : traced.store.records.get key = none) :
    (traced.store.insertionOrder ++ [key]).Pairwise
      (fun a b => Function.update traced.startedAt key traced.clock a <
        Function.update traced.startedAt key traced.clock b) ∧
    ∀ k ∈ traced.store.insertionOrder ++ [key],
      Function.update traced.startedAt key traced.clock k < traced.clock + 1 := by
  have hfresh : ∀ k ∈ traced.store.insertionOrder, k ≠ key := by
    rintro k hk rfl
    rw [h.mem_queue, hnone] at hk
    cases hk
  constructor
  · rw [List.pairwise_append]
    refine ⟨?_, List.pairwise_singleton _ _, ?_⟩
    · refine h.ordered.imp_of_mem ?_
      intro a b ha hb hab
      rwa [Function.update_of_ne (hfresh a ha), Function.update_of_ne (hfresh b hb)]
    · intro a ha b hb
      rw [List.mem_singleton.1 hb, Function.update_self, Function.update_of_ne (hfresh a ha)]
      exact h.past a ha
  · intro k hk
    by_cases he : k = key
    · rw [he, Function.update_self]; omega
    · rw [Function.update_of_ne he]
      have := h.past k (by simpa [he] using hk)
      omega

theorem tryBegin {traced : Traced} (h : InOrder traced) (key fingerprint : String) :
    OldestFirst traced (.tryBegin key fingerprint) (traced.tryBegin key fingerprint) ∧
    InOrder (traced.tryBegin key fingerprint) := by
  obtain ⟨hsome, he⟩ | ⟨hnone, hadd, hqueue, hrecords, hclock, hstarted⟩ :=
    tryBegin_cases traced key fingerprint
  · rw [he]
    refine ⟨h.tick.oldestFirst ?_, h.tick⟩
    intro key' fingerprint' added hcall hadd
    cases hcall
    obtain ⟨record, hrecord⟩ := Option.isSome_iff_exists.1 hsome
    simp [tryAdd, hrecord] at hadd
  · obtain ⟨hordered, hpast⟩ := h.enqueue hnone
    have hbounded := (bounded_insert (started key fingerprint) h.bounded (by decide) hnone).1
    rw [← hqueue, ← hrecords] at hbounded
    obtain ⟨_, he⟩ | ⟨_, oldest, rest, hq, hne, he, _⟩ :=
      evict_insert (started key fingerprint) h.bounded (by decide) hnone
    · rw [he] at hqueue hrecords
      have hinOrder : InOrder (traced.tryBegin key fingerprint) :=
        ⟨hbounded, by rw [hqueue, hstarted]; exact hordered, by rw [hqueue, hstarted, hclock]; exact hpast⟩
      refine ⟨hinOrder.oldestFirst ?_, hinOrder⟩
      intro key' fingerprint' added hcall hadd' forgotten hstored hgone
      cases hcall
      rw [hadd] at hadd'
      cases hadd'
      rw [hrecords] at hgone
      rw [hgone] at hstored
      cases hstored
    · rw [he] at hqueue hrecords
      rw [hq] at hordered hpast
      have hinOrder : InOrder (traced.tryBegin key fingerprint) :=
        ⟨hbounded, by rw [hqueue, hstarted]; exact (List.pairwise_cons.1 hordered).2,
          by rw [hqueue, hstarted, hclock]; exact fun k hk => hpast k (List.mem_cons_of_mem _ hk)⟩
      refine ⟨hinOrder.oldestFirst ?_, hinOrder⟩
      intro key' fingerprint' added hcall hadd' forgotten hstored hgone other hother hdiffer
      cases hcall
      rw [hadd] at hadd'
      cases hadd'
      have hforgotten : forgotten = oldest := by
        by_contra hkept
        rw [hrecords, Dict.get_remove, if_neg hkept] at hgone
        rw [hgone] at hstored
        cases hstored
      subst hforgotten
      have hkept : ((traced.tryBegin key fingerprint).store.records.get other).isSome := by
        rw [hrecords, Dict.get_remove, if_neg hdiffer]
        exact hother
      have hbehind := (hinOrder.mem_queue other).2 hkept
      rw [hqueue] at hbehind
      rw [hstarted]
      exact (List.pairwise_cons.1 hordered).1 other hbehind

theorem complete {traced : Traced} (h : InOrder traced) (key : String) (response : StoredResponse) :
    InOrder (traced.complete key response) := by
  obtain he | ⟨old, new, hget, he⟩ := complete_cases traced key response
  · rw [he]; exact h.tick
  · rw [he]
    exact ⟨bounded_overwrite new h.bounded hget, h.tick.ordered, h.tick.past⟩

theorem abandon {traced : Traced} (h : InOrder traced) {key : String}
    (hnone : traced.store.records.get key = none) : InOrder (traced.abandon key) := by
  have he : traced.abandon key = { traced with clock := traced.clock + 1 } := by
    simp [Traced.abandon, IdempotencyStore.abandon, Dict.remove_of_get_none hnone]
  rw [he]
  exact h.tick

end InOrder

theorem inOrder_step {before after : Traced} {call : Call} (h : InOrder before)
    (hs : callMachine.step before call = some after) (hcall : NoStoredAbandoned before call after) :
    OldestFirst before call after ∧ InOrder after := by
  cases call with
  | tryBegin key fingerprint =>
    cases hs
    exact h.tryBegin key fingerprint
  | complete key response =>
    cases hs
    exact ⟨(h.complete key response).oldestFirst (fun _ _ _ hc => (nomatch hc)), h.complete key response⟩
  | abandon key =>
    cases hs
    have hin := h.abandon (hcall key rfl)
    exact ⟨hin.oldestFirst (fun _ _ _ hc => (nomatch hc)), hin⟩

/-- Abandoning a stored key leaves a queued key that is not stored. -/
theorem noStoredAbandoned_of_oldestFirst {before after : Traced} {call : Call} (h : InOrder before)
    (hs : callMachine.step before call = some after) (hold : OldestFirst before call after) :
    NoStoredAbandoned before call after := by
  rintro key rfl
  cases hs
  cases hget : before.store.records.get key with
  | none => rfl
  | some record =>
    have hqueued : key ∈ before.store.insertionOrder := by rw [h.mem_queue, hget]; rfl
    have hstored := (hold.queued key).1 hqueued
    simp [Traced.abandon, IdempotencyStore.abandon] at hstored

/-- **Exactly when the oldest records are forgotten first**: a run keeps its queue in step with its
records, in the order of their starts, if and only if it abandons no key that is stored. -/
theorem oldest_first_iff (calls : List Call) :
    callMachine.Along OldestFirst .empty calls ↔ callMachine.Along NoStoredAbandoned .empty calls :=
  (Machine.along_iff (I := InOrder)
    (fun _ _ _ h hs => ⟨fun hcall => (inOrder_step h hs hcall).1, noStoredAbandoned_of_oldestFirst h hs⟩)
    (fun _ _ _ h hs hcall => (inOrder_step h hs hcall).2) inOrder_empty).symm

/-- A first attempt that fails before any effect: its key stays queued, although nothing is stored. -/
theorem abandoned_key_stays_queued :
    ¬ callMachine.Along OldestFirst .empty [.tryBegin "order-1" "f", .abandon "order-1"] := by
  intro h
  have hqueued := (h.2.1.queued "order-1").1
  revert hqueued
  decide

end IdempotencyStore

end TxPlatform
