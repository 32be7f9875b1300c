import TxPlatform.Lib.Machine
import TxPlatform.Payment.Endpoints

/-! # Concurrent authorizations (PaymentEndpoints.AuthorizeAsync, PaymentStores.cs)

Any number of requests run `AuthorizeAsync` at the same time. Between two requests everything may
interleave except the atomic steps: `TryAdd`, the lookup after a failed `TryAdd`, the enqueue,
`ledger.Authorize`, `Complete` and `Abandon`. Each request is a thread with a phase; `advance`
is one atomic step of one thread.

The state keeps a log of the steps that start, charge or abandon a key. The invariant ties every
record in progress to the one thread that works on it: a key in the log as authorized is either
completed or in the hands of the thread about to complete it, so nobody else can start, charge or
abandon it.
-/

namespace TxPlatform

namespace PaymentEndpoints

/-- What a thread does next. -/
inductive Phase where
  /-- Validation and `records.TryAdd`. -/
  | start
  /-- `TryAdd` failed: look the record up and answer. -/
  | lookup
  /-- `TryAdd` succeeded: enqueue the key and trim. -/
  | enqueue
  /-- Decided StartNew: `ApplyAsync` before the effect. -/
  | beforeEffect
  /-- Approved: `ledger.Authorize`. -/
  | authorizing
  /-- `idempotency.Complete(key, response)`. -/
  | completing (response : StoredResponse)
  /-- Completed: `ApplyAsync` after the effect. -/
  | afterEffect (response : StoredResponse)
  /-- The `finally` block, with the pending result. -/
  | abandoning (result : Except Exn HttpResponse)
  | finished (result : Except Exn HttpResponse)

structure AuthorizeCall where
  key : String
  request : AuthorizePaymentRequest

inductive Event where
  /-- `TryBegin` decided StartNew for the key. -/
  | startNew (key : String)
  /-- `ledger.Authorize` was executed for the key. -/
  | authorize (key : String)
  | abandon (key : String)
  deriving DecidableEq

/-- One atomic step of a thread: the service after it, the next phase, and what is logged. -/
def advance (hash : String → String) (service : PaymentService) (call : AuthorizeCall)
    (choice : StepChoice) :
    Phase → PaymentService × Phase × List Event
  | .start =>
    match rejectInvalid call.key call.request with
    | some rejection => (service, .finished (.ok rejection), [])
    | none =>
      match service.store.tryAdd call.key (requestFingerprint hash call.request) with
      | some store => ({ service with store := store }, .enqueue, [.startNew call.key])
      | none => (service, .lookup, [])
  | .lookup =>
    let (decision, existing) := service.store.lookup call.key (requestFingerprint hash call.request)
    (service, .finished (replyToRepeated decision existing), [])
  | .enqueue => ({ service with store := service.store.enqueue call.key }, .beforeEffect, [])
  | .beforeEffect =>
    match choice.fault with
    | .error e => (service, .abandoning (.error e), [])
    | .ok fault =>
      if fault.outcome = .fail then (service, .abandoning (.ok (Results.injectedFault fault.statusCode)), [])
      else
        let decision := decidePayment fault call.request
        if decision.approved then (service, .authorizing, [])
        else (service, .completing (declinedResponse decision.reason), [])
  | .authorizing =>
    let (authorization, ledger) := charge service.ledger choice.newGuid call.request
    ({ service with ledger := ledger }, .completing (authorizedResponse call.request authorization),
      [.authorize call.key])
  | .completing response =>
    match service.store.complete call.key response with
    | .error e => (service, .abandoning (.error e), [])
    | .ok store => ({ service with store := store }, .afterEffect response, [])
  | .afterEffect response =>
    match choice.fault with
    | .error e => (service, .finished (.error e), [])
    | .ok _ => (service, .finished (.ok (firstReply response)), [])
  | .abandoning result =>
    ({ service with store := service.store.abandon call.key }, .finished result, [.abandon call.key])
  | .finished result => (service, .finished result, [])

structure Thread where
  call : AuthorizeCall
  phase : Phase

structure System where
  service : PaymentService
  threads : Dict Nat Thread
  log : List Event

def System.initial : System := ⟨.empty, ∅, []⟩

inductive Label where
  | arrive (id : Nat) (call : AuthorizeCall)
  | step (id : Nat) (choice : StepChoice)

/-- The interleaving semantics: a new request arrives, or one thread takes one step. -/
def machine (hash : String → String) : Machine System Label where
  step system
    | .arrive id call =>
      match system.threads.get id with
      | some _ => none
      | none => some { system with threads := system.threads.set id ⟨call, .start⟩ }
    | .step id choice =>
      match system.threads.get id with
      | none => none
      | some thread =>
        let (service, phase, events) := advance hash system.service thread.call choice thread.phase
        some ⟨service, system.threads.set id ⟨thread.call, phase⟩, system.log ++ events⟩

/-! ## The invariant -/

/-- The thread works on a record it created and has not completed yet. -/
def Phase.Owns : Phase → Prop
  | .enqueue | .beforeEffect | .authorizing | .completing _ | .abandoning _ => True
  | _ => False

/-- What a log may not contain: after an authorization under a key, anything that starts, charges
or abandons that key. -/
def AtMostOnce (log : List Event) : Prop :=
  log.Pairwise fun earlier later => ∀ key, earlier = .authorize key →
    later ≠ .startNew key ∧ later ≠ .authorize key ∧ later ≠ .abandon key

structure Inv (system : System) : Prop where
  owned : ∀ id thread, system.threads.get id = some thread → thread.phase.Owns →
    ∃ record, system.service.store.records.get thread.call.key = some record ∧ record.status = .inProgress
  unique : ∀ id thread id' thread', system.threads.get id = some thread → thread.phase.Owns →
    system.threads.get id' = some thread' → thread'.phase.Owns →
      thread.call.key = thread'.call.key → id = id'
  charged : ∀ key, .authorize key ∈ system.log →
    (∃ record, system.service.store.records.get key = some record ∧ record.status = .completed) ∨
    ∃ id thread response, system.threads.get id = some thread ∧ thread.phase = .completing response
      ∧ thread.call.key = key
  answered : ∀ key record, system.service.store.records.get key = some record →
    record.status = .completed →
    record.response.isSome
  ordered : AtMostOnce system.log

theorem inv_initial : Inv .initial where
  owned := by simp [System.initial]
  unique := by simp [System.initial]
  charged := by simp [System.initial]
  answered := by simp [System.initial, PaymentService.empty, IdempotencyStore.empty]
  ordered := List.Pairwise.nil

/-- Nothing was authorized under the key of a thread that owns its record without being about to
complete it. -/
theorem not_authorized {system : System} (h : Inv system) {id : Nat} {thread : Thread}
    (ht : system.threads.get id = some thread) (howns : thread.phase.Owns)
    (hphase : ∀ response, thread.phase ≠ .completing response) :
    .authorize thread.call.key ∉ system.log := by
  intro hmem
  obtain ⟨record, hr, hs⟩ := h.owned id thread ht howns
  obtain ⟨record', hr', hs'⟩ | ⟨id', thread', response, ht', hp', hk⟩ := h.charged _ hmem
  · rw [hr] at hr'; cases hr'
    rw [hs] at hs'; cases hs'
  · have hid := h.unique id thread id' thread' ht howns ht' (by rw [hp']; trivial) hk.symm
    subst hid
    rw [ht] at ht'; cases ht'
    exact hphase response hp'

/-- Nothing was authorized under a key without a record. -/
theorem not_authorized_of_no_record {system : System} (h : Inv system) {key : String}
    (hr : system.service.store.records.get key = none) : .authorize key ∉ system.log := by
  intro hmem
  obtain ⟨record, hr', _⟩ | ⟨id, thread, response, ht, hp, rfl⟩ := h.charged _ hmem
  · rw [hr] at hr'; cases hr'
  · obtain ⟨record, hr', _⟩ := h.owned id thread ht (by rw [hp]; trivial)
    rw [hr] at hr'; cases hr'

theorem atMostOnce_append {log : List Event} {key : String} {event : Event} (h : AtMostOnce log)
    (hnot : .authorize key ∉ log)
    (hevent : event = .startNew key ∨ event = .authorize key ∨ event = .abandon key) :
    AtMostOnce (log ++ [event]) := by
  refine List.pairwise_append.2 ⟨h, List.pairwise_singleton _ _, ?_⟩
  rintro earlier hmem later hlater other rfl
  rw [List.mem_singleton] at hlater
  subst hlater
  have hne : key ≠ other := by rintro rfl; exact hnot hmem
  rcases hevent with rfl | rfl | rfl <;> simp [hne]

/-! ## One step

Each kind of change a step can make keeps the invariant; `advance_cases` lists the kinds. -/

section Changes
variable {system : System} {id : Nat} {thread : Thread}

/-- The thread moves on without touching a record: it keeps owning or does not own afterwards. -/
theorem inv_move (h : Inv system) (ht : system.threads.get id = some thread) {service : PaymentService}
    (hrec : service.store.records = system.service.store.records) (phase : Phase)
    (howns : phase.Owns → thread.phase.Owns) (hphase : ∀ response, thread.phase ≠ .completing response) :
    Inv ⟨service, system.threads.set id ⟨thread.call, phase⟩, system.log⟩ := by
  have hback : ∀ i t, (system.threads.set id ⟨thread.call, phase⟩).get i = some t → t.phase.Owns →
      ∃ t', system.threads.get i = some t' ∧ t'.phase.Owns ∧ t'.call = t.call := by
    intro i t hi ho
    simp only [Dict.get_set] at hi
    split at hi
    · rename_i he; subst he; cases hi; exact ⟨thread, ht, howns ho, rfl⟩
    · exact ⟨t, hi, ho, rfl⟩
  refine ⟨fun i t hi ho => ?_, fun i t i' t' hi ho hi' ho' hk => ?_, fun key hmem => ?_, ?_, h.ordered⟩
  · obtain ⟨t', hi', ho', hc⟩ := hback i t hi ho
    rw [← hc]
    simpa only [hrec] using h.owned i t' hi' ho'
  · obtain ⟨u, hu, hou, hcu⟩ := hback i t hi ho
    obtain ⟨u', hu', hou', hcu'⟩ := hback i' t' hi' ho'
    exact h.unique i u i' u' hu hou hu' hou' (by rw [hcu, hcu', hk])
  · obtain hrecord | ⟨i, t, response, hi, hp, hk⟩ := h.charged key hmem
    · exact .inl (by simpa only [hrec] using hrecord)
    · have hne : i ≠ id := by rintro rfl; rw [ht] at hi; cases hi; exact hphase response hp
      exact .inr ⟨i, t, response, by simp [hne, hi], hp, hk⟩
  · simpa only [hrec] using h.answered

/-- Once the thread has let go of its key, who owns a key is another thread with another key. -/
theorem owner_after (h : Inv system) (ht : system.threads.get id = some thread)
    (howns : thread.phase.Owns) {phase : Phase} (hphase : ¬ phase.Owns) {i : Nat} {t : Thread}
    (hi : (system.threads.set id ⟨thread.call, phase⟩).get i = some t) (ho : t.phase.Owns) :
    system.threads.get i = some t ∧ t.call.key ≠ thread.call.key := by
  simp only [Dict.get_set] at hi
  split at hi
  · cases hi
    exact absurd ho hphase
  · rename_i hne
    exact ⟨hi, fun hk => hne (h.unique i t id thread hi ho ht howns hk)⟩

/-- A charge under another key stays recorded, or stays in the hands of its thread. -/
theorem charged_other (h : Inv system) (ht : system.threads.get id = some thread) {key : String}
    (hmem : .authorize key ∈ system.log) (hk : key ≠ thread.call.key)
    {records : Dict String IdempotencyRecord}
    (hrec : records.get key = system.service.store.records.get key) (phase : Phase) :
    (∃ record, records.get key = some record ∧ record.status = .completed) ∨
      ∃ i t response, (system.threads.set id ⟨thread.call, phase⟩).get i = some t ∧
        t.phase = .completing response ∧ t.call.key = key := by
  obtain hrecord | ⟨i, t, response, hi, hp, hkey⟩ := h.charged key hmem
  · rw [hrec]
    exact .inl hrecord
  · have hid : i ≠ id := by
      rintro rfl
      rw [ht] at hi
      cases hi
      exact hk hkey.symm
    exact .inr ⟨i, t, response, by simp [hid, hi], hp, hkey⟩

/-- `TryAdd` created the record: nobody else owns it, and nothing was authorized under the key. -/
theorem inv_begin (h : Inv system) (ht : system.threads.get id = some thread)
    {record : IdempotencyRecord} (hstatus : record.status = .inProgress)
    (hnone : system.service.store.records.get thread.call.key = none) {service : PaymentService}
    (hrec : service.store.records = system.service.store.records.set thread.call.key record) :
    Inv ⟨service, system.threads.set id ⟨thread.call, .enqueue⟩,
      system.log ++ [.startNew thread.call.key]⟩ := by
  have hother : ∀ i t, i ≠ id → system.threads.get i = some t → t.phase.Owns →
      t.call.key ≠ thread.call.key := by
    intro i t _ hi ho hk
    obtain ⟨found, hf, _⟩ := h.owned i t hi ho
    rw [hk, hnone] at hf; cases hf
  refine ⟨fun i t hi ho => ?_, fun i t i' t' hi ho hi' ho' hk => ?_, fun key hmem => ?_,
    fun key found hf hs => ?_, ?_⟩
  · simp only [Dict.get_set] at hi
    split at hi
    · cases hi; exact ⟨record, by simp [hrec], hstatus⟩
    · rename_i hne
      simpa [hrec, hother i t hne hi ho] using h.owned i t hi ho
  · simp only [Dict.get_set] at hi hi'
    split at hi <;> split at hi'
    · rename_i he he'; rw [he, he']
    · rename_i hne'; cases hi; exact absurd hk.symm (hother i' t' hne' hi' ho')
    · rename_i hne _; cases hi'; exact absurd hk (hother i t hne hi ho)
    · exact h.unique i t i' t' hi ho hi' ho' hk
  · rw [List.mem_append, List.mem_singleton] at hmem
    obtain hmem | hmem := hmem
    · have hne : key ≠ thread.call.key := by rintro rfl; exact not_authorized_of_no_record h hnone hmem
      exact charged_other h ht hmem hne (by simp [hrec, hne]) .enqueue
    · cases hmem
  · simp only [hrec, Dict.get_set] at hf
    split at hf
    · cases hf; rw [hstatus] at hs; cases hs
    · exact h.answered key found hf hs
  · exact atMostOnce_append h.ordered (not_authorized_of_no_record h hnone) (.inl rfl)

/-- The charge: the thread holds the key until it completes it. -/
theorem inv_charge (h : Inv system) (ht : system.threads.get id = some thread)
    (hphase : thread.phase = .authorizing) {service : PaymentService}
    (hrec : service.store.records = system.service.store.records) (response : StoredResponse) :
    Inv ⟨service, system.threads.set id ⟨thread.call, .completing response⟩,
      system.log ++ [.authorize thread.call.key]⟩ := by
  have hnot := not_authorized h ht (by rw [hphase]; trivial) (by rw [hphase]; simp)
  have hmove := inv_move h ht hrec (.completing response) (fun _ => by rw [hphase]; trivial)
    (by rw [hphase]; simp)
  refine ⟨hmove.owned, hmove.unique, fun key hmem => ?_, hmove.answered,
    atMostOnce_append h.ordered hnot (.inr (.inl rfl))⟩
  rw [List.mem_append, List.mem_singleton] at hmem
  obtain hmem | hmem := hmem
  · exact hmove.charged key hmem
  · cases hmem
    exact .inr ⟨id, ⟨thread.call, .completing response⟩, response, by simp, rfl, rfl⟩

/-- The record is rewritten as completed, with its response; the thread owns it no longer. -/
theorem inv_complete (h : Inv system) (ht : system.threads.get id = some thread)
    (howns : thread.phase.Owns) {record : IdempotencyRecord} (hstatus : record.status = .completed)
    (hresponse : record.response.isSome) {service : PaymentService}
    (hrec : service.store.records = system.service.store.records.set thread.call.key record)
    {phase : Phase} (hphase : ¬ phase.Owns) :
    Inv ⟨service, system.threads.set id ⟨thread.call, phase⟩, system.log⟩ := by
  refine ⟨fun i t hi ho => ?_, fun i t i' t' hi ho hi' ho' hk => ?_, fun key hmem => ?_,
    fun key found hf hs => ?_, h.ordered⟩
  · obtain ⟨hi, hne⟩ := owner_after h ht howns hphase hi ho
    simpa [hrec, hne] using h.owned i t hi ho
  · exact h.unique i t i' t' (owner_after h ht howns hphase hi ho).1 ho
      (owner_after h ht howns hphase hi' ho').1 ho' hk
  · by_cases hk : key = thread.call.key
    · exact .inl ⟨record, by simp [hrec, hk], hstatus⟩
    · exact charged_other h ht hmem hk (by simp [hrec, hk]) phase
  · simp only [hrec, Dict.get_set] at hf
    split at hf
    · cases hf; exact hresponse
    · exact h.answered key found hf hs

/-- Abandoning removes a record under which nothing was authorized. -/
theorem inv_abandon (h : Inv system) (ht : system.threads.get id = some thread)
    (howns : thread.phase.Owns) (hcompleting : ∀ response, thread.phase ≠ .completing response)
    {service : PaymentService}
    (hrec : service.store.records = system.service.store.records.remove thread.call.key)
    {phase : Phase} (hphase : ¬ phase.Owns) :
    Inv ⟨service, system.threads.set id ⟨thread.call, phase⟩,
      system.log ++ [.abandon thread.call.key]⟩ := by
  have hnot := not_authorized h ht howns hcompleting
  refine ⟨fun i t hi ho => ?_, fun i t i' t' hi ho hi' ho' hk => ?_, fun key hmem => ?_,
    fun key found hf hs => ?_, atMostOnce_append h.ordered hnot (.inr (.inr rfl))⟩
  · obtain ⟨hi, hne⟩ := owner_after h ht howns hphase hi ho
    simpa [hrec, hne] using h.owned i t hi ho
  · exact h.unique i t i' t' (owner_after h ht howns hphase hi ho).1 ho
      (owner_after h ht howns hphase hi' ho').1 ho' hk
  · rw [List.mem_append, List.mem_singleton] at hmem
    obtain hmem | hmem := hmem
    · have hk : key ≠ thread.call.key := by rintro rfl; exact hnot hmem
      exact charged_other h ht hmem hk (by simp [hrec, hk]) phase
    · cases hmem
  · simp only [hrec, Dict.get_remove] at hf
    split at hf
    · cases hf
    · exact h.answered key found hf hs

end Changes

/-- A new request owns nothing yet. -/
theorem inv_arrive {system : System} {id : Nat} (h : Inv system) (hnone : system.threads.get id = none)
    (call : AuthorizeCall) : Inv { system with threads := system.threads.set id ⟨call, .start⟩ } := by
  have hback : ∀ i t, (system.threads.set id ⟨call, .start⟩).get i = some t → t.phase.Owns →
      system.threads.get i = some t := by
    intro i t hi ho
    simp only [Dict.get_set] at hi
    split at hi
    · cases hi; exact ho.elim
    · exact hi
  refine ⟨fun i t hi ho => h.owned i t (hback i t hi ho) ho,
    fun i t i' t' hi ho hi' ho' hk =>
      h.unique i t i' t' (hback i t hi ho) ho (hback i' t' hi' ho') ho' hk,
    fun key hmem => ?_, h.answered, h.ordered⟩
  obtain hrecord | ⟨i, t, response, hi, hp, hk⟩ := h.charged key hmem
  · exact .inl hrecord
  · have hid : i ≠ id := by rintro rfl; rw [hnone] at hi; cases hi
    exact .inr ⟨i, t, response, by simp [hid, hi], hp, hk⟩

/-- The store never holds more than its capacity. -/
def WithinCapacity (_ : System) (_ : Label) (system' : System) : Prop :=
  system'.service.store.records.count ≤ IdempotencyStore.capacity

/-- Trimming after the enqueue removes nothing while the store is within its capacity. -/
theorem records_enqueue {store : IdempotencyStore} {key : String}
    (h : store.records.count ≤ IdempotencyStore.capacity) :
    (store.enqueue key).records = store.records := by
  rw [IdempotencyStore.enqueue_of_count_le key h]

theorem inv_advance (hash : String → String) {system : System} {id : Nat} {thread : Thread}
    (h : Inv system) (hcap : system.service.store.records.count ≤ IdempotencyStore.capacity)
    (ht : system.threads.get id = some thread) (choice : StepChoice) :
    Inv ⟨(advance hash system.service thread.call choice thread.phase).1,
      system.threads.set id
        ⟨thread.call, (advance hash system.service thread.call choice thread.phase).2.1⟩,
      system.log ++ (advance hash system.service thread.call choice thread.phase).2.2⟩ := by
  cases hp : thread.phase with
  | start =>
    have hmove : ∀ phase : Phase, ¬ phase.Owns →
        Inv ⟨system.service, system.threads.set id ⟨thread.call, phase⟩, system.log⟩ :=
      fun phase hno => inv_move h ht rfl _ (fun ho => absurd ho hno) (by rw [hp]; simp)
    simp only [advance]
    split
    · simpa using hmove (.finished _) not_false
    · split
      · rename_i store hadd
        simp only [IdempotencyStore.tryAdd] at hadd
        split at hadd
        · cases hadd
        · rename_i hnone
          cases hadd
          exact inv_begin h ht rfl hnone rfl
      · simpa using hmove .lookup not_false
  | lookup =>
    simpa [advance] using inv_move h ht rfl (.finished _) (fun ho => ho.elim) (by rw [hp]; simp)
  | enqueue =>
    simpa [advance] using inv_move h ht (records_enqueue hcap) .beforeEffect
      (fun _ => by rw [hp]; trivial) (by rw [hp]; simp)
  | beforeEffect =>
    have hmove : ∀ phase : Phase, Inv ⟨system.service, system.threads.set id ⟨thread.call, phase⟩,
      system.log⟩ :=
      fun phase => inv_move h ht rfl _ (fun _ => by rw [hp]; trivial) (by rw [hp]; simp)
    simp only [advance]
    split
    · simpa using hmove (.abandoning _)
    · split
      · simpa using hmove (.abandoning _)
      · split
        · simpa using hmove .authorizing
        · simpa using hmove (.completing _)
  | authorizing =>
    refine inv_charge h ht hp ?_ _
    rfl
  | completing response =>
    have howns : thread.phase.Owns := by rw [hp]; trivial
    obtain ⟨record, hr, _⟩ := h.owned id thread ht howns
    simp only [advance, IdempotencyStore.complete, hr, List.append_nil]
    exact inv_complete h ht howns rfl rfl rfl not_false
  | afterEffect response =>
    have hmove : ∀ result,
      Inv ⟨system.service, system.threads.set id ⟨thread.call, .finished result⟩, system.log⟩ :=
      fun result => inv_move h ht rfl _ (fun ho => ho.elim) (by rw [hp]; simp)
    simp only [advance]
    split
    · simpa using hmove (.error _)
    · simpa using hmove (.ok _)
  | abandoning result =>
    exact inv_abandon h ht (by rw [hp]; trivial) (by rw [hp]; simp) rfl not_false
  | finished result =>
    simpa [advance] using inv_move h ht rfl (.finished result) (fun ho => ho.elim) (by rw [hp]; simp)

theorem inv_step (hash : String → String) {system system' : System} {label : Label}
    (h : Inv system ∧ system.service.store.records.count ≤ IdempotencyStore.capacity)
    (hs : (machine hash).step system label = some system') (hcap : WithinCapacity system label system') :
    Inv system' ∧ system'.service.store.records.count ≤ IdempotencyStore.capacity := by
  refine ⟨?_, hcap⟩
  cases label with
  | arrive id call =>
    simp only [machine] at hs
    split at hs
    · cases hs
    · rename_i hnone; cases hs; exact inv_arrive h.1 hnone call
  | step id choice =>
    simp only [machine] at hs
    split at hs
    · cases hs
    · rename_i thread ht; cases hs; exact inv_advance hash h.1 h.2 ht choice

theorem inv_run (hash : String → String) {labels : List Label} {system : System}
    (hcap : (machine hash).Along WithinCapacity .initial labels)
    (hr : (machine hash).run .initial labels = some system) : Inv system :=
  (Machine.run_inv_of_along (I := fun system => Inv system ∧
    system.service.store.records.count ≤ IdempotencyStore.capacity)
    (fun _ _ _ h hs hcap => inv_step hash h hs hcap) ⟨inv_initial, Nat.zero_le _⟩ hcap hr).1

/-! ## At most one charge per key -/

theorem AtMostOnce.not_before {log before after : List Event} {event : Event} {key : String}
    (h : AtMostOnce log) (hlog : log = before ++ event :: after)
    (hevent : event = .startNew key ∨ event = .authorize key ∨ event = .abandon key) :
    .authorize key ∉ before := by
  intro hmem
  subst hlog
  have := (List.pairwise_append.1 h).2.2 _ hmem event (by simp) key rfl
  rcases hevent with rfl | rfl | rfl <;> simp at this

theorem AtMostOnce.count_le {log : List Event} (h : AtMostOnce log) (key : String) :
    log.count (.authorize key) ≤ 1 := by
  induction log with
  | nil => simp
  | cons event log ih =>
    obtain ⟨hfirst, hrest⟩ := List.pairwise_cons.1 h
    rw [List.count_cons]
    split
    · rename_i he
      rw [beq_iff_eq] at he
      have : log.count (.authorize key) = 0 :=
        List.count_eq_zero.2 fun hmem => (hfirst _ hmem key he).2.1 rfl
      omega
    · exact (ih hrest)

/-- **PaymentService charges at most once per Idempotency-Key.** In every interleaving of any
number of requests in which the store stays within its capacity: the ledger is charged at most once
under a key, a completed record carries its response, a key is abandoned only while nothing was
authorized under it, and after an authorization no request with the key is decided StartNew. -/
theorem charged_at_most_once (hash : String → String) (labels : List Label) (system : System)
    (hcap : (machine hash).Along WithinCapacity .initial labels)
    (hr : (machine hash).run .initial labels = some system) :
    (∀ key, system.log.count (.authorize key) ≤ 1) ∧
    (∀ key record, system.service.store.records.get key = some record → record.status = .completed →
      record.response.isSome) ∧
    (∀ key before after, system.log = before ++ .abandon key :: after → .authorize key ∉ before) ∧
    (∀ key before after, system.log = before ++ .startNew key :: after → .authorize key ∉ before) := by
  have h := inv_run hash hcap hr
  exact ⟨h.ordered.count_le, h.answered,
    fun key before after hlog => h.ordered.not_before hlog (.inr (.inr rfl)),
    fun key before after hlog => h.ordered.not_before hlog (.inl rfl)⟩

instance (system : System) (label : Label) (system' : System) :
    Decidable (WithinCapacity system label system') :=
  inferInstanceAs (Decidable (_ ≤ _))

/-- Two requests with one key: the second finds the first in progress and is told to retry. -/
def twoRequests : List Label :=
  let call : AuthorizeCall := ⟨"order-1-authorize",
    { orderId := 1, amount := ⟨1250, 2, by decide, by decide⟩, currency := "EUR",
      paymentToken := "tok_a" }⟩
  [.arrive 0 call, .arrive 1 call, .step 0 {}, .step 1 {}, .step 0 {}, .step 0 {}, .step 1 {},
    .step 0 {}, .step 0 {}]

theorem charged_at_most_once_two_requests :
    ∃ system, (machine id).run .initial twoRequests = some system ∧
      system.log = [.startNew "order-1-authorize", .authorize "order-1-authorize"] ∧
      system.log.count (.authorize "order-1-authorize") ≤ 1 :=
  ⟨_, rfl, rfl, (charged_at_most_once id twoRequests _ (by decide) rfl).1 "order-1-authorize"⟩

/-! ## A request that runs alone

Without interference the steps add up to `authorizeAsync`. -/

section Solo
variable (hash : String → String) (decisions : FaultPhase → Except Exn FaultDecision) (newGuid : Guid)
  (call : AuthorizeCall)

/-- The injector's answer at the phase a thread is in. -/
def soloChoice : Phase → StepChoice
  | .afterEffect _ => ⟨decisions .afterEffect, newGuid⟩
  | _ => ⟨decisions .beforeEffect, newGuid⟩

/-- `n` steps of one thread. -/
def soloRun : Nat → PaymentService → Phase → PaymentService × Phase
  | 0, service, phase => (service, phase)
  | n + 1, service, phase =>
    let next := advance hash service call (soloChoice decisions newGuid phase) phase
    soloRun n next.1 next.2.1

/-- The machine takes these steps when only this thread moves. -/
theorem soloRun_machine (id n : Nat) : ∀ (system : System) (phase : Phase),
    system.threads.get id = some ⟨call, phase⟩ → ∃ labels system',
      (machine hash).run system labels = some system' ∧
      system'.service = (soloRun hash decisions newGuid call n system.service phase).1 ∧
      system'.threads.get id =
        some ⟨call, (soloRun hash decisions newGuid call n system.service phase).2⟩ := by
  induction n with
  | zero => exact fun system phase ht => ⟨[], system, rfl, rfl, ht⟩
  | succ n ih =>
    intro system phase ht
    let choice := soloChoice decisions newGuid phase
    obtain ⟨labels, system', hr, hs, ht'⟩ := ih
      ⟨(advance hash system.service call choice phase).1,
        system.threads.set id ⟨call, (advance hash system.service call choice phase).2.1⟩,
        system.log ++ (advance hash system.service call choice phase).2.2⟩
      (advance hash system.service call choice phase).2.1 (by simp)
    refine ⟨.step id choice :: labels, system', ?_, hs, ht'⟩
    simp only [Machine.run, machine, ht]
    exact hr

@[simp] theorem soloRun_finished (n : Nat) (service : PaymentService) (result : Except Exn HttpResponse) :
    soloRun hash decisions newGuid call n service (.finished result) = (service, .finished result) := by
  induction n with
  | zero => rfl
  | succ n ih => simpa [soloRun, advance] using ih

/-- From `Complete` on: the record is completed and the reply is sent or lost. -/
theorem soloRun_completing (n : Nat) (service : PaymentService) (response : StoredResponse) :
    soloRun hash decisions newGuid call (n + 2) service (.completing response) =
      match service.store.complete call.key response with
      | .error e => ({ service with store := service.store.abandon call.key }, .finished (.error e))
      | .ok store => ({ service with store := store },
          .finished ((decisions .afterEffect).map fun _ => firstReply response)) := by
  simp only [soloRun, advance, soloChoice]
  cases service.store.complete call.key response with
  | error e => simp
  | ok store => cases decisions .afterEffect <;> simp [Except.map]

/-- From the first fault point on. -/
theorem soloRun_beforeEffect (service : PaymentService) :
    soloRun hash decisions newGuid call 4 service .beforeEffect =
      ((processAuthorization (fun _ phase _ faults => (decisions phase, faults)) newGuid call.key call.request
          service ()).2.1,
       .finished (processAuthorization (fun _ phase _ faults => (decisions phase, faults)) newGuid call.key
          call.request service ()).1) := by
  rw [soloRun]
  simp only [advance, soloChoice, processAuthorization]
  cases decisions .beforeEffect with
  | error e => simp [soloRun, advance]
  | ok fault =>
    by_cases hf : fault.outcome = .fail
    · simp [hf, soloRun, advance]
    · simp only [hf, if_false]
      by_cases hd : (decidePayment fault call.request).approved = true
      · simp only [hd, if_true, settle]
        rw [soloRun]
        simp only [advance, soloChoice, soloRun_completing]
        cases service.store.complete call.key _ with
        | error e => rfl
        | ok store => cases decisions .afterEffect <;> rfl
      · simp only [hd, Bool.false_eq_true, if_false, settle, soloRun_completing]
        cases service.store.complete call.key _ with
        | error e => rfl
        | ok store => cases decisions .afterEffect <;> rfl

/-- **Six steps are one `AuthorizeAsync`.** -/
theorem soloRun_eq_authorizeAsync (service : PaymentService) :
    soloRun hash decisions newGuid call 6 service .start =
      ((authorizeAsync hash (fun _ phase _ faults => (decisions phase, faults)) newGuid call.key call.request
          service ()).2.1,
       .finished (authorizeAsync hash (fun _ phase _ faults => (decisions phase, faults)) newGuid call.key
          call.request service ()).1) := by
  unfold authorizeAsync
  rw [soloRun]
  simp only [advance]
  cases hv : rejectInvalid call.key call.request with
  | some rejection => simp
  | none =>
    simp only [IdempotencyStore.tryBegin]
    cases service.store.tryAdd call.key (requestFingerprint hash call.request) with
    | none =>
      -- the lookup never decides StartNew, so the handler's first arm is out
      have hne := IdempotencyStore.lookup_ne_startNew service.store call.key
        (requestFingerprint hash call.request)
      simp only [soloRun, advance]
    | some store =>
      rw [soloRun]
      simp only [advance, soloRun_beforeEffect]

end Solo

end PaymentEndpoints

end TxPlatform
