import TxPlatform.Payment.Concurrency

/-! # Replays (PaymentEndpoints.AuthorizeAsync, IdempotencyStore)

A request whose processing reached `Complete` leaves its record behind; later requests with the
same key and the same fingerprint are answered from it. The record keeps the status and the body
of the first reply but not its media type: the replay is always `application/json`, while the first
reply of a declined payment is `application/problem+json`. The property therefore holds of the
approved payments, in every interleaving and under every fault decision, and of no others.
-/

namespace TxPlatform

namespace PaymentEndpoints

variable {hash : String → String}

/-- The call is the request, with its key, and both checks let it pass. -/
def SameRequest (hash : String → String) (call later : AuthorizeCall) : Prop :=
  later.key = call.key ∧ requestFingerprint hash later.request = requestFingerprint hash call.request ∧
    rejectInvalid later.key later.request = none

/-- The record `Complete` has left for the call. -/
def completedRecord (hash : String → String) (call : AuthorizeCall) (response : StoredResponse) :
    IdempotencyRecord :=
  ⟨call.key, requestFingerprint hash call.request, .completed, some response⟩

def IsStored (hash : String → String) (call : AuthorizeCall) (response : StoredResponse)
    (system : System) : Prop :=
  system.service.store.records.get call.key = some (completedRecord hash call response)

/-- A part of a run in which the processing of one request reaches `Complete`: the thread `id` gets its
fault decision in `deciding`, completes the record in `completing`, and `completed` is the state
after that step. -/
structure Processing (hash : String → String) where
  earlier : List Label
  deciding : System
  id : Nat
  call : AuthorizeCall
  choice : StepChoice
  fault : FaultDecision
  between : List Label
  completing : System
  response : StoredResponse
  lastChoice : StepChoice
  completed : System
  reachable : (machine hash).run .initial earlier = some deciding
  decides : deciding.threads.get id = some ⟨call, .beforeEffect⟩
  decision : choice.fault = .ok fault
  runs : (machine hash).run deciding (.step id choice :: between) = some completing
  completes : completing.threads.get id = some ⟨call, .completing response⟩
  steps : (machine hash).step completing (.step id lastChoice) = some completed
  stored : IsStored hash call response completed

/-- The thread has not looked its key up when the state is `system`: it arrives later, or is still at
its first step. -/
def IsLater (system : System) (id : Nat) : Prop :=
  ∀ thread, system.threads.get id = some thread → thread.phase = .start

/-- The reply of a replay against the reply of the first processing. -/
structure SameReply (replay first : HttpResponse) : Prop where
  statusCode : replay.statusCode = first.statusCode
  body : replay.body = first.body
  mediaType : replay.mediaType = first.mediaType

/-- A step of a thread with the same request that arrived after `system` changes neither the ledger nor
the records. -/
def ChangesNothing (hash : String → String) (call : AuthorizeCall) (system : System) :
    System → Label → System → Prop
  | before, .step id _, after => ∀ thread, IsLater system id → before.threads.get id = some thread →
      SameRequest hash call thread.call → after.service = before.service
  | _, _, _ => True

/-- While the record stays stored, every later request with the same key and fingerprint changes
nothing and is answered as the first one was. -/
def AnswersAlike (hash : String → String) (call : AuthorizeCall) (response : StoredResponse)
    (system : System) : Prop :=
  ∀ (labels : List Label) (system' : System),
    (machine hash).Along (fun _ _ after => IsStored hash call response after) system labels →
    (machine hash).run system labels = some system' →
    (machine hash).Along (ChangesNothing hash call system) system labels ∧
    ∀ id later result, IsLater system id → system'.threads.get id = some ⟨later, .finished result⟩ →
      SameRequest hash call later →
      ∃ reply, result = .ok reply ∧ SameReply reply (firstReply response)

/-! ## Later requests -/

/-- The reply a stored response is replayed as. -/
def replayOf (response : StoredResponse) : HttpResponse :=
  { statusCode := response.statusCode, body := response.body, idempotentReplayed := true }

/-- The phases a request goes through while the record of the same request is stored. -/
def Phase.Replays (response : StoredResponse) : Phase → Prop
  | .start | .lookup => True
  | .finished result => result = .ok (replayOf response)
  | _ => False

/-- One step of a request whose record is stored. -/
theorem advance_of_isStored {call later : AuthorizeCall} {response : StoredResponse} {service : PaymentService}
    (hstored : service.store.records.get call.key = some (completedRecord hash call response))
    (hsame : SameRequest hash call later) (choice : StepChoice) {phase : Phase}
    (hphase : phase.Replays response) :
    (advance hash service later choice phase).1 = service ∧
      (advance hash service later choice phase).2.1.Replays response := by
  obtain ⟨hkey, hfingerprint, hvalid⟩ := hsame
  cases phase with
  | start =>
    rw [hkey] at hvalid
    simp [advance, hvalid, IdempotencyStore.tryAdd, hkey, hstored, Phase.Replays]
  | lookup =>
    simp [advance, IdempotencyStore.lookup, hkey, hstored, hfingerprint, IdempotencyRules.decide,
      completedRecord, replyToRepeated, Phase.Replays, replayOf]
  | finished result => exact ⟨rfl, hphase⟩
  | _ => exact hphase.elim

/-- The state after `completed` while the record is stored. -/
structure Replaying (hash : String → String) (call : AuthorizeCall) (response : StoredResponse)
    (completed system : System) : Prop where
  stored : IsStored hash call response system
  later : ∀ id thread, IsLater completed id → system.threads.get id = some thread →
    SameRequest hash call thread.call → thread.phase.Replays response

section Later
variable {call : AuthorizeCall} {response : StoredResponse} {completed : System}

theorem replaying_completed (h : IsStored hash call response completed) :
    Replaying hash call response completed completed where
  stored := h
  later id thread hlater ht _ := by
    rw [hlater thread ht]
    trivial

theorem replaying_step {system system' : System} {label : Label}
    (h : Replaying hash call response completed system)
    (hs : (machine hash).step system label = some system') (hstored : IsStored hash call response system') :
    ChangesNothing hash call completed system label system' ∧
      Replaying hash call response completed system' := by
  cases label with
  | arrive id newCall =>
    simp only [machine] at hs
    split at hs
    · cases hs
    · cases hs
      refine ⟨trivial, hstored, fun i thread hlater ht hsame => ?_⟩
      simp only [Dict.get_set] at ht
      split at ht
      · cases ht
        trivial
      · exact h.later i thread hlater ht hsame
  | step id choice =>
    simp only [machine] at hs
    split at hs
    · cases hs
    · rename_i thread ht
      cases hs
      refine ⟨fun thread' hlater ht' hsame => ?_, hstored, fun i thread' hlater ht' hsame => ?_⟩
      · rw [ht] at ht'
        cases ht'
        exact (advance_of_isStored h.stored hsame choice (h.later id thread hlater ht hsame)).1
      · simp only [Dict.get_set] at ht'
        split at ht'
        · rename_i hid
          subst hid
          cases ht'
          exact (advance_of_isStored h.stored hsame choice (h.later i thread hlater ht hsame)).2
        · exact h.later i thread' hlater ht' hsame

/-- **Later requests are answered from the record**, with its status and body, and change nothing. -/
theorem replays_of_isStored (h : IsStored hash call response completed) {labels : List Label}
    (hstored : (machine hash).Along (fun _ _ after => IsStored hash call response after) completed labels) :
    (machine hash).Along (ChangesNothing hash call completed) completed labels ∧
    ∀ system' id later result, (machine hash).run completed labels = some system' →
      IsLater completed id → system'.threads.get id = some ⟨later, .finished result⟩ →
      SameRequest hash call later → result = .ok (replayOf response) := by
  constructor
  · refine Machine.along_of_inv (I := Replaying hash call response completed)
      (fun system label system' hreplaying hs hafter => ?_) (replaying_completed h) hstored
    exact replaying_step hreplaying hs hafter
  · intro system' id later result hrun hlater ht hsame
    have hreplaying : Replaying hash call response completed system' :=
      Machine.run_inv_of_along (fun _ _ _ hreplaying hs hafter => (replaying_step hreplaying hs hafter).2)
        (replaying_completed h) hstored hrun
    exact hreplaying.later id _ hlater ht hsame

/-- The same request can always be made once more, and is replayed. -/
theorem exists_replay (choice : StepChoice) (h : IsStored hash call response completed)
    (hvalid : rejectInvalid call.key call.request = none) :
    ∃ labels system' id, IsLater completed id ∧
      (machine hash).Along (fun _ _ after => IsStored hash call response after) completed labels ∧
      (machine hash).run completed labels = some system' ∧
      system'.threads.get id = some ⟨call, .finished (.ok (replayOf response))⟩ := by
  obtain ⟨id, hid⟩ := Infinite.exists_notMem_finset completed.threads.keys.toFinset
  have hnone : completed.threads.get id = none := Dict.get_eq_none.2 (by simpa using hid)
  have hstart : advance hash completed.service call choice .start = (completed.service, .lookup, []) := by
    simp [advance, hvalid, IdempotencyStore.tryAdd, show completed.service.store.records.get call.key = _ from h]
  have hlookup : advance hash completed.service call choice .lookup =
      (completed.service, .finished (.ok (replayOf response)), []) := by
    simp [advance, IdempotencyStore.lookup, show completed.service.store.records.get call.key = _ from h,
      IdempotencyRules.decide, completedRecord, replyToRepeated, replayOf]
  let labels : List Label := [.arrive id call, .step id choice, .step id choice]
  have hlater : IsLater completed id := by
    intro thread ht
    rw [hnone] at ht
    cases ht
  refine ⟨labels, ⟨completed.service, ((completed.threads.set id ⟨call, .start⟩).set id ⟨call, .lookup⟩).set id
    ⟨call, .finished (.ok (replayOf response))⟩, completed.log⟩, id, hlater, ?_, ?_, by simp⟩
  · simpa [labels, Machine.Along, machine, hnone, hstart, hlookup, IsStored] using h
  · simp [labels, Machine.run, machine, hnone, hstart, hlookup]

end Later

/-- The replay is the first reply for an approved payment only: the media types differ otherwise. -/
theorem sameReply_replayOf {response : StoredResponse} :
    SameReply (replayOf response) (firstReply response) ↔ response.statusCode = 201 := by
  constructor
  · intro h
    have hmedia := h.mediaType
    simp only [replayOf, firstReply] at hmedia
    split at hmedia
    · assumption
    · simp at hmedia
  · intro h
    exact ⟨rfl, rfl, by simp [replayOf, firstReply, h]⟩

/-! ## The request that completed the record -/

/-- The thread has passed the two checks. -/
def Phase.Checked : Phase → Prop
  | .start | .finished _ => False
  | _ => True

theorem checked_advance {service : PaymentService} {call : AuthorizeCall} {choice : StepChoice}
    {phase : Phase} (h : (advance hash service call choice phase).2.1.Checked) :
    phase.Checked ∨ rejectInvalid call.key call.request = none := by
  cases phase with
  | start =>
    cases hvalid : rejectInvalid call.key call.request with
    | none => exact .inr rfl
    | some rejection => simp [advance, hvalid, Phase.Checked] at h
  | finished result => exact h.elim
  | _ => exact .inl trivial

/-- Every thread behind the checks has a valid request. -/
theorem valid_of_checked {labels : List Label} {system : System}
    (hrun : (machine hash).run .initial labels = some system) {id : Nat} {thread : Thread}
    (ht : system.threads.get id = some thread) (hchecked : thread.phase.Checked) :
    rejectInvalid thread.call.key thread.call.request = none := by
  refine Machine.run_inv (m := machine hash) (I := fun system => ∀ id thread,
    system.threads.get id = some thread → thread.phase.Checked →
      rejectInvalid thread.call.key thread.call.request = none)
    (fun system label system' h hs id thread ht hchecked => ?_) (by simp [System.initial]) hrun id thread
    ht hchecked
  cases label with
  | arrive newId call =>
    simp only [machine] at hs
    split at hs
    · cases hs
    · cases hs
      simp only [Dict.get_set] at ht
      split at ht
      · cases ht
        exact hchecked.elim
      · exact h id thread ht hchecked
  | step stepId choice =>
    simp only [machine] at hs
    split at hs
    · cases hs
    · rename_i stepped hstepped
      cases hs
      simp only [Dict.get_set] at ht
      split at ht
      · cases ht
        obtain hbefore | hvalid := checked_advance hchecked
        · exact h stepId stepped hstepped hbefore
        · exact hvalid
      · exact h id thread ht hchecked

/-- The phases after a fault decision that led to `decision`. -/
def Phase.SettledBy (decision : PaymentDecision) : Phase → Prop
  | .authorizing => decision.approved = true
  | .completing response | .afterEffect response => response.statusCode = 201 ↔ decision.approved = true
  | .abandoning _ | .finished _ => True
  | _ => False

theorem settledBy_beforeEffect (service : PaymentService) (call : AuthorizeCall) {choice : StepChoice}
    {fault : FaultDecision} (hfault : choice.fault = .ok fault) :
    (advance hash service call choice .beforeEffect).2.1.SettledBy (decidePayment fault call.request) := by
  simp only [advance, hfault]
  split
  · trivial
  · split
    · rename_i happroved
      exact happroved
    · rename_i hdeclined
      simpa [Phase.SettledBy, declinedResponse] using hdeclined

theorem settledBy_advance {decision : PaymentDecision} {phase : Phase} (h : phase.SettledBy decision)
    (service : PaymentService) (call : AuthorizeCall) (choice : StepChoice) :
    (advance hash service call choice phase).2.1.SettledBy decision := by
  cases phase with
  | authorizing =>
    have happroved : decision.approved = true := h
    simp [advance, Phase.SettledBy, authorizedResponse, happroved]
  | completing response =>
    simp only [advance]
    split
    · trivial
    · exact h
  | afterEffect response =>
    simp only [advance]
    split <;> trivial
  | abandoning result => trivial
  | finished result => trivial
  | _ => exact h.elim

/-- The response a processing stores has status 201 exactly when its decision approved the payment. -/
theorem Processing.statusCode_eq_iff (processing : Processing hash) :
    processing.response.statusCode = 201 ↔
      (decidePayment processing.fault processing.call.request).approved = true := by
  let decision := decidePayment processing.fault processing.call.request
  let Settled (system : System) : Prop := ∃ phase : Phase,
    system.threads.get processing.id = some ⟨processing.call, phase⟩ ∧ phase.SettledBy decision
  obtain ⟨after, hstep, hrun⟩ := Machine.run_cons processing.runs
  have hafter : Settled after := by
    simp only [machine, processing.decides] at hstep
    cases hstep
    exact ⟨_, by simp; rfl,
      settledBy_beforeEffect processing.deciding.service processing.call processing.decision⟩
  have hkept : ∀ system label system', Settled system → (machine hash).step system label = some system' →
      Settled system' := by
    rintro system label system' ⟨phase, ht, hsettled⟩ hs
    cases label with
    | arrive newId call =>
      simp only [machine] at hs
      split at hs
      · cases hs
      · rename_i hnone
        cases hs
        have hid : processing.id ≠ newId := by
          rintro rfl
          rw [hnone] at ht
          cases ht
        exact ⟨phase, by simp [hid, ht], hsettled⟩
    | step stepId choice =>
      simp only [machine] at hs
      split at hs
      · cases hs
      · rename_i stepped hstepped
        cases hs
        by_cases hid : processing.id = stepId
        · subst hid
          rw [ht] at hstepped
          cases hstepped
          exact ⟨_, by simp; rfl, settledBy_advance hsettled system.service processing.call choice⟩
        · exact ⟨phase, by simp [hid, ht], hsettled⟩
  obtain ⟨phase, ht, hsettled⟩ := Machine.run_inv hkept hafter hrun
  rw [processing.completes] at ht
  cases ht
  exact hsettled

/-- The request of a processing is valid, so it can be made once more: the replay shows the status. -/
theorem Processing.statusCode_of_answersAlike (processing : Processing hash)
    (h : AnswersAlike hash processing.call processing.response processing.completed) :
    processing.response.statusCode = 201 := by
  have hrun : (machine hash).run .initial
      (processing.earlier ++ .step processing.id processing.choice :: processing.between) =
      some processing.completing := by
    rw [Machine.run_append, processing.reachable]
    exact processing.runs
  have hvalid : rejectInvalid processing.call.key processing.call.request = none :=
    valid_of_checked hrun processing.completes trivial
  obtain ⟨labels, system', id, hlater, hstored, hrun', ht⟩ :=
    exists_replay processing.choice processing.stored hvalid
  obtain ⟨reply, hreply, hsame⟩ := (h labels system' hstored hrun').2 id processing.call _ hlater ht
    ⟨rfl, rfl, hvalid⟩
  cases hreply
  exact sameReply_replayOf.1 hsame

/-- **When a replay answers exactly as before.** For every processing that reached `Complete`: while
the record stays stored, every later request with the same key and fingerprint changes nothing and
gets the status, body and media type of the first reply, if and only if the payment was approved. -/
theorem replay_answers_alike_iff (processing : Processing hash) :
    AnswersAlike hash processing.call processing.response processing.completed ↔
      (decidePayment processing.fault processing.call.request).approved = true := by
  rw [← processing.statusCode_eq_iff]
  constructor
  · exact processing.statusCode_of_answersAlike
  · intro happroved labels system' hstored hrun
    obtain ⟨hchanges, hreplays⟩ := replays_of_isStored processing.stored hstored
    refine ⟨hchanges, fun id later result hlater ht hsame => ?_⟩
    exact ⟨_, hreplays system' id later result hrun hlater ht hsame, sameReply_replayOf.2 happroved⟩

def declinedCall : AuthorizeCall :=
  ⟨"order-1-authorize", ⟨1, .ofHundredths 1250, "EUR", "tok_test_declined"⟩⟩

/-- The state after the request has arrived and taken `n` steps by itself. -/
def declinedAfter (n : Nat) : System :=
  ((machine id).run .initial (.arrive 0 declinedCall :: List.replicate n (.step 0 {}))).getD .initial

/-- A declined payment, processed by itself. -/
def declinedProcessing : Processing id where
  earlier := [.arrive 0 declinedCall, .step 0 {}, .step 0 {}]
  deciding := declinedAfter 2
  id := 0
  call := declinedCall
  choice := {}
  fault := .continue_
  between := []
  completing := declinedAfter 3
  response := declinedResponse "card_declined"
  lastChoice := {}
  completed := declinedAfter 4
  reachable := rfl
  decides := rfl
  decision := rfl
  runs := rfl
  completes := rfl
  steps := rfl
  stored := rfl

/-- The replay of a declined payment is not the first reply. -/
theorem declined_replay_differs : ¬ AnswersAlike id declinedProcessing.call declinedProcessing.response
    declinedProcessing.completed := by
  intro halike
  have hstatus := declinedProcessing.statusCode_of_answersAlike halike
  simp [declinedProcessing, declinedResponse] at hstatus

end PaymentEndpoints

end TxPlatform
