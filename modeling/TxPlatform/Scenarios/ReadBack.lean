import TxPlatform.Lib.Machine
import TxPlatform.Order.Api
import TxPlatform.Saga.RecentEntries
import TxPlatform.Scenarios.Expectations

/-! # Orders answered and read back (OrderEndpoints.cs, workload.py:91-143, engine.py:130-143)

OrderService takes many requests at a time. A request that places an order saves it twice: when its
transaction starts and when it ends; in between others come and go. The runner keeps what it was answered
and reads the orders back at the end.
-/

namespace TxPlatform

/-! ## Saves of one order among those of others -/

namespace OrderRepository

variable {repository : OrderRepository} {snapshot : OrderSnapshot}

theorem mem_insertionOrder (h : repository.WellFormed) {id : Guid} :
    id ∈ repository.insertionOrder ↔ (repository.find id).isSome = true := by
  rw [h.queued.mem_iff, find, Dict.isSome_get]

theorem find_eq_none (h : repository.WellFormed) {id : Guid} (hnew : id ∉ repository.insertionOrder) :
    repository.find id = none := by
  rw [mem_insertionOrder h] at hnew
  simpa using hnew

/-- A new order evicts none of the last `kept`. -/
theorem save_new (h : repository.WellFormed) (hnew : snapshot.id ∉ repository.insertionOrder) {older kept : List Guid}
    (hqueue : repository.insertionOrder = older ++ kept) (hroom : kept.length < capacity) :
    (∃ older', (repository.save snapshot).insertionOrder = older' ++ (kept ++ [snapshot.id])) ∧
      ∀ id ∈ kept, (repository.save snapshot).find id = repository.find id := by
  have hnone : repository.orders.get snapshot.id = none := find_eq_none h hnew
  have hne : ∀ id ∈ kept, id ≠ snapshot.id := by
    rintro id hmem rfl
    exact hnew (hqueue ▸ List.mem_append_right _ hmem)
  obtain ⟨_, hkept⟩ | ⟨hfull, oldest, rest, hrest, _, hkept, _⟩ := evict_insert snapshot h (by decide) hnone
  · simp only [save, hnone, hkept, find]
    refine ⟨⟨older, by rw [hqueue, List.append_assoc]⟩, fun id hmem => ?_⟩
    rw [Dict.get_set, if_neg (hne id hmem)]
  · have hlength : repository.insertionOrder.length = capacity := h.queued.length_eq.trans hfull
    have hnodup : repository.insertionOrder.Nodup := h.queued.nodup_iff.2 repository.orders.keys_nodup
    rw [hqueue] at hrest hlength hnodup
    simp only [save, hnone, hkept, find]
    cases older with
    | nil =>
      rw [List.nil_append] at hlength
      omega
    | cons first older =>
      obtain ⟨rfl, rfl⟩ := List.cons.inj hrest
      refine ⟨⟨older, List.append_assoc older kept _⟩, fun id hmem => ?_⟩
      have hfirst : id ≠ first := by
        rintro rfl
        exact (List.nodup_cons.1 hnodup).1 (List.mem_append_right _ hmem)
      rw [Dict.get_remove, if_neg hfirst, Dict.get_set, if_neg (hne id hmem)]

/-- Of another order, a save changes at most that it is forgotten. -/
theorem find_save_other (h : repository.WellFormed) {id : Guid} (hne : id ≠ snapshot.id) :
    (repository.save snapshot).find id = repository.find id ∨ (repository.save snapshot).find id = none := by
  cases hold : repository.orders.get snapshot.id with
  | some old => exact .inl (by simp [save, hold, find, Dict.get_set, hne])
  | none =>
    obtain ⟨_, hkept⟩ | ⟨_, oldest, _, _, _, hkept, _⟩ := evict_insert snapshot h (by decide) hold
    · exact .inl (by simp [save, hold, hkept, find, Dict.get_set, hne])
    · by_cases holdest : id = oldest
      · exact .inr (by simp [save, hold, hkept, find, Dict.get_remove, holdest])
      · exact .inl (by simp [save, hold, hkept, find, Dict.get_remove, holdest, Dict.get_set, hne])

/-- Saving an order again moves nothing. -/
theorem save_again (h : repository.WellFormed) (hold : snapshot.id ∈ repository.insertionOrder) :
    (repository.save snapshot).insertionOrder = repository.insertionOrder ∧
      ∀ id, (repository.save snapshot).find id = if id = snapshot.id then some snapshot else repository.find id := by
  obtain ⟨old, hold⟩ := Option.isSome_iff_exists.1 ((mem_insertionOrder h).1 hold)
  have hold : repository.orders.get snapshot.id = some old := hold
  simp [save, hold, find, Dict.get_set]

end OrderRepository

/-! ## Requests in progress -/

namespace OrderApi

open OrderTransactionCoordinator (process startTransaction IsNew isNew_create)

structure Site where
  texts : JsonTexts
  /-- Scheme, host and path base. -/
  base : String
  catalog : PriceCatalog
  currency : String
  traced : Bool

/-- `repository` and the orders whose transaction is under way; `started` are the ids of all orders that were
saved, in that order, and `responses` what was answered. -/
structure ApiState where
  repository : OrderRepository
  inFlight : List Order := []
  started : List Guid := []
  responses : List ApiResponse := []

inductive ApiStep (σ : Type) where
  /-- A request arrives; without errors its order is saved. -/
  | receive (request : Option CreateOrderRequest) (newGuid : Guid) (now : DateTimeOffset)
  /-- The transaction of an order ends, with the calls that it made. -/
  | finish (orderId : Guid) (dependencies : Dependencies σ) (clock : Nat → DateTimeOffset) (s : σ)

section Site
variable (site : Site)

/-- What the exception handler makes of an exception. -/
def handled : Except Exn ApiResponse → ApiResponse
  | .ok response => response
  | .error _ => exceptionResponse

/-- A request up to its first save: a response, or the order that is now in flight. -/
def receive (request : Option CreateOrderRequest) (newGuid : Guid) (now : DateTimeOffset) (repository : OrderRepository) :
    (ApiResponse ⊕ Order) × OrderRepository :=
  match placeOrder site.catalog site.currency request newGuid now with
  | .error _ => (.inl exceptionResponse, repository)
  | .ok (.inl errors) => (.inl (validationProblem errors), repository)
  | .ok (.inr order) =>
    match order.toSnapshot with
    | .error _ => (.inl exceptionResponse, repository)
    | .ok first =>
      match startTransaction site.traced order with
      | .error _ => (.inl exceptionResponse, repository.save first)
      | .ok () => (.inr order, repository.save first)

/-- The rest of the request. -/
def finish {σ : Type} (order : Order) (dependencies : Dependencies σ) (clock : Nat → DateTimeOffset)
    (repository : OrderRepository) (s : σ) : ApiResponse × OrderRepository :=
  match process dependencies clock order s with
  | (.error _, _) => (exceptionResponse, repository)
  | (.ok order, _) =>
    match order.toSnapshot with
    | .error _ => (exceptionResponse, repository)
    | .ok snapshot => (handled (outcomeResponse site.texts site.base snapshot), repository.save snapshot)

/-- **The two halves of `CreateOrderAsync`.** -/
theorem createOrderAsync_eq {σ : Type} (dependencies : Dependencies σ) (clock : Nat → DateTimeOffset)
    (others : List OrderSnapshot) (request : Option CreateOrderRequest) (newGuid : Guid) (now : DateTimeOffset)
    (repository : OrderRepository) (s : σ) :
    let created := createOrderAsync site.texts site.base site.catalog site.currency dependencies clock site.traced others
      request newGuid now repository s
    (handled created.1, created.2.1) =
      match receive site request newGuid now repository with
      | (.inl response, repository) => (response, repository)
      | (.inr order, repository) => finish site order dependencies clock (others.foldl OrderRepository.save repository) s := by
  simp only [createOrderAsync, receive]
  cases placeOrder site.catalog site.currency request newGuid now with
  | error e => rfl
  | ok placed =>
    cases placed with
    | inl errors => rfl
    | inr order =>
      simp only [OrderTransactionCoordinator.executeAsync]
      cases order.toSnapshot with
      | error e => rfl
      | ok first =>
        cases startTransaction site.traced order with
        | error e => rfl
        | ok _ =>
          simp only [finish]
          cases process dependencies clock order s with
          | mk result s' =>
            cases result with
            | error e => rfl
            | ok order =>
              dsimp only
              cases order.toSnapshot <;> rfl

/-- A new id is one that no order has. -/
def machine {σ : Type} : Machine ApiState (ApiStep σ) where
  step st
    | .receive request newGuid now =>
      if newGuid ∈ st.started ∨ newGuid ∈ st.repository.insertionOrder then none
      else
        let (result, repository) := receive site request newGuid now st.repository
        let started := if newGuid ∈ repository.insertionOrder then st.started ++ [newGuid] else st.started
        match result with
        | .inl response => some { st with repository, started, responses := st.responses ++ [response] }
        | .inr order => some { st with repository, started, inFlight := st.inFlight ++ [order] }
    | .finish orderId dependencies clock s =>
      match st.inFlight.find? (·.id = orderId) with
      | none => none
      | some order =>
        let (response, repository) := finish site order dependencies clock st.repository s
        some { st with
          repository := repository
          inFlight := st.inFlight.filter (·.id ≠ orderId)
          responses := st.responses ++ [response] }

/-! ## What a step can do -/

/-- An order of which a response tells. -/
def Names (response : ApiResponse) (snapshot : OrderSnapshot) : Prop :=
  outcomeResponse site.texts site.base snapshot = .ok response

variable {site}

/-- A response that names no order. -/
def Unnamed (response : ApiResponse) : Prop :=
  response = exceptionResponse ∨ ∃ errors, response = validationProblem errors

theorem id_of_toSnapshot {order : Order} {snapshot : OrderSnapshot} (h : order.toSnapshot = .ok snapshot) :
    snapshot.id = order.id ∧ snapshot.state = order.state ∧ snapshot.failure = order.failure := by
  unfold Order.toSnapshot at h
  split at h
  · cases h
  · cases h
    exact ⟨rfl, rfl, rfl⟩

/-- An order that a request makes is new and has its id. -/
theorem placeOrder_new {catalog : PriceCatalog} {currency : String} {request : Option CreateOrderRequest} {newGuid : Guid}
    {now : DateTimeOffset} {order : Order} (h : placeOrder catalog currency request newGuid now = .ok (.inr order)) :
    order.id = newGuid ∧ IsNew order := by
  simp only [placeOrder, bind, Except.bind, pure, Except.pure] at h
  cases hvalidate : CreateOrderValidator.validate request catalog with
  | error e => simp [hvalidate] at h
  | ok errors =>
    simp only [hvalidate] at h
    split at h
    · cases h
    · cases request with
      | none => cases h
      | some request =>
        dsimp only at h
        split at h
        · cases h
        · cases h
          exact ⟨rfl, isNew_create _ _ _ _ _ _⟩

/-- A request is refused, or its order is saved under its id. -/
theorem receive_cases (request : Option CreateOrderRequest) (newGuid : Guid) (now : DateTimeOffset)
    (repository : OrderRepository) :
    (∃ response, Unnamed response ∧ receive site request newGuid now repository = (.inl response, repository)) ∨
    ∃ first result, first.id = newGuid ∧ first.state = .pending ∧
      receive site request newGuid now repository = (result, repository.save first) ∧
      match result with
      | .inl response => Unnamed response
      | .inr order => order.id = newGuid ∧ IsNew order := by
  unfold receive
  cases hplaced : placeOrder site.catalog site.currency request newGuid now with
  | error e => exact .inl ⟨_, .inl rfl, rfl⟩
  | ok placed =>
    cases placed with
    | inl errors => exact .inl ⟨_, .inr ⟨errors, rfl⟩, rfl⟩
    | inr order =>
      obtain ⟨hid, hnew⟩ := placeOrder_new hplaced
      dsimp only
      cases hfirst : order.toSnapshot with
      | error e => exact .inl ⟨_, .inl rfl, rfl⟩
      | ok first =>
        obtain ⟨hfirstId, hfirstState, -⟩ := id_of_toSnapshot hfirst
        have hfirstId := hfirstId.trans hid
        have hfirstState := hfirstState.trans hnew.pending
        dsimp only
        cases startTransaction site.traced order with
        | error e => exact .inr ⟨first, _, hfirstId, hfirstState, rfl, .inl rfl⟩
        | ok _ => exact .inr ⟨first, _, hfirstId, hfirstState, rfl, hid, hnew⟩

/-- A transaction ends in an exception, or its order is saved as it is answered. -/
theorem finish_cases {σ : Type} {order : Order} (hnew : IsNew order) (dependencies : Dependencies σ)
    (clock : Nat → DateTimeOffset) (repository : OrderRepository) (s : σ) :
    finish site order dependencies clock repository s = (exceptionResponse, repository) ∨
    ∃ snapshot response, snapshot.id = order.id ∧ Names site response snapshot ∧
      finish site order dependencies clock repository s = (response, repository.save snapshot) := by
  unfold finish
  have hprocess := OrderTransactionCoordinator.process_eq dependencies clock hnew.pending hnew.noFailure
    hnew.noCompensation s
  rw [hprocess]
  cases OrderTransactionCoordinator.outcome dependencies order s with
  | mk outcome s' =>
    cases outcome with
    | error e => exact .inl rfl
    | ok result =>
      simp only [Except.map]
      cases hsnapshot : (OrderTransactionCoordinator.finalOrder clock order result).toSnapshot with
      | error e => exact .inl rfl
      | ok snapshot =>
        obtain ⟨hid, hstate, hfailure⟩ := id_of_toSnapshot hsnapshot
        have hresponse : ∃ response, outcomeResponse site.texts site.base snapshot = .ok response := by
          have hfailure : snapshot.failure = result.1 := hfailure
          have hstate : snapshot.state = _ := hstate.trans (OrderTransactionCoordinator.settled_state clock order result.1)
          cases hresult : result.1 with
          | none => 
            rw [hresult] at hstate
            exact ⟨_, by rw [outcomeResponse, if_pos hstate]⟩
          | some failure =>
            unfold outcomeResponse
            rw [hfailure, hresult]
            split <;> exact ⟨_, rfl⟩
        obtain ⟨response, hresponse⟩ := hresponse
        exact .inr ⟨snapshot, response, hid.trans (OrderTransactionCoordinator.id_finalOrder clock order result), hresponse,
          by simp only [hresponse, handled]⟩

/-! ## What every step keeps -/

variable (site) in
/-- A response names no order, or one whose transaction has ended and which is stored as it was answered. -/
def Kept (st : ApiState) (response : ApiResponse) : Prop :=
  Unnamed response ∨ ∃ snapshot, Names site response snapshot ∧ snapshot.id ∈ st.started ∧
    (∀ order ∈ st.inFlight, order.id ≠ snapshot.id) ∧
    (st.started.length ≤ OrderRepository.capacity → st.repository.find snapshot.id = some snapshot)

variable (site) in
structure Inv (st : ApiState) : Prop where
  wellFormed : st.repository.WellFormed
  flying : ∀ order ∈ st.inFlight, IsNew order ∧ order.id ∈ st.started
  queue : st.started.length ≤ OrderRepository.capacity → ∃ older, st.repository.insertionOrder = older ++ st.started
  responses : ∀ response ∈ st.responses, Kept site st response
  once : (st.responses.filterMap (·.location)).Nodup

theorem location_of_names {response : ApiResponse} {snapshot : OrderSnapshot} (h : Names site response snapshot) :
    response.location = some (site.base ++ "/orders/" ++ snapshot.id.formatD) := by
  unfold Names outcomeResponse at h
  split at h
  · cases h
    rfl
  · split at h
    · cases h
    · cases h
      rfl

theorem location_of_unnamed {response : ApiResponse} (h : Unnamed response) : response.location = none := by
  obtain rfl | ⟨errors, rfl⟩ := h <;> rfl

theorem id_of_location {id id' : Guid}
    (h : site.base ++ "/orders/" ++ id.formatD = site.base ++ "/orders/" ++ id'.formatD) :
    id = id' := by
  have hchars := congrArg String.toList h
  simp only [String.toList_append, List.append_cancel_left_eq] at hchars
  exact Guid.formatD_injective (String.toList_injective hchars)

namespace Inv

variable {st : ApiState}

/-- A new order is saved. -/
theorem saveNew (h : Inv site st) {first : OrderSnapshot}
    (hnew : first.id ∉ st.repository.insertionOrder) :
    Inv site { st with repository := st.repository.save first, started := st.started ++ [first.id] } := by
  have hroom : (st.started ++ [first.id]).length ≤ OrderRepository.capacity →
      ∃ older, st.repository.insertionOrder = older ++ st.started ∧ st.started.length < OrderRepository.capacity := by
    intro hfew
    rw [List.length_append, List.length_singleton] at hfew
    obtain ⟨older, hqueue⟩ := h.queue (by omega)
    exact ⟨older, hqueue, by omega⟩
  refine ⟨(OrderRepository.wellFormed_save h.wellFormed first).1, ?_, ?_, ?_, h.once⟩
  · intro order hmem
    obtain ⟨hisNew, hid⟩ := h.flying order hmem
    exact ⟨hisNew, List.mem_append_left _ hid⟩
  · intro hfew
    obtain ⟨older, hqueue, hlt⟩ := hroom hfew
    exact (OrderRepository.save_new h.wellFormed hnew hqueue hlt).1
  · intro response hmem
    obtain hunnamed | ⟨snapshot, hnames, hid, hlanded, hstored⟩ := h.responses response hmem
    · exact .inl hunnamed
    · refine .inr ⟨snapshot, hnames, List.mem_append_left _ hid, hlanded, fun hfew => ?_⟩
      obtain ⟨older, hqueue, hlt⟩ := hroom hfew
      rw [(OrderRepository.save_new h.wellFormed hnew hqueue hlt).2 _ hid]
      exact hstored hlt.le

/-- A response that names no order. -/
theorem respond (h : Inv site st) {response : ApiResponse} (hunnamed : Unnamed response) :
    Inv site { st with responses := st.responses ++ [response] } := by
  refine ⟨h.wellFormed, h.flying, h.queue, ?_, ?_⟩
  · intro found hmem
    obtain hmem | hmem := List.mem_append.1 hmem
    · exact h.responses found hmem
    · rw [List.mem_singleton.1 hmem]
      exact .inl hunnamed
  · simpa [location_of_unnamed hunnamed] using h.once

/-- An order takes off that no response names. -/
theorem fly (h : Inv site st) {order : Order} (hnew : IsNew order) (hid : order.id ∈ st.started)
    (hnone : ∀ response ∈ st.responses, ∀ snapshot, Names site response snapshot → order.id ≠ snapshot.id) :
    Inv site { st with inFlight := st.inFlight ++ [order] } := by
  refine ⟨h.wellFormed, ?_, h.queue, ?_, h.once⟩
  · intro found hmem
    obtain hmem | hmem := List.mem_append.1 hmem
    · exact h.flying found hmem
    · rw [List.mem_singleton.1 hmem]
      exact ⟨hnew, hid⟩
  · intro response hmem
    obtain hunnamed | ⟨snapshot, hnames, hstarted, hlanded, hstored⟩ := h.responses response hmem
    · exact .inl hunnamed
    · refine .inr ⟨snapshot, hnames, hstarted, fun found hfound => ?_, hstored⟩
      obtain hfound | hfound := List.mem_append.1 hfound
      · exact hlanded found hfound
      · rw [List.mem_singleton.1 hfound]
        exact hnone response hmem snapshot hnames

/-- An order lands. -/
theorem land (h : Inv site st) (orderId : Guid) :
    Inv site { st with inFlight := st.inFlight.filter (·.id ≠ orderId) } := by
  refine ⟨h.wellFormed, fun order hmem => h.flying order (List.mem_of_mem_filter hmem), h.queue, ?_, h.once⟩
  intro response hmem
  obtain hunnamed | ⟨snapshot, hnames, hstarted, hlanded, hstored⟩ := h.responses response hmem
  · exact .inl hunnamed
  · exact .inr ⟨snapshot, hnames, hstarted, fun order hmem => hlanded order (List.mem_of_mem_filter hmem), hstored⟩

/-- An order is saved as it is answered, and lands. -/
theorem answer (h : Inv site st) {order : Order} (hmem : order ∈ st.inFlight) {snapshot : OrderSnapshot}
    (hid : snapshot.id = order.id) {response : ApiResponse} (hnames : Names site response snapshot) :
    Inv site { st with
      repository := st.repository.save snapshot
      inFlight := st.inFlight.filter (·.id ≠ order.id)
      responses := st.responses ++ [response] } := by
  have hstarted : snapshot.id ∈ st.started := hid ▸ (h.flying order hmem).2
  have hagain : st.started.length ≤ OrderRepository.capacity →
      (st.repository.save snapshot).insertionOrder = st.repository.insertionOrder ∧
        ∀ id, (st.repository.save snapshot).find id = if id = snapshot.id then some snapshot else st.repository.find id := by
    intro hfew
    obtain ⟨older, hqueue⟩ := h.queue hfew
    exact OrderRepository.save_again h.wellFormed (hqueue ▸ List.mem_append_right _ hstarted)
  obtain ⟨hwellFormed, hfound⟩ := OrderRepository.wellFormed_save h.wellFormed snapshot
  refine ⟨hwellFormed, fun found hfound => h.flying found (List.mem_of_mem_filter hfound), ?_, ?_, ?_⟩
  · intro hfew
    obtain ⟨older, hqueue⟩ := h.queue hfew
    exact ⟨older, (hagain hfew).1.trans hqueue⟩
  · intro found hresponse
    obtain hresponse | hresponse := List.mem_append.1 hresponse
    · obtain hunnamed | ⟨other, hother, hin, hlanded, hstored⟩ := h.responses found hresponse
      · exact .inl hunnamed
      · refine .inr ⟨other, hother, hin, fun flying hflying => hlanded flying (List.mem_of_mem_filter hflying), ?_⟩
        intro hfew
        have hne : other.id ≠ snapshot.id := fun heq => hlanded order hmem (hid ▸ heq.symm)
        rw [(hagain hfew).2, if_neg hne]
        exact hstored hfew
    · rw [List.mem_singleton.1 hresponse]
      refine .inr ⟨snapshot, hnames, hstarted, fun flying hflying => ?_, fun _ => hfound⟩
      rw [hid]
      simpa using (List.mem_filter.1 hflying).2
  · have hlocations : [response].filterMap (·.location) = [site.base ++ "/orders/" ++ snapshot.id.formatD] := by
      simp [location_of_names hnames]
    rw [List.filterMap_append, hlocations, List.nodup_append]
    refine ⟨h.once, List.nodup_singleton _, ?_⟩
    rintro location hold _ hnew rfl
    obtain ⟨found, hresponse, hlocation⟩ := List.mem_filterMap.1 hold
    rw [List.mem_singleton.1 hnew] at hlocation
    obtain hunnamed | ⟨other, hother, -, hlanded, -⟩ := h.responses found hresponse
    · rw [location_of_unnamed hunnamed] at hlocation
      cases hlocation
    · rw [location_of_names hother, Option.some.injEq] at hlocation
      exact hlanded order hmem (hid ▸ (id_of_location hlocation).symm)

end Inv

theorem inv_start {repository : OrderRepository} (h : repository.WellFormed) : Inv site { repository } where
  wellFormed := h
  flying := by intro _ h; cases h
  queue := fun _ => ⟨repository.insertionOrder, by simp⟩
  responses := by intro _ h; cases h
  once := List.nodup_nil

theorem inv_step {σ : Type} (st : ApiState) (step : ApiStep σ) (st' : ApiState) (h : Inv site st)
    (hstep : (machine site).step st step = some st') : Inv site st' := by
  cases step with
  | receive request newGuid now =>
    simp only [machine] at hstep
    split at hstep
    · cases hstep
    · rename_i hfresh
      obtain ⟨hstarted, hnew⟩ := not_or.1 hfresh
      obtain ⟨response, hunnamed, hreceive⟩ | ⟨first, result, rfl, -, hreceive, hresult⟩ :=
        @receive_cases site request newGuid now st.repository
      · rw [hreceive, if_neg hnew] at hstep
        cases hstep
        exact h.respond hunnamed
      · have hsaved := h.saveNew hnew
        have hin : first.id ∈ (st.repository.save first).insertionOrder := by
          obtain ⟨hwellFormed, hfound⟩ := OrderRepository.wellFormed_save h.wellFormed first
          rw [OrderRepository.mem_insertionOrder hwellFormed, hfound]
          rfl
        rw [hreceive, if_pos hin] at hstep
        cases result with
        | inl response =>
          cases hstep
          exact hsaved.respond hresult
        | inr order =>
          cases hstep
          obtain ⟨hid, hisNew⟩ := hresult
          refine hsaved.fly hisNew (by simp [hid]) fun response hmem snapshot hnames heq => ?_
          obtain hunnamed | ⟨other, hother, hin, -⟩ := h.responses response hmem
          · have hlocation := location_of_names hnames
            rw [location_of_unnamed hunnamed] at hlocation
            cases hlocation
          · have hlocation := location_of_names hother
            rw [location_of_names hnames, Option.some.injEq] at hlocation
            rw [← id_of_location hlocation, ← heq, hid] at hin
            exact hstarted hin
  | finish orderId dependencies clock s =>
    simp only [machine] at hstep
    split at hstep
    · cases hstep
    · rename_i order hfind
      have hmem := List.mem_of_find?_eq_some hfind
      have hid : order.id = orderId := by simpa using List.find?_some hfind
      subst hid
      cases hstep
      obtain hfinish | ⟨snapshot, response, hid, hnames, hfinish⟩ :=
        @finish_cases site σ order (h.flying order hmem).1 dependencies clock st.repository s
      · rw [hfinish]
        exact (h.land order.id).respond (.inl rfl)
      · rw [hfinish]
        exact h.answer hmem hid hnames

/-! ## What is read in between -/

/-- Only started orders are stored, and those in flight as pending. -/
structure Known (st : ApiState) : Prop where
  wellFormed : st.repository.WellFormed
  stored : ∀ id snapshot, st.repository.find id = some snapshot → id ∈ st.started
  flying : ∀ order ∈ st.inFlight, IsNew order ∧ order.id ∈ st.started
  pending : ∀ order ∈ st.inFlight, ∀ snapshot, st.repository.find order.id = some snapshot → snapshot.state = .pending

/-- The transaction of an order has ended; the order may be forgotten. -/
def Settled (id : Guid) (snapshot : OrderSnapshot) (st : ApiState) : Prop :=
  id ∈ st.started ∧ (∀ order ∈ st.inFlight, order.id ≠ id) ∧
    (st.repository.find id = some snapshot ∨ st.repository.find id = none)

theorem known_empty : Known { repository := OrderRepository.empty } where
  wellFormed := OrderRepository.wellFormed_empty
  stored := by
    intro id snapshot h
    cases h
  flying := by
    intro _ h
    cases h
  pending := by
    intro _ h
    cases h

theorem Known.settled {st : ApiState} (h : Known st) {id : Guid} {snapshot : OrderSnapshot}
    (hfound : st.repository.find id = some snapshot) (hended : snapshot.state ≠ .pending) : Settled id snapshot st := by
  refine ⟨h.stored id snapshot hfound, ?_, .inl hfound⟩
  rintro order hmem rfl
  exact hended (h.pending order hmem snapshot hfound)

/-- A save under the id of `saved`: `stored` of the others is what it was, or forgotten. -/
theorem find_cases {repository : OrderRepository} (h : repository.WellFormed) {saved snapshot : OrderSnapshot} {id : Guid}
    (hfound : (repository.save saved).find id = some snapshot) :
    (id = saved.id ∧ snapshot = saved) ∨ (id ≠ saved.id ∧ repository.find id = some snapshot) := by
  by_cases hid : id = saved.id
  · subst hid
    rw [(OrderRepository.wellFormed_save h saved).2] at hfound
    exact .inl ⟨rfl, (Option.some.inj hfound).symm⟩
  · obtain hsame | hnone := OrderRepository.find_save_other h hid
    · exact .inr ⟨hid, hsame ▸ hfound⟩
    · rw [hnone] at hfound
      cases hfound

theorem Settled.save {id : Guid} {snapshot saved : OrderSnapshot} {repository : OrderRepository}
    (h : repository.WellFormed)
    (hid : id ≠ saved.id) (hfound : repository.find id = some snapshot ∨ repository.find id = none) :
    (repository.save saved).find id = some snapshot ∨ (repository.save saved).find id = none := by
  obtain hsame | hnone := OrderRepository.find_save_other h hid
  · rwa [hsame]
  · exact .inr hnone

section
variable {st : ApiState} (h : Known st)
include h

/-- A new order is saved, and may take off. -/
theorem known_saveNew {first : OrderSnapshot} (hpending : first.state = .pending) (hnew : first.id ∉ st.started)
    {flying : List Order} (hflying : ∀ order ∈ flying, order.id = first.id ∧ IsNew order) (responses : List ApiResponse) :
    Known ⟨st.repository.save first, st.inFlight ++ flying, st.started ++ [first.id], responses⟩ where
  wellFormed := (OrderRepository.wellFormed_save h.wellFormed first).1
  stored := by
    intro id snapshot hfound
    obtain ⟨rfl, -⟩ | ⟨-, hold⟩ := find_cases h.wellFormed hfound
    · simp
    · exact List.mem_append_left _ (h.stored id snapshot hold)
  flying := by
    intro order hmem
    obtain hmem | hmem := List.mem_append.1 hmem
    · exact (h.flying order hmem).imp_right (List.mem_append_left _)
    · obtain ⟨hid, hisNew⟩ := hflying order hmem
      exact ⟨hisNew, by simp [hid]⟩
  pending := by
    intro order hmem snapshot hfound
    obtain ⟨-, rfl⟩ | ⟨hid, hold⟩ := find_cases h.wellFormed hfound
    · exact hpending
    · obtain hmem | hmem := List.mem_append.1 hmem
      · exact h.pending order hmem snapshot hold
      · exact absurd (hflying order hmem).1 hid

theorem settled_saveNew {first : OrderSnapshot} (hnew : first.id ∉ st.started) {flying : List Order}
    (hflying : ∀ order ∈ flying, order.id = first.id ∧ IsNew order) (responses : List ApiResponse) {id : Guid}
    {snapshot : OrderSnapshot} (hsettled : Settled id snapshot st) :
    Settled id snapshot ⟨st.repository.save first, st.inFlight ++ flying, st.started ++ [first.id], responses⟩ := by
  obtain ⟨hstarted, hlanded, hfound⟩ := hsettled
  have hid : id ≠ first.id := fun heq => hnew (heq ▸ hstarted)
  refine ⟨List.mem_append_left _ hstarted, fun order hmem => ?_, Settled.save h.wellFormed hid hfound⟩
  obtain hmem | hmem := List.mem_append.1 hmem
  · exact hlanded order hmem
  · rw [(hflying order hmem).1]
    exact hid.symm

/-- An order lands and is saved. -/
theorem known_answer {order : Order} (hmem : order ∈ st.inFlight) {saved : OrderSnapshot} (hid : saved.id = order.id)
    (responses : List ApiResponse) :
    Known ⟨st.repository.save saved, st.inFlight.filter (·.id ≠ order.id), st.started, responses⟩ where
  wellFormed := (OrderRepository.wellFormed_save h.wellFormed saved).1
  stored := by
    intro id snapshot hfound
    obtain ⟨rfl, -⟩ | ⟨-, hold⟩ := find_cases h.wellFormed hfound
    · rw [hid]
      exact (h.flying order hmem).2
    · exact h.stored id snapshot hold
  flying := fun other hother => h.flying other (List.mem_of_mem_filter hother)
  pending := by
    intro other hother snapshot hfound
    obtain ⟨heq, -⟩ | ⟨-, hold⟩ := find_cases h.wellFormed hfound
    · rw [hid] at heq
      simp [heq] at hother
    · exact h.pending other (List.mem_of_mem_filter hother) snapshot hold

end

theorem known_step {σ : Type} (st : ApiState) (step : ApiStep σ) (st' : ApiState) (h : Known st)
    (hstep : (machine site).step st step = some st') :
    Known st' ∧ ∀ id snapshot, Settled id snapshot st → Settled id snapshot st' := by
  cases step with
  | receive request newGuid now =>
    simp only [machine] at hstep
    split at hstep
    · cases hstep
    · rename_i hfresh
      obtain ⟨hstarted, hnew⟩ := not_or.1 hfresh
      obtain ⟨response, -, hreceive⟩ | ⟨first, result, rfl, hpending, hreceive, hresult⟩ :=
        @receive_cases site request newGuid now st.repository
      · rw [hreceive, if_neg hnew] at hstep
        cases hstep
        exact ⟨⟨h.wellFormed, h.stored, h.flying, h.pending⟩, fun _ _ hsettled => hsettled⟩
      · have hin : first.id ∈ (st.repository.save first).insertionOrder := by
          obtain ⟨hwellFormed, hfound⟩ := OrderRepository.wellFormed_save h.wellFormed first
          rw [OrderRepository.mem_insertionOrder hwellFormed, hfound]
          rfl
        rw [hreceive, if_pos hin] at hstep
        cases result with
        | inl response =>
          cases hstep
          have hnone : ∀ order ∈ ([] : List Order), order.id = first.id ∧ IsNew order := by simp
          have hknown := known_saveNew h hpending hstarted hnone (st.responses ++ [response])
          refine ⟨by simpa using hknown, fun id snapshot hsettled => ?_⟩
          simpa using settled_saveNew h hstarted hnone (st.responses ++ [response]) hsettled
        | inr order =>
          cases hstep
          have hone : ∀ other ∈ [order], other.id = first.id ∧ IsNew other := by simpa using hresult
          exact ⟨known_saveNew h hpending hstarted hone _, fun id snapshot => settled_saveNew h hstarted hone _⟩
  | finish orderId dependencies clock s =>
    simp only [machine] at hstep
    split at hstep
    · cases hstep
    · rename_i order hfind
      have hmem := List.mem_of_find?_eq_some hfind
      have hid : order.id = orderId := by simpa using List.find?_some hfind
      subst hid
      cases hstep
      obtain hfinish | ⟨saved, response, hid, -, hfinish⟩ :=
        @finish_cases site σ order (h.flying order hmem).1 dependencies clock st.repository s
      · rw [hfinish]
        refine ⟨⟨h.wellFormed, h.stored, fun other hother => h.flying other (List.mem_of_mem_filter hother),
          fun other hother => h.pending other (List.mem_of_mem_filter hother)⟩, fun id snapshot hsettled => ?_⟩
        exact ⟨hsettled.1, fun other hother => hsettled.2.1 other (List.mem_of_mem_filter hother), hsettled.2.2⟩
      · rw [hfinish]
        refine ⟨known_answer h hmem hid _, fun id snapshot hsettled => ?_⟩
        refine ⟨hsettled.1, fun other hother => hsettled.2.1 other (List.mem_of_mem_filter hother), ?_⟩
        exact Settled.save h.wellFormed (fun heq => hsettled.2.1 order hmem (hid ▸ heq.symm)) hsettled.2.2

/-- **What a client polls**: an order that was read with its transaction ended is read the same at any later
time, or is not found because newer orders displaced it; up to as many orders as the repository holds it is
found. -/
theorem getOrder_settled {σ : Type} {steps later : List (ApiStep σ)} {st st' : ApiState}
    (hrun : (machine site).run { repository := OrderRepository.empty } steps = some st)
    (hlater : (machine site).run st later = some st') {id : Guid} {snapshot : OrderSnapshot}
    (hfound : st.repository.find id = some snapshot) (hended : snapshot.state ≠ .pending) (texts : JsonTexts) :
    (getOrder texts st'.repository id = getOrder texts st.repository id ∨ (getOrder texts st'.repository id).status = 404) ∧
      (st'.started.length ≤ OrderRepository.capacity →
        getOrder texts st'.repository id = getOrder texts st.repository id) := by
  have hknown := Machine.run_inv (fun s a s' h hstep => (known_step s a s' h hstep).1) known_empty hrun
  have hboth : Known st' ∧ Settled id snapshot st' := by
    refine Machine.run_inv (I := fun st => Known st ∧ Settled id snapshot st) (fun s a s' h hstep => ?_)
      ⟨hknown, hknown.settled hfound hended⟩ hlater
    obtain ⟨hknown', hsettled'⟩ := known_step s a s' h.1 hstep
    exact ⟨hknown', hsettled' id snapshot h.2⟩
  obtain ⟨hknown', hstarted, -, hsame | hnone⟩ := hboth
  · have heq : getOrder texts st'.repository id = getOrder texts st.repository id := by
      simp only [getOrder, hsame, hfound]
    exact ⟨.inl heq, fun _ => heq⟩
  · refine ⟨.inr (by simp [getOrder, hnone, problem]), fun hfew => ?_⟩
    have hinv := Machine.run_inv inv_step (Machine.run_inv inv_step (inv_start OrderRepository.wellFormed_empty) hrun) hlater
    obtain ⟨older, hqueue⟩ := hinv.queue hfew
    have hin : id ∈ st'.repository.insertionOrder := hqueue ▸ List.mem_append_right _ hstarted
    rw [OrderRepository.mem_insertionOrder hinv.wellFormed, hnone] at hin
    cases hin

end Site

/-! ## The runner's side -/

def httpAnswer (response : ApiResponse) : HttpAnswer :=
  ⟨response.status, some response.body, response.location.getD ""⟩

section Runner
variable (str : Json → String)

def record (response : ApiResponse) : RequestRecord := recordRequest str (some (httpAnswer response))

/-- `order["state"]` and the steps that `evaluate_compensation` reads. -/
def readOrder : Json → Option OrderView
  | .obj members =>
    match Json.member members "state", Json.member members "compensation" with
    | some (.str state), some (.arr steps) => some ⟨memberText str members "orderId", state, steps.map fun
        | .obj step => (memberText str step "action", memberText str step "status")
        | _ => ("", "")⟩
    | _, _ => none
  | _ => none

/-- One `client.get(f"/orders/{order_id}")`. -/
def readBack (texts : JsonTexts) (repository : OrderRepository) (orderId : String) : ReadBackAnswer :=
  match Guid.parseD orderId with
  | none => .other 404
  | some id =>
    let response := getOrder texts repository id
    if response.status = 200 then
      match readOrder str response.body with
      | some order => .ok order
      | none => .other response.status
    else .other response.status

def viewOf (order : OrderSnapshot) : OrderView where
  orderId := order.id.formatD
  state := order.state.name
  compensation := order.compensation.map fun step => (step.action.name, CompensationStatus.name step.status)

variable {str}

theorem readOrder_orderResponse (texts : JsonTexts) (order : OrderSnapshot) :
    readOrder str (orderResponse texts order) = some (viewOf order) := by
  simp [readOrder, orderResponse, Json.member, List.lookup_cons, memberText, compensationJson, viewOf, Function.comp_def]

theorem formatD_ne_empty (id : Guid) : id.formatD ≠ "" := by
  intro h
  have hchars := congrArg String.toList h
  simp [Guid.formatD] at hchars

theorem orderReference_of_members {members : List (String × Json)} {id : Guid} {state : String}
    (hid : Json.member members "orderId" = some (.str id.formatD))
    (hstate : Json.member members "state" = some (.str state))
    (status : Int) (location : String) :
    orderReference str ⟨status, some (.obj members), location⟩ = (id.formatD, state) := by
  simp [orderReference, memberText, hid, hstate, formatD_ne_empty]

theorem record_of_names {site : Site} {response : ApiResponse} {order : OrderSnapshot} (h : Names site response order) :
    record str response = ⟨response.status, order.id.formatD, order.state.name⟩ ∧
      (response.status = 201 ↔ order.state = .completed) := by
  unfold Names outcomeResponse at h
  split at h
  · rename_i hcompleted
    cases h
    rw [record, recordRequest, httpAnswer, orderResponse,
      @orderReference_of_members str _ order.id order.state.name (by simp [Json.member, List.lookup_cons])
        (by simp [Json.member, List.lookup_cons])]
    exact ⟨rfl, by simp [hcompleted]⟩
  · rename_i hfailed
    split at h
    · cases h
    · rename_i failure _
      cases h
      rw [record, recordRequest, httpAnswer, problem,
        @orderReference_of_members str _ order.id order.state.name (by simp [Json.member, List.lookup_cons])
          (by simp [Json.member, List.lookup_cons])]
      refine ⟨rfl, iff_of_false ?_ hfailed⟩
      show statusCodeFor failure.kind ≠ 201
      cases failure.kind <;> decide

theorem record_of_unnamed {response : ApiResponse} (h : Unnamed response) :
    record str response = ⟨response.status, "", ""⟩ ∧ (response.status = 400 ∨ response.status = 500) := by
  obtain rfl | ⟨errors, rfl⟩ := h
  · exact ⟨by rfl, .inr rfl⟩
  · refine ⟨?_, .inl rfl⟩
    simp [record, recordRequest, httpAnswer, validationProblem, problem, orderReference, memberText, Json.member,
      List.lookup_cons, searchOrderId]

/-- An order that is stored is read back as it is. -/
theorem readBack_of_find {texts : JsonTexts} {repository : OrderRepository} {order : OrderSnapshot}
    (h : repository.find order.id = some order) :
    readBack str texts repository order.id.formatD = .ok (viewOf order) := by
  simp [readBack, Guid.parseD_formatD, getOrder, h, readOrder_orderResponse]

/-! ## What is read back -/

/-- Orders that were answered once each and are found as they were answered. -/
theorem readBackOrders_perm {requests : List RequestRecord} {answers : String → ReadBackAnswer}
    (hnodup : ((requests.filter (·.orderId ≠ "")).map (·.orderId)).Nodup)
    (hfound : ∀ request ∈ requests, request.orderId ≠ "" →
      ∃ order, answers request.orderId = .ok order ∧ order.state = request.state) :
    ((readBackOrders requests answers).map fun found => (found.1, found.2.state)).Perm
      ((requests.filter (·.orderId ≠ "")).map fun request => (request.orderId, request.state)) := by
  have hids : (requests.map RequestRecord.orderId).filter (· ≠ "") = (requests.filter (·.orderId ≠ "")).map (·.orderId) := by
    rw [List.filter_map]
    rfl
  have hsorted := sortedKeys_perm hnodup
  rw [readBackOrders, createdOrderIds, hids]
  refine ((hsorted.filterMap _).map _).trans (.of_eq ?_)
  rw [List.filterMap_map, List.map_filterMap, List.filterMap_eq_map_iff_forall_eq_some]
  intro request hmem
  obtain ⟨hmem, hid⟩ := List.mem_filter.1 hmem
  obtain ⟨order, hanswer, hstate⟩ := hfound request hmem (of_decide_eq_true hid)
  simp [hanswer, hstate]

/-- The locations of the responses are the ids of their records. -/
theorem orderIds_of_kept {site : Site} {st : ApiState} {responses : List ApiResponse}
    (h : ∀ response ∈ responses, Kept site st response) :
    (((responses.map (record str)).filter (·.orderId ≠ "")).map (·.orderId)).map (site.base ++ "/orders/" ++ ·) =
      responses.filterMap (·.location) := by
  induction responses with
  | nil => rfl
  | cons response responses ih =>
    have ih := ih fun other hmem => h other (List.mem_cons_of_mem _ hmem)
    obtain hunnamed | ⟨snapshot, hnames, -⟩ := h response List.mem_cons_self
    · simpa [(record_of_unnamed hunnamed).1, location_of_unnamed hunnamed] using ih
    · simpa [(record_of_names hnames).1, location_of_names hnames, formatD_ne_empty] using ih

/-- **What the runner was answered is what it reads back.** Of the responses, `received` reached the runner;
`others` did not come from OrderService. -/
theorem readBack_agrees {σ : Type} {site : Site} {repository : OrderRepository} (hrepository : repository.WellFormed)
    {steps : List (ApiStep σ)} {st : ApiState} (hrun : (machine site).run { repository } steps = some st)
    (hfew : st.started.length ≤ OrderRepository.capacity) {received : List ApiResponse}
    (hreceived : received.Subperm st.responses) {others requests : List RequestRecord}
    (hothers : ∀ request ∈ others, request.orderId = "")
    (hrequests : requests.Perm (received.map (record str) ++ others)) :
    let orders := readBackOrders requests (readBack str site.texts st.repository)
    let answered := requests.filter (·.orderId ≠ "")
    (orders.map fun found => (found.1, found.2.state)).Perm (answered.map fun request => (request.orderId, request.state)) ∧
      (answered.map (·.status)).count 201 = (orders.map (·.2.state)).count OrderState.completed.name := by
  intro orders answered
  have hinv := Machine.run_inv inv_step (inv_start hrepository) hrun
  have hkept : ∀ response ∈ received, Kept site st response := fun response hmem =>
    hinv.responses response (hreceived.subset hmem)
  have honce : (received.filterMap (·.location)).Nodup := by
    obtain ⟨received', hperm, hsublist⟩ := hreceived
    exact (hperm.filterMap _).nodup_iff.1 (hinv.once.sublist (hsublist.filterMap _))
  have hnone : others.filter (·.orderId ≠ "") = [] := by
    rw [List.filter_eq_nil_iff]
    intro request hmem
    simp [hothers request hmem]
  have hanswered : answered.Perm ((received.map (record str)).filter (·.orderId ≠ "")) := by
    have := hrequests.filter (·.orderId ≠ "")
    rwa [List.filter_append, hnone, List.append_nil] at this
  have hrecords : ∀ request ∈ answered, ∃ snapshot, request.orderId = snapshot.id.formatD ∧
      request.state = snapshot.state.name ∧ (request.status = 201 ↔ snapshot.state = .completed) ∧
      st.repository.find snapshot.id = some snapshot := by
    intro request hmem
    obtain ⟨hmem, hid⟩ := List.mem_filter.1 (hanswered.subset hmem)
    obtain ⟨response, hresponse, rfl⟩ := List.mem_map.1 hmem
    obtain hunnamed | ⟨snapshot, hnames, -, -, hstored⟩ := hkept response hresponse
    · simp [(record_of_unnamed hunnamed).1] at hid
    · obtain ⟨hrecord, hstatus⟩ := @record_of_names str site response snapshot hnames
      have hstatus : (response.status : Int) = 201 ↔ snapshot.state = .completed := by exact_mod_cast hstatus
      rw [hrecord]
      exact ⟨snapshot, rfl, rfl, hstatus, hstored hfew⟩
  have hnodup : (answered.map (·.orderId)).Nodup := by
    rw [(hanswered.map _).nodup_iff]
    refine .of_map (site.base ++ "/orders/" ++ ·) ?_
    rw [orderIds_of_kept hkept]
    exact honce
  have hperm := @readBackOrders_perm requests (readBack str site.texts st.repository) hnodup fun request hmem hid => by
    obtain ⟨snapshot, hidEq, hstate, -, hstored⟩ := hrecords request (List.mem_filter.2 ⟨hmem, decide_eq_true hid⟩)
    refine ⟨viewOf snapshot, ?_, hstate.symm⟩
    rw [hidEq]
    exact readBack_of_find hstored
  refine ⟨hperm, ?_⟩
  have hstates : (orders.map (·.2.state)).Perm (answered.map (·.state)) := by
    have := hperm.map Prod.snd
    rwa [List.map_map, List.map_map] at this
  rw [hstates.count_eq, List.count_eq_countP, List.count_eq_countP, List.countP_map, List.countP_map]
  refine List.countP_congr fun request hmem => ?_
  obtain ⟨snapshot, -, hstate, hstatus, -⟩ := hrecords request hmem
  simp only [Function.comp_apply, beq_iff_eq, hstatus, hstate]
  exact OrderState.name_injective.eq_iff.symm

end Runner

/-! ### Two orders that overlap -/

def plainSite : Site where
  texts := ⟨fun amount => .int amount.coefficient, fun time => .int time⟩
  base := ""
  catalog := ⟨Dict.set ∅ "SKU-0001" ⟨500, 2, by decide, Decimal.hundredths_scaled⟩⟩
  currency := "EUR"
  traced := true

/-- Every call is answered; `decision` is FraudService's. -/
def decided (decision : String) : Dependencies Unit where
  stage request := fun s =>
    match request with
    | .evaluate _ _ _ => (some (.response { statusCode := 200, body := some (.obj [("decision", .str decision)]) }), s)
    | _ => (some (.response { statusCode := 200, body := some (.obj []) }), s)
  undo _ := fun s => (.response { statusCode := 200, body := some (.obj []) }, s)

def oneLine : CreateOrderRequest := ⟨some [some ⟨some "SKU-0001", 2⟩], some "tok_abc", some "domestic"⟩

/-- The second order is answered before the first. -/
def overlapping : List (ApiStep Unit) := [.receive (some oneLine) 1 0, .receive none 2 0, .receive (some oneLine) 3 0,
  .finish 3 (decided "rejected") (fun _ => 0) (), .finish 1 (decided "approved") (fun _ => 0) ()]

def overlapped : ApiState :=
  ((machine plainSite).run { repository := OrderRepository.empty } overlapping).get rfl

theorem run_overlapping : (machine plainSite).run { repository := OrderRepository.empty } overlapping = some overlapped :=
  (Option.some_get _).symm

theorem readBack_agrees_overlapping :
    ((readBackOrders (overlapped.responses.map (record fun _ => "") ++ [⟨429, "", ""⟩])
        (readBack (fun _ => "") plainSite.texts overlapped.repository)).map fun found => (found.1, found.2.state)).Perm
      [("00000000-0000-0000-0000-000000000003", "FraudFailed"), ("00000000-0000-0000-0000-000000000001", "Completed")] :=
  (readBack_agrees OrderRepository.wellFormed_empty run_overlapping (by decide +kernel) (List.Subperm.refl _) (by simp)
    (List.Perm.refl _)).1

/-- Another order afterwards. -/
def afterwards : ApiState :=
  ((machine plainSite).run overlapped [.receive (some oneLine) 4 0, .finish 4 (decided "approved") (fun _ => 0) ()]).get rfl

theorem getOrder_settled_afterwards :
    getOrder plainSite.texts afterwards.repository 3 = getOrder plainSite.texts overlapped.repository 3 :=
  have hlater : (machine plainSite).run overlapped
      [.receive (some oneLine) 4 0, .finish 4 (decided "approved") (fun _ => 0) ()] = some afterwards := (Option.some_get _).symm
  have hfound : overlapped.repository.find 3 = some ((overlapped.repository.find 3).get rfl) := (Option.some_get _).symm
  (getOrder_settled run_overlapping hlater hfound (by decide +kernel) plainSite.texts).2 (by decide +kernel)

end OrderApi

end TxPlatform
