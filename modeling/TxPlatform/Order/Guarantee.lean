import TxPlatform.Order.Coordinator

/-! # No transaction is left half-processed — unless a reply body cannot be read

`TranslateExceptionsAsync` (Gateways.cs:63) catches what a call itself can throw, but not what
reading the body of its reply throws: a 422 whose body is no problem object, or a 2xx fraud reply
whose body is no evaluation, escapes from the coordinator, and compensation and the final save are
skipped. `processed_iff` says that this is the only way to leave an order half-processed.
-/

namespace TxPlatform

/-! ## Which bodies can be read -/

/-- Every member called `name` is a string or null. -/
def TextMember (name : String) (members : List (String × Json)) : Prop :=
  ∀ entry ∈ members, sameName entry.1 name → entry.2 = .null ∨ ∃ text, entry.2 = .str text

/-- A body `ReadFromJsonAsync<ProblemBody>` accepts. -/
def IsProblem (body : Option Json) : Prop :=
  body = some .null ∨ ∃ members, body = some (.obj members) ∧ ∀ name ∈ ["type", "title", "detail"],
    TextMember name members

/-- A body `ReadFromJsonAsync<Evaluation>` accepts. -/
def IsEvaluation (body : Option Json) : Prop :=
  body = some .null ∨ ∃ members, body = some (.obj members) ∧ ∀ name ∈ ["decision", "rule"],
    TextMember name members

theorem readStringMember_foldlM (name : String) (members : List (String × Json)) (found : Option String) :
    (∃ text, members.foldlM (fun found entry =>
      if sameName entry.1 name then
        match entry.2 with
        | .str text => (.ok (some text) : Except Exn (Option String))
        | .null => .ok none
        | _ => .error .json
      else .ok found) found = .ok text) ↔ TextMember name members := by
  induction members generalizing found with
  | nil => simp [TextMember, pure, Except.pure]
  | cons entry members ih =>
    obtain ⟨key, value⟩ := entry
    by_cases hkey : sameName key name
    · cases value <;> simp_all [TextMember, bind, Except.bind]
    · simp_all [TextMember, bind, Except.bind]

theorem readStringMember_ok_iff (name : String) (members : List (String × Json)) :
    (∃ text, readStringMember name members = .ok text) ↔ TextMember name members :=
  readStringMember_foldlM name members none

theorem readProblem_ok_iff (body : Option Json) : (∃ problem, readProblem body = .ok problem) ↔
      IsProblem body := by
  rcases body with _ | body
  · simp [readProblem, IsProblem]
  · cases body with
    | obj members =>
      simp only [IsProblem, List.forall_mem_cons, ← readStringMember_ok_iff]
      simp only [readProblem, bind, Except.bind, pure, Except.pure]
      cases htype : readStringMember "type" members <;> cases htitle :
        readStringMember "title" members <;>
        cases hdetail : readStringMember "detail" members <;> simp [htype, htitle, hdetail]
    | _ => simp [readProblem, IsProblem]

theorem readEvaluation_ok_iff (body : Option Json) :
    (∃ evaluation, readEvaluation body = .ok evaluation) ↔ IsEvaluation body := by
  rcases body with _ | body
  · simp [readEvaluation, IsEvaluation]
  · cases body with
    | obj members =>
      simp only [IsEvaluation, List.forall_mem_cons, ← readStringMember_ok_iff]
      simp only [readEvaluation, bind, Except.bind, pure, Except.pure]
      cases hdecision : readStringMember "decision" members <;> cases hrule :
        readStringMember "rule" members <;>
        simp [hdecision, hrule]
    | _ => simp [readEvaluation, IsEvaluation]

/-! ## What a call's behaviour means -/

/-- A 2xx reply. -/
def Passes (call : Option CallBehaviour) : Prop :=
  ∃ reply, call = some (.response reply) ∧ reply.isSuccessStatusCode

/-- A 422 reply. -/
def Rejects (call : Option CallBehaviour) : Prop :=
  ∃ reply, call = some (.response reply) ∧ reply.statusCode = 422

/-- A 422 reply whose body is no problem. -/
def Unreadable (call : Option CallBehaviour) : Prop :=
  ∃ reply, call = some (.response reply) ∧ reply.statusCode = 422 ∧ ¬ IsProblem reply.body

/-- A 2xx reply with an evaluation that says `approved`. -/
def Approves (call : Option CallBehaviour) : Prop :=
  ∃ reply evaluation, call = some (.response reply) ∧ reply.isSuccessStatusCode ∧
    readEvaluation reply.body = .ok (some evaluation) ∧ evaluation.decision = some "approved"

/-- A 2xx reply whose body is no evaluation. -/
def Unevaluated (call : Option CallBehaviour) : Prop :=
  ∃ reply, call = some (.response reply) ∧ reply.isSuccessStatusCode ∧ ¬ IsEvaluation reply.body

namespace OrderTransactionCoordinator

/-- How the six calls of a transaction end, each made at most once. -/
structure Behaviours where
  reserve : Option CallBehaviour
  evaluate : Option CallBehaviour
  authorize : Option CallBehaviour
  create : Option CallBehaviour
  undo : CompensationAction → CallBehaviour

/-- Dependencies that behave so, and keep the list of the undo calls made. -/
def scripted (behaviours : Behaviours) : Dependencies (List CompensationAction) where
  stage request log := match request with
    | .reserve _ => (behaviours.reserve, log)
    | .evaluate _ _ _ => (behaviours.evaluate, log)
    | .authorize _ _ => (behaviours.authorize, log)
    | .createShipment _ => (behaviours.create, log)
  undo request log := match request with
    | .void _ => (behaviours.undo .voidPayment, log ++ [.voidPayment])
    | .release _ => (behaviours.undo .releaseInventory, log ++ [.releaseInventory])

namespace Behaviours
variable (behaviours : Behaviours)

def ReachesPayment : Prop := Passes behaviours.reserve ∧ Approves behaviours.evaluate

def ReachesShipping : Prop := behaviours.ReachesPayment ∧ Passes behaviours.authorize

def Completes : Prop := behaviours.ReachesShipping ∧ Passes behaviours.create

/-- A reply to a stage call that is made cannot be read. -/
def StageEscapes : Prop :=
  Unreadable behaviours.reserve ∨ Unreadable behaviours.evaluate ∨ Unevaluated behaviours.evaluate ∨
    (behaviours.ReachesPayment ∧ Unreadable behaviours.authorize) ∨
    (behaviours.ReachesShipping ∧ Unreadable behaviours.create)

/-- The undo calls the transaction comes to: a void once a payment may have been made, a release
once a reservation may have been. -/
def Needs : CompensationAction → Prop
  | .voidPayment => behaviours.ReachesPayment ∧ ¬ Rejects behaviours.authorize ∧ ¬ behaviours.Completes
  | .releaseInventory => ¬ Rejects behaviours.reserve ∧ ¬ behaviours.Completes

/-- Every reply the coordinator waits for can be read. -/
def NoEscape : Prop :=
  ¬ behaviours.StageEscapes ∧ ∀ action, behaviours.Needs action →
    ¬ Unreadable (some (behaviours.undo action))

end Behaviours

/-! ## One call -/

/-- What the coordinator sees of a call, and what that says about its behaviour. -/
inductive Answer (call : Option CallBehaviour) : Except Exn StageResult → Prop
  | passes (h : Passes call) (hr : ¬ Rejects call) (hu : ¬ Unreadable call) : Answer call (.ok .success)
  | rejects {reason : String} (h : Rejects call) (hp : ¬ Passes call) (hu : ¬ Unreadable call) :
    Answer call (.ok (.failure .businessRejection reason))
  | fails {kind : FailureKind} {reason : String} (hkind : kind ≠ .businessRejection) (hp : ¬ Passes call)
    (hr : ¬ Rejects call) (hu : ¬ Unreadable call) : Answer call (.ok (.failure kind reason))
  | escapes {e : Exn} (h : Unreadable call) : Answer call (.error e)

theorem not_passes_of_rejects {call : Option CallBehaviour} (h : Rejects call) : ¬ Passes call := by
  rintro ⟨reply, rfl, hp⟩
  obtain ⟨_, he, hr⟩ := h
  cases he
  simp [HttpResponse.isSuccessStatusCode, hr] at hp

theorem answer_interpret (call : Option CallBehaviour) :
    Answer call (DownstreamCall.translate DownstreamCall.interpretAsync call) := by
  rcases call with _ | (reply | _ | _ | error)
  case some.response =>
    simp only [DownstreamCall.translate, DownstreamCall.interpretAsync]
    split
    · rename_i hsuccess
      have hne : reply.statusCode ≠ 422 := by
        intro h
        simp [HttpResponse.isSuccessStatusCode, h] at hsuccess
      exact .passes ⟨reply, rfl, hsuccess⟩ (by simp [Rejects, hne]) (by simp [Unreadable, hne])
    · rename_i hsuccess
      split
      · rename_i hstatus
        have hp : ¬ Passes (some (.response reply)) := not_passes_of_rejects ⟨reply, rfl, hstatus⟩
        cases hread : readProblem reply.body with
        | ok problem =>
          have hproblem := (readProblem_ok_iff reply.body).1 ⟨problem, hread⟩
          exact .rejects ⟨reply, rfl, hstatus⟩ hp (by simp [Unreadable, hproblem])
        | error e =>
          refine .escapes ⟨reply, rfl, hstatus, fun hproblem => ?_⟩
          obtain ⟨problem, h⟩ := (readProblem_ok_iff reply.body).2 hproblem
          rw [hread] at h
          cases h
      · rename_i hstatus
        exact .fails (by decide) (by simp [Passes, hsuccess]) (by simp [Rejects, hstatus])
          (by simp [Unreadable, hstatus])
  all_goals exact .fails (by decide) (by simp [Passes]) (by simp [Rejects]) (by simp [Unreadable])

/-- The fraud call: what is neither an approval nor unreadable is a failure. -/
theorem answer_evaluation (call : Option CallBehaviour) :
    match DownstreamCall.translate interpretEvaluation call with
    | .error _ => Unreadable call ∨ Unevaluated call
    | .ok .success => Approves call ∧ ¬ Unreadable call ∧ ¬ Unevaluated call
    | .ok (.failure _ _) => ¬ Approves call ∧ ¬ Unreadable call ∧ ¬ Unevaluated call := by
  rcases call with _ | (reply | _ | _ | error)
  case some.response =>
    simp only [DownstreamCall.translate, interpretEvaluation]
    by_cases hsuccess : reply.isSuccessStatusCode
    · have hu : ¬ Unreadable (some (.response reply)) := by
        rintro ⟨_, he, hr, _⟩
        exact not_passes_of_rejects ⟨_, he, hr⟩ ⟨reply, rfl, hsuccess⟩
      simp only [if_pos hsuccess]
      cases hread : readEvaluation reply.body with
      | error e =>
        refine .inr ⟨reply, rfl, hsuccess, fun hev => ?_⟩
        obtain ⟨evaluation, h⟩ := (readEvaluation_ok_iff reply.body).2 hev
        rw [hread] at h
        cases h
      | ok evaluation =>
        have hev : ¬ Unevaluated (some (.response reply)) := by
          have := (readEvaluation_ok_iff reply.body).1 ⟨evaluation, hread⟩
          simp [Unevaluated, this]
        simp only [Except.map]
        cases evaluation with
        | none => simpa [Approves, hread, hsuccess] using ⟨hu, hev⟩
        | some evaluation =>
          by_cases hd : evaluation.decision = some "approved"
          · simpa [Approves, hread, hsuccess, hd] using ⟨hu, hev⟩
          · simpa [Approves, hread, hsuccess, hd] using ⟨hu, hev⟩
    · have hev : ¬ Unevaluated (some (.response reply)) := by simp [Unevaluated, hsuccess]
      have ha : ¬ Approves (some (.response reply)) := by simp [Approves, hsuccess]
      simp only [if_neg hsuccess]
      have hanswer := answer_interpret (some (.response reply))
      simp only [DownstreamCall.translate] at hanswer
      generalize DownstreamCall.interpretAsync reply = result at hanswer ⊢
      cases hanswer with
      | passes h => exact absurd h (by simp [Passes, hsuccess])
      | rejects h hp hu => exact ⟨ha, hu, hev⟩
      | fails hkind hp hr hu => exact ⟨ha, hu, hev⟩
      | escapes h => exact .inl h
  all_goals simp [DownstreamCall.translate, Approves, Unreadable, Unevaluated]

/-! ## The stages and the undo calls -/

/-- How the stages end, in terms of the behaviours. -/
inductive StageEnd (behaviours : Behaviours) : Except Exn (Option OrderFailure) → Prop
  | escapes {e : Exn} (h : behaviours.StageEscapes) : StageEnd behaviours (.error e)
  | completes (hno : ¬ behaviours.StageEscapes) (h : behaviours.Completes) :
      StageEnd behaviours (.ok none)
  | fails {failure : OrderFailure} (hno : ¬ behaviours.StageEscapes)
    (hplan : ∀ action, action ∈ CompensationPlan.planFor failure ↔ behaviours.Needs action) :
    StageEnd behaviours (.ok (some failure))

theorem stageOutcome_scripted (behaviours : Behaviours) {order : Order}
    (hamount : order.totalAmount.isSome) (hcount : order.itemCount.isSome)
    (log : List CompensationAction) :
    StageEnd behaviours (stageOutcome (scripted behaviours) order log).1 ∧
      (stageOutcome (scripted behaviours) order log).2 = log := by
  obtain ⟨amount, hamount⟩ := Option.isSome_iff_exists.1 hamount
  obtain ⟨count, hcount⟩ := Option.isSome_iff_exists.1 hcount
  simp only [stageOutcome, Dependencies.reserveAsync, Dependencies.evaluateAsync,
    Dependencies.authorizeAsync, Dependencies.createAsync, hamount, hcount, scripted]
  have hreserve := answer_interpret behaviours.reserve
  have hevaluate := answer_evaluation behaviours.evaluate
  have hauthorize := answer_interpret behaviours.authorize
  have hcreate := answer_interpret behaviours.create
  generalize DownstreamCall.translate DownstreamCall.interpretAsync behaviours.reserve =
    reservation at hreserve ⊢
  generalize DownstreamCall.translate interpretEvaluation behaviours.evaluate = evaluation at hevaluate ⊢
  generalize DownstreamCall.translate DownstreamCall.interpretAsync behaviours.authorize = authorization
    at hauthorize ⊢
  generalize DownstreamCall.translate DownstreamCall.interpretAsync behaviours.create =
    shipment at hcreate ⊢
  have hplan (failure : OrderFailure)
      (hvoid : (failure.stage = .payment ∧ failure.kind ≠ .businessRejection) ∨
        failure.stage = .shipping ↔
        behaviours.Needs .voidPayment)
      (hrelease : ¬ (failure.stage = .inventory ∧ failure.kind = .businessRejection) ↔
        behaviours.Needs .releaseInventory) (action : CompensationAction) :
      action ∈ CompensationPlan.planFor failure ↔ behaviours.Needs action := by
    cases action
    · exact voidPayment_mem_planFor.trans hvoid
    · exact releaseInventory_mem_planFor.trans hrelease
  simp only [Behaviours.Needs, Behaviours.Completes, Behaviours.ReachesShipping,
    Behaviours.ReachesPayment] at hplan
  cases hreserve with
  | escapes h => exact ⟨.escapes (.inl h), rfl⟩
  | rejects h hp hu =>
    obtain e | (_ | ⟨kind, reason⟩) := evaluation
    · exact ⟨.escapes (.inr (by tauto)), rfl⟩
    all_goals
      refine ⟨.fails ?_ (hplan _ (by simp [hp]) (by simp [h])), rfl⟩
      simp only [Behaviours.StageEscapes, Behaviours.ReachesShipping, Behaviours.ReachesPayment]
      tauto
  | fails hkind hp hr hu =>
    obtain e | (_ | ⟨kind, reason⟩) := evaluation
    · exact ⟨.escapes (.inr (by tauto)), rfl⟩
    all_goals
      refine ⟨.fails ?_ (hplan _ (by simp [hp]) (by simp [hkind, hr, hp])), rfl⟩
      simp only [Behaviours.StageEscapes, Behaviours.ReachesShipping, Behaviours.ReachesPayment]
      tauto
  | passes hp hr hu =>
    obtain e | (_ | ⟨kind, reason⟩) := evaluation
    · exact ⟨.escapes (.inr (by tauto)), rfl⟩
    · obtain ⟨ha, hau, hav⟩ := hevaluate
      cases hauthorize with
      | escapes h => exact ⟨.escapes (.inr (.inr (.inr (.inl ⟨⟨hp, ha⟩, h⟩)))), rfl⟩
      | rejects h hap hu' =>
        refine ⟨.fails ?_ (hplan _ (by simp [h]) (by simp [hr, hap])), rfl⟩
        simp only [Behaviours.StageEscapes, Behaviours.ReachesShipping, Behaviours.ReachesPayment]
        tauto
      | fails hkind hap har hu' =>
        refine ⟨.fails ?_ (hplan _ (by simp [hkind, hp, ha, har, hap]) (by simp [hr, hap])), rfl⟩
        simp only [Behaviours.StageEscapes, Behaviours.ReachesShipping, Behaviours.ReachesPayment]
        tauto
      | passes hap har hu' =>
        have hno (hu'' : ¬ Unreadable behaviours.create) : ¬ behaviours.StageEscapes := by
          simp only [Behaviours.StageEscapes]
          tauto
        cases hcreate with
        | escapes h => exact ⟨.escapes (.inr (.inr (.inr (.inr ⟨⟨⟨hp, ha⟩, hap⟩, h⟩)))), rfl⟩
        | passes hcp hcr hu'' => exact ⟨.completes (hno hu'') ⟨⟨⟨hp, ha⟩, hap⟩, hcp⟩, rfl⟩
        | rejects h hcp hu'' =>
          exact ⟨.fails (hno hu'') (hplan _ (by simp [hp, ha, har, hcp]) (by simp [hr, hcp])), rfl⟩
        | fails hkind hcp hcr hu'' =>
          exact ⟨.fails (hno hu'') (hplan _ (by simp [hp, ha, har, hcp]) (by simp [hr, hcp])), rfl⟩
    · refine ⟨.fails ?_ (hplan _ (by simp [hevaluate.1]) (by simp [hr, hevaluate.1])), rfl⟩
      simp only [Behaviours.StageEscapes, Behaviours.ReachesShipping, Behaviours.ReachesPayment]
      tauto

@[simp] theorem action_compensationStep (action : CompensationAction) (result : StageResult) :
    (compensationStep action result).action = action := by
  cases result <;> rfl

/-- One undo call ends in a result unless its reply cannot be read; a 404 of a release is one that
can. -/
theorem undoAsync_scripted (behaviours : Behaviours) (orderId : Guid) (action : CompensationAction)
    (log : List CompensationAction) :
    (Unreadable (some (behaviours.undo action)) ∧
      ∃ e, (undoAsync (scripted behaviours) orderId log action).1 = .error e) ∨
    (¬ Unreadable (some (behaviours.undo action)) ∧
      ∃ result, undoAsync (scripted behaviours) orderId log action = (.ok result, log ++ [action])) := by
  cases action with
  | voidPayment =>
    simp only [undoAsync, Dependencies.voidAsync, scripted]
    have hanswer := answer_interpret (some (behaviours.undo .voidPayment))
    generalize DownstreamCall.translate DownstreamCall.interpretAsync
      (some (behaviours.undo .voidPayment)) = result
      at hanswer ⊢
    cases hanswer with
    | escapes h => exact .inl ⟨h, _, rfl⟩
    | passes hp hr hu => exact .inr ⟨hu, _, rfl⟩
    | rejects hr hp hu => exact .inr ⟨hu, _, rfl⟩
    | fails hkind hp hr hu => exact .inr ⟨hu, _, rfl⟩
  | releaseInventory =>
    simp only [undoAsync, Dependencies.releaseAsync, scripted]
    have hanswer := answer_interpret (some (behaviours.undo .releaseInventory))
    by_cases hmissing : ∃ reply, behaviours.undo .releaseInventory = .response reply ∧
      reply.statusCode = 404
    · obtain ⟨reply, hreply, hstatus⟩ := hmissing
      refine .inr ⟨by simp [Unreadable, hreply, hstatus], .success, ?_⟩
      simp [hreply, DownstreamCall.translate, interpretRelease, hstatus]
    · have hsame : DownstreamCall.translate interpretRelease (some (behaviours.undo .releaseInventory)) =
          DownstreamCall.translate DownstreamCall.interpretAsync
            (some (behaviours.undo .releaseInventory)) := by
        cases hundo : behaviours.undo .releaseInventory with
        | response reply =>
          simp [hundo] at hmissing
          simp [DownstreamCall.translate, interpretRelease, hmissing]
        | _ => rfl
      rw [hsame]
      generalize DownstreamCall.translate DownstreamCall.interpretAsync
        (some (behaviours.undo .releaseInventory)) = result at hanswer ⊢
      cases hanswer with
      | escapes h => exact .inl ⟨h, _, rfl⟩
      | passes hp hr hu => exact .inr ⟨hu, _, rfl⟩
      | rejects hr hp hu => exact .inr ⟨hu, _, rfl⟩
      | fails hkind hp hr hu => exact .inr ⟨hu, _, rfl⟩

/-- The undo calls are made in order until a reply cannot be read. -/
theorem undoOutcome_scripted (behaviours : Behaviours) (orderId : Guid)
    (plan log : List CompensationAction) :
    ((∃ action ∈ plan, Unreadable (some (behaviours.undo action))) ∧
      ∃ e, (undoOutcome (scripted behaviours) orderId plan log).1 = .error e) ∨
    ((∀ action ∈ plan, ¬ Unreadable (some (behaviours.undo action))) ∧
      ∃ steps, undoOutcome (scripted behaviours) orderId plan log = (.ok steps, log ++ plan) ∧
        steps.map (·.action) = plan) := by
  induction plan generalizing log with
  | nil => exact .inr ⟨by simp, [], by simp [undoOutcome]⟩
  | cons action plan ih =>
    obtain ⟨hu, e, he⟩ | ⟨hu, result, hresult⟩ := undoAsync_scripted behaviours orderId action log
    · refine .inl ⟨⟨action, by simp, hu⟩, e, ?_⟩
      cases hundo : undoAsync (scripted behaviours) orderId log action with
      | mk result s =>
        rw [hundo] at he
        cases he
        simp [undoOutcome, hundo]
    · simp only [undoOutcome, hresult]
      obtain ⟨⟨later, hmem, hlater⟩, e, he⟩ | ⟨hall, steps, hsteps, hactions⟩ := ih (log ++ [action])
      · refine .inl ⟨⟨later, by simp [hmem], hlater⟩, e, ?_⟩
        simp [he, Except.map]
      · refine .inr ⟨by simpa [hu] using hall, compensationStep action result :: steps, ?_, ?_⟩
        · simp [hsteps, Except.map]
        · simp [hactions]

/-! ## The guarantee -/

/-- What a run of `ExecuteAsync` owes the order: a final snapshot that is returned and stored, and
after a failure the actions of its plan, each attempted and recorded once, in order. -/
def Processed (orderId : Guid)
    (run : Except Exn OrderSnapshot × OrderRepository × List CompensationAction) : Prop :=
  ∃ snapshot, run.1 = .ok snapshot ∧ OrderStateMachine.isFinal snapshot.state ∧
    run.2.1.find orderId = some snapshot ∧
    (snapshot.state = .completed ∨ ∃ failure, snapshot.failure = some failure ∧
      snapshot.state = OrderStateMachine.failureStateFor failure.stage ∧
      run.2.2 = CompensationPlan.planFor failure ∧
      snapshot.compensation.map (·.action) = CompensationPlan.planFor failure)

/-- **A transaction is left half-processed exactly when a reply body it waits for cannot be read**
(or the order has no totals): for every order, whatever the dependencies answer, whatever the
repository held before and other transactions save in between. Every call ends; one that is never answered
would leave it half-processed too. -/
theorem processed_iff (id : Guid) (lines : List OrderLine) (currency paymentToken shippingZone : String)
    (createdAt : DateTimeOffset) (clock : Nat → DateTimeOffset) (traced : Bool)
    (earlier others : List OrderSnapshot) (behaviours : Behaviours) :
    let order := Order.create id lines currency paymentToken shippingZone createdAt
    Processed id (executeAsync (scripted behaviours) clock traced others order
        (earlier.foldl OrderRepository.save .empty) []) ↔
      order.totalAmount.isSome ∧ order.itemCount.isSome ∧ behaviours.NoEscape := by
  intro order
  have hnew : IsNew order := isNew_create id lines currency paymentToken shippingZone createdAt
  by_cases htotals : order.totalAmount.isSome ∧ order.itemCount.isSome
  swap
  · obtain ⟨e, he⟩ := executeAsync_overflow (scripted behaviours) clock htotals hnew traced others
      (earlier.foldl OrderRepository.save .empty) []
    constructor
    · rintro ⟨snapshot, hs, _⟩
      rw [he] at hs
      cases hs
    · exact fun h => absurd ⟨h.1, h.2.1⟩ htotals
  obtain ⟨hamount, hcount⟩ := htotals
  obtain ⟨totalAmount, htotal⟩ := Option.isSome_iff_exists.1 hamount
  simp only [hamount, hcount, true_and]
  rw [executeAsync_eq (scripted behaviours) clock hnew htotal hcount]
  have hsaved := OrderRepository.wellFormed_saves (OrderRepository.wellFormed_save
    (OrderRepository.wellFormed_saves OrderRepository.wellFormed_empty earlier)
      (snapshotOf order totalAmount)).1 others
  generalize others.foldl OrderRepository.save _ = saved at hsaved
  have hfind (result : Option OrderFailure × List CompensationStepResult) :
      (saved.save (snapshotOf (finalOrder clock order result) totalAmount)).find id =
        some (snapshotOf (finalOrder clock order result) totalAmount) := by
    have hid : (snapshotOf (finalOrder clock order result) totalAmount).id = id :=
      id_finalOrder clock order result
    have := (OrderRepository.wellFormed_save hsaved (snapshotOf (finalOrder clock order result) totalAmount)).2
    rwa [hid] at this
  have hcompleted (steps : List CompensationStepResult) :
      (snapshotOf (finalOrder clock order (none, steps)) totalAmount).state = .completed :=
    settled_state clock order none
  have hfailed (failure : OrderFailure) (steps : List CompensationStepResult) :
      (snapshotOf (finalOrder clock order (some failure, steps)) totalAmount).state =
        OrderStateMachine.failureStateFor failure.stage :=
    settled_state clock order (some failure)
  obtain ⟨hend, hlog⟩ := stageOutcome_scripted behaviours hamount hcount []
  simp only [outcome]
  cases hstage : stageOutcome (scripted behaviours) order [] with
  | mk result log =>
  rw [hstage] at hend hlog
  obtain rfl : log = [] := hlog
  cases hend with
  | escapes h =>
    constructor
    · rintro ⟨_, hs, _⟩
      cases hs
    · exact fun hruns => absurd h hruns.1
  | completes hno h =>
    refine ⟨fun _ => ⟨hno, fun action hneeds => ?_⟩, fun _ => ⟨_, rfl, ?_, hfind _, .inl (hcompleted _)⟩⟩
    · cases action
      · exact absurd h hneeds.2.2
      · exact absurd h hneeds.2
    · rw [hcompleted]
      rfl
  | @fails failure hno hplan =>
    obtain ⟨⟨action, hmem, hu⟩, e, he⟩ | ⟨hall, steps, hsteps, hactions⟩ :=
      undoOutcome_scripted behaviours order.id (CompensationPlan.planFor failure) []
    · constructor
      · rintro ⟨_, hs, _⟩
        simp only [he, Except.map] at hs
        cases hs
      · exact fun hruns => absurd hu (hruns.2 action ((hplan action).1 hmem))
    · refine ⟨fun _ => ⟨hno, fun action hneeds => hall action ((hplan action).2 hneeds)⟩, fun _ => ?_⟩
      simp only [hsteps, Except.map]
      refine ⟨_, rfl, ?_, hfind _, .inr ⟨failure, ?_, hfailed failure _, by simp, hactions⟩⟩
      · rw [hfailed]
        exact OrderStateMachine.isFinal_failureStateFor failure.stage
      · rfl

/-- The payment's 422 comes without a body, and the order is left in state `Pending`. -/
theorem left_half_processed :
    let order := Order.create 1
      [⟨"SKU-1001", 2, ⟨500, 2, by decide, by decide⟩⟩] "EUR" "tok_test_approved" "domestic" 0
    let run := executeAsync (scripted {
      reserve := some (.response (Results.created .null))
      evaluate := some (.response (Results.ok (.obj [("decision", .str "approved")])))
      authorize := some (.response { statusCode := 422 })
      create := none
      undo := fun _ => .timeoutRejected }) (fun _ => 0) false [] order .empty []
    ¬ Processed 1 run ∧ run.1 = .error .json ∧ run.2.2 = [] ∧
      (run.2.1.find 1).map (·.state) = some .pending := by
  refine ⟨?_, rfl, rfl, rfl⟩
  rintro ⟨_, hs, _⟩
  cases hs

end OrderTransactionCoordinator

end TxPlatform
