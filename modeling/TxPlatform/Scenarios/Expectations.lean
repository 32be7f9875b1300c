import Mathlib.Data.List.Sort
import Mathlib.Data.String.Basic
import TxPlatform.Lib.Json

/-! # The application checks of a run (expectations.py, engine.py:130-156, workload.py:91-143)

Responses become order ids, order ids are read back from OrderService, and the orders that were read
back are counted against the rules of the scenario. `repr` is Python's `repr` of a string, `str` its
`str` of a JSON value that is no string; they only shape texts.
-/

namespace TxPlatform

/-! ## Count rules -/

structure CountRule where
  exactly : Option Int := none
  min : Option Int := none
  max : Option Int := none
  all : Bool := false

/-- `count_matches`. -/
def countMatches (rule : CountRule) (count total : Int) : Bool :=
  if rule.all then count = total && total > 0
  else if rule.exactly.any (count ≠ ·) then false
  else if rule.min.any (count < ·) then false
  else !rule.max.any (count > ·)

def CountRule.describe (rule : CountRule) : String :=
  if rule.all then "all"
  else " and ".intercalate
    ((rule.exactly.map fun n => "exactly " ++ toString n).toList ++ (rule.min.map fun n =>
      "at least " ++ toString n).toList
      ++ (rule.max.map fun n => "at most " ++ toString n).toList)

/-- Keys are in the order of the scenario file. -/
structure ApplicationExpectations where
  statuses : List (Int × CountRule)
  states : List (String × CountRule) := []
  compensation : Option (List String) := none
  authorizationsPerOrder : Option Int := none

structure CheckResult where
  name : String
  passed : Bool
  detail : String

section
variable {κ : Type} [LinearOrder κ]

/-- The keys of `Counter(values)`, sorted. -/
def sortedKeys (values : List κ) : List κ := values.eraseDups.insertionSort (· ≤ ·)

/-- Values that no rule names. -/
def unexpectedKeys (rules : List (κ × CountRule)) (values : List κ) : List κ :=
  (sortedKeys values).filter fun key => key ∉ rules.map Prod.fst

/-- The `problems` of `evaluate_statuses` and `evaluate_states`; `text` prints a key, `keyRepr` a
key of a dictionary. -/
def countProblems (text keyRepr : κ → String) (kind : String) (rules : List (κ × CountRule))
    (values : List κ) :
    List String :=
  ((rules.filter fun (key, rule) => !countMatches rule (values.count key) values.length).map fun (key, rule) =>
    text key ++ ": " ++ toString (values.count key) ++ " (expected " ++ rule.describe ++ ")") ++
  match unexpectedKeys rules values with
  | [] => []
  | unexpected => ["unexpected " ++ kind ++ " \x7b" ++
      ", ".intercalate (unexpected.map fun key =>
        keyRepr key ++ ": " ++ toString (values.count key)) ++ "\x7d"]

def countSummary (text : κ → String) (values : List κ) : String :=
  ", ".intercalate ((sortedKeys values).map fun key => text key ++ "x" ++ toString (values.count key))

end

/-! ## The rules (expectations.py:57-94) -/

/-- What is read of an order that OrderService returns: its compensation steps are action and
status. -/
structure OrderView where
  orderId : String
  state : String
  compensation : List (String × String)

/-- `endswith("Failed")`. -/
def OrderView.failed (order : OrderView) : Bool := "Failed".toList <:+ order.state.toList

section
variable (repr : String → String)

def listRepr (items : List String) : String := "[" ++ ", ".intercalate (items.map repr) ++ "]"

def evaluateStatuses (expectations : ApplicationExpectations) (statuses : List Int) : CheckResult :=
  let problems := countProblems toString toString "statuses" expectations.statuses statuses
  { name := "HTTP statuses"
    passed := problems.isEmpty
    detail := if problems.isEmpty then countSummary toString statuses else "; ".intercalate problems }

def evaluateStates (expectations : ApplicationExpectations) (states : List String) : Option CheckResult :=
  if expectations.states.isEmpty then none
  else
    let problems := countProblems id repr "states" expectations.states states
    let summary := if states.isEmpty then "no orders created" else countSummary id states
    some { name := "order states"
           passed := problems.isEmpty
           detail := if problems.isEmpty then summary else "; ".intercalate problems }

def evaluateCompensation (expectations : ApplicationExpectations) (failedOrders : List OrderView) :
    Option CheckResult :=
  match expectations.compensation with
  | none => none
  | some required =>
    let done (order : OrderView) :=
      (order.compensation.filter fun step => step.2 = "Succeeded").map Prod.fst
    let problems := (failedOrders.filter fun order => done order ≠ required).map fun order =>
      order.orderId ++ ": " ++ listRepr repr (done order)
    some { name := "compensation"
           passed := problems.isEmpty && (!failedOrders.isEmpty || required.isEmpty)
           detail :=
             if problems.isEmpty then
               toString failedOrders.length ++ " failed orders compensated with " ++
                 listRepr repr required
             else "expected " ++ listRepr repr required ++ ", got " ++ listRepr repr (problems.take 5) }

def evaluateAuthorizations (expectations : ApplicationExpectations) (perOrder : List (String × Int)) :
    Option CheckResult :=
  match expectations.authorizationsPerOrder with
  | none => none
  | some n =>
    let wrong := perOrder.filter fun entry => entry.2 ≠ n
    some { name := "payment authorizations"
           passed := wrong.isEmpty && !perOrder.isEmpty
           detail :=
             if wrong.isEmpty then
               toString perOrder.length ++ " orders with exactly " ++ toString n ++ " authorization(s)"
             else "unexpected authorization counts: \x7b" ++
               ", ".intercalate ((wrong.take 5).map fun entry =>
                 repr entry.1 ++ ": " ++ toString entry.2) ++ "\x7d" }

end

/-! ## From responses to orders -/

/-- `body` is nothing if the text is not JSON; `location` is the header, or empty. -/
structure HttpAnswer where
  status : Int
  body : Option Json
  location : String

/-- What is kept of one request. -/
structure RequestRecord where
  status : Int
  orderId : String
  state : String

/-- `[0-9a-fA-F-]`. -/
def isIdCharacter (c : Char) : Bool :=
  ('0' ≤ c && c ≤ '9') || ('a' ≤ c && c ≤ 'f') || ('A' ≤ c && c ≤ 'F') || c = '-'

/-- `_ORDER_ID.search`, its group. -/
def searchOrderId : List Char → Option String
  | [] => none
  | c :: cs =>
    let text := c :: cs
    let candidate := (text.drop "/orders/".length).take 36
    if "/orders/".toList <+: text ∧ candidate.length = 36 ∧ candidate.all isIdCharacter then
      some (String.ofList candidate)
    else searchOrderId cs

section
variable (str : Json → String)

/-- `str(body.get(name, ""))`. -/
def memberText (members : List (String × Json)) (name : String) : String :=
  match Json.member members name with
  | none => ""
  | some (.str text) => text
  | some value => str value

/-- `_order_reference`. -/
def orderReference (response : HttpAnswer) : String × String :=
  let members := match response.body with
    | some (.obj members) => members
    | _ => []
  let fromBody := memberText str members "orderId"
  (if fromBody = "" then (searchOrderId response.location.toList).getD "" else fromBody,
    memberText str members "state")

/-- The end of `_send`; nothing is an `httpx.HTTPError`. -/
def recordRequest : Option HttpAnswer → RequestRecord
  | none => ⟨0, "", ""⟩
  | some response => ⟨response.status, (orderReference str response).1, (orderReference str response).2⟩

end

/-- `sorted({r["order_id"] for r in record.requests if r["order_id"]})`. -/
def createdOrderIds (requests : List RequestRecord) : List String :=
  sortedKeys ((requests.map RequestRecord.orderId).filter (· ≠ ""))

/-- The answer to one `GET /orders/{id}`. -/
inductive ReadBackAnswer where
  | ok (order : OrderView)
  | other (status : Int)

/-- `_read_back_orders`: the orders that were answered with 200. -/
def readBackOrders (requests : List RequestRecord) (answers : String → ReadBackAnswer) :
    List (String × OrderView) :=
  (createdOrderIds requests).filterMap fun id =>
    match answers id with
    | .ok order => some (id, order)
    | .other _ => none

/-- `payment_authorizations`, and the counts taken of it. Without a ready pod there is no ledger to
ask. -/
def paymentAuthorizations (ledger : Option (String → Int)) (orderIds : List String) :
    List (String × Int) :=
  match ledger with
  | none => []
  | some authorizations => orderIds.map fun id => (id, authorizations id)

/-- `_application_checks`, in the order they are added. -/
def applicationChecks (repr : String → String) (expectations : ApplicationExpectations)
    (requests : List RequestRecord) (orders : List (String × OrderView))
    (ledger : Option (String → Int)) : List CheckResult :=
  [some (evaluateStatuses expectations (requests.map RequestRecord.status)),
    evaluateStates repr expectations (orders.map fun order => order.2.state),
    evaluateCompensation repr expectations ((orders.map Prod.snd).filter OrderView.failed),
    evaluateAuthorizations repr expectations
      (paymentAuthorizations ledger ((orders.map Prod.fst).insertionSort (· ≤ ·)))].filterMap id

/-! ## What a passing verdict covers -/

section
variable {κ : Type} [LinearOrder κ]

theorem mem_sortedKeys {values : List κ} {key : κ} : key ∈ sortedKeys values ↔ key ∈ values := by
  simp [sortedKeys, List.mem_insertionSort, List.mem_eraseDups]

theorem sortedKeys_perm {values : List κ} (h : values.Nodup) : (sortedKeys values).Perm values := by
  have hdups : values.eraseDups = values := by
    induction values with
    | nil => rfl
    | cons value values ih =>
      obtain ⟨hnotMem, hnodup⟩ := List.nodup_cons.1 h
      have hfilter : values.filter (fun other => !other == value) = values := by
        rw [List.filter_eq_self]
        rintro other hmem
        simpa using fun heq : other = value => hnotMem (heq ▸ hmem)
      rw [List.eraseDups_cons, hfilter, ih hnodup]
  rw [sortedKeys, hdups]
  exact List.perm_insertionSort _ _

theorem unexpectedKeys_eq_nil {rules : List (κ × CountRule)} {values : List κ} :
    unexpectedKeys rules values = [] ↔ ∀ value ∈ values, value ∈ rules.map Prod.fst := by
  unfold unexpectedKeys
  rw [List.filter_eq_nil_iff]
  constructor
  · intro h value hvalue
    by_contra hnot
    exact h value (mem_sortedKeys.2 hvalue) (decide_eq_true hnot)
  · intro h key hkey hnot
    exact of_decide_eq_true hnot (h key (mem_sortedKeys.1 hkey))

/-- There are no problems when every rule matches and every value has a rule. -/
theorem countProblems_eq_nil {text keyRepr : κ → String} {kind : String} {rules : List (κ × CountRule)}
    {values : List κ} : countProblems text keyRepr kind rules values = [] ↔
      (∀ key rule, (key, rule) ∈ rules → countMatches rule (values.count key) values.length) ∧
      ∀ value ∈ values, value ∈ rules.map Prod.fst := by
  unfold countProblems
  rw [List.append_eq_nil_iff, List.map_eq_nil_iff, List.filter_eq_nil_iff, ← unexpectedKeys_eq_nil]
  refine and_congr ?_ ?_
  · constructor
    · intro h key rule hmem
      simpa using h (key, rule) hmem
    · intro h entry hmem
      simpa using h entry.1 entry.2 hmem
  · split
    · rename_i hnil
      simp [hnil]
    · rename_i hne
      exact iff_of_false (by simp) hne

end

theorem mem_createdOrderIds {requests : List RequestRecord} {id : String} :
    id ∈ createdOrderIds requests ↔ (∃ request ∈ requests, request.orderId = id) ∧ id ≠ "" := by
  simp [createdOrderIds, mem_sortedKeys]

theorem mem_readBackOrders {requests : List RequestRecord}
    {answers : String → ReadBackAnswer} {id : String} {order : OrderView} :
    (id, order) ∈ readBackOrders requests answers ↔ id ∈ createdOrderIds requests ∧
      answers id = .ok order := by
  unfold readBackOrders
  rw [List.mem_filterMap]
  constructor
  · rintro ⟨other, hother, hanswer⟩
    split at hanswer
    · rename_i found hfound
      cases hanswer
      exact ⟨hother, hfound⟩
    · cases hanswer
  · rintro ⟨hid, hanswer⟩
    exact ⟨id, hid, by rw [hanswer]⟩

/-- The order was read back in a state that a rule names, and the ledger has the expected count for
it. -/
structure OrderCovered (expectations : ApplicationExpectations) (orders : List (String × OrderView))
    (ledger : Option (String → Int)) (id : String) : Prop where
  state : ∃ order, (id, order) ∈ orders ∧ order.state ∈ expectations.states.map Prod.fst
  authorizations : ∀ n, expectations.authorizationsPerOrder = some n →
    ∃ authorizations, ledger = some authorizations ∧ authorizations id = n

/-- If all application checks pass, every order id of a response is covered. -/
def VerdictCovers (repr : String → String) (expectations : ApplicationExpectations)
    (requests : List RequestRecord) (answers : String → ReadBackAnswer)
    (ledger : Option (String → Int)) : Prop :=
  (∀ check ∈ applicationChecks repr expectations requests (readBackOrders requests answers) ledger,
    check.passed) →
    ∀ request ∈ requests, request.orderId ≠ "" →
      OrderCovered expectations (readBackOrders requests answers) ledger request.orderId

section
variable {repr : String → String} {expectations : ApplicationExpectations} {requests : List RequestRecord}
  {orders : List (String × OrderView)} {ledger : Option (String → Int)}

theorem mem_applicationChecks {check : CheckResult} :
    check ∈ applicationChecks repr expectations requests orders ledger ↔
      check = evaluateStatuses expectations (requests.map RequestRecord.status) ∨
      evaluateStates repr expectations (orders.map fun order => order.2.state) = some check ∨
      evaluateCompensation repr expectations
        ((orders.map Prod.snd).filter OrderView.failed) = some check ∨
      evaluateAuthorizations repr expectations
        (paymentAuthorizations ledger ((orders.map Prod.fst).insertionSort (· ≤ ·))) = some check := by
  simp only [applicationChecks, List.mem_filterMap, id, List.mem_cons, List.not_mem_nil, or_false,
    exists_eq_right]
  simp only [eq_comm, Option.some.injEq]

/-- The states of the orders that were read back are listed. -/
theorem states_listed (hstates : expectations.states ≠ [])
    (hpassed : ∀ check ∈ applicationChecks repr expectations requests orders ledger, check.passed)
    {id : String} {order : OrderView} (hmem : (id, order) ∈ orders) :
    order.state ∈ expectations.states.map Prod.fst := by
  have hcheck := hpassed _ (mem_applicationChecks.2 (.inr (.inl (by
    rw [evaluateStates, if_neg (by simpa using hstates)]))))
  have hproblems := countProblems_eq_nil.1 (List.isEmpty_iff.1 hcheck)
  exact hproblems.2 order.state (List.mem_map_of_mem (f := fun order => order.2.state) hmem)

/-- Each order that was read back has the expected count in the ledger. -/
theorem authorizations_counted {n : Int} (hn : expectations.authorizationsPerOrder = some n)
    (hpassed : ∀ check ∈ applicationChecks repr expectations requests orders ledger, check.passed)
    {id : String} {order : OrderView} (hmem : (id, order) ∈ orders) :
    ∃ authorizations, ledger = some authorizations ∧ authorizations id = n := by
  have hcheck := hpassed _ (mem_applicationChecks.2 (.inr (.inr (.inr (by
    rw [evaluateAuthorizations, hn])))))
  simp only [Bool.and_eq_true, List.isEmpty_iff, List.filter_eq_nil_iff] at hcheck
  obtain ⟨hwrong, hsome⟩ := hcheck
  cases ledger with
  | none => simp [paymentAuthorizations] at hsome
  | some authorizations =>
    refine ⟨authorizations, rfl, ?_⟩
    have hid : id ∈ (orders.map Prod.fst).insertionSort (· ≤ ·) :=
      (List.mem_insertionSort _).2 (List.mem_map_of_mem hmem)
    have hentry := hwrong (id, authorizations id) (List.mem_map_of_mem hid)
    simpa using hentry

/-- Where every created order is read back, a passing verdict covers every one of them. -/
theorem verdictCovers_of_readBack {answers : String → ReadBackAnswer} (hstates : expectations.states ≠ [])
    (hread : ∀ request ∈ requests, request.orderId ≠ "" → ∃ order, answers request.orderId = .ok order) :
    VerdictCovers repr expectations requests answers ledger := by
  intro hpassed request hrequest hid
  obtain ⟨order, hanswer⟩ := hread request hrequest hid
  have hmem := mem_readBackOrders.2 ⟨mem_createdOrderIds.2 ⟨⟨request, hrequest, rfl⟩, hid⟩, hanswer⟩
  exact ⟨⟨order, hmem, states_listed hstates hpassed hmem⟩,
    fun n hn => authorizations_counted hn hpassed hmem⟩

end

/-! ## An expectation that any traffic meets -/

/-- At least none. -/
def anyCount : CountRule := { min := some 0 }

theorem countMatches_anyCount (count total : Nat) : countMatches anyCount count total := by
  simp [countMatches, anyCount]

/-- Every status and every state that occurred may occur. -/
def permissive (requests : List RequestRecord) (orders : List (String × OrderView)) :
    ApplicationExpectations where
  statuses := requests.map fun request => (request.status, anyCount)
  states := ("Completed", anyCount) :: orders.map fun order => (order.2.state, anyCount)

theorem countProblems_anyCount {κ : Type} [LinearOrder κ] {text keyRepr : κ → String} {kind : String}
    {rules : List (κ × CountRule)} {values : List κ} (hrules : ∀ entry ∈ rules, entry.2 = anyCount)
    (hvalues : ∀ value ∈ values, value ∈ rules.map Prod.fst) :
    countProblems text keyRepr kind rules values = [] := by
  refine countProblems_eq_nil.2 ⟨?_, hvalues⟩
  intro key rule hmem
  rw [show rule = anyCount from hrules _ hmem]
  exact countMatches_anyCount _ _

theorem permissive_passes (repr : String → String) (requests : List RequestRecord)
    (orders : List (String × OrderView)) (ledger : Option (String → Int)) :
    ∀ check ∈ applicationChecks repr (permissive requests orders) requests orders ledger,
      check.passed := by
  intro check hcheck
  rcases mem_applicationChecks.1 hcheck with rfl | hstates | hcompensation | hauthorizations
  · rw [evaluateStatuses, countProblems_anyCount]
    · rfl
    · intro entry hentry
      obtain ⟨request, _, rfl⟩ := List.mem_map.1 hentry
      rfl
    · intro status hstatus
      obtain ⟨request, hrequest, rfl⟩ := List.mem_map.1 hstatus
      exact List.mem_map.2 ⟨_, List.mem_map_of_mem hrequest, rfl⟩
  · rw [evaluateStates, if_neg (by simp [permissive]), countProblems_anyCount] at hstates
    · cases hstates
      rfl
    · intro entry hentry
      rcases List.mem_cons.1 hentry with rfl | hentry
      · rfl
      · obtain ⟨order, _, rfl⟩ := List.mem_map.1 hentry
        rfl
    · intro state hstate
      obtain ⟨order, horder, rfl⟩ := List.mem_map.1 hstate
      exact List.mem_map.2 ⟨_, List.mem_cons_of_mem _ (List.mem_map_of_mem horder), rfl⟩
  · cases hcompensation
  · cases hauthorizations

/-- **Exactly when a passing verdict covers every created order**, whatever the scenario expects and
the ledger holds: every order id of a response is answered with 200 when it is read back. -/
theorem verdict_covers_iff (repr : String → String) (str : Json → String)
    (responses : List (Option HttpAnswer)) (answers : String → ReadBackAnswer) :
    (∀ expectations ledger, expectations.states ≠ [] →
      VerdictCovers repr expectations (responses.map (recordRequest str)) answers ledger) ↔
    ∀ request ∈ responses.map (recordRequest str), request.orderId ≠ "" →
      ∃ order, answers request.orderId = .ok order := by
  constructor
  · intro h request hrequest hid
    have hcovered := h (permissive _ (readBackOrders (responses.map (recordRequest str)) answers)) none
      (by simp [permissive]) (permissive_passes repr _ _ none) request hrequest hid
    obtain ⟨order, hmem, _⟩ := hcovered.state
    exact ⟨order, (mem_readBackOrders.1 hmem).2⟩
  · intro hread expectations ledger hstates
    exact verdictCovers_of_readBack hstates hread

/-- Two orders complete; OrderService does not know the second one any more. -/
def lostOrder : List (Option HttpAnswer) :=
  [some ⟨201, some (.obj [("orderId", .str "a"), ("state", .str "Completed")]), "/orders/a"⟩,
    some ⟨201, some (.obj [("orderId", .str "b"), ("state", .str "Completed")]), "/orders/b"⟩]

def lostAnswers : String → ReadBackAnswer :=
  fun id => if id = "a" then .ok ⟨"a", "Completed", []⟩ else .other 404

/-- All of the traffic is to complete, with one authorization an order. -/
def allComplete : ApplicationExpectations where
  statuses := [(201, { all := true })]
  states := [("Completed", { all := true })]
  authorizationsPerOrder := some 1

theorem lost_order_passes : ¬ ∀ (responses : List (Option HttpAnswer)) (answers : String → ReadBackAnswer)
    (expectations : ApplicationExpectations) (ledger : Option (String → Int)), expectations.states ≠ [] →
    VerdictCovers id expectations (responses.map (recordRequest fun _ => "")) answers ledger := by
  intro h
  have hpassed : ∀ check ∈ applicationChecks id allComplete (lostOrder.map (recordRequest fun _ => ""))
      (readBackOrders (lostOrder.map (recordRequest fun _ => "")) lostAnswers)
      (some fun order => if order = "a" then 1 else 0), check.passed := by
    decide
  have hcovered := h lostOrder lostAnswers allComplete (some fun order => if order = "a" then 1 else 0)
    (by simp [allComplete]) hpassed _ (List.mem_cons_of_mem _ List.mem_cons_self) (by decide)
  obtain ⟨authorizations, hledger, hcount⟩ := hcovered.authorizations 1 rfl
  cases hledger
  exact absurd hcount (by decide)

end TxPlatform
