import TxPlatform.Lib.Walk
import TxPlatform.Traces.Trace

/-! # Trace integrity and the gateway gap (tracechecks.py:36-74)

`gatewaySpanGaps` reads the status code of the balancer with `int`, which raises on a value that is
no number; then neither check has a result.

Both checks look at one span at a time. What they miss follows from that: `integrity` does not see
a cycle of parents, and the exception for Kong's gap compares two request ids that may both be
missing, accepts every status code from 500 on, and excuses every span that carries the id of an
explained one.
-/

namespace TxPlatform

namespace Traces

def edgeService : String := "kong-gateway"
def orderService : String := "order-service"

section Checks
variable [Python]

namespace Trace

/-- The spans named `kong.balancer` among Kong's client spans. -/
def balancers (trace : Trace) : List Span :=
  (trace.byService edgeService (some "CLIENT")).filter (·.name = "kong.balancer")

def kongRoots (trace : Trace) : List Span :=
  (trace.byService edgeService (some "SERVER")).filter (·.isRoot)

end Trace

def requestId (span : Span) : Json := Python.get span.attributes "kong.request.id"

/-- `int(balancer.attributes.get("http.response.status_code") or 0)`. -/
def statusCode (balancer : Span) : Option Int :=
  let value := Python.get balancer.attributes "http.response.status_code"
  Python.int (if Python.truthy value then value else .int 0)

def explains (trace : Trace) (kongRoot span : Span) : Bool :=
  span.parentSpanId ∉ trace.knownIds && Python.eq (requestId span) (requestId kongRoot) &&
    kongRoot.startUnixNano ≤ span.startUnixNano

def gatewaySpanGaps (trace : Trace) : Option (List Span) :=
  match trace.balancers, trace.kongRoots with
  | [balancer], [kongRoot] =>
    if balancer.status = "ERROR" then
      match statusCode balancer with
      | none => none
      | some code =>
        if 500 ≤ code then
          some ((trace.byService orderService (some "SERVER")).filter (explains trace kongRoot))
        else some []
    else some []
  | _, _ => some []

/-- The span has a parent id that is no id of the trace. -/
def isOrphan (trace : Trace) (span : Span) : Bool :=
  span.parentSpanId ≠ "" && span.parentSpanId ∉ trace.knownIds

def orphanProblems (orphans : List Span) : List String :=
  if orphans = [] then []
  else ["spans whose parent is missing: " ++ Python.reprOf (.arr (orphans.map fun span => .str span.name))]

def rootProblems : List Span → List String
  | [root] =>
    if root.service = edgeService then [] else [s!"root span belongs to {root.service}, not {edgeService}"]
  | roots => [s!"expected exactly one root span, found {roots.length}"]

def integrity (trace : Trace) : Option (List String) :=
  match gatewaySpanGaps trace with
  | none => none
  | some gaps =>
    let explained := gaps.map (·.spanId)
    let orphans := trace.spans.filter fun span => isOrphan trace span && span.spanId ∉ explained
    let roots := trace.spans.filter (·.isRoot)
    some (orphanProblems orphans ++ rootProblems roots)

theorem orphanProblems_eq_nil {orphans : List Span} : orphanProblems orphans = [] ↔ orphans = [] := by
  unfold orphanProblems
  split <;> simp_all

theorem rootProblems_eq_nil {roots : List Span} :
    rootProblems roots = [] ↔ ∃ root, roots = [root] ∧ root.service = edgeService := by
  unfold rootProblems
  split
  · split <;> simp_all
  · rename_i hmany
    simp only [List.cons_ne_self, false_iff, not_exists, not_and]
    rintro root rfl
    exact absurd rfl (hmany root)

/-- What a verdict without problems says, span by span. -/
theorem integrity_eq_nil {trace : Trace} : integrity trace = some [] ↔
    ∃ gaps root, gatewaySpanGaps trace = some gaps ∧ trace.spans.filter (·.isRoot) = [root] ∧
      root.service = edgeService ∧
      ∀ span ∈ trace.spans, isOrphan trace span = true → ∃ gap ∈ gaps, gap.spanId = span.spanId := by
  unfold integrity
  cases hgaps : gatewaySpanGaps trace with
  | none => simp
  | some gaps =>
    simp only [Option.some.injEq, List.append_eq_nil_iff, orphanProblems_eq_nil, rootProblems_eq_nil,
      List.filter_eq_nil_iff]
    constructor
    · rintro ⟨horphans, root, hroots, hservice⟩
      refine ⟨gaps, root, rfl, hroots, hservice, fun span hmem horphan => ?_⟩
      simpa [horphan] using horphans span hmem
    · rintro ⟨_, root, rfl, hroots, hservice, horphans⟩
      refine ⟨fun span hmem => ?_, root, hroots, hservice⟩
      by_cases horphan : isOrphan trace span = true
      · simpa [horphan] using horphans span hmem horphan
      · simp [horphan]

/-! ## Walking up -/

/-- Where a walk up the parents may end: at a root, or at a span with the id of a listed one. -/
def EndsAt (gaps : List Span) (span : Span) : Prop :=
  span.isRoot = true ∨ ∃ gap ∈ gaps, gap.spanId = span.spanId

omit [Python] in
/-- From any other span of a trace without problems the walk goes on inside the trace. -/
theorem exists_parentOf_of_integrity {trace : Trace} {gaps : List Span}
    (horphans : ∀ span ∈ trace.spans, isOrphan trace span = true → ∃ gap ∈ gaps, gap.spanId = span.spanId)
    {span : Span} (hmem : span ∈ trace.spans) (hends : ¬ EndsAt gaps span) :
    ∃ parent ∈ trace.spans, trace.parentOf span = some parent := by
  have hparent : span.parentSpanId ≠ "" := fun hroot => hends (.inl (by simpa [Span.isRoot] using hroot))
  have hknown : span.parentSpanId ∈ trace.knownIds := by
    by_contra hunknown
    exact hends (.inr (horphans span hmem (by simp [isOrphan, hparent, hunknown])))
  obtain ⟨parent, hfound, hparent, -⟩ := Trace.exists_parentOf hknown
  exact ⟨parent, hparent, hfound⟩

/-- **What integrity means for the shape of a trace.** There is exactly one span without a parent id
and it belongs to Kong; and following the parent ids up from any span reaches, in at most as many
steps as there are spans, that root, or a span with the id of a span listed as a gateway gap, or a
span the walk has passed before. -/
theorem integrity_walks_up (trace : Trace) (h : integrity trace = some []) :
    ∃ gaps root, gatewaySpanGaps trace = some gaps ∧ trace.spans.filter (·.isRoot) = [root] ∧
      root.service = edgeService ∧
      ∀ span ∈ trace.spans, ∃ n top, n ≤ trace.spans.length ∧ walk trace.parentOf n span = some top ∧
        (top = root ∨ (∃ gap ∈ gaps, gap.spanId = top.spanId) ∨
          ∃ m < n, walk trace.parentOf m span = some top) := by
  obtain ⟨gaps, root, hgaps, hroots, hservice, horphans⟩ := integrity_eq_nil.1 h
  refine ⟨gaps, root, hgaps, hroots, hservice, fun span hmem => ?_⟩
  have hinside : ∀ n top, walk trace.parentOf n span = some top → top ∈ trace.spans := by
    intro n top hwalk
    cases n with
    | zero =>
      cases hwalk
      exact hmem
    | succ n =>
      obtain ⟨before, -, hstep⟩ := Option.bind_eq_some_iff.1 hwalk
      exact List.mem_of_find?_eq_some hstep
  have hnext : ∀ span ∈ trace.spans, ¬ EndsAt gaps span → ∃ parent ∈ trace.spans, trace.parentOf span = some parent :=
    fun span hmem hends => exists_parentOf_of_integrity horphans hmem hends
  obtain ⟨n, top, hn, hwalk, hends⟩ := walk_ends hnext hmem
  refine ⟨n, top, hn, hwalk, ?_⟩
  obtain (hroot | hgap) | hpassed := hends
  · have htop : top ∈ trace.spans.filter (·.isRoot) := List.mem_filter.2 ⟨hinside n top hwalk, hroot⟩
    rw [hroots, List.mem_singleton] at htop
    exact .inl htop
  · exact .inr (.inl hgap)
  · exact .inr (.inr hpassed)

end Checks

/-- Kong's span and OrderService's below it. -/
def twoSpans : Trace :=
  ⟨"60a34d4828a46b1e9747fb35905f9cdc",
    [.bare "kong-gateway" "a1a1a1a1a1a1a1a1" "" "SERVER" "kong" 1000 9000,
     .bare "order-service" "b2b2b2b2b2b2b2b2" "a1a1a1a1a1a1a1a1" "SERVER" "POST /orders" 2000 8000]⟩

theorem integrity_walks_up_twoSpans :
    letI := Python.plain
    ∃ gaps root, gatewaySpanGaps twoSpans = some gaps ∧ twoSpans.spans.filter (·.isRoot) = [root] ∧
      root.service = edgeService ∧
      ∀ span ∈ twoSpans.spans, ∃ n top, n ≤ twoSpans.spans.length ∧
        walk twoSpans.parentOf n span = some top ∧
        (top = root ∨ (∃ gap ∈ gaps, gap.spanId = top.spanId) ∨
          ∃ m < n, walk twoSpans.parentOf m span = some top) :=
  letI := Python.plain
  integrity_walks_up twoSpans (by rfl)

/-- Kong's span, and two spans that are each other's parent. -/
def rootAndCycle : Trace :=
  ⟨"60a34d4828a46b1e9747fb35905f9cdc",
    [.bare "kong-gateway" "a1a1a1a1a1a1a1a1" "" "SERVER" "kong" 1000 9000,
     .bare "order-service" "b2b2b2b2b2b2b2b2" "c3c3c3c3c3c3c3c3" "SERVER" "POST /orders" 2000 8000,
     .bare "order-service" "c3c3c3c3c3c3c3c3" "b2b2b2b2b2b2b2b2" "INTERNAL" "order.transaction" 3000 7000]⟩

/-- A gap as Kong leaves it, and a span of another service with the id of the span below the gap. -/
def gapAndNamesake : Trace :=
  ⟨"60a34d4828a46b1e9747fb35905f9cdc",
    [.bare "kong-gateway" "a1a1a1a1a1a1a1a1" "" "SERVER" "kong" 1000 9000,
     { Span.bare "kong-gateway" "b2b2b2b2b2b2b2b2" "a1a1a1a1a1a1a1a1" "CLIENT" "kong.balancer" 2000 8000 with
       status := "ERROR"
       attributes := [("http.response.status_code", .int 500)] },
     .bare "order-service" "c3c3c3c3c3c3c3c3" "d4d4d4d4d4d4d4d4" "SERVER" "POST /orders" 3000 7000,
     .bare "inventory-service" "c3c3c3c3c3c3c3c3" "e5e5e5e5e5e5e5e5" "SERVER" "POST /reservations" 4000 5000]⟩

/-- No problem is reported, no span is listed, and no walk from the second span ever reaches a root. Nor is one
reported of an orphan that shares its id with the only listed span. -/
theorem integrity_misses_cycle :
    letI := Python.plain
    (integrity rootAndCycle = some [] ∧ gatewaySpanGaps rootAndCycle = some [] ∧
      ∃ span ∈ rootAndCycle.spans, ∀ n top, walk rootAndCycle.parentOf n span = some top →
        top.isRoot = false) ∧
    integrity gapAndNamesake = some [] ∧ ∃ gap, gatewaySpanGaps gapAndNamesake = some [gap] ∧
      ∃ span ∈ gapAndNamesake.spans, span.service ≠ gap.service ∧ span.isRoot = false ∧
        gapAndNamesake.parentOf span = none := by
  refine ⟨⟨by rfl, by rfl, _, List.mem_cons_of_mem _ List.mem_cons_self, fun n => ?_⟩, by rfl,
    gapAndNamesake.spans.get ⟨2, by decide⟩, by rfl, gapAndNamesake.spans.get ⟨3, by decide⟩, by simp [gapAndNamesake],
    by decide, by decide, by decide⟩
  have hinside : walk rootAndCycle.parentOf n (rootAndCycle.spans.get ⟨1, by decide⟩) =
        some (rootAndCycle.spans.get ⟨1, by decide⟩) ∨
      walk rootAndCycle.parentOf n (rootAndCycle.spans.get ⟨1, by decide⟩) =
        some (rootAndCycle.spans.get ⟨2, by decide⟩) := by
    induction n with
    | zero => exact .inl rfl
    | succ n ih =>
      obtain ih | ih := ih
      · exact .inr (by rw [walk, ih]; rfl)
      · exact .inl (by rw [walk, ih]; rfl)
  intro top hwalk
  obtain hinside | hinside := hinside
  · cases hinside.symm.trans hwalk
    rfl
  · cases hinside.symm.trans hwalk
    rfl

end Traces

end TxPlatform
