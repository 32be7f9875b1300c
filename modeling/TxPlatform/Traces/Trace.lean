import TxPlatform.Python.Values

/-! # Spans and traces (traces.py:18-77)

A span as the checks see it. An id is a text, empty when there is none; an attribute is whatever the
decoder made of it. A trace is any list of spans: nothing says that ids are distinct or that a
parent is there.
-/

namespace TxPlatform

namespace Traces

abbrev Attributes := List (String × Json)

structure Event where
  name : String
  timeUnixNano : Int
  attributes : Attributes

structure Span where
  traceId : String
  spanId : String
  parentSpanId : String
  name : String
  kind : String
  startUnixNano : Int
  endUnixNano : Int
  status : String
  attributes : Attributes
  events : List Event
  resource : Attributes

namespace Span

/-- A span without attributes and events. -/
def bare (service spanId parentSpanId kind name : String) (startUnixNano endUnixNano : Int) : Span :=
  ⟨"60a34d4828a46b1e9747fb35905f9cdc", spanId, parentSpanId, name, kind, startUnixNano, endUnixNano, "UNSET", [],
    [], [("service.name", .str service)]⟩

/-- `str(self.resource.get("service.name", ""))`. -/
def service [Python] (span : Span) : String :=
  match span.resource.lookup "service.name" with
  | none => ""
  | some value => Python.str value

def isRoot (span : Span) : Bool := span.parentSpanId = ""

def overlaps (span other : Span) : Bool :=
  span.startUnixNano < other.endUnixNano && other.startUnixNano < span.endUnixNano

end Span

structure Trace where
  traceId : String
  spans : List Span

namespace Trace

def named (trace : Trace) (name : String) : List Span := trace.spans.filter (·.name = name)

def byService [Python] (trace : Trace) (service : String) (kind : Option String) : List Span :=
  trace.spans.filter fun span => span.service = service && kind.all fun kind => span.kind = kind

def parentOf (trace : Trace) (span : Span) : Option Span :=
  trace.spans.find? fun candidate => candidate.spanId = span.parentSpanId

/-- `{span.span_id for span in trace.spans}`. -/
def knownIds (trace : Trace) : List String := trace.spans.map (·.spanId)

@[simp] theorem mem_knownIds {trace : Trace} {id : String} :
    id ∈ trace.knownIds ↔ ∃ span ∈ trace.spans, span.spanId = id := by
  simp [knownIds]

/-- Looking for a parent succeeds when its id is one of the trace. -/
theorem exists_parentOf {trace : Trace} {span : Span} (h : span.parentSpanId ∈ trace.knownIds) :
    ∃ parent, trace.parentOf span = some parent ∧ parent ∈ trace.spans ∧
      parent.spanId = span.parentSpanId := by
  obtain ⟨candidate, hmem, hid⟩ := mem_knownIds.1 h
  have hsome : (trace.parentOf span).isSome = true := by
    rw [parentOf, List.find?_isSome]
    exact ⟨candidate, hmem, by simpa using hid⟩
  obtain ⟨parent, hparent⟩ := Option.isSome_iff_exists.1 hsome
  exact ⟨parent, hparent, List.mem_of_find?_eq_some hparent, by simpa using List.find?_some hparent⟩

end Trace

end Traces

end TxPlatform
