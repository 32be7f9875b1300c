import Mathlib.Data.List.Perm.Basic
import Mathlib.Data.List.Sort
import TxPlatform.Lib.Grouping
import TxPlatform.Python.Base64
import TxPlatform.Traces.Trace

/-! # Reading traces (traces.py:80-157)

`parseSpans` reads a document of the Jaeger Query API, `groupTraces` sorts its spans into traces. A
document that is not shaped like one of the API (a text or an object where a list belongs, a name
that is no text) has no result, also where Python would only fail later or go on with a value of
another type.
-/

namespace TxPlatform

namespace Traces

def kindNames : List String := ["UNSPECIFIED", "INTERNAL", "SERVER", "CLIENT", "PRODUCER", "CONSUMER"]
def statusNames : List String := ["UNSET", "OK", "ERROR"]

/-- `raw.get(key)`: only a dict has it. -/
def field (raw : Json) (key : String) : Option (Option Json) :=
  match raw with
  | .obj members => some (Json.member members key)
  | _ => none

/-- `raw.get(key, "")`. -/
def textField (raw : Json) (key : String) : Option String :=
  match field raw key with
  | some none => some ""
  | some (some (.str text)) => some text
  | _ => none

/-- `raw.get(key, [])`. -/
def listField (raw : Json) (key : String) : Option (List Json) :=
  match field raw key with
  | some none => some []
  | some (some (.arr items)) => some items
  | _ => none

theorem sizeOf_member {members : List (String × Json)} {key : String} {value : Json}
    (h : Json.member members key = some value) : sizeOf value < sizeOf members := by
  have hmem : (key, value) ∈ members := by
    rw [Json.member, List.lookup_eq_some_iff] at h
    obtain ⟨before, after, hreverse, -⟩ := h
    rw [← List.mem_reverse, hreverse]
    simp
  have hsize := List.sizeOf_lt_of_mem hmem
  simp only [Prod.mk.sizeOf_spec] at hsize
  omega

section Decoding
variable [Python]

/-- `normalize_id`. -/
def normalizeId (value : Json) (byteLength : Nat) : Option String :=
  if !Python.truthy value then some ""
  else
    match value with
    | .str text =>
      if text.toList.length = byteLength * 2 ∧ text.toList.all Base64.isHexDigit then
        some (String.ofList (text.toList.map Char.toLower))
      else
        match Base64.b64decode (text.toList ++ Base64.padding text.toList.length) with
        | none => none
        | some raw => some (if raw.any (· ≠ 0) then String.ofList (Base64.hex raw) else "")
    | _ => none

mutual

def attributeValue (value : Json) : Option Json :=
  match value with
  | .obj members =>
    match Json.member members "stringValue" with
    | some text => some text
    | none =>
    match Json.member members "boolValue" with
    | some flag => some (.bool (Python.truthy flag))
    | none =>
    match Json.member members "intValue" with
    | some number => (Python.int number).map .int
    | none =>
    match Json.member members "doubleValue" with
    | some number => (Python.float number).map .real
    | none =>
    match _harray : Json.member members "arrayValue" with
    | some (.obj inner) =>
      match _hvalues : Json.member inner "values" with
      | none => some (.arr [])
      | some (.arr items) => (attributeValues items).map .arr
      | some _ => none
    | some _ => none
    | none =>
    match _hkvlist : Json.member members "kvlistValue" with
    | some (.obj inner) =>
      match _hvalues : Json.member inner "values" with
      | none => some (.obj [])
      | some items => (attributes items).map .obj
    | some _ => none
    | none => some .null
  | _ => none
termination_by sizeOf value
decreasing_by
  all_goals
    have hinner := sizeOf_member ‹Json.member members _ = some (Json.obj inner)›
    have hitems := sizeOf_member _hvalues
    simp at hinner hitems ⊢
    omega

def attributeValues (items : List Json) : Option (List Json) :=
  match items with
  | [] => some []
  | item :: items =>
    match attributeValue item, attributeValues items with
    | some value, some values => some (value :: values)
    | _, _ => none
termination_by sizeOf items

/-- `attributes`: a repeated key keeps its place and takes the last value. -/
def attributes (items : Json) : Option Attributes :=
  if Python.truthy items then
    match items with
    | .arr items => (keyValues items).map Python.dict
    | _ => none
  else some []
termination_by sizeOf items

/-- The pairs of the comprehension; a missing value is read as `{}`. -/
def keyValues (items : List Json) : Option (List (String × Json)) :=
  match items with
  | [] => some []
  | .obj members :: items =>
    match Json.member members "key", keyValues items with
    | some (.str key), some values =>
      match _hvalue : Json.member members "value" with
      | some value => (attributeValue value).map fun value => (key, value) :: values
      | none => some ((key, .null) :: values)
    | _, _ => none
  | _ :: _ => none
termination_by sizeOf items
decreasing_by
  · decreasing_tactic
  · have hsize := sizeOf_member _hvalue
    simp
    omega

end

/-- The cases of `attribute_value` without the proofs that its recursion carries. -/
theorem attributeValue_obj (members : List (String × Json)) : attributeValue (.obj members) =
    match Json.member members "stringValue", Json.member members "boolValue",
      Json.member members "intValue", Json.member members "doubleValue",
      Json.member members "arrayValue", Json.member members "kvlistValue" with
    | some text, _, _, _, _, _ => some text
    | none, some flag, _, _, _, _ => some (.bool (Python.truthy flag))
    | none, none, some number, _, _, _ => (Python.int number).map .int
    | none, none, none, some number, _, _ => (Python.float number).map .real
    | none, none, none, none, some array, _ =>
      (listField array "values").bind fun items => (attributeValues items).map .arr
    | none, none, none, none, none, some kvlist =>
      (field kvlist "values").bind fun items => (attributes (items.getD (.arr []))).map .obj
    | none, none, none, none, none, none => some .null := by
  rw [attributeValue]
  cases Json.member members "stringValue" with
  | some text => rfl
  | none =>
  cases Json.member members "boolValue" with
  | some text => rfl
  | none =>
  cases Json.member members "intValue" with
  | some text => rfl
  | none =>
  cases Json.member members "doubleValue" with
  | some text => rfl
  | none =>
  simp only
  split
  · rename_i inner harray
    simp only [harray]
    split
    · rename_i hvalues
      simp [listField, field, hvalues, attributeValues]
    · rename_i items hvalues
      simp [listField, field, hvalues]
    · rename_i values hne hvalues
      cases values <;> simp_all [listField, field]
  · rename_i array hne harray
    simp only [harray]
    cases array <;> simp_all [listField, field]
  · rename_i harray
    simp only [harray]
    split
    · rename_i inner hkvlist
      simp only [hkvlist]
      split <;> simp [field, *]
      simp [attributes, Python.truthy]
    · rename_i kvlist hne hkvlist
      simp only [hkvlist]
      cases kvlist <;> simp_all [field]
    · rename_i hkvlist
      simp only [hkvlist]

theorem keyValues_cons (members : List (String × Json)) (items : List Json) :
    keyValues (.obj members :: items) =
      match Json.member members "key", keyValues items with
      | some (.str key), some values =>
        ((Json.member members "value").elim (some .null) attributeValue).map fun value =>
          (key, value) :: values
      | _, _ => none := by
  rw [keyValues]
  split
  · split <;> simp [*]
  · rfl

theorem attributes_arr (items : List Json) :
    attributes (.arr items) = (keyValues items).map Python.dict := by
  rw [attributes]
  cases items with
  | nil => simp [Python.truthy, keyValues, Python.dict]
  | cons item items => simp [Python.truthy]

/-- `_enum`. -/
def enum (value : Json) (names : List String) (start : String) : String :=
  match Python.asInt value with
  | some number => if number < 0 then "UNSPECIFIED" else names.getD number.toNat "UNSPECIFIED"
  | none =>
    let text := if Python.truthy value then Python.str value else ""
    let bare := if start.toList.isPrefixOf text.toList then String.ofList (text.toList.drop start.toList.length)
      else text
    if bare = "" then names.getD 0 "" else bare

/-! ## Fields of a span -/

/-- `normalize_id(raw.get(key), byte_length)`. -/
def idField (raw : Json) (key : String) (byteLength : Nat) : Option String :=
  (field raw key).bind fun value => normalizeId (value.getD .null) byteLength

/-- `int(raw.get(key, 0))`. -/
def intField (raw : Json) (key : String) : Option Int :=
  (field raw key).bind fun value => Python.int (value.getD (.int 0))

/-- `_enum(raw.get(key), names, prefix)`. -/
def enumField (raw : Json) (key : String) (names : List String) (start : String) : Option String :=
  (field raw key).map fun value => enum (value.getD .null) names start

/-- `attributes(raw.get(key))`. -/
def attributesField (raw : Json) (key : String) : Option Attributes :=
  (field raw key).bind fun value => attributes (value.getD .null)

/-! ## Documents -/

mutual

/-- `_resource_spans`. -/
def resourceSpans (document : Json) : Option (List Json) :=
  match document with
  | .arr chunks => resourceSpansOfChunks chunks
  | .obj members =>
    match _hresult : Json.member members "result" with
    | some result => resourceSpans result
    | none => listField (.obj members) "resourceSpans"
  | _ => some []
termination_by sizeOf document
decreasing_by
  · simp
  · have hsize := sizeOf_member _hresult
    simp
    omega

def resourceSpansOfChunks (chunks : List Json) : Option (List Json) :=
  match chunks with
  | [] => some []
  | chunk :: chunks =>
    match resourceSpans chunk, resourceSpansOfChunks chunks with
    | some items, some others => some (items ++ others)
    | _, _ => none
termination_by sizeOf chunks

end

def parseEvent (raw : Json) : Option Event := do
  let name ← textField raw "name"
  let timeUnixNano ← intField raw "timeUnixNano"
  let attributes ← attributesField raw "attributes"
  return ⟨name, timeUnixNano, attributes⟩

/-- `_enum(raw.get("status", {}).get("code"), ...)`. -/
def statusField (raw : Json) : Option String :=
  (field raw "status").bind fun status =>
    enumField (status.getD (.obj [])) "code" statusNames "STATUS_CODE_"

def eventsField (raw : Json) : Option (List Event) := (listField raw "events").bind (·.mapM parseEvent)

def parseSpan (resource : Attributes) (raw : Json) : Option Span := do
  let traceId ← idField raw "traceId" 16
  let spanId ← idField raw "spanId" 8
  let parentSpanId ← idField raw "parentSpanId" 8
  let name ← textField raw "name"
  let kind ← enumField raw "kind" kindNames "SPAN_KIND_"
  let startUnixNano ← intField raw "startTimeUnixNano"
  let endUnixNano ← intField raw "endTimeUnixNano"
  let status ← statusField raw
  let attributes ← attributesField raw "attributes"
  let events ← eventsField raw
  return ⟨traceId, spanId, parentSpanId, name, kind, startUnixNano, endUnixNano, status, attributes,
    events, resource⟩

/-- `attributes(resource_spans.get("resource", {}).get("attributes"))`. -/
def resourceField (resourceSpans : Json) : Option Attributes :=
  (field resourceSpans "resource").bind fun resource => attributesField (resource.getD (.obj [])) "attributes"

/-- The spans of one item of `scopeSpans`. -/
def parseScope (resource : Attributes) (scopeSpans : Json) : Option (List Span) :=
  (listField scopeSpans "spans").bind (·.mapM (parseSpan resource))

/-- The spans of one item of `resourceSpans`. -/
def parseResource (resourceSpans : Json) : Option (List Span) := do
  let resource ← resourceField resourceSpans
  let scopes ← listField resourceSpans "scopeSpans"
  let spans ← scopes.mapM (parseScope resource)
  return spans.flatten

/-- `parse_spans`. -/
def parseSpans (document : Json) : Option (List Span) := do
  let items ← resourceSpans document
  let spans ← items.mapM parseResource
  return spans.flatten

end Decoding

/-! ## Traces -/

/-- The key of `sorted`. -/
def Span.NotAfter (span other : Span) : Prop := span.startUnixNano ≤ other.startUnixNano

instance : DecidableRel Span.NotAfter := fun _ _ => inferInstanceAs (Decidable (_ ≤ _))

instance : Std.Total Span.NotAfter := ⟨fun _ _ => Int.le_total _ _⟩

instance : IsTrans Span Span.NotAfter := ⟨fun _ _ _ => Int.le_trans⟩

/-- `group_traces`; `sorted` is stable. -/
def groupTraces (spans : List Span) : List Trace :=
  (grouped (·.traceId) spans).map fun (traceId, items) => ⟨traceId, items.insertionSort Span.NotAfter⟩

/-- Every span is in one trace, the one with its id, and a trace is in order of start times. -/
structure GroupedByTrace (spans : List Span) (traces : List Trace) : Prop where
  nodup : (traces.map (·.traceId)).Nodup
  keyed : ∀ trace ∈ traces, ∀ span ∈ trace.spans, span.traceId = trace.traceId
  perm : (traces.flatMap (·.spans)).Perm spans
  ordered : ∀ trace ∈ traces, trace.spans.Pairwise Span.NotAfter

theorem mem_groupTraces {spans : List Span} {trace : Trace} (h : trace ∈ groupTraces spans) :
    trace.spans = (spans.filter (·.traceId = trace.traceId)).insertionSort Span.NotAfter := by
  obtain ⟨⟨traceId, items⟩, hgroup, rfl⟩ := List.mem_map.1 h
  rw [(mem_grouped.1 hgroup).2]

theorem mem_spans_groupTraces {spans : List Span} {trace : Trace} (h : trace ∈ groupTraces spans) {span : Span} :
    span ∈ trace.spans ↔ span ∈ spans ∧ span.traceId = trace.traceId := by
  rw [mem_groupTraces h, List.mem_insertionSort]
  simp

/-- Every span has its trace. -/
theorem exists_mem_groupTraces {spans : List Span} {span : Span} (h : span ∈ spans) :
    ∃ trace ∈ groupTraces spans, span ∈ trace.spans := by
  have hgroup : (span.traceId, spans.filter (·.traceId = span.traceId)) ∈ grouped (·.traceId) spans :=
    mem_grouped.2 ⟨⟨span, h, rfl⟩, rfl⟩
  have htrace := List.mem_map_of_mem (f := fun group : String × List Span =>
    (⟨group.1, group.2.insertionSort Span.NotAfter⟩ : Trace)) hgroup
  exact ⟨_, htrace, (mem_spans_groupTraces htrace).2 ⟨h, rfl⟩⟩

theorem groupTraces_groupedByTrace (spans : List Span) : GroupedByTrace spans (groupTraces spans) where
  nodup := by
    rw [groupTraces, List.map_map]
    exact nodup_keys_grouped _ _
  keyed trace htrace span hspan := ((mem_spans_groupTraces htrace).1 hspan).2
  perm := by
    refine List.Perm.trans ?_ (grouped_perm (·.traceId) spans)
    rw [groupTraces, List.flatMap_map]
    exact List.Perm.flatMap_left _ fun group _ => List.perm_insertionSort _ _
  ordered trace htrace := by
    rw [mem_groupTraces htrace]
    exact List.pairwise_insertionSort _ _

end Traces

end TxPlatform
