import TxPlatform.Traces.Reading

/-! # The OTLP encoder (otlp.py:34-83)

`buildPayload` writes synthetic spans as the document that `parseSpans` reads. `roundTrips_iff` says
which spans come back as they were. The encoder knows bools, ints and texts; `attribute_value` also
reads doubles, and a float that was sent comes back as the text of the float.
-/

namespace TxPlatform

namespace Traces

/-- A float of seconds or milliseconds is not part of the model: `durationNano` is
`int(duration_ms * 1_000_000)`. -/
structure SyntheticSpan where
  name : String
  traceId : String
  spanId : String
  parentSpanId : String
  durationNano : Int
  error : Bool
  attributes : Attributes
  /-- The attributes are a dict. -/
  nodup_keys : (attributes.map (·.1)).Nodup
  service : String
  kind : Int
  endUnixNano : Int
  /-- What `time.time_ns()` returns when the span is written. -/
  timeNs : Int

/-- `self.end_unix_nano or time.time_ns()`. -/
def SyntheticSpan.finish (span : SyntheticSpan) : Int :=
  if span.endUnixNano = 0 then span.timeNs else span.endUnixNano

def SyntheticSpan.start (span : SyntheticSpan) : Int := span.finish - span.durationNano

/-- `{"key": key, "value": {valueKey: raw}}`. -/
def keyed (key valueKey : String) (raw : Json) : Json :=
  .obj [("key", .str key), ("value", .obj [(valueKey, raw)])]

/-- An item of `resourceSpans`. -/
def resourceItem (resource : Json) (spans : List Json) : Json :=
  .obj [("resource", .obj [("attributes", .arr [resource])]),
    ("scopeSpans", .arr [.obj [("scope", .obj [("name", .str "txplatform.pipeline-probe")]),
      ("spans", .arr spans)]])]

section Encoder
variable [Python]

/-- `_attribute`. -/
def otlpAttribute (key : String) (value : Json) : Option Json :=
  match value with
  | .bool flag => some (keyed key "boolValue" (.bool flag))
  | .int number => (Python.strOfInt number).map fun text => keyed key "intValue" (.str text)
  | value => some (keyed key "stringValue" (.str (Python.str value)))

/-- `to_otlp`. -/
def SyntheticSpan.toOtlp (span : SyntheticSpan) : Option Json := do
  let start ← Python.strOfInt span.start
  let finish ← Python.strOfInt span.finish
  let attributes ← span.attributes.mapM fun entry => otlpAttribute entry.1 entry.2
  let status : List (String × Json) :=
    if span.error then [("status", .obj [("code", .int 2), ("message", .str "synthetic error")])] else []
  return .obj ([("traceId", .str span.traceId), ("spanId", .str span.spanId),
    ("parentSpanId", .str span.parentSpanId), ("name", .str span.name), ("kind", .int span.kind),
    ("startTimeUnixNano", .str start), ("endTimeUnixNano", .str finish), ("attributes", .arr attributes)]
    ++ status)

/-- `build_payload`. -/
def buildPayload (spans : List SyntheticSpan) : Option Json := do
  let written ← spans.mapM fun span => span.toOtlp.map fun raw => (span.service, raw)
  let items ← (grouped (·.1) written).mapM fun group =>
    (otlpAttribute "service.name" (.str group.1)).map fun resource => resourceItem resource (group.2.map (·.2))
  return .obj [("resourceSpans", .arr items)]

end Encoder

/-! ## The law -/

/-- Digits of an id, in either case. -/
def IsHexId (byteLength : Nat) (id : String) : Prop :=
  id.toList.length = byteLength * 2 ∧ id.toList.all Base64.isHexDigit = true

instance (byteLength : Nat) (id : String) : Decidable (IsHexId byteLength id) :=
  inferInstanceAs (Decidable (_ ∧ _))

structure SyntheticSpan.Valid (span : SyntheticSpan) : Prop where
  traceId : IsHexId 16 span.traceId
  spanId : IsHexId 8 span.spanId
  parentSpanId : span.parentSpanId = "" ∨ IsHexId 8 span.parentSpanId
  endUnixNano : 0 < span.endUnixNano

/-- A span came back as it was sent. -/
structure SameSpan [Python] (sent : SyntheticSpan) (span : Span) : Prop where
  name : span.name = sent.name
  traceId : span.traceId = sent.traceId
  spanId : span.spanId = sent.spanId
  parentSpanId : span.parentSpanId = sent.parentSpanId
  kind : ∃ number : Nat, sent.kind = number ∧ kindNames[number]? = some span.kind
  service : span.service = sent.service
  endUnixNano : span.endUnixNano = sent.endUnixNano
  error : span.status = "ERROR" ↔ sent.error = true
  attributes : span.attributes = sent.attributes

/-- The spans, service by service in the order of first appearance. -/
def byServices (spans : List SyntheticSpan) : List SyntheticSpan :=
  (firsts (spans.map (·.service))).flatMap fun service => spans.filter (·.service = service)

/-- Reading the payload gives the spans back. -/
def RoundTrips [Python] (spans : List SyntheticSpan) : Prop :=
  ∃ payload parsed, buildPayload spans = some payload ∧ parseSpans payload = some parsed ∧
    List.Forall₂ SameSpan (byServices spans) parsed

/-- A value the encoder has a type for. -/
def IsTyped : Json → Prop
  | .bool _ => True
  | .int _ => True
  | .str _ => True
  | _ => False

def WritableValue : Json → Prop
  | .int number => Python.Writable number
  | _ => True

def lower (text : String) : String := String.ofList (text.toList.map Char.toLower)

/-- What a span needs to come back: typed attributes, ids in lower case, a kind of the table, and
no int with too many digits. -/
structure SyntheticSpan.Faithful (span : SyntheticSpan) : Prop where
  typed : ∀ entry ∈ span.attributes, IsTyped entry.2
  traceId : lower span.traceId = span.traceId
  spanId : lower span.spanId = span.spanId
  parentSpanId : lower span.parentSpanId = span.parentSpanId
  kind : 0 ≤ span.kind ∧ span.kind < kindNames.length
  start : Python.Writable span.start
  finish : Python.Writable span.finish
  writable : ∀ entry ∈ span.attributes, WritableValue entry.2

/-! ## What is written -/

/-- The value of an attribute that can be written. -/
def rawOf [Python] : Json → Json
  | .bool flag => .obj [("boolValue", .bool flag)]
  | .int number => .obj [("intValue", .str (toString number))]
  | value => .obj [("stringValue", .str (Python.str value))]

def itemOf [Python] (key : String) (value : Json) : Json := .obj [("key", .str key), ("value", rawOf value)]

def SyntheticSpan.members [Python] (span : SyntheticSpan) : List (String × Json) :=
  [("traceId", .str span.traceId), ("spanId", .str span.spanId), ("parentSpanId", .str span.parentSpanId),
    ("name", .str span.name), ("kind", .int span.kind), ("startTimeUnixNano", .str (toString span.start)),
    ("endTimeUnixNano", .str (toString span.finish)),
    ("attributes", .arr (span.attributes.map fun entry => itemOf entry.1 entry.2))] ++
  if span.error then [("status", .obj [("code", .int 2), ("message", .str "synthetic error")])] else []

structure SyntheticSpan.CanBeWritten (span : SyntheticSpan) : Prop where
  start : Python.Writable span.start
  finish : Python.Writable span.finish
  writable : ∀ entry ∈ span.attributes, WritableValue entry.2

/-- The document of spans that can be written. -/
def payloadOf [Python] (spans : List SyntheticSpan) : Json :=
  .obj [("resourceSpans", .arr ((firsts (spans.map (·.service))).map fun service =>
    resourceItem (keyed "service.name" "stringValue" (.str service))
      ((spans.filter (·.service = service)).map fun span => .obj span.members)))]

theorem mapM_eq_some_iff {α β : Type} {f : α → Option β} {p : α → Prop} {g : α → β}
    (h : ∀ x y, f x = some y ↔ p x ∧ y = g x) {xs : List α} {ys : List β} :
    xs.mapM f = some ys ↔ (∀ x ∈ xs, p x) ∧ ys = xs.map g := by
  induction xs generalizing ys with
  | nil => simp [eq_comm]
  | cons x xs ih =>
    simp only [List.mapM_cons, Option.bind_eq_bind, Option.bind_eq_some_iff, h, ih, Option.pure_def,
      Option.some.injEq, List.forall_mem_cons, List.map_cons]
    constructor
    · rintro ⟨_, ⟨hx, rfl⟩, _, ⟨hxs, rfl⟩, rfl⟩
      exact ⟨⟨hx, hxs⟩, rfl⟩
    · rintro ⟨⟨hx, hxs⟩, rfl⟩
      exact ⟨_, ⟨hx, rfl⟩, _, ⟨hxs, rfl⟩, rfl⟩

section Written
variable [Python]

theorem otlpAttribute_eq_some {key : String} {value item : Json} :
    otlpAttribute key value = some item ↔ WritableValue value ∧ item = itemOf key value := by
  cases value with
  | int number =>
    simp only [otlpAttribute, Option.map_eq_some_iff, Python.strOfInt_eq_some, WritableValue, itemOf, rawOf, keyed]
    constructor
    · rintro ⟨text, ⟨hnumber, rfl⟩, rfl⟩
      exact ⟨hnumber, rfl⟩
    · rintro ⟨hnumber, rfl⟩
      exact ⟨_, ⟨hnumber, rfl⟩, rfl⟩
  | _ => simp [otlpAttribute, WritableValue, itemOf, rawOf, keyed, eq_comm]

theorem toOtlp_eq_some {span : SyntheticSpan} {raw : Json} :
    span.toOtlp = some raw ↔ span.CanBeWritten ∧ raw = .obj span.members := by
  simp only [SyntheticSpan.toOtlp, Option.bind_eq_bind, Option.bind_eq_some_iff, Python.strOfInt_eq_some, Option.pure_def,
    mapM_eq_some_iff fun _ _ => otlpAttribute_eq_some, Option.some.injEq]
  constructor
  · rintro ⟨_, ⟨hstart, rfl⟩, _, ⟨hfinish, rfl⟩, _, ⟨hattributes, rfl⟩, rfl⟩
    exact ⟨⟨hstart, hfinish, hattributes⟩, rfl⟩
  · rintro ⟨⟨hstart, hfinish, hattributes⟩, rfl⟩
    exact ⟨_, ⟨hstart, rfl⟩, _, ⟨hfinish, rfl⟩, _, ⟨hattributes, rfl⟩, rfl⟩

theorem grouped_written (spans : List SyntheticSpan) :
    (grouped (·.1) (spans.map fun span => (span.service, Json.obj span.members))).map
        (fun group => resourceItem (keyed "service.name" "stringValue" (.str group.1)) (group.2.map (·.2))) =
      (firsts (spans.map (·.service))).map fun service =>
        resourceItem (keyed "service.name" "stringValue" (.str service))
          ((spans.filter (·.service = service)).map fun span => .obj span.members) := by
  rw [grouped_eq]
  simp [List.filter_map, Function.comp_def]

theorem buildPayload_eq_some {spans : List SyntheticSpan} {payload : Json} :
    buildPayload spans = some payload ↔ (∀ span ∈ spans, span.CanBeWritten) ∧ payload = payloadOf spans := by
  have hwritten : ∀ (span : SyntheticSpan) entry,
      (span.toOtlp.map fun raw => (span.service, raw)) = some entry ↔
        span.CanBeWritten ∧ entry = (span.service, .obj span.members) := by
    intro span entry
    simp only [Option.map_eq_some_iff, toOtlp_eq_some]
    constructor
    · rintro ⟨_, ⟨hspan, rfl⟩, rfl⟩
      exact ⟨hspan, rfl⟩
    · rintro ⟨hspan, rfl⟩
      exact ⟨_, ⟨hspan, rfl⟩, rfl⟩
  have hitem : ∀ (group : String × List (String × Json)) item,
      ((otlpAttribute "service.name" (.str group.1)).map fun resource =>
        resourceItem resource (group.2.map (·.2))) = some item ↔ True ∧
      item = resourceItem (keyed "service.name" "stringValue" (.str group.1)) (group.2.map (·.2)) := by
    intro group item
    simp [otlpAttribute, Python.str, eq_comm]
  simp only [buildPayload, Option.bind_eq_bind, Option.bind_eq_some_iff, mapM_eq_some_iff hwritten,
    mapM_eq_some_iff hitem, Option.pure_def, Option.some.injEq]
  constructor
  · rintro ⟨_, ⟨hspans, rfl⟩, _, ⟨-, rfl⟩, rfl⟩
    rw [grouped_written]
    exact ⟨hspans, rfl⟩
  · rintro ⟨hspans, rfl⟩
    refine ⟨_, ⟨hspans, rfl⟩, _, ⟨by simp, rfl⟩, ?_⟩
    rw [grouped_written]
    rfl

end Written

/-! ## What is read -/

/-- The value of an attribute after the way through the payload. -/
def comesBack [Python] : Json → Json
  | .bool flag => .bool flag
  | .int number => .int number
  | value => .str (Python.str value)

/-- The span after the way through the payload. -/
def SyntheticSpan.parsed [Python] (span : SyntheticSpan) : Span where
  traceId := lower span.traceId
  spanId := lower span.spanId
  parentSpanId := lower span.parentSpanId
  name := span.name
  kind := enum (.int span.kind) kindNames "SPAN_KIND_"
  startUnixNano := span.start
  endUnixNano := span.finish
  status := if span.error then "ERROR" else "UNSET"
  attributes := span.attributes.map fun entry => (entry.1, comesBack entry.2)
  events := []
  resource := [("service.name", .str span.service)]

section Read
variable [Python]

theorem normalizeId_hexId {byteLength : Nat} {id : String} (h : IsHexId byteLength id) (hpos : 0 < byteLength) :
    normalizeId (.str id) byteLength = some (lower id) := by
  obtain ⟨hlength, hdigits⟩ := h
  have hne : id ≠ "" := by
    rintro rfl
    simp at hlength
    omega
  rw [normalizeId, if_neg (by simp [Python.truthy, hne])]
  exact if_pos ⟨hlength, hdigits⟩

theorem normalizeId_parent {id : String} (h : id = "" ∨ IsHexId 8 id) : normalizeId (.str id) 8 = some (lower id) := by
  obtain rfl | h := h
  · rfl
  · exact normalizeId_hexId h (by omega)

theorem int_toString {n : Int} (h : Python.Writable n) : Python.int (.str (toString n)) = some n :=
  Python.intOfText_toString h

theorem attributeValue_rawOf {value : Json} (h : WritableValue value) :
    attributeValue (rawOf value) = some (comesBack value) := by
  cases value with
  | bool flag => simp [rawOf, attributeValue_obj, (holds_singleton _ _).lookup, comesBack, Python.truthy]
  | int number =>
    have hnumber : attributeValue (rawOf (.int number)) = (Python.int (.str (toString number))).map .int := by
      simp [rawOf, attributeValue_obj, (holds_singleton _ _).lookup]
    rw [hnumber, int_toString h]
    rfl
  | _ => simp [rawOf, attributeValue_obj, (holds_singleton _ _).lookup, comesBack]

theorem keyValues_itemOf {attributes : Attributes} (h : ∀ entry ∈ attributes, WritableValue entry.2) :
    keyValues (attributes.map fun entry => itemOf entry.1 entry.2) =
      some (attributes.map fun entry => (entry.1, comesBack entry.2)) := by
  induction attributes with
  | nil => simp [keyValues]
  | cons entry attributes ih =>
    obtain ⟨hentry, hattributes⟩ := List.forall_mem_cons.1 h
    have hkey : Json.member [("key", .str entry.1), ("value", rawOf entry.2)] "key" = some (.str entry.1) := rfl
    have hvalue : Json.member [("key", .str entry.1), ("value", rawOf entry.2)] "value" = some (rawOf entry.2) := rfl
    rw [List.map_cons, itemOf, keyValues_cons, hkey, hvalue, ih hattributes, Option.elim_some,
      attributeValue_rawOf hentry]
    rfl

/-- What `raw.get` finds in a span that was written. -/
theorem member_members (span : SyntheticSpan) :
    Json.member span.members "traceId" = some (.str span.traceId) ∧
    Json.member span.members "spanId" = some (.str span.spanId) ∧
    Json.member span.members "parentSpanId" = some (.str span.parentSpanId) ∧
    Json.member span.members "name" = some (.str span.name) ∧
    Json.member span.members "kind" = some (.int span.kind) ∧
    Json.member span.members "startTimeUnixNano" = some (.str (toString span.start)) ∧
    Json.member span.members "endTimeUnixNano" = some (.str (toString span.finish)) ∧
    Json.member span.members "attributes" =
      some (.arr (span.attributes.map fun entry => itemOf entry.1 entry.2)) ∧
    Json.member span.members "events" = none ∧
    Json.member span.members "status" =
      (if span.error then some (.obj [("code", .int 2), ("message", .str "synthetic error")]) else none) := by
  cases herror : span.error <;>
    simp only [SyntheticSpan.members, herror] <;> exact ⟨rfl, rfl, rfl, rfl, rfl, rfl, rfl, rfl, rfl, rfl⟩

theorem attributesField_members {span : SyntheticSpan} (hwritten : span.CanBeWritten) :
    attributesField (.obj span.members) "attributes" =
      some (span.attributes.map fun entry => (entry.1, comesBack entry.2)) := by
  obtain ⟨-, -, -, -, -, -, -, hattributes, -⟩ := member_members span
  have hnodup : ((span.attributes.map fun entry => (entry.1, comesBack entry.2)).map (·.1)).Nodup := by
    rw [List.map_map]
    exact span.nodup_keys
  simp [attributesField, field, hattributes, attributes_arr, keyValues_itemOf hwritten.writable,
    Python.dict_eq_self hnodup]

theorem statusField_members (span : SyntheticSpan) :
    statusField (.obj span.members) = some (if span.error then "ERROR" else "UNSET") := by
  obtain ⟨-, -, -, -, -, -, -, -, -, hstatus⟩ := member_members span
  cases herror : span.error <;> rw [herror] at hstatus <;> simp only [statusField, field, hstatus] <;> rfl

theorem parseSpan_members {span : SyntheticSpan} (hvalid : span.Valid) (hwritten : span.CanBeWritten) :
    parseSpan [("service.name", .str span.service)] (.obj span.members) = some span.parsed := by
  obtain ⟨htraceId, hspanId, hparent, hname, hkind, hstart, hfinish, -, hevents, -⟩ := member_members span
  have htrace := normalizeId_hexId hvalid.traceId (by omega)
  have hspan := normalizeId_hexId hvalid.spanId (by omega)
  simp only [parseSpan, idField, intField, enumField, textField, eventsField, listField, field, htraceId, hspanId,
    hparent, hname, hkind, hstart, hfinish, hevents, Option.bind_some, Option.getD_some, Option.map_some, htrace, hspan,
    normalizeId_parent hvalid.parentSpanId, int_toString hwritten.start, int_toString hwritten.finish,
    statusField_members, attributesField_members hwritten, Option.bind_eq_bind]
  rfl

theorem resourceField_resourceItem (service : String) (raws : List Json) :
    resourceField (resourceItem (keyed "service.name" "stringValue" (.str service)) raws) =
      some [("service.name", .str service)] := by
  have hitem : keyValues [keyed "service.name" "stringValue" (.str service)] =
      some [("service.name", .str service)] :=
    @keyValues_itemOf _ [("service.name", .str service)] (by simp [WritableValue])
  have hfield : resourceField (resourceItem (keyed "service.name" "stringValue" (.str service)) raws) =
      attributes (.arr [keyed "service.name" "stringValue" (.str service)]) := rfl
  rw [hfield, attributes_arr, hitem]
  rfl

theorem parseResource_resourceItem {service : String} {group : List SyntheticSpan}
    (hgroup : ∀ span ∈ group, span.service = service ∧ span.Valid ∧ span.CanBeWritten) :
    parseResource (resourceItem (keyed "service.name" "stringValue" (.str service))
      (group.map fun span => .obj span.members)) = some (group.map (·.parsed)) := by
  have hspans : (group.map fun span => Json.obj span.members).mapM
      (parseSpan [("service.name", .str service)]) = some (group.map (·.parsed)) := by
    refine mapM_eq_some ?_
    rw [List.forall₂_map_left_iff, List.forall₂_map_right_iff, List.forall₂_same]
    intro span hspan
    obtain ⟨rfl, hvalid, hwritten⟩ := hgroup span hspan
    exact parseSpan_members hvalid hwritten
  have hscope : parseScope [("service.name", .str service)]
      (.obj [("scope", .obj [("name", .str "txplatform.pipeline-probe")]),
        ("spans", .arr (group.map fun span => Json.obj span.members))]) = some (group.map (·.parsed)) := hspans
  have hscopes : listField (resourceItem (keyed "service.name" "stringValue" (.str service))
      (group.map fun span => .obj span.members)) "scopeSpans" =
      some [.obj [("scope", .obj [("name", .str "txplatform.pipeline-probe")]),
        ("spans", .arr (group.map fun span => Json.obj span.members))]] := rfl
  simp [parseResource, resourceField_resourceItem, hscopes, hscope]

/-- **The payload is read** as what each of its spans became. -/
theorem parseSpans_payloadOf {spans : List SyntheticSpan} (hvalid : ∀ span ∈ spans, span.Valid)
    (hwritten : ∀ span ∈ spans, span.CanBeWritten) :
    parseSpans (payloadOf spans) = some ((byServices spans).map (·.parsed)) := by
  have hitems : ((firsts (spans.map (·.service))).map fun service =>
      resourceItem (keyed "service.name" "stringValue" (.str service))
        ((spans.filter (·.service = service)).map fun span => .obj span.members)).mapM parseResource =
      some ((firsts (spans.map (·.service))).map fun service =>
        (spans.filter (·.service = service)).map (·.parsed)) := by
    refine mapM_eq_some ?_
    rw [List.forall₂_map_left_iff, List.forall₂_map_right_iff, List.forall₂_same]
    intro service _
    refine parseResource_resourceItem fun span hspan => ?_
    obtain ⟨hmem, hservice⟩ := List.mem_filter.1 hspan
    exact ⟨of_decide_eq_true hservice, hvalid span hmem, hwritten span hmem⟩
  have hresources : resourceSpans (payloadOf spans) = some ((firsts (spans.map (·.service))).map fun service =>
      resourceItem (keyed "service.name" "stringValue" (.str service))
        ((spans.filter (·.service = service)).map fun span => .obj span.members)) := 
    resourceSpans_of_hasItems (.bare rfl .list)
  simp [parseSpans, hresources, hitems, byServices, List.flatMap_def, List.map_flatten, Function.comp_def]

end Read

/-! ## What came back -/

theorem mem_byServices {spans : List SyntheticSpan} {span : SyntheticSpan} :
    span ∈ byServices spans ↔ span ∈ spans := by
  simp only [byServices, List.mem_flatMap, mem_firsts, List.mem_map, List.mem_filter, decide_eq_true_eq]
  constructor
  · rintro ⟨_, -, hspan, -⟩
    exact hspan
  · exact fun hspan => ⟨span.service, ⟨span, hspan, rfl⟩, hspan, rfl⟩

section Same
variable [Python]

theorem comesBack_eq_self_iff {value : Json} : comesBack value = value ↔ IsTyped value := by
  cases value <;> simp [comesBack, IsTyped, Python.str]

theorem attributes_parsed_iff {span : SyntheticSpan} :
    span.parsed.attributes = span.attributes ↔ ∀ entry ∈ span.attributes, IsTyped entry.2 := by
  have hmap : span.parsed.attributes = span.attributes ↔
      ∀ entry ∈ span.attributes, (entry.1, comesBack entry.2) = entry := by
    conv_lhs => rw [← List.map_id span.attributes]
    exact List.map_inj_left
  rw [hmap]
  refine forall₂_congr fun entry _ => ?_
  rw [Prod.ext_iff, ← comesBack_eq_self_iff]
  exact and_iff_right rfl

theorem kind_parsed_iff {span : SyntheticSpan} :
    (∃ number : Nat, span.kind = number ∧ kindNames[number]? = some span.parsed.kind) ↔
      0 ≤ span.kind ∧ span.kind < kindNames.length := by
  constructor
  · rintro ⟨number, hnumber, hname⟩
    obtain ⟨hlt, -⟩ := List.getElem?_eq_some_iff.1 hname
    omega
  · rintro ⟨hpos, hlt⟩
    have hindex : span.kind.toNat < kindNames.length := by omega
    refine ⟨span.kind.toNat, by omega, ?_⟩
    have hkind : span.parsed.kind = kindNames.getD span.kind.toNat "UNSPECIFIED" := if_neg (by omega)
    rw [hkind, List.getD_eq_getElem?_getD, List.getElem?_eq_getElem hindex, Option.getD_some]

theorem error_parsed (span : SyntheticSpan) : span.parsed.status = "ERROR" ↔ span.error = true := by
  cases herror : span.error <;> simp [SyntheticSpan.parsed, herror]

theorem sameSpan_parsed_iff {span : SyntheticSpan} (hvalid : span.Valid) :
    SameSpan span span.parsed ↔
      (∀ entry ∈ span.attributes, IsTyped entry.2) ∧ lower span.traceId = span.traceId ∧
        lower span.spanId = span.spanId ∧ lower span.parentSpanId = span.parentSpanId ∧
        0 ≤ span.kind ∧ span.kind < kindNames.length := by
  constructor
  · intro h
    exact ⟨attributes_parsed_iff.1 h.attributes, h.traceId, h.spanId, h.parentSpanId, kind_parsed_iff.1 h.kind⟩
  · rintro ⟨htyped, htraceId, hspanId, hparent, hkind⟩
    exact {
      name := rfl
      traceId := htraceId
      spanId := hspanId
      parentSpanId := hparent
      kind := kind_parsed_iff.2 hkind
      service := rfl
      endUnixNano := if_neg hvalid.endUnixNano.ne'
      error := error_parsed span
      attributes := attributes_parsed_iff.2 htyped }

end Same

/-- **Parsing undoes the encoder**, exactly for spans that are faithful: a float is no typed value. -/
theorem roundTrips_iff [Python] {spans : List SyntheticSpan} (hvalid : ∀ span ∈ spans, span.Valid) :
    RoundTrips spans ↔ ∀ span ∈ spans, span.Faithful := by
  constructor
  · rintro ⟨payload, parsed, hpayload, hparsed, hsame⟩ span hspan
    obtain ⟨hwritten, rfl⟩ := buildPayload_eq_some.1 hpayload
    rw [parseSpans_payloadOf hvalid hwritten, Option.some.injEq] at hparsed
    subst hparsed
    rw [List.forall₂_map_right_iff, List.forall₂_same] at hsame
    obtain ⟨htyped, htraceId, hspanId, hparent, hkind⟩ :=
      (sameSpan_parsed_iff (hvalid span hspan)).1 (hsame span (mem_byServices.2 hspan))
    obtain ⟨hstart, hfinish, hwritable⟩ := hwritten span hspan
    exact ⟨htyped, htraceId, hspanId, hparent, hkind, hstart, hfinish, hwritable⟩
  · intro hfaithful
    have hwritten : ∀ span ∈ spans, span.CanBeWritten := fun span hspan =>
      ⟨(hfaithful span hspan).start, (hfaithful span hspan).finish, (hfaithful span hspan).writable⟩
    refine ⟨_, _, buildPayload_eq_some.2 ⟨hwritten, rfl⟩, parseSpans_payloadOf hvalid hwritten, ?_⟩
    rw [List.forall₂_map_right_iff, List.forall₂_same]
    intro span hmem
    have hspan := mem_byServices.1 hmem
    obtain ⟨htyped, htraceId, hspanId, hparent, hkind, -⟩ := hfaithful span hspan
    exact (sameSpan_parsed_iff (hvalid span hspan)).2 ⟨htyped, htraceId, hspanId, hparent, hkind⟩

/-! ## A ratio among the attributes -/

/-- A probe with one attribute. -/
def probe (value : Json) : SyntheticSpan where
  name := "GET /health/live"
  traceId := "60a34d4828a46b1e9747fb35905f9cdc"
  spanId := "a1a1a1a1a1a1a1a1"
  parentSpanId := ""
  durationNano := 20000000
  error := false
  attributes := [("sampling.ratio", value)]
  nodup_keys := by simp
  service := "pipeline-probe"
  kind := 2
  endUnixNano := 1700000000000000000
  timeNs := 0

theorem valid_probe (value : Json) : ∀ span ∈ [probe value], span.Valid := by
  rw [List.forall_mem_singleton]
  exact {
    traceId := by simp only [probe]; decide
    spanId := by simp only [probe]; decide
    parentSpanId := .inl rfl
    endUnixNano := by simp [probe] }

theorem roundTrips_iff_probe :
    letI := Python.plain
    (∀ span ∈ [probe (.int 2)], span.Valid) ∧
      (RoundTrips [probe (.int 2)] ↔ ∀ span ∈ [probe (.int 2)], span.Faithful) :=
  ⟨valid_probe _, @roundTrips_iff Python.plain _ (valid_probe _)⟩

/-- The float `0.5` comes back as the text `"0.5"`. -/
theorem float_comes_back_as_text :
    letI := Python.plain
    (probe (.real "0.5")).Valid ∧
      (∃ payload span, buildPayload [probe (.real "0.5")] = some payload ∧ parseSpans payload = some [span] ∧
        span.attributes = [("sampling.ratio", .str "0.5")]) ∧
      ¬ RoundTrips [probe (.real "0.5")] := by
  have hvalid := valid_probe (.real "0.5")
  have hwritten : ∀ span ∈ [probe (.real "0.5")], span.CanBeWritten := by
    rw [List.forall_mem_singleton]
    exact ⟨Python.writable_of_lt (by decide), Python.writable_of_lt (by decide), by simp [probe, WritableValue]⟩
  have hpayload := (@buildPayload_eq_some Python.plain _ _).2 ⟨hwritten, rfl⟩
  have hparse := @parseSpans_payloadOf Python.plain _ hvalid hwritten
  refine ⟨List.forall_mem_singleton.1 hvalid, ⟨_, _, hpayload, hparse, rfl⟩, ?_⟩
  rintro ⟨payload, parsed, hpayload', hparsed, hsame⟩
  rw [hpayload, Option.some.injEq] at hpayload'
  subst hpayload'
  rw [hparse, Option.some.injEq] at hparsed
  subst hparsed
  obtain ⟨hfirst, -⟩ := List.forall₂_cons.1 hsame
  have hattributes := @SameSpan.attributes Python.plain _ _ hfirst
  cases hattributes

end Traces

end TxPlatform
