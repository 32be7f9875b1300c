import Mathlib.Data.List.Forall2
import TxPlatform.Traces.Parsing

/-! # What a document carries

A span as it was recorded, before an encoding is chosen: ids are bytes, times and numbers have 64
bits, kind and status are numbers of the tables, attributes are a list of keyed values in which a key may
occur again. `Carries document sent` says that a document writes these spans, in any of the
encodings the parser admits and with any other members beside them.
-/

namespace TxPlatform

namespace Traces

/-! ## Recorded spans -/

/-- `AnyValue`; a double is the text of a Python float. -/
inductive Value where
  | empty
  | text (value : String)
  | bool (value : Bool)
  | int (value : Int64)
  | double (text : String)
  | array (items : List Value)
  | kvlist (items : List (String × Value))

mutual

/-- The value in Python. -/
def Value.decode : Value → Json
  | .empty => .null
  | .text value => .str value
  | .bool value => .bool value
  | .int value => .int value.toInt
  | .double text => .real text
  | .array items => .arr (decodeItems items)
  | .kvlist items => .obj (Python.dict (decodeMembers items))

def decodeItems : List Value → List Json
  | [] => []
  | item :: items => item.decode :: decodeItems items

def decodeMembers : List (String × Value) → Attributes
  | [] => []
  | (key, value) :: items => (key, value.decode) :: decodeMembers items

end

/-- The attributes as a dict: of equal keys the last one counts. -/
def decodeAttributes (items : List (String × Value)) : Attributes := Python.dict (decodeMembers items)

structure Id (byteLength : Nat) where
  bytes : List Nat
  length_bytes : bytes.length = byteLength
  byte_lt : ∀ b ∈ bytes, b < 256

/-- The id in Python: empty for all zeros. -/
def Id.text {byteLength : Nat} (id : Id byteLength) : String :=
  if ∀ b ∈ id.bytes, b = 0 then "" else String.ofList (Base64.hex id.bytes)

structure RecordedEvent where
  name : String
  timeUnixNano : UInt64
  attributes : List (String × Value)

def RecordedEvent.event (event : RecordedEvent) : Event :=
  ⟨event.name, event.timeUnixNano.toNat, decodeAttributes event.attributes⟩

structure RecordedSpan where
  traceId : Id 16
  spanId : Id 8
  /-- All zeros when the span has no parent. -/
  parentSpanId : Id 8
  name : String
  kind : Fin kindNames.length
  startUnixNano : UInt64
  endUnixNano : UInt64
  status : Fin statusNames.length
  attributes : List (String × Value)
  events : List RecordedEvent
  resource : List (String × Value)

/-- The span every encoding should be read as. -/
def RecordedSpan.span (span : RecordedSpan) : Span where
  traceId := span.traceId.text
  spanId := span.spanId.text
  parentSpanId := span.parentSpanId.text
  name := span.name
  kind := kindNames[span.kind]
  startUnixNano := span.startUnixNano.toNat
  endUnixNano := span.endUnixNano.toNat
  status := statusNames[span.status]
  attributes := decodeAttributes span.attributes
  events := span.events.map (·.event)
  resource := decodeAttributes span.resource

/-! ## Encodings -/

inductive EncodesText (text : String) : Option Json → Prop
  | text : EncodesText text (some (.str text))
  | absent (h : text = "") : EncodesText text none

inductive EncodesInt (n : Int) : Json → Prop
  | number : EncodesInt n (.int n)
  | decimal : EncodesInt n (.str (toString n))

inductive EncodesTime (time : UInt64) : Option Json → Prop
  | int {raw : Json} (h : EncodesInt time.toNat raw) : EncodesTime time (some raw)
  | absent (h : time = 0) : EncodesTime time none

/-- The number of a name in a table, or the name behind its prefix; the first may be left out. -/
inductive EncodesEnum (names : List String) (start : String) (index : Fin names.length) : Option Json → Prop
  | number : EncodesEnum names start index (some (.int index))
  | name : EncodesEnum names start index (some (.str (start ++ names[index])))
  | absent (h : index.val = 0) : EncodesEnum names start index none

inductive EncodesId {byteLength : Nat} (id : Id byteLength) : Option Json → Prop
  /-- Digits of either case. -/
  | hex {text : String} (h : text.toList.map Char.toLower = Base64.hex id.bytes) :
      EncodesId id (some (.str text))
  | base64 {text : String} (h : text.toList = Base64.bare id.bytes ∨ text.toList = Base64.encode id.bytes) :
      EncodesId id (some (.str text))
  | absent (h : ∀ b ∈ id.bytes, b = 0) : EncodesId id none
  | null (h : ∀ b ∈ id.bytes, b = 0) : EncodesId id (some .null)
  | empty (h : ∀ b ∈ id.bytes, b = 0) : EncodesId id (some (.str ""))

inductive EncodesList (items : List Json) : Option Json → Prop
  | list : EncodesList items (some (.arr items))
  | absent (h : items = []) : EncodesList items none

def valueKeys : List String :=
  ["stringValue", "boolValue", "intValue", "doubleValue", "arrayValue", "kvlistValue"]

/-- Of the keys of a value only this one is there. -/
def Holds (members : List (String × Json)) (key : String) (value : Json) : Prop :=
  ∀ other ∈ valueKeys, Json.member members other = if other = key then some value else none

section Encodings
variable [Python]

mutual

inductive EncodesValue : Value → Json → Prop
  | empty {members} (h : ∀ key ∈ valueKeys, Json.member members key = none) :
      EncodesValue .empty (.obj members)
  | text {members value} (h : Holds members "stringValue" (.str value)) :
      EncodesValue (.text value) (.obj members)
  | bool {members value} (h : Holds members "boolValue" (.bool value)) :
      EncodesValue (.bool value) (.obj members)
  | int {members raw} {value : Int64} (h : Holds members "intValue" raw) (hraw : EncodesInt value.toInt raw) :
      EncodesValue (.int value) (.obj members)
  | double {members raw text} (h : Holds members "doubleValue" raw) (hraw : Python.float raw = some text) :
      EncodesValue (.double text) (.obj members)
  | array {members inner raws items} (h : Holds members "arrayValue" (.obj inner))
      (hlist : EncodesList raws (Json.member inner "values")) (hitems : EncodesItems items raws) :
      EncodesValue (.array items) (.obj members)
  | kvlist {members inner raws items} (h : Holds members "kvlistValue" (.obj inner))
      (hlist : EncodesList raws (Json.member inner "values")) (hitems : EncodesMembers items raws) :
      EncodesValue (.kvlist items) (.obj members)

inductive EncodesItems : List Value → List Json → Prop
  | nil : EncodesItems [] []
  | cons {item raw items raws} (hitem : EncodesValue item raw) (hitems : EncodesItems items raws) :
      EncodesItems (item :: items) (raw :: raws)

inductive EncodesMembers : List (String × Value) → List Json → Prop
  | nil : EncodesMembers [] []
  | cons {members key value raw items raws} (hkey : Json.member members "key" = some (.str key))
      (hraw : Json.member members "value" = some raw) (hvalue : EncodesValue value raw)
      (hitems : EncodesMembers items raws) : EncodesMembers ((key, value) :: items) (.obj members :: raws)
  | bare {members key items raws} (hkey : Json.member members "key" = some (.str key))
      (hraw : Json.member members "value" = none) (hitems : EncodesMembers items raws) :
      EncodesMembers ((key, .empty) :: items) (.obj members :: raws)

end

inductive EncodesAttributes (items : List (String × Value)) : Option Json → Prop
  | list {raws} (h : EncodesMembers items raws) : EncodesAttributes items (some (.arr raws))
  | null (h : items = []) : EncodesAttributes items (some .null)
  | absent (h : items = []) : EncodesAttributes items none

structure EncodesEvent (event : RecordedEvent) (raw : List (String × Json)) : Prop where
  name : EncodesText event.name (Json.member raw "name")
  timeUnixNano : EncodesTime event.timeUnixNano (Json.member raw "timeUnixNano")
  attributes : EncodesAttributes event.attributes (Json.member raw "attributes")

inductive EncodesStatus (status : Fin statusNames.length) : Option Json → Prop
  | status {members} (h : EncodesEnum statusNames "STATUS_CODE_" status (Json.member members "code")) :
      EncodesStatus status (some (.obj members))
  | absent (h : status.val = 0) : EncodesStatus status none

inductive EncodesEvents (events : List RecordedEvent) (value : Option Json) : Prop
  | events {raws : List (List (String × Json))} (hlist : EncodesList (raws.map .obj) value)
      (h : List.Forall₂ EncodesEvent events raws)

structure EncodesSpan (span : RecordedSpan) (raw : List (String × Json)) : Prop where
  traceId : EncodesId span.traceId (Json.member raw "traceId")
  spanId : EncodesId span.spanId (Json.member raw "spanId")
  parentSpanId : EncodesId span.parentSpanId (Json.member raw "parentSpanId")
  name : EncodesText span.name (Json.member raw "name")
  kind : EncodesEnum kindNames "SPAN_KIND_" span.kind (Json.member raw "kind")
  startUnixNano : EncodesTime span.startUnixNano (Json.member raw "startTimeUnixNano")
  endUnixNano : EncodesTime span.endUnixNano (Json.member raw "endTimeUnixNano")
  status : EncodesStatus span.status (Json.member raw "status")
  attributes : EncodesAttributes span.attributes (Json.member raw "attributes")
  events : EncodesEvents span.events (Json.member raw "events")

/-- A span and the object that writes it. -/
abbrev Sent := RecordedSpan × List (String × Json)

/-- An item of `scopeSpans`. -/
inductive CarriesScope (resource : List (String × Value)) (sent : List Sent) : Json → Prop
  | scope {members} (hlist : EncodesList (sent.map fun entry => .obj entry.2) (Json.member members "spans"))
      (hspans : ∀ entry ∈ sent, entry.1.resource = resource ∧ EncodesSpan entry.1 entry.2) :
      CarriesScope resource sent (.obj members)

inductive EncodesResource (resource : List (String × Value)) : Option Json → Prop
  | resource {members} (h : EncodesAttributes resource (Json.member members "attributes")) :
      EncodesResource resource (some (.obj members))
  | absent (h : resource = []) : EncodesResource resource none

/-- An item of `resourceSpans`. -/
inductive CarriesResource : List Sent → Json → Prop
  | resource {members resource groups scopes} (hresource : EncodesResource resource (Json.member members "resource"))
      (hlist : EncodesList scopes (Json.member members "scopeSpans"))
      (hscopes : List.Forall₂ (CarriesScope resource) groups scopes) :
      CarriesResource groups.flatten (.obj members)

mutual

/-- The items of `resourceSpans` in a document: bare, under `result`, or in a list of chunks. -/
inductive HasItems : Json → List Json → Prop
  | bare {members items} (hresult : Json.member members "result" = none)
      (hlist : EncodesList items (Json.member members "resourceSpans")) : HasItems (.obj members) items
  | result {members inner items} (hresult : Json.member members "result" = some inner)
      (hinner : HasItems inner items) : HasItems (.obj members) items
  | chunks {chunks items} (h : ChunksHaveItems chunks items) : HasItems (.arr chunks) items

inductive ChunksHaveItems : List Json → List Json → Prop
  | nil : ChunksHaveItems [] []
  | cons {chunk items chunks others} (hchunk : HasItems chunk items) (hchunks : ChunksHaveItems chunks others) :
      ChunksHaveItems (chunk :: chunks) (items ++ others)

end

inductive Carries (document : Json) : List Sent → Prop
  | carries {items groups} (hitems : HasItems document items)
      (hgroups : List.Forall₂ CarriesResource groups items) : Carries document groups.flatten

end Encodings

end Traces

end TxPlatform
