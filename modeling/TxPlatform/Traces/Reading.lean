import TxPlatform.Traces.Documents

/-! # Reading a document

The contract of the parser, field by field and level by level: it reads every document that carries
spans (`parseSpans_of_carries`), and the one thing it takes from the encoding is whether an all-zero
id was written in hex (`readId`).
-/

namespace TxPlatform

namespace Traces

/-! ## Values -/

theorem holds_singleton (key : String) (value : Json) : Holds [(key, value)] key value := by
  intro other _
  by_cases h : other = key
  · simp [Json.member, h]
  · simp [Json.member, List.lookup_cons, beq_false_of_ne h, h]

/-- What each of the keys has. -/
theorem Holds.lookup {members : List (String × Json)} {key : String} {value : Json}
    (h : Holds members key value) :
    Json.member members "stringValue" = (if "stringValue" = key then some value else none) ∧
    Json.member members "boolValue" = (if "boolValue" = key then some value else none) ∧
    Json.member members "intValue" = (if "intValue" = key then some value else none) ∧
    Json.member members "doubleValue" = (if "doubleValue" = key then some value else none) ∧
    Json.member members "arrayValue" = (if "arrayValue" = key then some value else none) ∧
    Json.member members "kvlistValue" = (if "kvlistValue" = key then some value else none) := by
  simpa only [Holds, valueKeys, List.forall_mem_cons, List.not_mem_nil, false_implies, implies_true,
    and_true] using h

theorem EncodesList.getD_eq {items : List Json} {value : Option Json} (h : EncodesList items value) :
    value.getD (.arr []) = .arr items := by
  cases h with
  | list => rfl
  | absent h => rw [h]; rfl

theorem EncodesList.listField_eq {items : List Json} {members : List (String × Json)} {key : String}
    (h : EncodesList items (Json.member members key)) : listField (.obj members) key = some items := by
  simp only [listField, field]
  generalize Json.member members key = value at h
  cases h with
  | list => rfl
  | absent h => rw [h]

theorem EncodesText.textField_eq {text : String} {members : List (String × Json)} {key : String}
    (h : EncodesText text (Json.member members key)) : textField (.obj members) key = some text := by
  simp only [textField, field]
  generalize Json.member members key = value at h
  cases h with
  | text => rfl
  | absent h => rw [h]

section Values
variable [Python]

/-- A number of 64 bits is far from the limit on the digits of a text. -/
theorem EncodesInt.int_eq {n : Int} {raw : Json} (h : EncodesInt n raw) (hn : n.natAbs < 2 ^ 64) :
    Python.int raw = some n := by
  cases h with
  | number => rfl
  | decimal => exact Python.intOfText_toString (Python.writable_of_lt hn)

mutual

theorem attributeValue_of_encodes {value : Value} {raw : Json} (h : EncodesValue value raw) :
    attributeValue raw = some value.decode := by
  cases h with
  | empty h =>
    simp only [valueKeys, List.forall_mem_cons] at h
    simp [attributeValue_obj, h, Value.decode]
  | text h => simp [attributeValue_obj, h.lookup, Value.decode]
  | bool h => simp [attributeValue_obj, h.lookup, Value.decode, Python.truthy]
  | @int _ _ value h hraw =>
    have hvalue : value.toInt.natAbs < 2 ^ 64 := by
      have hle := value.le_toInt
      have hlt := value.toInt_lt
      omega
    simp [attributeValue_obj, h.lookup, Value.decode, hraw.int_eq hvalue]
  | double h hraw => simp [attributeValue_obj, h.lookup, Value.decode, hraw]
  | array h hlist hitems =>
    have ih := attributeValues_of_encodes hitems
    simp [attributeValue_obj, h.lookup, Value.decode, hlist.listField_eq, ih]
  | kvlist h hlist hitems =>
    have ih := keyValues_of_encodes hitems
    simp [attributeValue_obj, h.lookup, Value.decode, field, hlist.getD_eq, attributes_arr, ih]

theorem attributeValues_of_encodes {items : List Value} {raws : List Json} (h : EncodesItems items raws) :
    attributeValues raws = some (decodeItems items) := by
  cases h with
  | nil => simp [attributeValues, decodeItems]
  | cons hitem hitems =>
    have hhead := attributeValue_of_encodes hitem
    have htail := attributeValues_of_encodes hitems
    simp [attributeValues, hhead, htail, decodeItems]

theorem keyValues_of_encodes {items : List (String × Value)} {raws : List Json} (h : EncodesMembers items raws) :
    keyValues raws = some (decodeMembers items) := by
  cases h with
  | nil => simp [keyValues, decodeMembers]
  | cons hkey hraw hvalue hitems =>
    have hhead := attributeValue_of_encodes hvalue
    have htail := keyValues_of_encodes hitems
    simp [keyValues_cons, hkey, htail, hraw, hhead, decodeMembers]
  | bare hkey hraw hitems =>
    have htail := keyValues_of_encodes hitems
    simp [keyValues_cons, hkey, htail, hraw, decodeMembers, Value.decode]

end

theorem EncodesAttributes.attributesField_eq {items : List (String × Value)}
    {members : List (String × Json)} {key : String}
    (h : EncodesAttributes items (Json.member members key)) :
    attributesField (.obj members) key = some (decodeAttributes items) := by
  simp only [attributesField, field, Option.bind_some]
  generalize Json.member members key = value at h
  cases h with
  | list h => simp [attributes_arr, keyValues_of_encodes h, decodeAttributes]
  | null h => simp [attributes, Python.truthy, h, decodeAttributes, decodeMembers, Python.dict]
  | absent h => simp [attributes, Python.truthy, h, decodeAttributes, decodeMembers, Python.dict]

/-! ## Fields -/

theorem EncodesTime.intField_eq {time : UInt64} {members : List (String × Json)} {key : String}
    (h : EncodesTime time (Json.member members key)) :
    intField (.obj members) key = some (time.toNat : Int) := by
  simp only [intField, field, Option.bind_some]
  generalize Json.member members key = value at h
  cases h with
  | int h =>
    have htime := time.toNat_lt
    exact h.int_eq (by omega)
  | absent h => rw [h]; rfl

theorem EncodesEnum.enum_eq {names : List String} {start : String} {index : Fin names.length}
    {value : Option Json} (h : EncodesEnum names start index value) (hnames : ∀ name ∈ names, name ≠ "") :
    enum (value.getD .null) names start = names.get index := by
  have hname : names[index] ≠ "" := hnames _ (List.getElem_mem _)
  cases h with
  | number => simp [enum, Python.asInt]
  | name =>
    have hstart : start.toList.isPrefixOf (start ++ names[index]).toList = true := by
      rw [String.toList_append]
      exact List.isPrefixOf_iff_prefix.2 (List.prefix_append _ _)
    have hdrop : String.ofList ((start ++ names[index]).toList.drop start.toList.length) = names[index] := by
      rw [String.toList_append, List.drop_left, String.ofList_toList]
    have htext : Python.truthy (.str (start ++ names[index])) = true := by
      have hne : start ++ names[index] ≠ "" := fun h => hname (String.append_eq_empty_iff.1 h).2
      simpa only [Python.truthy, decide_eq_true_eq] using hne
    simp only [Option.getD_some, enum, Python.asInt, htext, if_true, Python.str, hstart, hdrop, if_neg hname]
    rfl
  | absent h =>
    have hfirst : names.getD 0 "" = names[index] := by
      have hpos : 0 < names.length := index.pos
      simp [h, hpos]
    have hbare : enum .null names start = names.getD 0 "" := by
      simp only [enum, Python.asInt, Python.truthy]
      cases start.toList <;> simp
    rw [Option.getD_none, hbare, hfirst]
    rfl

end Values

/-! ## Ids -/

theorem Id.text_eq_empty {byteLength : Nat} {id : Id byteLength} (h : ∀ b ∈ id.bytes, b = 0) : id.text = "" :=
  if_pos h

theorem Id.text_eq_hex {byteLength : Nat} {id : Id byteLength} (h : ¬ ∀ b ∈ id.bytes, b = 0) :
    id.text = String.ofList (Base64.hex id.bytes) :=
  if_neg h

def zeros (byteLength : Nat) : String := String.ofList (List.replicate (2 * byteLength) '0')

theorem zeros_ne_empty {byteLength : Nat} (h : 0 < byteLength) : zeros byteLength ≠ "" := by
  intro hzeros
  have hlength : (zeros byteLength).toList.length = 2 * byteLength := by simp [zeros]
  rw [hzeros] at hlength
  simp at hlength
  omega

/-- The text of a recorded id is never the one of zeros. -/
theorem Id.text_ne_zeros {byteLength : Nat} (id : Id byteLength) (hlength : 0 < byteLength) :
    id.text ≠ zeros byteLength := by
  intro htext
  by_cases hzero : ∀ b ∈ id.bytes, b = 0
  · rw [id.text_eq_empty hzero] at htext
    exact zeros_ne_empty hlength htext.symm
  · rw [id.text_eq_hex hzero, zeros, String.ofList_inj] at htext
    refine hzero (Base64.zeros_of_hex id.byte_lt fun c hc => ?_)
    rw [htext] at hc
    exact List.eq_of_mem_replicate hc

/-- An id that is written in hex and all zeros. -/
def WritesZeros (byteLength : Nat) (value : Option Json) : Prop := value = some (.str (zeros byteLength))

instance (byteLength : Nat) (value : Option Json) : Decidable (WritesZeros byteLength value) :=
  match value with
  | some (.str text) => decidable_of_iff (text = zeros byteLength) (by simp [WritesZeros])
  | none | some .null | some (.bool _) | some (.int _) | some (.real _) | some (.arr _) | some (.obj _) =>
    isFalse (by simp [WritesZeros])

theorem writesZeros_str {byteLength : Nat} {text : String} :
    WritesZeros byteLength (some (.str text)) ↔ text = zeros byteLength := by
  simp [WritesZeros]

/-- What the parser makes of an id: zeros in hex stay. -/
def readId {byteLength : Nat} (id : Id byteLength) (value : Option Json) : String :=
  if WritesZeros byteLength value then zeros byteLength else id.text

section Ids
variable [Python] {byteLength : Nat} {id : Id byteLength} {text : String}

theorem normalizeId_empty {value : Json} (h : ∀ b ∈ id.bytes, b = 0) (hvalue : Python.truthy value = false) :
    normalizeId value byteLength = some id.text := by
  rw [id.text_eq_empty h]
  simp [normalizeId, hvalue]

theorem normalizeId_hex (h : text.toList.map Char.toLower = Base64.hex id.bytes) (hlength : 0 < byteLength) :
    normalizeId (.str text) byteLength = some (readId id (some (.str text))) := by
  have htext : text.toList.length = byteLength * 2 := by
    rw [← List.length_map (f := Char.toLower), h, Base64.length_hex, id.length_bytes, Nat.mul_comm]
  have hne : text ≠ "" := by
    rintro rfl
    simp at htext
    omega
  have hread : normalizeId (.str text) byteLength = some (String.ofList (Base64.hex id.bytes)) := by
    simp [normalizeId, Python.truthy, hne, htext, Base64.all_isHexDigit id.byte_lt h, h]
  rw [hread, readId]
  by_cases hzero : ∀ b ∈ id.bytes, b = 0
  · have hzeros : text = zeros byteLength := by
      rw [← String.ofList_toList (s := text), Base64.eq_zeros_of_map_toLower hzero h, id.length_bytes, zeros]
    rw [if_pos (writesZeros_str.2 hzeros), Base64.hex_zeros hzero, id.length_bytes, zeros]
  · have hwrites : ¬ WritesZeros byteLength (some (.str text)) := by
      rw [writesZeros_str]
      rintro rfl
      refine hzero (Base64.zeros_of_hex id.byte_lt fun c hc => ?_)
      rw [← h] at hc
      simp only [zeros, String.toList_ofList, List.map_replicate] at hc
      exact List.eq_of_mem_replicate hc
    rw [if_neg hwrites, id.text_eq_hex hzero]

theorem normalizeId_base64 (h : text.toList = Base64.bare id.bytes ∨ text.toList = Base64.encode id.bytes)
    (hlength : 4 < byteLength) : normalizeId (.str text) byteLength = some (readId id (some (.str text))) := by
  have hbounds : 0 < text.toList.length ∧ text.toList.length < byteLength * 2 := by
    obtain h | h := h
    · rw [h, Base64.length_bare, id.length_bytes]
      omega
    · rw [h, Base64.length_encode, id.length_bytes]
      omega
  have hne : text ≠ "" := by
    rintro rfl
    simp at hbounds
  have hwrites : ¬ WritesZeros byteLength (some (.str text)) := by
    rw [writesZeros_str]
    rintro rfl
    simp [zeros] at hbounds
    omega
  have hdecode : Base64.b64decode (text.toList ++ Base64.padding text.toList.length) = some id.bytes :=
    Base64.b64decode_repad id.byte_lt h
  have htext : (if id.bytes.any (· ≠ 0) then String.ofList (Base64.hex id.bytes) else "") = id.text := by
    by_cases hzero : ∀ b ∈ id.bytes, b = 0
    · rw [id.text_eq_empty hzero, if_neg (by simpa using hzero)]
    · rw [id.text_eq_hex hzero, if_pos (by simpa using hzero)]
  rw [readId, if_neg hwrites, ← htext]
  simp [normalizeId, Python.truthy, hne, hbounds.2.ne, hdecode]

/-- The length tells hex from base64. -/
theorem normalizeId_of_encodes {value : Option Json} (h : EncodesId id value) (hlength : 4 < byteLength) :
    normalizeId (value.getD .null) byteLength = some (readId id value) := by
  have hzeros : zeros byteLength ≠ "" := zeros_ne_empty (by omega)
  cases h with
  | hex h => exact normalizeId_hex h (by omega)
  | base64 h => exact normalizeId_base64 h hlength
  | absent h =>
    rw [readId, if_neg (by simp [WritesZeros])]
    exact normalizeId_empty h rfl
  | null h =>
    rw [readId, if_neg (by simp [WritesZeros])]
    exact normalizeId_empty h rfl
  | empty h =>
    rw [readId, if_neg (writesZeros_str.not.2 hzeros.symm)]
    exact normalizeId_empty h rfl

end Ids

/-! ## Spans -/

/-- What the parser makes of a span. -/
def Sent.read (sent : Sent) : Span :=
  { sent.1.span with
    traceId := readId sent.1.traceId (Json.member sent.2 "traceId")
    spanId := readId sent.1.spanId (Json.member sent.2 "spanId")
    parentSpanId := readId sent.1.parentSpanId (Json.member sent.2 "parentSpanId") }

theorem mapM_eq_some {α β : Type} {f : α → Option β} {ys : List β} {xs : List α}
    (h : List.Forall₂ (fun y x => f x = some y) ys xs) : xs.mapM f = some ys := by
  induction h with
  | nil => rfl
  | cons hhead _ ih => simp [List.mapM_cons, hhead, ih]

mutual

theorem resourceSpans_of_hasItems {document : Json} {items : List Json} :
    HasItems document items → resourceSpans document = some items
  | .bare hresult hlist => by
    rw [resourceSpans]
    split
    · rename_i hsome
      rw [hresult] at hsome
      cases hsome
    · exact hlist.listField_eq
  | .result hresult hinner => by
    have ih := resourceSpans_of_hasItems hinner
    rw [resourceSpans]
    split
    · rename_i hsome
      rw [hresult] at hsome
      cases hsome
      exact ih
    · rename_i hnone
      rw [hresult] at hnone
      cases hnone
  | .chunks h => by
    have ih := resourceSpans_of_chunks h
    rw [resourceSpans, ih]

theorem resourceSpans_of_chunks {chunks items : List Json} :
    ChunksHaveItems chunks items → resourceSpansOfChunks chunks = some items
  | .nil => by rw [resourceSpansOfChunks]
  | .cons hchunk hchunks => by
    have hhead := resourceSpans_of_hasItems hchunk
    have htail := resourceSpans_of_chunks hchunks
    rw [resourceSpansOfChunks, hhead, htail]

end

theorem exists_of_forall₂ {α β : Type} {R : α → β → Prop} {xs : List α} {ys : List β}
    (h : List.Forall₂ R xs ys) : ∀ x ∈ xs, ∃ y ∈ ys, R x y := by
  induction h with
  | nil => simp
  | cons hhead _ ih => 
    simp only [List.mem_cons, forall_eq_or_imp, exists_eq_or_imp]
    exact ⟨.inl hhead, fun x hx => .inr (ih x hx)⟩

section Spans
variable [Python]

theorem parseEvent_of_encodes {event : RecordedEvent} {raw : List (String × Json)} (h : EncodesEvent event raw) :
    parseEvent (.obj raw) = some event.event := by
  simp [parseEvent, h.name.textField_eq, h.timeUnixNano.intField_eq, h.attributes.attributesField_eq,
    RecordedEvent.event]

theorem EncodesEvents.eventsField_eq {events : List RecordedEvent} {members : List (String × Json)}
    (h : EncodesEvents events (Json.member members "events")) :
    eventsField (.obj members) = some (events.map (·.event)) := by
  obtain ⟨hlist, h⟩ := h
  rw [eventsField, hlist.listField_eq, Option.bind_some]
  refine mapM_eq_some ?_
  rw [List.forall₂_map_left_iff, List.forall₂_map_right_iff]
  exact h.imp fun _ _ => parseEvent_of_encodes

theorem EncodesStatus.statusField_eq {status : Fin statusNames.length} {members : List (String × Json)}
    (h : EncodesStatus status (Json.member members "status")) :
    statusField (.obj members) = some statusNames[status] := by
  simp only [statusField, field, Option.bind_some]
  generalize Json.member members "status" = value at h
  have hnames : ∀ name ∈ statusNames, name ≠ "" := by decide
  cases h with
  | status h => simp [enumField, field, h.enum_eq hnames]
  | absent h =>
    have habsent : EncodesEnum statusNames "STATUS_CODE_" status (Json.member [] "code") := .absent h
    simp [enumField, field, habsent.enum_eq hnames]

theorem EncodesResource.resourceField_eq {resource : List (String × Value)} {members : List (String × Json)}
    (h : EncodesResource resource (Json.member members "resource")) :
    resourceField (.obj members) = some (decodeAttributes resource) := by
  simp only [resourceField, field, Option.bind_some]
  generalize Json.member members "resource" = value at h
  cases h with
  | resource h => exact h.attributesField_eq
  | absent h =>
    have habsent : EncodesAttributes resource (Json.member [] "attributes") := .absent h
    exact habsent.attributesField_eq

/-- **One span**, in any of its encodings. -/
theorem parseSpan_of_encodes {sent : Sent} (h : EncodesSpan sent.1 sent.2) :
    parseSpan (decodeAttributes sent.1.resource) (.obj sent.2) = some sent.read := by
  have hkind : enum ((Json.member sent.2 "kind").getD .null) kindNames "SPAN_KIND_" = kindNames[sent.1.kind] :=
    h.kind.enum_eq (by decide)
  simp [parseSpan, idField, enumField, field, normalizeId_of_encodes h.traceId, normalizeId_of_encodes h.spanId,
    normalizeId_of_encodes h.parentSpanId, hkind, h.name.textField_eq, h.startUnixNano.intField_eq,
    h.endUnixNano.intField_eq, h.status.statusField_eq, h.attributes.attributesField_eq, h.events.eventsField_eq,
    Sent.read, RecordedSpan.span]

theorem parseScope_of_carries {resource : List (String × Value)} {sent : List Sent} {raw : Json}
    (h : CarriesScope resource sent raw) :
    parseScope (decodeAttributes resource) raw = some (sent.map Sent.read) := by
  obtain ⟨hlist, hspans⟩ := h
  rw [parseScope, hlist.listField_eq, Option.bind_some]
  refine mapM_eq_some ?_
  rw [List.forall₂_map_left_iff, List.forall₂_map_right_iff, List.forall₂_same]
  intro entry hentry
  obtain ⟨hresource, hspan⟩ := hspans entry hentry
  rw [← hresource]
  exact parseSpan_of_encodes hspan

theorem parseResource_of_carries {sent : List Sent} {raw : Json} (h : CarriesResource sent raw) :
    parseResource raw = some (sent.map Sent.read) := by
  obtain ⟨hresource, hlist, hscopes⟩ := h
  rename_i members resource groups scopes
  have hspans : scopes.mapM (parseScope (decodeAttributes resource)) = some (groups.map (·.map Sent.read)) := by
    refine mapM_eq_some ?_
    rw [List.forall₂_map_left_iff]
    exact hscopes.imp fun _ _ => parseScope_of_carries
  simp [parseResource, hresource.resourceField_eq, hlist.listField_eq, hspans, List.map_flatten]

theorem Carries.encodes {document : Json} {sent : List Sent} (h : Carries document sent) :
    ∀ entry ∈ sent, EncodesSpan entry.1 entry.2 := by
  obtain ⟨-, hgroups⟩ := h
  rintro entry hentry
  obtain ⟨group, hgroup, hentry⟩ := List.mem_flatten.1 hentry
  obtain ⟨raw, -, hresource⟩ := exists_of_forall₂ hgroups group hgroup
  obtain ⟨-, -, hscopes⟩ := hresource
  obtain ⟨scope, hscope, hentry⟩ := List.mem_flatten.1 hentry
  obtain ⟨raw, -, hspans⟩ := exists_of_forall₂ hscopes scope hscope
  obtain ⟨-, hspans⟩ := hspans
  exact (hspans entry hentry).2

/-- **The contract of the parser**: every document is read, span by span. -/
theorem parseSpans_of_carries {document : Json} {sent : List Sent} (h : Carries document sent) :
    parseSpans document = some (sent.map Sent.read) := by
  obtain ⟨hitems, hgroups⟩ := h
  rename_i items groups
  have hspans : items.mapM parseResource = some (groups.map (·.map Sent.read)) := by
    refine mapM_eq_some ?_
    rw [List.forall₂_map_left_iff]
    exact hgroups.imp fun _ _ => parseResource_of_carries
  simp [parseSpans, resourceSpans_of_hasItems hitems, hspans, List.map_flatten]

/-! ## A document with one span -/

/-- A span without parent, attributes and events. -/
def rootSpan : RecordedSpan where
  traceId := ⟨List.replicate 16 0xa1, by simp, by simp⟩
  spanId := ⟨List.replicate 8 0xa1, by simp, by simp⟩
  parentSpanId := ⟨List.replicate 8 0, by simp, by simp⟩
  name := "POST /orders"
  kind := ⟨2, by decide⟩
  startUnixNano := 1000
  endUnixNano := 9000
  status := ⟨0, by decide⟩
  attributes := []
  events := []
  resource := []

/-- A document that writes these spans, all of them in one scope. -/
def documentOf (spans : List (List (String × Json))) : Json :=
  .obj [("resourceSpans", .arr [.obj [("scopeSpans", .arr [.obj [("spans", .arr (spans.map .obj))]])]])]

theorem carries_documentOf (sent : List Sent)
    (h : ∀ entry ∈ sent, entry.1.resource = [] ∧ EncodesSpan entry.1 entry.2) :
    Carries (documentOf (sent.map (·.2))) sent := by
  have hscope : CarriesScope [] sent (.obj [("spans", .arr ((sent.map (·.2)).map .obj))]) := by
    refine .scope ?_ h
    rw [List.map_map]
    exact .list
  have hitem : CarriesResource [sent].flatten
      (.obj [("scopeSpans", .arr [.obj [("spans", .arr ((sent.map (·.2)).map .obj))]])]) :=
    .resource (.absent rfl) .list (.cons hscope .nil)
  have hitems : HasItems (documentOf (sent.map (·.2)))
      [.obj [("scopeSpans", .arr [.obj [("spans", .arr ((sent.map (·.2)).map .obj))]])]] :=
    .bare rfl .list
  have hcarries := Carries.carries hitems (.cons hitem .nil)
  rwa [List.flatten_cons, List.flatten_nil, List.append_nil, List.flatten_cons, List.flatten_nil, List.append_nil] at hcarries

def bareDocument (members : List (String × Json)) : Json :=
  .obj [("resourceSpans", .arr [.obj [("scopeSpans", .arr [.obj [("spans", .arr [.obj members])]])]])]

theorem carries_bareDocument {span : RecordedSpan} {members : List (String × Json)}
    (hresource : span.resource = []) (h : EncodesSpan span members) :
    Carries (bareDocument members) [(span, members)] :=
  carries_documentOf [(span, members)] fun entry hentry => by
    rw [List.mem_singleton.1 hentry]
    exact ⟨hresource, h⟩

end Spans

end Traces

end TxPlatform
