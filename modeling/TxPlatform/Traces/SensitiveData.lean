import TxPlatform.Lib.JsonSearch
import TxPlatform.Lib.Regex
import TxPlatform.Traces.Reading

/-! # Sensitive data (tracechecks.py:21-22, 243-251)

`sensitiveData` looks for suspicious attribute names and for a canary in the dump of all attributes
of a trace. A value that a document sends under a key which occurs again later never gets there:
`attributes` builds a dict, and the later value takes its place. `nothingEscapes_iff` says that this
is the only way past the check, and `canary_overwritten` is a span that takes it.
-/

namespace TxPlatform

namespace Traces

/-- A letter under `(?i)`, with the characters outside ASCII that count as it. -/
def ignoringCase (letter c : Char) : Bool :=
  c.toLower = letter || (letter = 'i' && (c = '\u0131' || c = '\u0130')) || (letter = 's' && c = '\u017f')
    || (letter = 'k' && c = '\u212a')

def anyCase (text : String) : Regex := .classes (text.toList.map ignoringCase)

/-- `[._-]?` between two words. -/
def anyCaseJoined (first second : String) : Regex :=
  .seq (anyCase first) (.seq (.times (.set fun c => c = '.' || c = '_' || c = '-') 0 1) (anyCase second))

/-- `SENSITIVE_KEY_PATTERN`. -/
def sensitiveKeyPattern : Regex :=
  .alt (anyCase "authorization") <| .alt (anyCase "cookie") <| .alt (anyCase "password") <|
    .alt (anyCase "passwd") <| .alt (anyCase "secret") <| .alt (anyCase "token") <|
    .alt (anyCaseJoined "api" "key") (anyCaseJoined "card" "number")

section Check
variable [Python]

def keyProblem (span : Span) (key : String) : String := s!"{span.service}/{span.name} has attribute {key}"

/-- `f"canary value {canary[:12]}... found in telemetry"`. -/
def canaryProblem (canary : String) : String :=
  let start := String.ofList (canary.toList.take 12)
  s!"canary value {start}... found in telemetry"

/-- `[span.attributes, [e.attributes for e in span.events], span.resource]`. -/
def Span.telemetry (span : Span) : Json :=
  .arr [.obj span.attributes, .arr (span.events.map fun event => .obj event.attributes), .obj span.resource]

/-- `sensitive_data`. -/
def sensitiveData (trace : Trace) (canaries : List String) : List String :=
  let dump := Json.dumps Json.compact (.arr (trace.spans.map (·.telemetry)))
  (trace.spans.flatMap fun span =>
      (span.attributes.filter fun (key, _) => sensitiveKeyPattern.isMatch key).map fun (key, _) =>
        keyProblem span key)
    ++ (canaries.filter fun canary => canary ≠ "" && canary.toList <:+: dump).map canaryProblem

end Check

/-! ## Canaries in a document -/

/-- A canary is made of ASCII letters, digits and hyphens, as run ids are. -/
def IsCanary (canary : String) : Prop := ∀ c ∈ canary.toList, c.isAlphanum = true ∨ c = '-'

instance (canary : String) : Decidable (IsCanary canary) :=
  decidable_of_iff (canary.toList.all fun c => c.isAlphanum || c = '-') (by simp [IsCanary])

/-- Some attribute key or string in the value, at any depth, contains the canary. -/
inductive Value.Mentions (canary : List Char) : Value → Prop
  | text {text : String} (h : canary <:+: text.toList) : Mentions canary (.text text)
  | item {items : List Value} {item : Value} (hitem : item ∈ items) (h : Mentions canary item) :
      Mentions canary (.array items)
  | key {items : List (String × Value)} {key : String} {value : Value} (hentry : (key, value) ∈ items)
      (h : canary <:+: key.toList) : Mentions canary (.kvlist items)
  | value {items : List (String × Value)} {key : String} {value : Value} (hentry : (key, value) ∈ items)
      (h : Mentions canary value) : Mentions canary (.kvlist items)

/-- The values that have no others in them. -/
def Value.IsScalar : Value → Prop
  | .array _ => False
  | .kvlist _ => False
  | _ => True

/-- The canary is in what `json.dumps` writes for a key, or for a scalar that no later entry with
the same key overwrites. -/
inductive Value.Remains (canary : List Char) : Value → Prop
  | scalar {value : Value} (hscalar : value.IsScalar) (h : canary <:+: Json.dumps Json.compact value.decode) :
      Remains canary value
  | item {items : List Value} {item : Value} (hitem : item ∈ items) (h : Remains canary item) :
      Remains canary (.array items)
  | key {items : List (String × Value)} {key : String} {value : Value} (hentry : (key, value) ∈ items)
      (h : canary <:+: key.toList.flatMap Json.escape) : Remains canary (.kvlist items)
  | value {items : List (String × Value)} {key : String} {value : Value} (hlast : Python.IsLast items key value)
      (h : Remains canary value) : Remains canary (.kvlist items)

/-- The attribute lists of a span, its events and its resource. -/
def RecordedSpan.lists (span : RecordedSpan) : List Value :=
  .kvlist span.attributes :: .kvlist span.resource :: span.events.map fun event => .kvlist event.attributes

def RecordedSpan.Mentions (span : RecordedSpan) (canary : String) : Prop :=
  ∃ list ∈ span.lists, list.Mentions canary.toList

def RecordedSpan.Remains (span : RecordedSpan) (canary : String) : Prop :=
  ∃ list ∈ span.lists, list.Remains canary.toList

section Statement
variable [Python]

/-- The check reports the canary, whatever else it looks for. -/
def ReportsCanary (trace : Trace) (canary : String) : Prop :=
  ∀ canaries, canary ∈ canaries → canaryProblem canary ∈ sensitiveData trace canaries

def ReportsKey (trace : Trace) (span : Span) (key : String) : Prop :=
  ∀ canaries, keyProblem span key ∈ sensitiveData trace canaries

/-- For every span of the document, the check over its trace reports the canary if the span mentions
it, and every attribute key that matches the pattern. -/
def NothingEscapes (document : Json) (recorded : List RecordedSpan) (canary : String) : Prop :=
  ∃ spans, parseSpans document = some spans ∧
    List.Forall₂ (fun (sent : RecordedSpan) (span : Span) => ∃ trace ∈ groupTraces spans, span ∈ trace.spans ∧
      (sent.Mentions canary → ReportsCanary trace canary) ∧
      ∀ entry ∈ sent.attributes, sensitiveKeyPattern.isMatch entry.1 = true → ReportsKey trace span entry.1)
    recorded spans

end Statement

/-- What a span mentions is not lost: something of it remains in a span that is read with the same
trace id. -/
def NotOverwritten (sent : List Sent) (canary : String) : Prop :=
  ∀ entry ∈ sent, entry.1.Mentions canary → canary ≠ "" ∧
    ∃ other ∈ sent, other.read.traceId = entry.read.traceId ∧ other.1.Remains canary

/-! ## What is left of a value -/

theorem decodeItems_eq_map (items : List Value) : decodeItems items = items.map Value.decode := by
  induction items with
  | nil => rfl
  | cons item items ih => rw [decodeItems, ih, List.map_cons]

theorem decodeMembers_eq_map (items : List (String × Value)) :
    decodeMembers items = items.map fun entry => (entry.1, entry.2.decode) := by
  induction items with
  | nil => rfl
  | cons entry items ih => rw [decodeMembers, ih, List.map_cons]

theorem mem_decodeAttributes {items : List (String × Value)} {key : String} {json : Json} :
    (key, json) ∈ decodeAttributes items ↔ ∃ value, Python.IsLast items key value ∧ value.decode = json := by
  rw [decodeAttributes, Python.mem_dict, decodeMembers_eq_map, Python.isLast_map]

theorem remains_of_shows {word : List Char} {json : Json} (h : json.Shows word) :
    ∀ {value : Value}, value.decode = json → value.Remains word := by
  induction h with
  | scalar hscalar h =>
    rintro value rfl
    refine .scalar ?_ h
    cases value with
    | array => cases hscalar
    | kvlist => cases hscalar
    | _ => trivial
  | item hitem _ ih =>
    intro value hvalue
    cases value with
    | array items =>
      rw [← Json.arr.inj hvalue, decodeItems_eq_map] at hitem
      obtain ⟨item, hmem, hdecode⟩ := List.mem_map.1 hitem
      exact .item hmem (ih hdecode)
    | _ => cases hvalue
  | key hmember h =>
    intro value hvalue
    cases value with
    | kvlist items =>
      rw [← Json.obj.inj hvalue] at hmember
      obtain ⟨value, hlast, -⟩ := mem_decodeAttributes.1 hmember
      exact .key hlast.mem h
    | _ => cases hvalue
  | member hmember _ ih =>
    intro value hvalue
    cases value with
    | kvlist items =>
      rw [← Json.obj.inj hvalue] at hmember
      obtain ⟨value, hlast, hvalue⟩ := mem_decodeAttributes.1 hmember
      exact .value hlast (ih hvalue)
    | _ => cases hvalue

theorem shows_of_remains {word : List Char} {value : Value} (h : value.Remains word) :
    value.decode.Shows word := by
  induction h with
  | @scalar value hscalar h =>
    refine .scalar ?_ h
    cases value with
    | array => cases hscalar
    | kvlist => cases hscalar
    | _ => trivial
  | item hitem _ ih =>
    rw [Value.decode, decodeItems_eq_map]
    exact .item (List.mem_map_of_mem hitem) ih
  | @key items key value hentry h =>
    obtain ⟨value, hlast⟩ := Python.exists_isLast hentry
    exact .key (mem_decodeAttributes.2 ⟨value, hlast, rfl⟩) h
  | value hlast _ ih => exact .member (mem_decodeAttributes.2 ⟨_, hlast, rfl⟩) ih

theorem shows_decode_iff {word : List Char} {value : Value} : value.decode.Shows word ↔ value.Remains word :=
  ⟨fun h => remains_of_shows h rfl, shows_of_remains⟩

/-- The dump of a span shows what remains of it. -/
theorem shows_telemetry_iff {sent : Sent} {canary : String} :
    sent.read.telemetry.Shows canary.toList ↔ sent.1.Remains canary := by
  have hlists : sent.read.telemetry.Shows canary.toList ↔
      ∃ list ∈ sent.1.lists, list.decode.Shows canary.toList := by
    simp [Span.telemetry, Sent.read, RecordedSpan.span, RecordedEvent.event, RecordedSpan.lists, Json.shows_arr,
      Value.decode, decodeAttributes, or_comm]
  simp only [hlists, shows_decode_iff, RecordedSpan.Remains]

/-! ## The check -/

theorem IsCanary.not_isBorder {canary : String} (h : IsCanary canary) : ∀ c ∈ canary.toList, Json.isBorder c = false := by
  intro c hc
  by_contra hborder
  simp only [Json.isBorder, Json.isSpace, Bool.not_eq_false, Bool.or_eq_true, decide_eq_true_eq] at hborder
  have hkind := h c hc
  rcases hborder with ((((((((((rfl | rfl) | rfl) | rfl) | rfl) | rfl) | rfl) | rfl) | rfl) | rfl) | rfl) <;>
    revert hkind <;> decide

theorem IsCanary.slash_not_mem {canary : String} (h : IsCanary canary) : '/' ∉ canary.toList := by
  intro hc
  have hkind := h '/' hc
  revert hkind
  decide

theorem dump_iff {canary : String} {trace : Trace} (h : IsCanary canary) (hne : canary ≠ "") :
    canary.toList <:+: Json.dumps Json.compact (.arr (trace.spans.map (·.telemetry))) ↔
      ∃ span ∈ trace.spans, span.telemetry.Shows canary.toList := by
  have hnil : canary.toList ≠ [] := by simpa using hne
  rw [Json.dumps, Json.infix_write h.not_isBorder hnil, Json.shows_arr]
  simp

section Check
variable [Python] {canary : String} {trace : Trace}

/-- No attribute name makes up the report of a canary. -/
theorem keyProblem_ne_canaryProblem (h : IsCanary canary) (span : Span) (key : String) :
    keyProblem span key ≠ canaryProblem canary := by
  intro heq
  have hslash : '/' ∈ (canaryProblem canary).toList := by
    rw [← heq]
    simp [keyProblem, toString]
  have htake : '/' ∉ canary.toList.take 12 := fun hc => h.slash_not_mem (List.mem_of_mem_take hc)
  simp [canaryProblem, toString, htake] at hslash

theorem reportsCanary_iff (h : IsCanary canary) :
    ReportsCanary trace canary ↔
      canary ≠ "" ∧ ∃ span ∈ trace.spans, span.telemetry.Shows canary.toList := by
  constructor
  · intro hreports
    obtain hkeys | hcanaries := List.mem_append.1 (hreports [canary] (by simp))
    · obtain ⟨span, -, hspan⟩ := List.mem_flatMap.1 hkeys
      obtain ⟨entry, -, hentry⟩ := List.mem_map.1 hspan
      exact absurd hentry (keyProblem_ne_canaryProblem h span entry.1)
    · obtain ⟨found, hfound, -⟩ := List.mem_map.1 hcanaries
      obtain ⟨hmem, hcheck⟩ := List.mem_filter.1 hfound
      rw [List.mem_singleton.1 hmem, Bool.and_eq_true, decide_eq_true_eq, decide_eq_true_eq] at hcheck
      exact ⟨hcheck.1, (dump_iff h hcheck.1).1 hcheck.2⟩
  · rintro ⟨hne, hshows⟩ canaries hmem
    refine List.mem_append_right _ (List.mem_map_of_mem (List.mem_filter.2 ⟨hmem, ?_⟩))
    rw [Bool.and_eq_true, decide_eq_true_eq, decide_eq_true_eq]
    exact ⟨hne, (dump_iff h hne).2 hshows⟩

/-- What a verdict without problems says of one canary. -/
theorem sensitiveData_eq_nil (h : IsCanary canary) (hne : canary ≠ "") : sensitiveData trace [canary] = [] ↔
    (∀ span ∈ trace.spans, ∀ entry ∈ span.attributes, sensitiveKeyPattern.isMatch entry.1 = false) ∧
      ∀ span ∈ trace.spans, ¬ span.telemetry.Shows canary.toList := by
  have hdump := @dump_iff canary trace h hne
  simp only [sensitiveData, List.append_eq_nil_iff, List.flatMap_eq_nil_iff, List.map_eq_nil_iff,
    List.filter_eq_nil_iff, List.forall_mem_singleton, Bool.and_eq_true, decide_eq_true_eq, hdump, not_and, not_exists,
    Bool.not_eq_true]
  exact and_congr_right fun _ => ⟨fun hshown => hshown hne, fun hshown _ => hshown⟩

theorem reportsKey {span : Span} (hspan : span ∈ trace.spans) {key : String} {value : Json}
    (hkey : (key, value) ∈ span.attributes) (hmatch : sensitiveKeyPattern.isMatch key = true) :
    ReportsKey trace span key := by
  intro canaries
  refine List.mem_append_left _ (List.mem_flatMap.2 ⟨span, hspan, ?_⟩)
  exact List.mem_map.2 ⟨(key, value), List.mem_filter.2 ⟨hkey, hmatch⟩, rfl⟩

end Check

/-! ## Lists without a repeated key lose nothing -/

/-- No list in the value has a key twice. -/
inductive Value.Unrepeated : Value → Prop
  | scalar {value : Value} (hscalar : value.IsScalar) : Unrepeated value
  | array {items : List Value} (h : ∀ item ∈ items, Unrepeated item) : Unrepeated (.array items)
  | kvlist {items : List (String × Value)} (hnodup : (items.map (·.1)).Nodup)
      (h : ∀ entry ∈ items, Unrepeated entry.2) : Unrepeated (.kvlist items)

theorem IsCanary.flatMap_escape {canary : String} (h : IsCanary canary) :
    canary.toList.flatMap Json.escape = canary.toList := by
  have hescape : ∀ c ∈ canary.toList, Json.escape c = [c] := by
    intro c hc
    have hkind := h c hc
    have hrange : c.toNat < 128 := by
      obtain halnum | rfl := hkind
      · exact toNat_lt_of_isAlphanum halnum
      · decide
    have key : ∀ v : Fin 128, (Char.ofNat v).isAlphanum = true ∨ Char.ofNat v = '-' →
        Json.escape (Char.ofNat v) = [Char.ofNat v] := by decide
    have hc' := key ⟨c.toNat, hrange⟩
    simp only [Char.ofNat_toNat] at hc'
    exact hc' hkind
  rw [List.flatMap_congr hescape]
  simp

theorem Value.Mentions.remains {canary : String} (hcanary : IsCanary canary) {value : Value}
    (h : value.Mentions canary.toList) : value.Unrepeated → value.Remains canary.toList := by
  have hescape : ∀ text : String, canary.toList <:+: text.toList →
      canary.toList <:+: text.toList.flatMap Json.escape := by
    intro text htext
    have hmap := htext.flatMap Json.escape
    rwa [hcanary.flatMap_escape] at hmap
  induction h with
  | @text text h =>
    intro _
    have hquote : Json.dumps Json.compact (Value.text text).decode =
        ['"'] ++ text.toList.flatMap Json.escape ++ ['"'] := by
      simp [Value.decode, Json.dumps, Json.write, Json.quote]
    refine .scalar trivial ?_
    rw [hquote]
    exact (hescape text h).trans (List.infix_append _ _ _)
  | item hitem _ ih =>
    rintro (hscalar | hitems)
    · cases hscalar
    · exact .item hitem (ih (hitems _ hitem))
  | key hentry h => exact fun _ => .key hentry (hescape _ h)
  | value hentry _ ih =>
    rintro (hscalar | _ | ⟨hnodup, hitems⟩)
    · cases hscalar
    · exact .value (Python.isLast_of_nodup hnodup hentry) (ih (hitems _ hentry))

theorem notOverwritten_of_unrepeated {sent : List Sent} {canary : String} (hcanary : IsCanary canary)
    (hne : canary ≠ "") (h : ∀ entry ∈ sent, ∀ list ∈ entry.1.lists, list.Unrepeated) :
    NotOverwritten sent canary := by
  rintro entry hentry ⟨list, hlist, hmentions⟩
  exact ⟨hne, entry, hentry, rfl, list, hlist, hmentions.remains hcanary (h entry hentry list hlist)⟩

/-- What the check over a trace reports, said of the spans of the document. -/
theorem reportsCanary_of_groupTraces [Python] {sent : List Sent} {canary : String} (h : IsCanary canary)
    {trace : Trace} (htrace : trace ∈ groupTraces (sent.map Sent.read)) :
    ReportsCanary trace canary ↔
      canary ≠ "" ∧ ∃ other ∈ sent, other.read.traceId = trace.traceId ∧ other.1.Remains canary := by
  rw [reportsCanary_iff h]
  simp only [mem_spans_groupTraces htrace, List.mem_map, and_congr_right_iff]
  intro _
  constructor
  · rintro ⟨_, ⟨⟨other, hother, rfl⟩, hid⟩, hshows⟩
    exact ⟨other, hother, hid, shows_telemetry_iff.1 hshows⟩
  · rintro ⟨other, hother, hid, hremains⟩
    exact ⟨other.read, ⟨⟨other, hother, rfl⟩, hid⟩, shows_telemetry_iff.2 hremains⟩

/-- **No canary escapes**, exactly when nothing the document mentions is overwritten by a later
entry with the same key. -/
theorem nothingEscapes_iff [Python] {document : Json} {sent : List Sent} (h : Carries document sent)
    {canary : String} (hcanary : IsCanary canary) :
    NothingEscapes document (sent.map (·.1)) canary ↔ NotOverwritten sent canary := by
  have hparse := parseSpans_of_carries h
  have hentries : NothingEscapes document (sent.map (·.1)) canary ↔ ∀ entry ∈ sent,
      ∃ trace ∈ groupTraces (sent.map Sent.read), entry.read ∈ trace.spans ∧
        (entry.1.Mentions canary → ReportsCanary trace canary) ∧
        ∀ pair ∈ entry.1.attributes, sensitiveKeyPattern.isMatch pair.1 = true →
          ReportsKey trace entry.read pair.1 := by
    simp only [NothingEscapes, hparse, Option.some.injEq, exists_eq_left', List.forall₂_map_left_iff,
      List.forall₂_map_right_iff, List.forall₂_same]
  rw [hentries]
  refine forall₂_congr fun entry hentry => ?_
  constructor
  · rintro ⟨trace, htrace, hmem, hreports, -⟩ hmentions
    rw [((mem_spans_groupTraces htrace).1 hmem).2]
    exact (reportsCanary_of_groupTraces hcanary htrace).1 (hreports hmentions)
  · intro hremains
    obtain ⟨trace, htrace, hmem⟩ := exists_mem_groupTraces (List.mem_map_of_mem (f := Sent.read) hentry)
    refine ⟨trace, htrace, hmem, fun hmentions => ?_, fun pair hpair hmatch => ?_⟩
    · rw [reportsCanary_of_groupTraces hcanary htrace, ← ((mem_spans_groupTraces htrace).1 hmem).2]
      exact hremains hmentions
    · obtain ⟨last, hlast⟩ := Python.exists_isLast hpair
      exact reportsKey hmem (mem_decodeAttributes.2 ⟨last, hlast, rfl⟩) hmatch

/-! ## A run id under a key that comes again -/

/-- A span with an attribute `note` for each of these texts. -/
def notedSpan (notes : List String) : RecordedSpan :=
  { rootSpan with attributes := notes.map fun note => ("note", .text note) }

def notedMembers (notes : List String) : List (String × Json) :=
  [("traceId", .str "a1a1a1a1a1a1a1a1a1a1a1a1a1a1a1a1"), ("spanId", .str "a1a1a1a1a1a1a1a1"),
    ("name", .str "POST /orders"), ("kind", .int 2), ("startTimeUnixNano", .int 1000),
    ("endTimeUnixNano", .int 9000),
    ("attributes", .arr (notes.map fun note =>
      .obj [("key", .str "note"), ("value", .obj [("stringValue", .str note)])]))]

theorem carries_notedMembers [Python] (notes : List String) :
    Carries (bareDocument (notedMembers notes)) [(notedSpan notes, notedMembers notes)] := by
  have hmembers : EncodesMembers (notes.map fun note => ("note", .text note))
      (notes.map fun note => .obj [("key", .str "note"), ("value", .obj [("stringValue", .str note)])]) := by
    induction notes with
    | nil => exact .nil
    | cons note notes ih => exact .cons rfl rfl (.text (holds_singleton _ _)) ih
  refine carries_bareDocument rfl ?_
  exact {
    traceId := .hex rfl
    spanId := .hex rfl
    parentSpanId := .absent (by simp [notedSpan, rootSpan])
    name := .text
    kind := .number
    startUnixNano := .int .number
    endUnixNano := .int .number
    status := .absent rfl
    attributes := .list hmembers
    events := @EncodesEvents.events _ _ _ [] (.absent rfl) .nil }

theorem nothingEscapes_iff_once :
    letI := Python.plain
    Carries (bareDocument (notedMembers ["canary-0b8f"]))
        [(notedSpan ["canary-0b8f"], notedMembers ["canary-0b8f"])] ∧ IsCanary "canary-0b8f" ∧
      (NothingEscapes (bareDocument (notedMembers ["canary-0b8f"])) [notedSpan ["canary-0b8f"]] "canary-0b8f" ↔
        NotOverwritten [(notedSpan ["canary-0b8f"], notedMembers ["canary-0b8f"])] "canary-0b8f") :=
  have hcarries := @carries_notedMembers Python.plain ["canary-0b8f"]
  have hcanary : IsCanary "canary-0b8f" := by decide
  ⟨hcarries, hcanary, @nothingEscapes_iff Python.plain _ _ hcarries _ hcanary⟩

/-- The span sends the canary and then `ok` under the same key: the check finds nothing. -/
theorem canary_overwritten :
    letI := Python.plain
    Carries (bareDocument (notedMembers ["canary-0b8f", "ok"]))
        [(notedSpan ["canary-0b8f", "ok"], notedMembers ["canary-0b8f", "ok"])] ∧ IsCanary "canary-0b8f" ∧
      (notedSpan ["canary-0b8f", "ok"]).Mentions "canary-0b8f" ∧
      (∃ spans, parseSpans (bareDocument (notedMembers ["canary-0b8f", "ok"])) = some spans ∧
        (groupTraces spans).map (sensitiveData · ["canary-0b8f"]) = [[]]) ∧
      ¬ NothingEscapes (bareDocument (notedMembers ["canary-0b8f", "ok"])) [notedSpan ["canary-0b8f", "ok"]]
        "canary-0b8f" := by
  have hcarries := @carries_notedMembers Python.plain ["canary-0b8f", "ok"]
  have hread := @parseSpans_of_carries Python.plain _ _ hcarries
  have hmentions : (notedSpan ["canary-0b8f", "ok"]).Mentions "canary-0b8f" := by
    refine ⟨_, List.mem_cons_self, .value (List.mem_cons_self) (.text (List.infix_refl _))⟩
  have hsilent : (groupTraces [Sent.read (notedSpan ["canary-0b8f", "ok"], notedMembers ["canary-0b8f", "ok"])]).map
      (@sensitiveData Python.plain · ["canary-0b8f"]) = [[]] := by
    decide
  refine ⟨hcarries, by decide, hmentions, ⟨_, hread, hsilent⟩, ?_⟩
  rintro ⟨spans, hspans, hescapes⟩
  rw [hread, Option.some.injEq] at hspans
  subst hspans
  obtain ⟨hfirst, -⟩ := List.forall₂_cons.1 hescapes
  obtain ⟨trace, htrace, -, hreports, -⟩ := hfirst
  have hreported := hreports hmentions ["canary-0b8f"] (by simp)
  have hnil : @sensitiveData Python.plain trace ["canary-0b8f"] ∈ [([] : List String)] := by
    rw [← hsilent]
    exact List.mem_map_of_mem htrace
  rw [List.mem_singleton.1 hnil] at hreported
  cases hreported

end Traces

end TxPlatform
