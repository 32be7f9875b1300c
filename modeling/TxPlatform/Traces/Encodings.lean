import TxPlatform.Traces.Reading

/-! # Encodings (traces.py:80-157, tests/unit/test_traces.py:42-67)

Whatever encoding a document chose, the parser should read the spans that were recorded. It does,
but for one spelling: all zeros stand for no id in base64, and as soon as they are written in hex
they are taken for an id. `readAsRecorded_iff` says that nothing else depends on the encoding;
`zeroParent_hex_is_not_base64` is one span whose parent appears with the spelling.
-/

namespace TxPlatform

namespace Traces

/-- The spans of the document are the recorded ones, and the traces are these spans by their trace
ids. -/
def ReadAsRecorded [Python] (document : Json) (recorded : List RecordedSpan) : Prop :=
  parseSpans document = some (recorded.map (·.span)) ∧
    ∀ spans, parseSpans document = some spans → GroupedByTrace spans (groupTraces spans)

/-- Some id of the span is all zeros and written in hex. -/
def Sent.WritesZeroId (sent : Sent) : Prop :=
  WritesZeros 16 (Json.member sent.2 "traceId") ∨ WritesZeros 8 (Json.member sent.2 "spanId") ∨
    WritesZeros 8 (Json.member sent.2 "parentSpanId")

/-- Zeros in hex are no other id in base64. -/
theorem EncodesId.zero_of_writesZeros {byteLength : Nat} {id : Id byteLength} {value : Option Json}
    (h : EncodesId id value) (hlength : 4 < byteLength) (hzeros : WritesZeros byteLength value) :
    ∀ b ∈ id.bytes, b = 0 := by
  have hlist : (zeros byteLength).toList.length = 2 * byteLength := by simp [zeros]
  cases h with
  | hex h =>
    rw [writesZeros_str] at hzeros
    subst hzeros
    refine Base64.zeros_of_hex id.byte_lt fun c hc => ?_
    rw [← h] at hc
    simp only [zeros, String.toList_ofList, List.map_replicate] at hc
    exact List.eq_of_mem_replicate hc
  | base64 h =>
    rw [writesZeros_str] at hzeros
    subst hzeros
    obtain h | h := h
    · rw [h, Base64.length_bare, id.length_bytes] at hlist
      omega
    · rw [h, Base64.length_encode, id.length_bytes] at hlist
      omega
  | absent h => exact h
  | null h => exact h
  | empty h => exact h

/-- The parser reads an id as its text, but for zeros in hex. -/
theorem readId_eq_text_iff {byteLength : Nat} {id : Id byteLength} {value : Option Json}
    (h : EncodesId id value) (hlength : 4 < byteLength) :
    readId id value = id.text ↔ ¬ WritesZeros byteLength value := by
  constructor
  · intro hread hzeros
    rw [readId, if_pos hzeros, id.text_eq_empty (h.zero_of_writesZeros hlength hzeros)] at hread
    exact zeros_ne_empty (by omega) hread
  · exact fun hzeros => if_neg hzeros

theorem read_eq_span_iff [Python] {sent : Sent} (h : EncodesSpan sent.1 sent.2) :
    sent.read = sent.1.span ↔ ¬ sent.WritesZeroId := by
  have hids : sent.read = sent.1.span ↔
      readId sent.1.traceId (Json.member sent.2 "traceId") = sent.1.traceId.text ∧
      readId sent.1.spanId (Json.member sent.2 "spanId") = sent.1.spanId.text ∧
      readId sent.1.parentSpanId (Json.member sent.2 "parentSpanId") = sent.1.parentSpanId.text := by
    simp [Sent.read, RecordedSpan.span]
  rw [hids, readId_eq_text_iff h.traceId (by omega), readId_eq_text_iff h.spanId (by omega),
    readId_eq_text_iff h.parentSpanId (by omega), Sent.WritesZeroId, not_or, not_or]

/-- **Parsing does not depend on the encoding**, exactly as long as no id of zeros is written in
hex. -/
theorem readAsRecorded_iff [Python] {document : Json} {sent : List Sent} (h : Carries document sent) :
    ReadAsRecorded document (sent.map (·.1)) ↔ ∀ entry ∈ sent, ¬ entry.WritesZeroId := by
  have hgrouped : ∀ spans, parseSpans document = some spans → GroupedByTrace spans (groupTraces spans) :=
    fun spans _ => groupTraces_groupedByTrace spans
  rw [ReadAsRecorded, and_iff_left hgrouped, parseSpans_of_carries h, Option.some.injEq, List.map_map,
    List.map_inj_left]
  exact forall₂_congr fun entry hentry => read_eq_span_iff (h.encodes entry hentry)

/-! ## A root span with both spellings of its missing parent -/

def rootMembers (parent : String) : List (String × Json) :=
  [("traceId", .str "a1a1a1a1a1a1a1a1a1a1a1a1a1a1a1a1"), ("spanId", .str "a1a1a1a1a1a1a1a1"),
    ("parentSpanId", .str parent), ("name", .str "POST /orders"), ("kind", .int 2),
    ("startTimeUnixNano", .str "1000"), ("endTimeUnixNano", .str "9000")]

/-- All zeros in base64. -/
def zeroBase64 : String := "AAAAAAAAAAA="

theorem encodesSpan_rootMembers [Python] {parent : String}
    (h : EncodesId rootSpan.parentSpanId (some (.str parent))) : EncodesSpan rootSpan (rootMembers parent) where
  traceId := .hex (by decide)
  spanId := .hex (by decide)
  parentSpanId := h
  name := .text
  kind := .number
  startUnixNano := .int .decimal
  endUnixNano := .int .decimal
  status := .absent rfl
  attributes := .absent rfl
  events := @EncodesEvents.events _ _ _ [] (.absent rfl) .nil

theorem carries_rootMembers [Python] {parent : String} (h : EncodesId rootSpan.parentSpanId (some (.str parent))) :
    Carries (bareDocument (rootMembers parent)) [(rootSpan, rootMembers parent)] :=
  carries_bareDocument rfl (encodesSpan_rootMembers h)

/-- The encodings of the parser's own test: with the parent in base64 the span is read as recorded. -/
theorem readAsRecorded_iff_base64 :
    letI := Python.plain
    Carries (bareDocument (rootMembers zeroBase64)) [(rootSpan, rootMembers zeroBase64)] ∧
      (ReadAsRecorded (bareDocument (rootMembers zeroBase64)) [rootSpan] ↔
        ∀ entry ∈ [(rootSpan, rootMembers zeroBase64)], ¬ Sent.WritesZeroId entry) :=
  have hcarries := @carries_rootMembers Python.plain zeroBase64 (.base64 (.inr (by decide)))
  ⟨hcarries, @readAsRecorded_iff Python.plain _ _ hcarries⟩

/-- In hex the same span has a parent, `"0000000000000000"`, and is no root any more. -/
theorem zeroParent_hex_is_not_base64 :
    letI := Python.plain
    Carries (bareDocument (rootMembers (zeros 8))) [(rootSpan, rootMembers (zeros 8))] ∧
      Carries (bareDocument (rootMembers zeroBase64)) [(rootSpan, rootMembers zeroBase64)] ∧
      parseSpans (bareDocument (rootMembers zeroBase64)) = some [rootSpan.span] ∧ rootSpan.span.isRoot = true ∧
      (∃ span, parseSpans (bareDocument (rootMembers (zeros 8))) = some [span] ∧ span.parentSpanId = "0000000000000000" ∧
        span.isRoot = false) ∧
      ¬ ReadAsRecorded (bareDocument (rootMembers (zeros 8))) [rootSpan] := by
  have hhex := @carries_rootMembers Python.plain (zeros 8) (.hex (by decide))
  have hbase64 := @carries_rootMembers Python.plain zeroBase64 (.base64 (.inr (by decide)))
  have hread := @parseSpans_of_carries Python.plain _ _ hhex
  have hparent : (Sent.read (rootSpan, rootMembers (zeros 8))).parentSpanId = "0000000000000000" := by decide
  refine ⟨hhex, hbase64, @parseSpans_of_carries Python.plain _ _ hbase64, by decide, ⟨_, hread, hparent, by decide⟩, ?_⟩
  rintro ⟨hrecorded, -⟩
  rw [hread] at hrecorded
  have hparents := congrArg (Option.map (·.map (·.parentSpanId))) hrecorded
  revert hparents
  decide

end Traces

end TxPlatform
