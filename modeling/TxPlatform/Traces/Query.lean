import TxPlatform.Lib.JsonLaws
import TxPlatform.Traces.Encodings

/-! # The answers of the Jaeger Query API (jaeger.py:24-105)

The API may cut an answer into several JSON objects, one after another, with or without spaces between
them. A client must not see how an answer was cut, nor how its ids, numbers and enumerations were written.
-/

namespace TxPlatform

namespace Traces

/-- The loop of `_json_documents`. Every document takes a character, so the length of the text is fuel enough,
and depth enough for each. -/
def readDocuments (depth : Nat) : Nat → List Char → Option (List Json)
  | 0, _ => none
  | fuel + 1, text =>
    match text.dropWhile Python.isSpace with
    | [] => some []
    | c :: text =>
      match Json.value depth (c :: text) with
      | none => none
      | some (document, text) => (readDocuments depth fuel text).map (document :: ·)

/-- `_json_documents`. -/
def jsonDocuments (text : List Char) : Option (List Json) := readDocuments (text.length + 1) (text.length + 1) text

/-- What `httpx` got. -/
structure QueryAnswer where
  status : Nat
  text : List Char

section Client
variable [Python]

/-- `raise_for_status`, then the traces of the documents. -/
def readTraces (answer : QueryAnswer) : Option (List Trace) :=
  if 200 ≤ answer.status ∧ answer.status < 300 then do
    let documents ← jsonDocuments answer.text
    let spans ← parseSpans (.arr documents)
    return groupTraces spans
  else none

/-- `get_trace`; nothing is an exception. -/
def getTrace (traceId : String) (answer : QueryAnswer) : Option (Option Trace) :=
  if answer.status = 404 then some none
  else (readTraces answer).map fun found => found.find? (·.traceId = traceId)

/-- `find_traces`. -/
def findTraces (answer : QueryAnswer) : Option (List Trace) :=
  if answer.status = 404 then some [] else readTraces answer

end Client

end Traces

/-! ## Texts one after another -/

namespace Json

theorem scanScalar_ne_obj {cs rest : List Char} {members : List (String × Json)} :
    scanScalar cs ≠ some (.obj members, rest) := by
  intro h
  unfold scanScalar at h
  split at h
  case h_7 =>
    unfold scanNumber at h
    dsimp only at h
    split at h
    · cases h
    · have hnumber := congrArg Prod.fst (Option.some.inj h)
      dsimp only [numberValue] at hnumber
      split at hnumber <;> cases hnumber
  all_goals
    obtain ⟨_, _, heq⟩ := Option.map_eq_some_iff.1 h
    cases heq

/-- The text of an object begins with its bracket. -/
theorem head_of_value_obj {fuel : Nat} {cs rest : List Char} {members : List (String × Json)}
    (h : value fuel cs = some (.obj members, rest)) : ∃ tail, cs = '{' :: tail := by
  cases fuel with
  | zero => cases h
  | succ fuel =>
    obtain ⟨_, _, _, _, heq⟩ | ⟨_, _, ⟨_, heq⟩ | ⟨_, _, _, heq⟩⟩ | ⟨tail, hcs, _⟩ | ⟨_, hscalar⟩ := value_cases h
    · cases heq
    · cases heq
    · cases heq
    · exact ⟨tail, hcs⟩
    · exact absurd hscalar scanScalar_ne_obj

theorem skipSpace_spec (cs : List Char) : ∃ spaces, cs = spaces ++ skipSpace cs ∧ ∀ c ∈ spaces, isSpace c = true :=
  ⟨cs.takeWhile isSpace, (List.takeWhile_append_dropWhile).symm, fun _ => List.mem_takeWhile_imp⟩

/-- The text of one object, perhaps with spaces around it. -/
def IsObject (text : List Char) (document : Json) : Prop :=
  ∃ members, document = .obj members ∧ loads text = some document

end Json

namespace Traces

open Json (IsObject isSpace skipSpace)

theorem isSpace_of_isSpace {c : Char} (h : isSpace c = true) : Python.isSpace c = true := by
  simp only [isSpace, Bool.or_eq_true, decide_eq_true_eq] at h
  obtain ((rfl | rfl) | rfl) | rfl := h <;> decide

/-- A document is read off the front, whatever follows that does not go on with a number. -/
theorem readDocuments_object {text spaces more : List Char} {document : Json} (h : IsObject text document)
    (hspaces : ∀ c ∈ spaces, isSpace c = true) (hmore : Json.Ends more) {depth : Nat} (hdepth : text.length < depth) (fuel : Nat) :
    ∃ rest, (∀ c ∈ rest, isSpace c = true) ∧
      readDocuments depth (fuel + 1) (spaces ++ (text ++ more)) =
        (readDocuments depth fuel (rest ++ more)).map (document :: ·) := by
  obtain ⟨members, rfl, hloads⟩ := h
  unfold Json.loads at hloads
  split at hloads
  · cases hloads
  · rename_i json rest hvalue
    split at hloads
    · rename_i hrest
      cases hloads
      obtain ⟨tail, htail⟩ := Json.head_of_value_obj hvalue
      obtain ⟨before, htext, hbefore⟩ := Json.skipSpace_spec text
      have hspaceRest : ∀ c ∈ rest, isSpace c = true := by
        obtain ⟨all, hall, hspace⟩ := Json.skipSpace_spec rest
        rw [hrest, List.append_nil] at hall
        exact hall ▸ hspace
      rw [htail] at htext hvalue
      have hdrop : (spaces ++ (text ++ more)).dropWhile Python.isSpace = '{' :: (tail ++ more) := by
        rw [htext, List.append_assoc, ← List.append_assoc, List.dropWhile_append_of_pos]
        · rfl
        · intro c hc
          obtain hc | hc := List.mem_append.1 hc
          · exact isSpace_of_isSpace (hspaces c hc)
          · exact isSpace_of_isSpace (hbefore c hc)
      have hread : Json.value depth ('{' :: (tail ++ more)) = some (.obj members, rest ++ more) :=
        (Json.stable _).1 hdepth hvalue (Json.ends_spaces hspaceRest hmore)
      refine ⟨rest, hspaceRest, ?_⟩
      simp only [readDocuments, hdrop, hread]
    · cases hloads

/-- An object's text does not go on with a number. -/
theorem ends_of_isObject {text : List Char} {document : Json} (h : IsObject text document) (more : List Char) :
    Json.Ends (text ++ more) := by
  obtain ⟨members, rfl, hloads⟩ := h
  unfold Json.loads at hloads
  split at hloads
  · cases hloads
  · rename_i json rest hvalue
    split at hloads
    · cases hloads
      obtain ⟨tail, htail⟩ := Json.head_of_value_obj hvalue
      exact Json.ends_of_skipSpace htail (by decide)
    · cases hloads

theorem readDocuments_flatten {chunks : List (List Char × Json)} (h : ∀ chunk ∈ chunks, IsObject chunk.1 chunk.2)
    {depth : Nat}
    (hdepth : ∀ chunk ∈ chunks, chunk.1.length < depth) {fuel : Nat} (hfuel : chunks.length < fuel) {spaces : List Char}
    (hspaces : ∀ c ∈ spaces, isSpace c = true) :
    readDocuments depth fuel (spaces ++ chunks.flatMap (·.1)) = some (chunks.map (·.2)) := by
  induction chunks generalizing fuel spaces with
  | nil =>
    obtain ⟨fuel, rfl⟩ : ∃ n, fuel = n + 1 := ⟨fuel - 1, by simp at hfuel; omega⟩
    have hdrop : spaces.dropWhile Python.isSpace = [] :=
      List.dropWhile_eq_nil_iff.2 fun c hc => isSpace_of_isSpace (hspaces c hc)
    simp [readDocuments, hdrop]
  | cons chunk chunks ih =>
    rw [List.length_cons] at hfuel
    obtain ⟨fuel, rfl⟩ : ∃ n, fuel = n + 1 := ⟨fuel - 1, by omega⟩
    have hrest := fun other hmem => h other (List.mem_cons_of_mem chunk hmem)
    have hends : Json.Ends (chunks.flatMap (·.1)) := by
      cases chunks with
      | nil => exact Json.ends_nil
      | cons next others => exact ends_of_isObject (hrest next List.mem_cons_self) _
    obtain ⟨rest, hspace, hread⟩ := readDocuments_object (h chunk List.mem_cons_self) hspaces hends
      (hdepth chunk List.mem_cons_self) fuel
    rw [List.flatMap_cons, hread, ih hrest (fun other hmem => hdepth other (List.mem_cons_of_mem chunk hmem)) (by omega) hspace]
    rfl

theorem length_pos_of_isObject {text : List Char} {document : Json} (h : IsObject text document) : 0 < text.length := by
  obtain ⟨members, -, hloads⟩ := h
  cases text with
  | nil => cases hloads
  | cons c text => exact Nat.succ_pos _

/-- Neither the chunks nor one of them is longer than the text. -/
theorem length_le_flatMap {chunks : List (List Char × Json)} (h : ∀ chunk ∈ chunks, IsObject chunk.1 chunk.2) :
    chunks.length ≤ (chunks.flatMap (·.1)).length ∧ ∀ chunk ∈ chunks, chunk.1.length ≤ (chunks.flatMap (·.1)).length := by
  induction chunks with
  | nil => simp
  | cons chunk chunks ih =>
    obtain ⟨hcount, hlength⟩ := ih fun other hmem => h other (List.mem_cons_of_mem chunk hmem)
    have hpos := length_pos_of_isObject (h chunk List.mem_cons_self)
    simp only [List.flatMap_cons, List.length_append, List.length_cons, List.mem_cons, forall_eq_or_imp]
    refine ⟨by omega, by omega, fun other hmem => ?_⟩
    have := hlength other hmem
    omega

/-- **Cutting an answer into documents does not matter**: each document is read, in order. -/
theorem jsonDocuments_flatten {chunks : List (List Char × Json)} (h : ∀ chunk ∈ chunks, IsObject chunk.1 chunk.2) :
    jsonDocuments (chunks.flatMap (·.1)) = some (chunks.map (·.2)) := by
  obtain ⟨hcount, hlength⟩ := length_le_flatMap h
  exact readDocuments_flatten h (fun chunk hmem => Nat.lt_succ_of_le (hlength chunk hmem)) (Nat.lt_succ_of_le hcount)
    fun c hc => absurd hc List.not_mem_nil

/-! ## From an answer to a trace -/

section Answer
variable [Python]

/-- An answer whose documents carry these spans. -/
structure Streams (chunks : List (List Char × Json)) (sent : List (List Sent)) : Prop where
  objects : ∀ chunk ∈ chunks, IsObject chunk.1 chunk.2
  carries : List.Forall₂ (fun spans chunk => Carries chunk.2 spans) sent chunks

theorem chunksHaveItems {chunks : List (List Char × Json)} {sent : List (List Sent)}
    (h : List.Forall₂ (fun spans chunk => Carries chunk.2 spans) sent chunks) :
    Carries (.arr (chunks.map (·.2))) sent.flatten := by
  suffices hboth : ∃ items groups, ChunksHaveItems (chunks.map (·.2)) items ∧ List.Forall₂ CarriesResource groups items ∧
      groups.flatten = sent.flatten by
    obtain ⟨items, groups, hitems, hgroups, hflatten⟩ := hboth
    exact hflatten ▸ .carries (.chunks hitems) hgroups
  induction h with
  | nil => exact ⟨[], [], .nil, .nil, rfl⟩
  | cons hhead _ ih =>
    obtain ⟨items, groups, hitems, hgroups, hflatten⟩ := ih
    obtain ⟨hitemsHead, hgroupsHead⟩ := hhead
    exact ⟨_, _, .cons hitemsHead hitems, List.rel_append hgroupsHead hgroups, by simp [hflatten]⟩

theorem readTraces_of_streams {chunks : List (List Char × Json)} {sent : List (List Sent)} (h : Streams chunks sent)
    {status : Nat}
    (hstatus : 200 ≤ status ∧ status < 300) :
    readTraces ⟨status, chunks.flatMap (·.1)⟩ = some (groupTraces (sent.flatten.map Sent.read)) := by
  have hspans := parseSpans_of_carries (chunksHaveItems h.carries)
  simp only [readTraces, if_pos hstatus, jsonDocuments_flatten h.objects, Option.bind_eq_bind, Option.bind_some, hspans]
  rfl

/-- The trace that these spans make up: the ones with the id in order of their start times. -/
def traceOf (spans : List Span) (traceId : String) : Option Trace :=
  let found := spans.filter (·.traceId = traceId)
  if found = [] then none else some ⟨traceId, found.insertionSort Span.NotAfter⟩

theorem getTrace_read {chunks : List (List Char × Json)} {sent : List (List Sent)} (h : Streams chunks sent)
    {status : Nat}
    (hstatus : 200 ≤ status ∧ status < 300) (traceId : String) :
    getTrace traceId ⟨status, chunks.flatMap (·.1)⟩ = some (traceOf (sent.flatten.map Sent.read) traceId) := by
  have hfound : status ≠ 404 := by omega
  simp only [getTrace, hfound, if_false, readTraces_of_streams h hstatus, Option.map_some, Option.some.injEq, traceOf]
  generalize sent.flatten.map Sent.read = spans
  cases hfind : (groupTraces spans).find? (·.traceId = traceId) with
  | none =>
    have hnone : spans.filter (·.traceId = traceId) = [] := by
      refine List.filter_eq_nil_iff.2 fun span hspan hid => ?_
      obtain ⟨trace, htrace, hmem⟩ := exists_mem_groupTraces hspan
      have hkey := ((mem_spans_groupTraces htrace).1 hmem).2
      have hid : span.traceId = traceId := of_decide_eq_true hid
      exact List.find?_eq_none.1 hfind trace htrace (decide_eq_true (hkey.symm.trans hid))
    simp [hnone]
  | some trace =>
    have htrace := List.mem_of_find?_eq_some hfind
    have hid : trace.traceId = traceId := by simpa using List.find?_some hfind
    have hspans := mem_groupTraces htrace
    rw [hid] at hspans
    have hsome : spans.filter (·.traceId = traceId) ≠ [] := by
      obtain ⟨⟨key, items⟩, hgroup, rfl⟩ := List.mem_map.1 htrace
      obtain ⟨⟨span, hspan, hkey⟩, -⟩ := mem_grouped.1 hgroup
      exact List.ne_nil_of_mem (List.mem_filter.2 ⟨hspan, decide_eq_true (hkey.trans hid)⟩)
    rw [if_neg hsome, ← hspans, ← hid]

omit [Python] in
/-- Spans that make up the same traces are the same spans. -/
theorem mem_of_traceOf_eq {spans others : List Span} (h : ∀ traceId, traceOf spans traceId = traceOf others traceId)
    {span : Span} (hspan : span ∈ spans) : span ∈ others := by
  have hfound : span ∈ spans.filter (·.traceId = span.traceId) := List.mem_filter.2 ⟨hspan, decide_eq_true rfl⟩
  have hsame := h span.traceId
  simp only [traceOf, if_neg (List.ne_nil_of_mem hfound)] at hsame
  split at hsame
  · cases hsame
  · obtain ⟨-, hsorted⟩ := Trace.mk.inj (Option.some.inj hsame)
    have hmem : span ∈ (others.filter (·.traceId = span.traceId)).insertionSort Span.NotAfter := by
      rw [← hsorted]
      exact (List.mem_insertionSort _).2 hfound
    exact List.mem_of_mem_filter ((List.mem_insertionSort _).1 hmem)

/-- **`get_trace` finds what was recorded**, under every id and however the answer was cut and encoded, exactly
as long as no id of zeros is written in hex: the spans with the id in order of their start times, and no
trace without such a span. -/
theorem getTrace_of_streams {chunks : List (List Char × Json)} {sent : List (List Sent)} (h : Streams chunks sent)
    {status : Nat}
    (hstatus : 200 ≤ status ∧ status < 300) :
    (∀ traceId, getTrace traceId ⟨status, chunks.flatMap (·.1)⟩ = some (traceOf (sent.flatten.map (·.1.span)) traceId)) ↔
      ∀ entry ∈ sent.flatten, ¬ entry.WritesZeroId := by
  have hencodes := (chunksHaveItems h.carries).encodes
  simp only [getTrace_read h hstatus, Option.some.injEq]
  constructor
  · intro hsame entry hentry hzero
    obtain ⟨other, -, hother⟩ := List.mem_map.1 (mem_of_traceOf_eq hsame (List.mem_map_of_mem hentry))
    rcases hzero with hzero | hzero | hzero
    · exact other.1.traceId.text_ne_zeros (by omega) ((congrArg Span.traceId hother).trans (if_pos hzero))
    · exact other.1.spanId.text_ne_zeros (by omega) ((congrArg Span.spanId hother).trans (if_pos hzero))
    · exact other.1.parentSpanId.text_ne_zeros (by omega) ((congrArg Span.parentSpanId hother).trans (if_pos hzero))
  · intro hnone traceId
    have hread : sent.flatten.map Sent.read = sent.flatten.map (·.1.span) :=
      List.map_congr_left fun entry hentry => (read_eq_span_iff (hencodes entry hentry)).2 (hnone entry hentry)
    rw [hread]

end Answer

/-- An empty document and one with a span, on two lines. -/
def twoDocuments : List (List Char × Json) :=
  [(['\x7b', '\x7d', '\n'], .obj []),
    (Json.dumps Json.compact (bareDocument (rootMembers zeroBase64)), bareDocument (rootMembers zeroBase64))]

theorem streams_twoDocuments : letI := Python.plain
    Streams twoDocuments [[], [(rootSpan, rootMembers zeroBase64)]] :=
  letI := Python.plain
  { objects := by
      intro chunk hmem
      simp only [twoDocuments, List.mem_cons, List.not_mem_nil, or_false] at hmem
      obtain rfl | rfl := hmem
      · exact ⟨_, rfl, rfl⟩
      · exact ⟨_, rfl, Json.loads_dumps _ (by
          simp [bareDocument, rootMembers, Json.Printable, Json.PrintableMembers, Json.PrintableItems])⟩
    carries := .cons (Carries.carries (.bare rfl (.absent rfl)) .nil)
      (.cons (carries_rootMembers (.base64 (.inr (by decide)))) .nil) }

theorem getTrace_of_streams_twoDocuments : letI := Python.plain
    getTrace "a1a1a1a1a1a1a1a1a1a1a1a1a1a1a1a1" ⟨200, twoDocuments.flatMap (·.1)⟩ =
      some (some ⟨"a1a1a1a1a1a1a1a1a1a1a1a1a1a1a1a1", [rootSpan.span]⟩) :=
  letI := Python.plain
  by
    have hnone : ∀ entry ∈ [[], [(rootSpan, rootMembers zeroBase64)]].flatten, ¬ Sent.WritesZeroId entry := by
      intro entry hmem
      simp only [List.flatten_cons, List.flatten_nil, List.nil_append, List.append_nil, List.mem_singleton] at hmem
      subst hmem
      unfold Sent.WritesZeroId
      decide
    rw [(getTrace_of_streams streams_twoDocuments ⟨by decide, by decide⟩).2 hnone]
    have hid : rootSpan.span.traceId = "a1a1a1a1a1a1a1a1a1a1a1a1a1a1a1a1" := by decide
    simp [traceOf, hid]

end Traces

end TxPlatform
