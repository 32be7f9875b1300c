import TxPlatform.Lib.Regex
import TxPlatform.Dotnet.Activity
import TxPlatform.Dotnet.Primitives

/-! # Correlation ids and baggage (CorrelationBoundary.cs, TelemetryConventions.cs, PlatformTelemetry.cs)

OrderService drops the baggage of its caller and puts the ids into it that pass `isValidId`; every
activity that starts afterwards, here and in the services called, is tagged with the entries of the
allow-list. A header is its text, empty when the request does not have it.

The pattern of an id admits a final line feed and the processor a length of 128: an id is copied
unless it is 128 characters and a line feed (`isCopied_iff`).
-/

namespace TxPlatform

namespace TelemetryConventions
def orderId : String := "order.id"
def orderState : String := "order.state"
def scenarioId : String := "scenario.id"
def scenarioRunId : String := "scenario.run_id"
def correlationId : String := "correlation.id"
def kongRequestId : String := "kong.request.id"
def retryCount : String := "retry.count"
def retryAttempt : String := "retry.attempt"
def failureStage : String := "failure.stage"
def failureKind : String := "failure.kind"
def failureReason : String := "failure.reason"
def eventStateChanged : String := "order.state_changed"
def eventRetry : String := "retry"
def eventCircuitStateChanged : String := "circuit.state_changed"
def eventCompensationCompleted : String := "compensation.completed"
def eventCompensationFailed : String := "compensation.failed"
def allowedBaggageKeys : List String := [scenarioId, scenarioRunId, correlationId]
end TelemetryConventions

open TelemetryConventions

/-! ## Baggage -/

/-- The entries in the order in which they were set. -/
abbrev Baggage := List (String × String)

namespace Baggage

/-- `SetBaggage` on baggage that does not have the key; an empty value sets nothing. -/
def setBaggage (baggage : Baggage) (key value : String) : Baggage :=
  if value = "" then baggage else baggage ++ [(key, value)]

end Baggage

namespace BaggageTagProcessor

def maxValueLength : Nat := 128

def isCopied (entry : String × String) : Bool :=
  entry.1 ∈ allowedBaggageKeys ∧ 0 < utf16Length entry.2 ∧ utf16Length entry.2 ≤ maxValueLength

def copyAllowedBaggage (baggage : Baggage) (activity : Activity) : Activity :=
  (baggage.filter isCopied).foldl (fun activity entry => activity.setTag entry.1 (.str entry.2)) activity

end BaggageTagProcessor

/-! ## The boundary (CorrelationBoundary.cs) -/

namespace CorrelationBoundary

def correlationHeader : String := "X-Correlation-ID"
def scenarioHeader : String := "X-Scenario-Id"
def scenarioRunHeader : String := "X-Scenario-Run-Id"
def kongRequestHeader : String := "X-Kong-Request-Id"

open Regex

/-- `[A-Za-z0-9]` -/
def isIdStart (c : Char) : Bool := c.isAlphanum

/-- `[A-Za-z0-9._:-]` -/
def isIdChar (c : Char) : Bool := c.isAlphanum || c == '.' || c == '_' || c == ':' || c == '-'

/-- `^[A-Za-z0-9][A-Za-z0-9._:-]{0,127}$` -/
def idPattern : Regex := .seq .start (.seq (.set isIdStart) (.seq (.times (.set isIdChar) 0 127) .finish))

def isValidId (value : String) : Bool := idPattern.isMatch value

def correlationIdOrNew (supplied : String) (newGuid : Guid) : String :=
  if isValidId supplied then supplied else newGuid.formatD

def setIfValid (baggage : Baggage) (key value : String) : Baggage :=
  if isValidId value then baggage.setBaggage key value else baggage

/-- The baggage after `ClearBaggage` and the three ids. -/
def baggageOf (headers : String → String) (newGuid : Guid) : Baggage :=
  let baggage := Baggage.setBaggage [] correlationId (correlationIdOrNew (headers correlationHeader) newGuid)
  let baggage := setIfValid baggage scenarioId (headers scenarioHeader)
  setIfValid baggage scenarioRunId (headers scenarioRunHeader)

/-- What `UseCorrelationBoundary` records on the server span. -/
def tagServer (headers : String → String) (newGuid : Guid) (server : Activity) : Activity :=
  let server := BaggageTagProcessor.copyAllowedBaggage (baggageOf headers newGuid) server
  if isValidId (headers kongRequestHeader) then server.setTag kongRequestId (.str (headers kongRequestHeader))
  else server

/-! ## Valid ids -/

/-- A valid id is a plain text of at most 128 characters, perhaps with a line feed at the end. -/
theorem isValidId_iff {value : String} : isValidId value = true ↔ ∃ first body rest,
    value.toList = first :: body ++ rest ∧ isIdStart first = true ∧ body.length ≤ 127 ∧
      (∀ c ∈ body, isIdChar c = true) ∧ FinalLineFeed rest := by
  simp only [isValidId, idPattern, isMatch_anchored, mem_ends_seq, mem_ends_set, mem_ends_times, mem_power_set,
    mem_ends_finish]
  constructor
  · rintro ⟨q, m, ⟨first, hfirst, htext, -⟩, m', ⟨n, -, hmost, body, rfl, hbody, hrest, -⟩, hfinal, rfl⟩
    exact ⟨first, body, q.rest, by rw [htext, hrest, List.cons_append], hfirst, hmost, hbody, hfinal⟩
  · rintro ⟨first, body, rest, htext, hfirst, hlength, hbody, hfinal⟩
    exact ⟨⟨_, rest⟩, ⟨false, body ++ rest⟩, ⟨first, hfirst, htext, rfl⟩, ⟨_, rest⟩,
      ⟨body.length, Nat.zero_le _, hlength, body, rfl, hbody, rfl, rfl⟩, hfinal, rfl⟩

theorem ne_empty_of_isValidId {value : String} (h : isValidId value = true) : value ≠ "" := by
  obtain ⟨first, body, rest, htext, -⟩ := isValidId_iff.1 h
  rintro rfl
  cases htext

/-- The characters of an id are ASCII, so each takes one code unit. -/
theorem basic_of_isIdChar {c : Char} (h : isIdChar c = true) : c.val.toNat < 128 := by
  simp only [isIdChar, Bool.or_eq_true, beq_iff_eq] at h
  obtain (((h | rfl) | rfl) | rfl) | rfl := h
  · exact toNat_lt_of_isAlphanum h
  all_goals decide

theorem utf16Length_eq {text : String} (h : ∀ c ∈ text.toList, c.val.toNat < 128) :
    utf16Length text = text.toList.length := by
  have hone : text.toList.map (fun c => if c.val < 0x10000 then 1 else 2) = text.toList.map fun _ => 1 := by
    refine List.map_congr_left fun c hc => if_pos ?_
    have hc := h c hc
    rw [UInt32.lt_iff_toNat_lt]
    exact Nat.lt_trans hc (by decide)
  rw [utf16Length, hone]
  simp

/-- A valid id has as many code units as characters, and at least one. -/
theorem utf16Length_of_isValidId {value : String} (h : isValidId value = true) :
    utf16Length value = value.toList.length ∧ 0 < value.toList.length := by
  obtain ⟨first, body, rest, htext, hfirst, -, hbody, hrest⟩ := isValidId_iff.1 h
  refine ⟨utf16Length_eq fun c hc => ?_, by simp [htext]⟩
  rw [htext, List.cons_append, List.mem_cons, List.mem_append] at hc
  obtain rfl | hc | hc := hc
  · exact basic_of_isIdChar (by simp only [isIdStart] at hfirst; simp [isIdChar, hfirst])
  · exact basic_of_isIdChar (hbody c hc)
  · obtain rfl | rfl := hrest
    · cases hc
    · rw [List.mem_singleton.1 hc]
      decide

theorem hexDigits_isAlphanum {width v : Nat} {c : Char} (h : c ∈ hexDigits width v) : c.isAlphanum = true := by
  have hdigit : ∀ d : Fin 16, (Nat.digitChar d).isAlphanum = true := by decide
  induction width generalizing v with
  | zero => cases h
  | succ width ih =>
    rw [hexDigits, List.mem_append, List.mem_singleton] at h
    obtain h | rfl := h
    · exact ih h
    · exact hdigit ⟨v % 16, Nat.mod_lt _ (by decide)⟩

/-- The text of a `Guid` is a valid id. -/
theorem isValidId_formatD (id : Guid) : isValidId id.formatD = true ∧ id.formatD.toList.length = 36 := by
  have hlength := length_hexDigits 32 id.toNat
  have hdigits : ∀ c ∈ hexDigits 32 id.toNat, c.isAlphanum = true := fun c => hexDigits_isAlphanum
  rw [Guid.formatD]
  generalize hexDigits 32 id.toNat = digits at hlength hdigits
  have hchars : ∀ c ∈ digits.take 8 ++ ['-'] ++ (digits.drop 8).take 4 ++ ['-'] ++ (digits.drop 12).take 4 ++
      ['-'] ++ (digits.drop 16).take 4 ++ ['-'] ++ digits.drop 20, isIdChar c = true := by
    intro c hc
    simp only [List.mem_append, List.mem_singleton, or_assoc] at hc
    have hdigit : c ∈ digits → isIdChar c = true := fun hmem => by simp [isIdChar, hdigits c hmem]
    obtain hc | rfl | hc | rfl | hc | rfl | hc | rfl | hc := hc
    · exact hdigit (List.mem_of_mem_take hc)
    · rfl
    · exact hdigit (List.mem_of_mem_drop (List.mem_of_mem_take hc))
    · rfl
    · exact hdigit (List.mem_of_mem_drop (List.mem_of_mem_take hc))
    · rfl
    · exact hdigit (List.mem_of_mem_drop (List.mem_of_mem_take hc))
    · rfl
    · exact hdigit (List.mem_of_mem_drop hc)
  obtain _ | ⟨first, digits⟩ := digits
  · cases hlength
  refine ⟨isValidId_iff.2 ⟨first, _, [], by rw [String.toList_ofList, List.append_nil]; rfl,
    hdigits first List.mem_cons_self, ?_, fun c hc => hchars c (List.mem_cons_of_mem _ hc), .inl rfl⟩, ?_⟩
  · simp at hlength ⊢
    omega
  · simp at hlength ⊢
    omega

/-! ## The ids of a request -/

/-- The id that ends up on the spans, for what a header says. -/
def accepted (value : String) : Option String :=
  if isValidId value = true ∧ value.toList.length ≤ BaggageTagProcessor.maxValueLength then some value else none

theorem nodup_keys_baggageOf (headers : String → String) (newGuid : Guid) :
    ((baggageOf headers newGuid).map (·.1)).Nodup := by
  simp only [baggageOf, setIfValid, Baggage.setBaggage]
  split_ifs <;> simp [correlationId, scenarioId, scenarioRunId]

end CorrelationBoundary

namespace BaggageTagProcessor

open CorrelationBoundary

/-- An id of the allow-list is copied unless its final line feed makes it too long. -/
theorem isCopied_iff {key value : String} (hkey : key ∈ allowedBaggageKeys) (hvalid : isValidId value = true) :
    isCopied (key, value) = true ↔ value.toList.length ≤ maxValueLength := by
  obtain ⟨hlength, hpos⟩ := utf16Length_of_isValidId hvalid
  simp [isCopied, hkey, hlength, hpos]

/-- A copied entry is a tag of the activity; the tags without one are as before. -/
theorem tag_copyAllowedBaggage {baggage : Baggage} (hnodup : (baggage.map (·.1)).Nodup) (activity : Activity)
    (key : String) : (copyAllowedBaggage baggage activity).tag key =
      match (baggage.filter isCopied).lookup key with
      | some value => some (.str value)
      | none => activity.tag key := by
  have hnodup : ((baggage.filter isCopied).map (·.1)).Nodup := (List.filter_sublist.map _).nodup hnodup
  rw [copyAllowedBaggage]
  revert activity
  generalize baggage.filter isCopied = entries at hnodup
  induction entries with
  | nil => exact fun _ => rfl
  | cons entry entries ih =>
    intro activity
    obtain ⟨first, value⟩ := entry
    obtain ⟨hfirst, hnodup⟩ := List.nodup_cons.1 hnodup
    rw [List.foldl_cons, ih hnodup]
    by_cases hkey : key = first
    · subst hkey
      have hnone : entries.lookup key = none := by
        rw [List.lookup_eq_none_iff]
        rintro ⟨other, found⟩ hmem
        have hne : key ≠ other := fun h => hfirst (List.mem_map.2 ⟨_, hmem, h.symm⟩)
        simpa using hne
      simp [hnone]
    · have hne : (key == first) = false := by simpa using hkey
      simp only [List.lookup_cons, hne, Activity.tag_setTag, if_neg hkey]

/-- The tag that the baggage gives an activity that has none. -/
def tagOf (baggage : Baggage) (key : String) : Option Json :=
  (copyAllowedBaggage baggage ⟨"", "", "", .internal, 0, 0, [], [], .unset⟩).tag key

theorem copyAllowedBaggage_congr {activity other : Activity} (h : ∀ key, activity.tag key = other.tag key)
    (baggage : Baggage) (key : String) :
    (copyAllowedBaggage baggage activity).tag key = (copyAllowedBaggage baggage other).tag key := by
  rw [copyAllowedBaggage, copyAllowedBaggage]
  generalize baggage.filter isCopied = entries
  induction entries generalizing activity other with
  | nil => exact h key
  | cons entry entries ih => exact ih fun key => by simp [h key]

/-- Only names of the allow-list are set. -/
theorem tag_copyAllowedBaggage_of_not_allowed {key : String} (h : key ∉ allowedBaggageKeys) (baggage : Baggage)
    (activity : Activity) : (copyAllowedBaggage baggage activity).tag key = activity.tag key := by
  rw [copyAllowedBaggage]
  have hallowed : ∀ entry ∈ baggage.filter isCopied, entry.1 ∈ allowedBaggageKeys := by
    intro entry hentry
    have hcopied := (List.mem_filter.1 hentry).2
    simp only [isCopied, decide_eq_true_eq] at hcopied
    exact hcopied.1
  generalize baggage.filter isCopied = entries at hallowed
  induction entries generalizing activity with
  | nil => rfl
  | cons entry entries ih =>
    have hne : key ≠ entry.1 := fun hkey => h (hkey ▸ hallowed entry List.mem_cons_self)
    rw [List.foldl_cons, ih _ fun entry hentry => hallowed entry (List.mem_cons_of_mem _ hentry),
      Activity.tag_setTag, if_neg hne]

/-- What identifies a span, and its events and status, are not of the baggage. -/
theorem copyAllowedBaggage_keeps (baggage : Baggage) (activity : Activity) :
    (copyAllowedBaggage baggage activity).SameSpan activity ∧
      (copyAllowedBaggage baggage activity).events = activity.events ∧
      (copyAllowedBaggage baggage activity).status = activity.status := by
  rw [copyAllowedBaggage]
  generalize baggage.filter isCopied = entries
  induction entries generalizing activity with
  | nil => exact ⟨.refl _, rfl, rfl⟩
  | cons entry entries ih =>
    obtain ⟨hsame, hevents, hstatus⟩ := ih (activity.setTag entry.1 (.str entry.2))
    exact ⟨hsame.trans (.setTag _ _), hevents, hstatus⟩

/-- Setting an id adds it for its own key, if it was accepted. -/
theorem lookup_setIfValid {name : String} (hname : name ∈ allowedBaggageKeys) (baggage : Baggage) (value key : String) :
    ((setIfValid baggage name value).filter isCopied).lookup key =
      ((baggage.filter isCopied).lookup key).or (if key = name then accepted value else none) := by
  by_cases hvalid : isValidId value = true
  · rw [setIfValid, if_pos hvalid, Baggage.setBaggage, if_neg (ne_empty_of_isValidId hvalid), List.filter_append,
      List.lookup_append]
    congr 1
    by_cases hshort : value.toList.length ≤ maxValueLength
    · have hcopied := (isCopied_iff hname hvalid).2 hshort
      by_cases hkey : key = name
      · simp [hcopied, accepted, hvalid, hshort, hkey]
      · have hne : (key == name) = false := by simpa using hkey
        simp [hcopied, hkey, List.lookup_cons, hne]
    · have hcopied : isCopied (name, value) = false := by
        rw [Bool.eq_false_iff, Ne, isCopied_iff hname hvalid]
        exact hshort
      simp [hcopied, accepted, hshort]
  · simp [setIfValid, accepted, hvalid]

theorem isValidId_correlationIdOrNew (supplied : String) (newGuid : Guid) :
    isValidId (correlationIdOrNew supplied newGuid) = true := by
  rw [correlationIdOrNew]
  split
  · assumption
  · exact (isValidId_formatD newGuid).1

/-- What is copied of the baggage of a request. -/
theorem lookup_baggageOf (headers : String → String) (newGuid : Guid) (key : String) :
    ((baggageOf headers newGuid).filter isCopied).lookup key =
      accepted (if key = correlationId then correlationIdOrNew (headers correlationHeader) newGuid
        else if key = scenarioId then headers scenarioHeader
        else if key = scenarioRunId then headers scenarioRunHeader else "") := by
  have hfirst : Baggage.setBaggage [] correlationId (correlationIdOrNew (headers correlationHeader) newGuid) =
      setIfValid [] correlationId (correlationIdOrNew (headers correlationHeader) newGuid) := by
    rw [setIfValid, if_pos (isValidId_correlationIdOrNew _ _)]
  have hempty : accepted "" = none := if_neg fun h => ne_empty_of_isValidId h.1 rfl
  rw [baggageOf, hfirst]
  simp only [lookup_setIfValid (show correlationId ∈ allowedBaggageKeys by decide),
    lookup_setIfValid (show scenarioId ∈ allowedBaggageKeys by decide),
    lookup_setIfValid (show scenarioRunId ∈ allowedBaggageKeys by decide), List.filter_nil, List.lookup_nil]
  have hdistinct : correlationId ≠ scenarioId ∧ correlationId ≠ scenarioRunId ∧ scenarioId ≠ scenarioRunId := by
    decide
  by_cases hcorrelation : key = correlationId
  · simp [hcorrelation, hdistinct.1, hdistinct.2.1]
  by_cases hscenario : key = scenarioId
  · simp [hscenario, hdistinct.1.symm, hdistinct.2.2]
  by_cases hrun : key = scenarioRunId
  · simp [hrun, hdistinct.2.1.symm, hdistinct.2.2.symm]
  simp [hcorrelation, hscenario, hrun, hempty]

/-- **The tags that the baggage of a request gives an activity**: the ids that were accepted, whatever
the caller sent, and nothing under any other name. -/
theorem tag_copyAllowedBaggage_baggageOf (headers : String → String) (newGuid : Guid) (activity : Activity)
    (key : String) : (copyAllowedBaggage (baggageOf headers newGuid) activity).tag key =
      let header := if key = correlationId then correlationIdOrNew (headers correlationHeader) newGuid
        else if key = scenarioId then headers scenarioHeader
        else if key = scenarioRunId then headers scenarioRunHeader else ""
      match accepted header with
      | some value => some (.str value)
      | none => activity.tag key := by
  rw [tag_copyAllowedBaggage (nodup_keys_baggageOf headers newGuid), lookup_baggageOf]

end BaggageTagProcessor

end TxPlatform
