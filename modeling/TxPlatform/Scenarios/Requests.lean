import TxPlatform.Scenarios.Schedule
import TxPlatform.Telemetry.Correlation

/-! # The ids of a run's requests (workload.py:107-160, records.py:19-21, schema.py:191-193)

A run has an id, and each of its requests a correlation id that ends in the number of its step and its
number in the step. OrderService must take these ids as they are, and no two requests may share one: the
traces of a run are found and told apart by them.
-/

namespace TxPlatform

/-- `f"{n:0{width}d}"`. -/
def padded (width n : Nat) : List Char :=
  List.replicate (width - (Nat.toDigits 10 n).length) '0' ++ Nat.toDigits 10 n

theorem isDigit_of_mem_padded {width n : Nat} {c : Char} (h : c ∈ padded width n) : c.isDigit = true := by
  obtain h | h := List.mem_append.1 h
  · rw [(List.mem_replicate.1 h).2]
    rfl
  · exact Nat.isDigit_of_mem_toDigits (by omega) (by omega) h

theorem ofDigitChars_padded (width n : Nat) : Nat.ofDigitChars 10 (padded width n) 0 = n := by
  have hzeros : ∀ k, Nat.ofDigitChars 10 (List.replicate k '0' ++ Nat.toDigits 10 n) 0 = n := by
    intro k
    induction k with
    | zero => simp
    | succ k ih => simpa [List.replicate_succ, Nat.ofDigitChars] using ih
  exact hzeros _

theorem padded_injective {width : Nat} : Function.Injective (padded width) := fun m n h => by
  have hvalue := congrArg (fun digits => Nat.ofDigitChars 10 digits 0) h
  simpa only [ofDigitChars_padded] using hvalue

/-- A number that fits is padded to the width. -/
theorem length_padded {width n : Nat} (hpos : 0 < width) (h : n < 10 ^ width) : (padded width n).length = width := by
  have hdigits : (Nat.toDigits 10 n).length ≤ width := (Nat.length_toDigits_le_iff (by omega) hpos).2 h
  rw [padded, List.length_append, List.length_replicate]
  omega

/-- What follows the last separator is determined, and what precedes it. -/
theorem append_separator_inj {α : Type} {separator : α} {before before' after after' : List α} (h : separator ∉ after)
    (h' : separator ∉ after') (heq : before ++ separator :: after = before' ++ separator :: after') :
    before = before' ∧ after = after' := by
  obtain ⟨middle, hbefore, hafter⟩ | ⟨middle, hbefore, hafter⟩ := List.append_eq_append_iff.1 heq
  · cases middle with
    | nil => exact ⟨by simpa using hbefore.symm, by simpa using hafter⟩
    | cons c middle =>
      rw [List.cons_append, List.cons.injEq] at hafter
      exact absurd (hafter.2 ▸ by simp) h
  · cases middle with
    | nil => exact ⟨by simpa using hbefore, by simpa using hafter.symm⟩
    | cons c middle =>
      rw [List.cons_append, List.cons.injEq] at hafter
      exact absurd (hafter.2 ▸ by simp) h'

/-! ## The ids -/

/-- `id` of a scenario: `^[a-z][a-z0-9-]{2,40}$`, where `$` is the end of the text. -/
def isScenarioId (id : String) : Bool :=
  match id.toList with
  | [] => false
  | first :: rest => first.isLower ∧ (2 ≤ rest.length ∧ rest.length ≤ 40) ∧
      rest.all fun c => c.isLower || c.isDigit || c == '-'

/-- A time in UTC, as a calendar shows it. -/
structure UtcTime where
  year : Nat
  month : Nat
  day : Nat
  hour : Nat
  minute : Nat
  second : Nat
  fourDigits : 1000 ≤ year ∧ year ≤ 9999
  inRange : month ≤ 12 ∧ day ≤ 31 ∧ hour ≤ 23 ∧ minute ≤ 59 ∧ second ≤ 59

/-- `strftime("%Y%m%dT%H%M%SZ")`. -/
def UtcTime.stamp (time : UtcTime) : List Char :=
  padded 4 time.year ++ padded 2 time.month ++ padded 2 time.day ++ 'T' :: padded 2 time.hour ++ padded 2 time.minute ++
    padded 2 time.second ++ ['Z']

/-- `new_run_id`; `token` are two random bytes. -/
def newRunId (time : UtcTime) (scenarioId : String) (token : BitVec 16) : String :=
  String.ofList time.stamp ++ "-" ++ scenarioId ++ "-" ++ String.ofList (hexDigits 4 token.toNat)

def correlationIdOf (runId : String) (stepIndex sequence : Nat) : String :=
  runId ++ "-" ++ toString stepIndex ++ "-" ++ String.ofList (padded 5 sequence)

/-! ## A run -/

open WorkloadStep (schedule)

structure ScenarioRun where
  scenarioId : String
  isId : isScenarioId scenarioId = true
  workload : List AcceptedStep
  time : UtcTime
  token : BitVec 16

namespace ScenarioRun
variable (run : ScenarioRun)

def runId : String := newRunId run.time run.scenarioId run.token

/-- `enumerate(steps)` and in each `enumerate(schedule(step))`. -/
def requests : List (Nat × Nat) :=
  run.workload.zipIdx.flatMap fun (step, index) =>
    (List.range (schedule step.toWorkloadStep).length).map fun sequence => (index, sequence)

/-- The headers of a request that do not depend on who sends it. -/
def headers (request : Nat × Nat) : List (String × String) :=
  [(CorrelationBoundary.correlationHeader, correlationIdOf run.runId request.1 request.2),
    (CorrelationBoundary.scenarioHeader, run.scenarioId),
    (CorrelationBoundary.scenarioRunHeader, run.runId),
    ("X-Api-Key", "canary-" ++ run.runId)]

end ScenarioRun

/-! ## No two requests share an id -/

theorem hyphen_notMem_of_digits {cs : List Char} (h : ∀ c ∈ cs, c.isDigit = true) : '-' ∉ cs := fun hmem =>
  absurd (h _ hmem) (by decide)

theorem isDigit_of_mem_toDigits {n : Nat} : ∀ c ∈ Nat.toDigits 10 n, c.isDigit = true := fun _ hc =>
  Nat.isDigit_of_mem_toDigits (by omega) (by omega) hc

theorem toList_correlationIdOf (runId : String) (stepIndex sequence : Nat) :
    (correlationIdOf runId stepIndex sequence).toList =
      (runId.toList ++ '-' :: Nat.toDigits 10 stepIndex) ++ '-' :: padded 5 sequence := by
  simp [correlationIdOf, String.toList_append]

/-- **A correlation id tells the run, the step and the request.** -/
theorem correlationIdOf_inj {runId runId' : String} {stepIndex stepIndex' sequence sequence' : Nat}
    (h : correlationIdOf runId stepIndex sequence = correlationIdOf runId' stepIndex' sequence') :
    runId = runId' ∧ stepIndex = stepIndex' ∧ sequence = sequence' := by
  have hchars := congrArg String.toList h
  rw [toList_correlationIdOf, toList_correlationIdOf] at hchars
  have hpadded : ∀ n, '-' ∉ padded 5 n := fun n => hyphen_notMem_of_digits fun _ => isDigit_of_mem_padded
  have hdigits : ∀ n, '-' ∉ Nat.toDigits 10 n := fun n => hyphen_notMem_of_digits isDigit_of_mem_toDigits
  obtain ⟨hfront, hsequence⟩ := append_separator_inj (hpadded _) (hpadded _) hchars
  obtain ⟨hrun, hstep⟩ := append_separator_inj (hdigits _) (hdigits _) hfront
  refine ⟨String.toList_injective hrun, ?_, padded_injective hsequence⟩
  have hvalue := congrArg (fun digits => Nat.ofDigitChars 10 digits 0) hstep
  simpa using hvalue

namespace ScenarioRun
variable {run : ScenarioRun}

theorem mem_requests {request : Nat × Nat} : request ∈ run.requests ↔ ∃ step, run.workload[request.1]? = some step ∧
    request.2 < (schedule step.toWorkloadStep).length := by
  obtain ⟨index, sequence⟩ := request
  simp only [requests, List.mem_flatMap, Prod.exists, List.mem_zipIdx_iff_getElem?, List.mem_map, List.mem_range, Prod.mk.injEq]
  constructor
  · rintro ⟨step, _, hstep, _, hlt, rfl, rfl⟩
    exact ⟨step, hstep, hlt⟩
  · rintro ⟨step, hstep, hlt⟩
    exact ⟨step, index, hstep, sequence, hlt, rfl, rfl⟩

theorem nodup_requests (run : ScenarioRun) : run.requests.Nodup := by
  rw [requests, List.nodup_flatMap]
  refine ⟨fun entry _ => (List.nodup_range).map fun _ _ h => (Prod.mk.inj h).2, ?_⟩
  have hindices : (run.workload.zipIdx.map Prod.snd).Nodup := by
    rw [List.zipIdx_map_snd]
    exact List.nodup_range'
  refine (List.pairwise_map.1 hindices).imp ?_
  rintro ⟨step, index⟩ ⟨step', index'⟩ hne
  rw [Function.onFun_apply, List.disjoint_left]
  rintro request hmem hmem'
  obtain ⟨sequence, -, rfl⟩ := List.mem_map.1 hmem
  obtain ⟨sequence', -, heq⟩ := List.mem_map.1 hmem'
  exact hne (Prod.mk.inj heq).1.symm

end ScenarioRun

/-! ## OrderService takes the ids as they are -/

open CorrelationBoundary

theorem isAlphanum_of_isDigit {c : Char} (h : c.isDigit = true) : c.isAlphanum = true := by
  simp [Char.isAlphanum, h]

theorem isIdChar_of_isDigit {c : Char} (h : c.isDigit = true) : isIdChar c = true := by
  simp [isIdChar, isAlphanum_of_isDigit h]

theorem isAlphanum_of_isLower {c : Char} (h : c.isLower = true) : c.isAlphanum = true := by
  delta Char.isAlphanum Char.isAlpha
  rw [h, Bool.or_true, Bool.true_or]

theorem isIdChar_of_isLower {c : Char} (h : c.isLower = true) : isIdChar c = true := by
  simp [isIdChar, isAlphanum_of_isLower h]

/-- A text of id characters that is short enough. -/
theorem accepted_of_chars {value : String} {first : Char} (hfirst : value.toList.head? = some first)
    (hstart : isIdStart first = true) (hchars : ∀ c ∈ value.toList, isIdChar c = true) (hshort : value.toList.length ≤ 128) :
    isValidId value = true ∧ accepted value = some value := by
  obtain ⟨body, hvalue⟩ : ∃ body, value.toList = first :: body := List.head?_eq_some_iff.1 hfirst
  have hlength : body.length + 1 = value.toList.length := by rw [hvalue, List.length_cons]
  have hvalid : isValidId value = true := isValidId_iff.2 ⟨first, body, [], by simpa using hvalue, hstart, by omega,
    fun c hc => hchars c (hvalue ▸ List.mem_cons_of_mem first hc), .inl rfl⟩
  exact ⟨hvalid, if_pos ⟨hvalid, hshort⟩⟩

theorem length_stamp (time : UtcTime) : time.stamp.length = 16 := by
  obtain ⟨hyear, hmonth, hday, hhour, hminute, hsecond⟩ := And.intro time.fourDigits time.inRange
  have htwo : ∀ n, n ≤ 59 → (padded 2 n).length = 2 := fun n hn => length_padded (by omega) (by omega)
  have hfour : (padded 4 time.year).length = 4 := length_padded (by omega) (by omega)
  simp [UtcTime.stamp, hfour, htwo time.month (by omega), htwo time.day (by omega), htwo time.hour (by omega),
    htwo time.minute hminute, htwo time.second hsecond]

theorem isIdChar_of_mem_stamp {time : UtcTime} {c : Char} (h : c ∈ time.stamp) : isIdChar c = true := by
  simp only [UtcTime.stamp, List.mem_append, List.mem_cons, List.not_mem_nil, or_false, or_assoc] at h
  obtain h | h | h | rfl | h | h | h | rfl := h
  all_goals first | exact isIdChar_of_isDigit (isDigit_of_mem_padded h) | rfl

theorem scenarioId_chars {id : String} (h : isScenarioId id = true) :
    (∃ first, id.toList.head? = some first ∧ isIdStart first = true) ∧ (∀ c ∈ id.toList, isIdChar c = true) ∧
      id.toList.length ≤ 41 := by
  unfold isScenarioId at h
  split at h
  · cases h
  · rename_i first rest hid
    simp only [Bool.decide_and, Bool.decide_eq_true, Bool.and_eq_true, decide_eq_true_eq, List.all_eq_true, Bool.or_eq_true,
      beq_iff_eq] at h
    obtain ⟨hfirst, ⟨-, hshort⟩, hrest⟩ := h
    refine ⟨⟨first, by rw [hid]; rfl, by simp [isIdStart, isAlphanum_of_isLower hfirst]⟩, ?_, ?_⟩
    · rw [hid]
      rintro c hc
      obtain rfl | hc := List.mem_cons.1 hc
      · exact isIdChar_of_isLower hfirst
      · obtain (hlower | hdigit) | rfl := hrest c hc
        · exact isIdChar_of_isLower hlower
        · exact isIdChar_of_isDigit hdigit
        · rfl
    · rw [hid, List.length_cons]
      omega

namespace ScenarioRun
variable {run : ScenarioRun}

theorem toList_runId (run : ScenarioRun) : run.runId.toList =
    run.time.stamp ++ '-' :: (run.scenarioId.toList ++ '-' :: hexDigits 4 run.token.toNat) := by
  simp [runId, newRunId, String.toList_append]

theorem runId_chars (run : ScenarioRun) :
    (∃ first, run.runId.toList.head? = some first ∧ isIdStart first = true) ∧
      (∀ c ∈ run.runId.toList, isIdChar c = true) ∧ run.runId.toList.length ≤ 63 := by
  obtain ⟨-, hchars, hlength⟩ := scenarioId_chars run.isId
  have hyear : (padded 4 run.time.year).length = 4 := length_padded (by omega) (by have := run.time.fourDigits; omega)
  rw [toList_runId]
  refine ⟨?_, ?_, ?_⟩
  · cases hdigits : padded 4 run.time.year with
    | nil =>
      rw [hdigits] at hyear
      cases hyear
    | cons first rest =>
      have hfirst : first.isDigit = true := isDigit_of_mem_padded (hdigits ▸ List.mem_cons_self)
      exact ⟨first, by simp [UtcTime.stamp, hdigits], isAlphanum_of_isDigit hfirst⟩
  · intro c hc
    simp only [List.mem_append, List.mem_cons] at hc
    obtain hc | rfl | hc | rfl | hc := hc
    · exact isIdChar_of_mem_stamp hc
    · rfl
    · exact hchars c hc
    · rfl
    · simp [isIdChar, hexDigits_isAlphanum hc]
  · simp only [List.length_append, List.length_cons, length_stamp, length_hexDigits]
    omega

theorem le_of_inRange {limit value : ℚ} (h : WorkloadStep.inRange limit (some value) = true) : value ≤ limit := by
  simp only [WorkloadStep.inRange, Option.all_some, decide_eq_true_eq] at h
  exact h.2

theorem length_phase_le {start rate seconds most longest : ℚ} (hrate : 0 < rate) (hseconds : 0 ≤ seconds)
    (hmost : rate ≤ most)
    (hlongest : seconds ≤ longest) {n : Nat} (hn : most * longest ≤ n) :
    (WorkloadStep.phase start rate seconds).length ≤ n := by
  rw [(WorkloadStep.plans_phase start rate seconds).count]
  refine Nat.floor_le_of_le (le_trans ?_ hn)
  exact mul_le_mul hmost hlongest hseconds (hrate.le.trans hmost)

/-- The limits of a step bound the number of its requests. -/
theorem length_schedule_le (step : AcceptedStep) : (schedule step.toWorkloadStep).length ≤ 144000 := by
  have hfields := step.inRange
  simp only [WorkloadStep.fieldsInRange, decide_eq_true_eq] at hfields
  obtain ⟨hrateRange, hdurationRange, hspikeRateRange, hspikeSecondsRange⟩ := WorkloadStep.inRange_of_accepted step
  cases hprofile : step.profile with
  | single => simp [schedule, hprofile]
  | concurrent =>
    simp only [schedule, hprofile, List.length_replicate]
    omega
  | burst =>
    simp only [schedule, hprofile, List.length_replicate]
    omega
  | steady =>
    obtain ⟨rate, duration, hr, hd, hrate, hduration⟩ := WorkloadStep.exists_rate step (by simp [WorkloadStep.needsRate, hprofile])
    rw [hr] at hrateRange
    rw [hd] at hdurationRange
    rw [WorkloadStep.schedule_steady hprofile hr hd hrate hduration]
    exact length_phase_le hrate hduration.le (le_of_inRange hrateRange) (le_of_inRange hdurationRange) (by norm_num)
  | spike =>
    obtain ⟨rate, duration, hr, hd, hrate, hduration⟩ := WorkloadStep.exists_rate step (by simp [WorkloadStep.needsRate, hprofile])
    obtain ⟨spikeRate, spikeSeconds, hsr, hs, hspikeRate, hspikeSeconds, hshort⟩ := WorkloadStep.exists_spike step hprofile
    have hshort := hshort duration hd
    rw [hr] at hrateRange
    rw [hd] at hdurationRange
    rw [hsr] at hspikeRateRange
    rw [hs] at hspikeSecondsRange
    have hrateMost := le_of_inRange hrateRange
    have hdurationMost := le_of_inRange hdurationRange
    have hstart : ∀ start, (WorkloadStep.phase start rate ((duration - spikeSeconds) / 2)).length ≤ 60000 := fun start =>
      length_phase_le hrate (by linarith) hrateMost (show (duration - spikeSeconds) / 2 ≤ 300 by linarith) (by norm_num)
    have hspike : (WorkloadStep.phase ((duration - spikeSeconds) / 2) spikeRate spikeSeconds).length ≤ 24000 :=
      length_phase_le hspikeRate hspikeSeconds.le (le_of_inRange hspikeRateRange) (le_of_inRange hspikeSecondsRange) (by norm_num)
    rw [WorkloadStep.schedule_spike hprofile hr hd hsr hs hrate hspikeRate hspikeSeconds hshort, WorkloadStep.spikeOffsets,
      List.length_append, List.length_append]
    have hfirst := hstart 0
    have hlast := hstart ((duration - spikeSeconds) / 2 + spikeSeconds)
    omega

theorem correlationId_chars {request : Nat × Nat} (hrequest : request ∈ run.requests)
    (hsteps : run.workload.length ≤ 10 ^ 9) :
    (∃ first, (correlationIdOf run.runId request.1 request.2).toList.head? = some first ∧ isIdStart first = true) ∧
      (∀ c ∈ (correlationIdOf run.runId request.1 request.2).toList, isIdChar c = true) ∧
      (correlationIdOf run.runId request.1 request.2).toList.length ≤ 128 := by
  obtain ⟨⟨first, hfirst, hstart⟩, hchars, hlength⟩ := run.runId_chars
  obtain ⟨step, hstep, hsequence⟩ := mem_requests.1 hrequest
  have hindex : request.1 < run.workload.length := (List.getElem?_eq_some_iff.1 hstep).1
  have hdigits : (Nat.toDigits 10 request.1).length ≤ 9 := (Nat.length_toDigits_le_iff (by omega) (by omega)).2 (by omega)
  have hsix : (Nat.toDigits 10 request.2).length ≤ 6 :=
    (Nat.length_toDigits_le_iff (by omega) (by omega)).2 (by have := length_schedule_le step; omega)
  rw [toList_correlationIdOf]
  refine ⟨⟨first, ?_, hstart⟩, ?_, ?_⟩
  · simp [List.head?_append, hfirst]
  · intro c hc
    simp only [List.mem_append, List.mem_cons] at hc
    obtain (hc | rfl | hc) | rfl | hc := hc
    · exact hchars c hc
    · rfl
    · exact isIdChar_of_isDigit (isDigit_of_mem_toDigits c hc)
    · rfl
    · exact isIdChar_of_isDigit (isDigit_of_mem_padded hc)
  · simp only [List.length_append, List.length_cons, padded, List.length_replicate]
    omega

/-- **The requests of a run can be found and told apart**: OrderService answers each with its own correlation id, and
every activity of the request, here and in the services called, is tagged with that id and those of the scenario
and the run, whatever other headers arrive. -/
theorem requests_identified (run : ScenarioRun) (hsteps : run.workload.length ≤ 10 ^ 9) :
    (run.requests.map fun request => correlationIdOf run.runId request.1 request.2).Nodup ∧
      ∀ request ∈ run.requests, ∀ received : String → String,
        (∀ header ∈ run.headers request, received header.1 = header.2) → ∀ newGuid activity,
          let id := correlationIdOf run.runId request.1 request.2
          let tagged := BaggageTagProcessor.copyAllowedBaggage (baggageOf received newGuid) activity
          correlationIdOrNew (received correlationHeader) newGuid = id ∧
            tagged.tag TelemetryConventions.correlationId = some (.str id) ∧
            tagged.tag TelemetryConventions.scenarioId = some (.str run.scenarioId) ∧
            tagged.tag TelemetryConventions.scenarioRunId = some (.str run.runId) := by
  constructor
  · refine (nodup_requests run).map fun request request' h => ?_
    obtain ⟨-, hstep, hsequence⟩ := correlationIdOf_inj h
    exact Prod.ext hstep hsequence
  · intro request hrequest received hreceived newGuid activity id tagged
    obtain ⟨⟨_, hidFirst, hidStart⟩, hidChars, hidLength⟩ := correlationId_chars hrequest hsteps
    obtain ⟨⟨_, hrunFirst, hrunStart⟩, hrunChars, hrunLength⟩ := run.runId_chars
    obtain ⟨⟨_, hfirst, hstart⟩, hchars, hlength⟩ := scenarioId_chars run.isId
    obtain ⟨hvalid, hid⟩ := accepted_of_chars hidFirst hidStart hidChars hidLength
    have hrun := (accepted_of_chars hrunFirst hrunStart hrunChars (hrunLength.trans (by decide))).2
    have hscenario := (accepted_of_chars hfirst hstart hchars (hlength.trans (by decide))).2
    have hreceivedId : received correlationHeader = id := hreceived (correlationHeader, id) (by simp [headers, id])
    have hreceivedScenario : received scenarioHeader = run.scenarioId :=
      hreceived (scenarioHeader, run.scenarioId) (by simp [headers])
    have hreceivedRun : received scenarioRunHeader = run.runId := hreceived (scenarioRunHeader, run.runId) (by simp [headers])
    have hanswered : correlationIdOrNew (received correlationHeader) newGuid = id := by
      rw [hreceivedId, correlationIdOrNew, if_pos hvalid]
    have htag := BaggageTagProcessor.tag_copyAllowedBaggage (nodup_keys_baggageOf received newGuid) activity
    simp only [BaggageTagProcessor.lookup_baggageOf, hanswered, hreceivedScenario, hreceivedRun] at htag
    refine ⟨hanswered, ?_, ?_, ?_⟩
    · simp [tagged, htag, id, hid]
    · simp [tagged, htag, hscenario, TelemetryConventions.scenarioId, TelemetryConventions.correlationId]
    · simp [tagged, htag, hrun, TelemetryConventions.scenarioRunId, TelemetryConventions.correlationId,
        TelemetryConventions.scenarioId]

/-- Two requests at once. -/
def twice : ScenarioRun where
  scenarioId := "payment-retry"
  isId := by decide
  workload := [{ profile := .burst, requests := 2, inRange := by decide +kernel, checked := by rfl }]
  time := ⟨2026, 1, 2, 3, 4, 5, by decide, by decide⟩
  token := 255

theorem requests_identified_twice :
    correlationIdOrNew (((twice.headers (0, 1)).lookup correlationHeader).getD "") Guid.empty =
      "20260102T030405Z-payment-retry-00ff-0-00001" :=
  ((requests_identified twice (by decide)).2 (0, 1) (mem_requests.2 ⟨_, rfl, by decide⟩)
    (fun name => ((twice.headers (0, 1)).lookup name).getD "") (by decide) Guid.empty
    ⟨"", "", "", .internal, 0, 0, [], [], .unset⟩).1.trans (by decide)

end ScenarioRun

end TxPlatform
