import Mathlib.Algebra.Order.Floor.Semiring
import Mathlib.Data.List.Chain
import Mathlib.Data.List.Range
import Mathlib.Data.Rat.Floor
import Mathlib.Tactic.Linarith
import Mathlib.Tactic.Ring

/-! # The schedule of a workload step (workload.py:36-54, schema.py:118-152)

Requests start on planned offsets. A step that is accepted has the numbers its profile needs; a
schedule is then one `phase` (steady) or three of them (spike), each with its own start and rate.
Numbers are exact: the rounding of floats is left out.
-/

namespace TxPlatform

/-! ## Steps (schema.py) -/

inductive Profile where
  | single
  | concurrent
  | burst
  | steady
  | spike
  deriving DecidableEq

def Profile.value : Profile → String
  | .single => "single"
  | .concurrent => "concurrent"
  | .burst => "burst"
  | .steady => "steady"
  | .spike => "spike"

inductive Identity where
  | scenarioRunner
  | orderReader
  | none
  | tampered
  deriving DecidableEq

structure WorkloadStep where
  profile : Profile
  requests : Int := 1
  concurrency : Int := 1
  ratePerSecond : Option ℚ := none
  durationSeconds : Option ℚ := none
  spikeRatePerSecond : Option ℚ := none
  spikeSeconds : Option ℚ := none
  identity : Identity := .scenarioRunner
  debug : Bool := false
  delaySeconds : ℚ := 0

namespace WorkloadStep

/-- `Field(gt=0, le=limit)` of an optional number. -/
def inRange (limit : ℚ) (value : Option ℚ) : Bool := value.all fun value => 0 < value ∧ value ≤ limit

/-- The `Field` bounds. -/
def fieldsInRange (step : WorkloadStep) : Bool :=
  (1 ≤ step.requests ∧ step.requests ≤ 5000) ∧ (1 ≤ step.concurrency ∧ step.concurrency ≤ 200) ∧
    inRange 200 step.ratePerSecond ∧ inRange 600 step.durationSeconds ∧
    inRange 200 step.spikeRatePerSecond ∧ inRange 120 step.spikeSeconds ∧
    (0 ≤ step.delaySeconds ∧ step.delaySeconds ≤ 300)

def needsRate (step : WorkloadStep) : Bool := step.profile = .steady ∨ step.profile = .spike

/-- `self.spike_seconds >= self.duration_seconds`, asked when both are given. -/
def spikeTooLong (step : WorkloadStep) : Bool :=
  match step.spikeSeconds, step.durationSeconds with
  | some spikeSeconds, some durationSeconds => durationSeconds ≤ spikeSeconds
  | _, _ => false

/-- `check_profile`. -/
def checkProfile (step : WorkloadStep) : Except String Unit :=
  if step.needsRate ∧ (step.ratePerSecond = none ∨ step.durationSeconds = none) then
    .error (step.profile.value ++ " needs ratePerSecond and durationSeconds")
  else if step.profile = .spike ∧ (step.spikeRatePerSecond = none ∨ step.spikeSeconds = none) then
    .error "spike needs spikeRatePerSecond and spikeSeconds"
  else if step.profile = .spike ∧ step.spikeTooLong then
    .error "spikeSeconds must be shorter than durationSeconds"
  else if step.debug ∧ step.identity ≠ .scenarioRunner then
    .error "only the scenario-runner identity holds the traces.debug permission"
  else .ok ()

end WorkloadStep

/-- A step the schema accepts. -/
structure AcceptedStep extends WorkloadStep where
  inRange : toWorkloadStep.fieldsInRange = true
  checked : toWorkloadStep.checkProfile = .ok ()

/-! ## The schedule (workload.py:36-54) -/

namespace WorkloadStep

/-- `int(x)` cuts towards zero. -/
def truncate (x : ℚ) : Int := x.num.tdiv x.den

def range (stop : Int) : List Nat := List.range stop.toNat

/-- `value or default`. -/
def orDefault (value : Option ℚ) (default : ℚ) : ℚ :=
  match value with
  | none => default
  | some value => if value = 0 then default else value

def schedule (step : WorkloadStep) : List ℚ :=
  let rate := orDefault step.ratePerSecond 0
  let duration := orDefault step.durationSeconds 0
  match step.profile with
  | .single => [0]
  | .burst | .concurrent => List.replicate step.requests.toNat 0
  | .steady => (range (truncate (rate * duration))).map fun (index : Nat) => index / rate
  | .spike =>
    let spikeSeconds := orDefault step.spikeSeconds 0
    let spikeStart := (duration - spikeSeconds) / 2
    let spikeRate := orDefault step.spikeRatePerSecond rate
    let tailStart := spikeStart + spikeSeconds
    (range (truncate (rate * spikeStart))).map (fun (i : Nat) => i / rate) ++
      (range (truncate (spikeRate * spikeSeconds))).map (fun (i : Nat) => spikeStart + i / spikeRate) ++
      (range (truncate (rate * (duration - tailStart)))).map fun (i : Nat) => tailStart + i / rate

/-! ## Phases -/

/-- `rate` requests a second for so many seconds. -/
def phase (start rate seconds : ℚ) : List ℚ :=
  (List.range ⌊rate * seconds⌋₊).map fun (i : Nat) => start + i / rate

/-- The baseline, the spike and the baseline again. -/
def spikeOffsets (rate spikeRate spikeStart spikeSeconds : ℚ) : List ℚ :=
  phase 0 rate spikeStart ++ phase spikeStart spikeRate spikeSeconds ++
    phase (spikeStart + spikeSeconds) rate spikeStart

/-- One request after the other at a fixed distance. -/
def EvenlySpaced (gap : ℚ) (offsets : List ℚ) : Prop := offsets.IsChain fun a b => b - a = gap

/-- As many requests as the rate allows in these seconds, evenly spaced. -/
structure Plans (rate seconds : ℚ) (offsets : List ℚ) : Prop where
  count : offsets.length = ⌊rate * seconds⌋₊
  spaced : EvenlySpaced (1 / rate) offsets

section Phase
variable {start rate seconds : ℚ}

theorem le_of_mem_phase (hrate : 0 < rate) {offset : ℚ} (h : offset ∈ phase start rate seconds) :
    start ≤ offset := by
  obtain ⟨i, -, rfl⟩ := List.mem_map.1 h
  have hnonneg : 0 ≤ (i : ℚ) / rate := div_nonneg (by positivity) hrate.le
  linarith

/-- The last request of a phase starts before its end. -/
theorem lt_of_mem_phase (hrate : 0 < rate) {offset : ℚ} (h : offset ∈ phase start rate seconds) :
    offset < start + seconds := by
  obtain ⟨i, hi, rfl⟩ := List.mem_map.1 h
  have hlt : (i : ℚ) < rate * seconds := Nat.lt_of_lt_floor (List.mem_range.1 hi)
  have hdiv : (i : ℚ) / rate < seconds := by
    rw [div_lt_iff₀ hrate, mul_comm]
    exact hlt
  linarith

theorem plans_phase (start rate seconds : ℚ) : Plans rate seconds (phase start rate seconds) := by
  constructor
  · rw [phase, List.length_map, List.length_range]
  · rw [EvenlySpaced, phase, List.isChain_map, List.isChain_range]
    intro i _
    push_cast
    ring

theorem ordered_phase (hrate : 0 < rate) : (phase start rate seconds).Pairwise (· ≤ ·) := by
  rw [phase, List.pairwise_map]
  refine List.pairwise_lt_range.imp fun {i j} hij => ?_
  have hdiv : (i : ℚ) / rate ≤ j / rate := div_le_div_of_nonneg_right (by exact_mod_cast hij.le) hrate.le
  linarith

/-- `range(int(x))` counts up to the floor. -/
theorem range_truncate {x : ℚ} (h : 0 ≤ x) : range (truncate x) = List.range ⌊x⌋₊ := by
  have hfloor : truncate x = ⌊x⌋ := by
    rw [truncate, Int.tdiv_eq_ediv_of_nonneg (Rat.num_nonneg.2 h), Rat.floor_def']
  rw [range, hfloor, Int.floor_toNat]

theorem orDefault_some {value default : ℚ} (h : 0 < value) : orDefault (some value) default = value :=
  if_neg h.ne'

end Phase

/-! ## What an accepted step plans -/

theorem pos_of_inRange {limit value : ℚ} (h : inRange limit (some value) = true) : 0 < value := by
  simp only [inRange, Option.all_some, decide_eq_true_eq] at h
  exact h.1

theorem inRange_of_accepted (step : AcceptedStep) :
    inRange 200 step.ratePerSecond = true ∧ inRange 600 step.durationSeconds = true ∧
      inRange 200 step.spikeRatePerSecond = true ∧ inRange 120 step.spikeSeconds = true := by
  have hrange := step.inRange
  simp only [fieldsInRange, decide_eq_true_eq] at hrange
  exact ⟨hrange.2.2.1, hrange.2.2.2.1, hrange.2.2.2.2.1, hrange.2.2.2.2.2.1⟩

/-- What the first three checks leave. -/
theorem checked_of_accepted (step : AcceptedStep) :
    (step.needsRate = true → step.ratePerSecond ≠ none ∧ step.durationSeconds ≠ none) ∧
      (step.profile = .spike → step.spikeRatePerSecond ≠ none ∧ step.spikeSeconds ≠ none ∧
        step.spikeTooLong = false) := by
  have hchecked := step.checked
  rw [checkProfile] at hchecked
  split at hchecked
  · cases hchecked
  · rename_i hrate
    split at hchecked
    · cases hchecked
    · rename_i hspike
      split at hchecked
      · cases hchecked
      · rename_i hlong
        refine ⟨fun hneeds => not_or.1 fun hnone => hrate ⟨hneeds, hnone⟩, fun hprofile => ?_⟩
        obtain ⟨hspikeRate, hspikeSeconds⟩ := not_or.1 fun hnone => hspike ⟨hprofile, hnone⟩
        exact ⟨hspikeRate, hspikeSeconds, eq_false_of_ne_true fun htoo => hlong ⟨hprofile, htoo⟩⟩

/-- The numbers of a steady or spike step are given and positive. -/
theorem exists_rate (step : AcceptedStep) (h : step.needsRate = true) :
    ∃ rate duration, step.ratePerSecond = some rate ∧ step.durationSeconds = some duration ∧
      0 < rate ∧ 0 < duration := by
  obtain ⟨hrate, hduration, -, -⟩ := inRange_of_accepted step
  obtain ⟨hrateGiven, hdurationGiven⟩ := (checked_of_accepted step).1 h
  obtain ⟨rate, hr⟩ := Option.ne_none_iff_exists'.1 hrateGiven
  obtain ⟨duration, hd⟩ := Option.ne_none_iff_exists'.1 hdurationGiven
  rw [hr] at hrate
  rw [hd] at hduration
  exact ⟨rate, duration, hr, hd, pos_of_inRange hrate, pos_of_inRange hduration⟩

/-- So are those of a spike, which is shorter than its step. -/
theorem exists_spike (step : AcceptedStep) (h : step.profile = .spike) :
    ∃ spikeRate spikeSeconds, step.spikeRatePerSecond = some spikeRate ∧ step.spikeSeconds = some spikeSeconds ∧
      0 < spikeRate ∧ 0 < spikeSeconds ∧ ∀ duration, step.durationSeconds = some duration → spikeSeconds < duration := by
  obtain ⟨-, -, hspikeRate, hspikeSeconds⟩ := inRange_of_accepted step
  obtain ⟨hrateGiven, hsecondsGiven, hlong⟩ := (checked_of_accepted step).2 h
  obtain ⟨spikeRate, hr⟩ := Option.ne_none_iff_exists'.1 hrateGiven
  obtain ⟨spikeSeconds, hs⟩ := Option.ne_none_iff_exists'.1 hsecondsGiven
  rw [hr] at hspikeRate
  rw [hs] at hspikeSeconds
  refine ⟨spikeRate, spikeSeconds, hr, hs, pos_of_inRange hspikeRate, pos_of_inRange hspikeSeconds,
    fun duration hd => ?_⟩
  rw [spikeTooLong, hs, hd] at hlong
  exact not_le.1 (of_decide_eq_false hlong)

/-- A steady step is one phase. -/
theorem schedule_steady {step : WorkloadStep} {rate duration : ℚ} (h : step.profile = .steady)
    (hr : step.ratePerSecond = some rate) (hd : step.durationSeconds = some duration) (hrate : 0 < rate)
    (hduration : 0 < duration) : schedule step = phase 0 rate duration := by
  simp only [schedule, h, hr, hd, orDefault_some hrate, orDefault_some hduration,
    range_truncate (mul_pos hrate hduration).le, phase, zero_add]

/-- A spike step is three: the rate up to the spike, the spike, and as long again at the rate. -/
theorem schedule_spike {step : WorkloadStep} {rate duration spikeRate spikeSeconds : ℚ}
    (h : step.profile = .spike) (hr : step.ratePerSecond = some rate) (hd : step.durationSeconds = some duration)
    (hsr : step.spikeRatePerSecond = some spikeRate) (hs : step.spikeSeconds = some spikeSeconds)
    (hrate : 0 < rate) (hspikeRate : 0 < spikeRate) (hspikeSeconds : 0 < spikeSeconds)
    (hshort : spikeSeconds < duration) :
    schedule step = spikeOffsets rate spikeRate ((duration - spikeSeconds) / 2) spikeSeconds := by
  have hstart : 0 < (duration - spikeSeconds) / 2 := by linarith
  have htail : duration - ((duration - spikeSeconds) / 2 + spikeSeconds) = (duration - spikeSeconds) / 2 := by
    ring
  simp only [schedule, h, hr, hd, hsr, hs, orDefault_some hrate, orDefault_some (hspikeSeconds.trans hshort),
    orDefault_some hspikeRate, orDefault_some hspikeSeconds, htail, range_truncate (mul_pos hrate hstart).le,
    range_truncate (mul_pos hspikeRate hspikeSeconds).le, spikeOffsets, phase, zero_add]

/-! ## Every accepted step -/

/-- What the schedule of a step owes its numbers. -/
structure PlansExactly (step : WorkloadStep) : Prop where
  ordered : (schedule step).Pairwise (· ≤ ·)
  steady : step.profile = .steady → ∃ rate duration,
    step.ratePerSecond = some rate ∧ step.durationSeconds = some duration ∧
    (∀ offset ∈ schedule step, 0 ≤ offset ∧ offset < duration) ∧ Plans rate duration (schedule step)
  spike : step.profile = .spike → ∃ rate duration spikeRate spikeSeconds spikeStart,
    step.ratePerSecond = some rate ∧ step.durationSeconds = some duration ∧
    step.spikeRatePerSecond = some spikeRate ∧ step.spikeSeconds = some spikeSeconds ∧
    spikeStart = (duration - spikeSeconds) / 2 ∧
    (∀ offset ∈ schedule step, 0 ≤ offset ∧ offset < duration) ∧
    Plans rate spikeStart ((schedule step).filter fun offset => offset < spikeStart) ∧
    Plans spikeRate spikeSeconds
      ((schedule step).filter fun offset => spikeStart ≤ offset ∧ offset < spikeStart + spikeSeconds) ∧
    Plans rate spikeStart ((schedule step).filter fun offset => spikeStart + spikeSeconds ≤ offset)

section Spike
variable {rate spikeRate spikeStart spikeSeconds : ℚ}

theorem bounds_of_mem_phase (start seconds : ℚ) (hrate : 0 < rate) :
    ∀ offset ∈ phase start rate seconds, start ≤ offset ∧ offset < start + seconds :=
  fun _ h => ⟨le_of_mem_phase hrate h, lt_of_mem_phase hrate h⟩

theorem ordered_spikeOffsets (hrate : 0 < rate) (hspikeRate : 0 < spikeRate) (hspike : 0 < spikeSeconds) :
    (spikeOffsets rate spikeRate spikeStart spikeSeconds).Pairwise (· ≤ ·) := by
  rw [spikeOffsets, List.pairwise_append, List.pairwise_append]
  refine ⟨⟨ordered_phase hrate, ordered_phase hspikeRate, fun a ha b hb => ?_⟩, ordered_phase hrate,
    fun a ha b hb => ?_⟩
  · have hend := lt_of_mem_phase hrate ha
    have hstart := le_of_mem_phase hspikeRate hb
    linarith
  · have hstart := le_of_mem_phase hrate hb
    rcases List.mem_append.1 ha with ha | ha
    · have hend := lt_of_mem_phase hrate ha
      linarith
    · have hend := lt_of_mem_phase hspikeRate ha
      linarith

theorem bounds_spikeOffsets (hrate : 0 < rate) (hspikeRate : 0 < spikeRate) (hstart : 0 < spikeStart)
    (hspike : 0 < spikeSeconds) :
    ∀ offset ∈ spikeOffsets rate spikeRate spikeStart spikeSeconds,
      0 ≤ offset ∧ offset < spikeStart + spikeSeconds + spikeStart := by
  intro offset h
  rcases List.mem_append.1 h with h | h
  · rcases List.mem_append.1 h with h | h
    · have hbounds := bounds_of_mem_phase _ _ hrate offset h
      constructor <;> linarith
    · have hbounds := bounds_of_mem_phase _ _ hspikeRate offset h
      constructor <;> linarith
  · have hbounds := bounds_of_mem_phase _ _ hrate offset h
    constructor <;> linarith

/-- Each part of the time holds exactly its phase. -/
theorem filter_spikeOffsets (spikeStart : ℚ) (hrate : 0 < rate) (hspikeRate : 0 < spikeRate) (hspike : 0 < spikeSeconds) :
    (spikeOffsets rate spikeRate spikeStart spikeSeconds).filter (fun offset => offset < spikeStart) =
      phase 0 rate spikeStart ∧
    (spikeOffsets rate spikeRate spikeStart spikeSeconds).filter
        (fun offset => spikeStart ≤ offset ∧ offset < spikeStart + spikeSeconds) =
      phase spikeStart spikeRate spikeSeconds ∧
    (spikeOffsets rate spikeRate spikeStart spikeSeconds).filter (fun offset => spikeStart + spikeSeconds ≤ offset) =
      phase (spikeStart + spikeSeconds) rate spikeStart := by
  have hbefore := bounds_of_mem_phase 0 spikeStart hrate
  have hduring := bounds_of_mem_phase spikeStart spikeSeconds hspikeRate
  have hafter := bounds_of_mem_phase (spikeStart + spikeSeconds) spikeStart hrate
  simp only [spikeOffsets, List.filter_append]
  refine ⟨?_, ?_, ?_⟩
  · rw [List.filter_eq_self.2 fun o h => ?_, List.filter_eq_nil_iff.2 fun o h => ?_,
      List.filter_eq_nil_iff.2 fun o h => ?_, List.append_nil, List.append_nil]
    · rw [decide_eq_true_eq, not_lt]; linarith [hafter o h]
    · rw [decide_eq_true_eq, not_lt]; linarith [hduring o h]
    · rw [decide_eq_true_eq]; linarith [hbefore o h]
  · rw [List.filter_eq_nil_iff.2 fun o h => ?_, List.filter_eq_self.2 fun o h => ?_,
      List.filter_eq_nil_iff.2 fun o h => ?_, List.nil_append, List.append_nil]
    · rw [decide_eq_true_eq]
      rintro ⟨_, hlt⟩
      linarith [hafter o h]
    · rw [decide_eq_true_eq]; exact hduring o h
    · rw [decide_eq_true_eq]
      rintro ⟨hle, _⟩
      linarith [hbefore o h]
  · rw [List.filter_eq_nil_iff.2 fun o h => ?_, List.filter_eq_nil_iff.2 fun o h => ?_,
      List.filter_eq_self.2 fun o h => ?_, List.nil_append, List.nil_append]
    · rw [decide_eq_true_eq]; linarith [hafter o h]
    · rw [decide_eq_true_eq, not_le]; linarith [hduring o h]
    · rw [decide_eq_true_eq, not_le]; linarith [hbefore o h]

end Spike

theorem ordered_schedule (step : AcceptedStep) : (schedule step.toWorkloadStep).Pairwise (· ≤ ·) := by
  have hzero : ∀ n, (List.replicate n (0 : ℚ)).Pairwise (· ≤ ·) := fun n => by simp [List.pairwise_replicate]
  cases hprofile : step.profile with
  | single => rw [schedule, hprofile]; exact List.pairwise_singleton ..
  | burst => rw [schedule, hprofile]; exact hzero _
  | concurrent => rw [schedule, hprofile]; exact hzero _
  | steady =>
    obtain ⟨rate, duration, hr, hd, hrate, hduration⟩ := exists_rate step (by simp [needsRate, hprofile])
    rw [schedule_steady hprofile hr hd hrate hduration]
    exact ordered_phase hrate
  | spike =>
    obtain ⟨rate, duration, hr, hd, hrate, -⟩ := exists_rate step (by simp [needsRate, hprofile])
    obtain ⟨spikeRate, spikeSeconds, hsr, hs, hspikeRate, hspike, hshort⟩ := exists_spike step hprofile
    rw [schedule_spike hprofile hr hd hsr hs hrate hspikeRate hspike (hshort duration hd)]
    exact ordered_spikeOffsets hrate hspikeRate hspike

/-- Every step the schema accepts is planned exactly. -/
theorem plansExactly (step : AcceptedStep) : PlansExactly step.toWorkloadStep where
  ordered := ordered_schedule step
  steady hprofile := by
    obtain ⟨rate, duration, hr, hd, hrate, hduration⟩ := exists_rate step (by simp [needsRate, hprofile])
    refine ⟨rate, duration, hr, hd, ?_⟩
    rw [schedule_steady hprofile hr hd hrate hduration]
    exact ⟨by simpa using bounds_of_mem_phase 0 duration hrate, plans_phase ..⟩
  spike hprofile := by
    obtain ⟨rate, duration, hr, hd, hrate, -⟩ := exists_rate step (by simp [needsRate, hprofile])
    obtain ⟨spikeRate, spikeSeconds, hsr, hs, hspikeRate, hspike, hshort⟩ := exists_spike step hprofile
    have hlt := hshort duration hd
    refine ⟨rate, duration, spikeRate, spikeSeconds, _, hr, hd, hsr, hs, rfl, ?_⟩
    rw [schedule_spike hprofile hr hd hsr hs hrate hspikeRate hspike hlt]
    have hbounds := bounds_spikeOffsets hrate hspikeRate
      (show 0 < (duration - spikeSeconds) / 2 by linarith) hspike
    have hend : (duration - spikeSeconds) / 2 + spikeSeconds + (duration - spikeSeconds) / 2 = duration := by
      ring
    rw [hend] at hbounds
    obtain ⟨hbefore, hduring, hafter⟩ := filter_spikeOffsets ((duration - spikeSeconds) / 2)
      hrate hspikeRate hspike
    rw [hbefore, hduring, hafter]
    exact ⟨hbounds, plans_phase .., plans_phase .., plans_phase ..⟩

/-- Ten seconds at two requests a second, with ten a second in the two seconds in the middle. -/
def spikeStep : AcceptedStep where
  profile := .spike
  ratePerSecond := some 2
  durationSeconds := some 10
  spikeRatePerSecond := some 10
  spikeSeconds := some 2
  inRange := by decide
  checked := by decide

example : (schedule spikeStep.toWorkloadStep).length = 36 := by decide +kernel

end WorkloadStep

end TxPlatform
