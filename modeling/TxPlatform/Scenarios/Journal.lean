import TxPlatform.Lib.Dict
import TxPlatform.Scenarios.Schema
import Mathlib.Data.List.Induction
import Mathlib.Data.List.Count

/-! # The journal and its restore plan (journal.py:16-59)

An entry is written before the change it announces. `restorePlan` walks the entries once with three
accumulators; the lemmas say what each of them holds, by induction on the last entry, so that later
modules never walk the loop again.
-/

namespace TxPlatform

/-- What `Journal.record` is called with: the kind and the details. -/
inductive Entry where
  | fault (service : Workload) (pod operation : String) (mode : FaultSpecMode)
  | scale (workload : Workload) (originalReplicas replicas : Nat)
  | rolloutRestart (workload : Workload)
  | deletePod (workload : Workload) (pod uid : String)
  deriving DecidableEq

/-- `entry.get("service") if kind == "fault" else entry.get("workload")`. -/
def Entry.workload : Entry → Workload
  | fault service _ _ _ => service
  | scale workload _ _ => workload
  | rolloutRestart workload => workload
  | deletePod workload _ _ => workload

inductive RestoreStep where
  | scale (target : Workload) (replicas : Nat)
  | clearFaults (target : Workload)
  | waitAvailable (target : Workload)
  deriving DecidableEq

/-! ## The loop -/

/-- `if x not in xs: xs.append(x)`. -/
def appendNew {α : Type} [DecidableEq α] (xs : List α) (x : α) : List α :=
  if x ∈ xs then xs else xs ++ [x]

/-- `xs.setdefault(key, value)` on a dictionary kept in insertion order. -/
def setDefault {κ ν : Type} [DecidableEq κ] (xs : List (κ × ν)) (key : κ) (value : ν) : List (κ × ν) :=
  if key ∈ xs.map Prod.fst then xs else xs ++ [(key, value)]

structure PlanState where
  faultServices : List Workload := []
  originalReplicas : List (Workload × Nat) := []
  touched : List Workload := []

/-- One turn of the loop (journal.py:46-55). -/
def PlanState.next (state : PlanState) (entry : Entry) : PlanState where
  faultServices :=
    match entry with
    | .fault service _ _ _ => appendNew state.faultServices service
    | _ => state.faultServices
  originalReplicas :=
    -- The first recorded count is the original; later scale actions must not overwrite it.
    match entry with
    | .scale workload originalReplicas _ => setDefault state.originalReplicas workload originalReplicas
    | _ => state.originalReplicas
  touched := appendNew state.touched entry.workload

def planState (entries : List Entry) : PlanState := entries.foldl PlanState.next {}

def restorePlan (entries : List Entry) : List RestoreStep :=
  (planState entries).faultServices.map .clearFaults
    ++ (planState entries).originalReplicas.map (fun (workload, replicas) => .scale workload replicas)
    ++ (planState entries).touched.map .waitAvailable

/-! ## What the entries say -/

/-- A fault of this service was announced. -/
def Faulted (entries : List Entry) (service : Workload) : Prop :=
  ∃ pod operation mode, Entry.fault service pod operation mode ∈ entries

def Touched (entries : List Entry) (workload : Workload) : Prop :=
  ∃ entry ∈ entries, entry.workload = workload

/-- The count the first scale entry of a workload announced as its original. -/
def firstScale (workload : Workload) : List Entry → Option Nat
  | [] => none
  | .scale w originalReplicas _ :: rest =>
    if w = workload then some originalReplicas else firstScale workload rest
  | _ :: rest => firstScale workload rest

theorem Faulted.append {entries : List Entry} {service : Workload} (h : Faulted entries service)
    (more : List Entry) : Faulted (entries ++ more) service := by
  obtain ⟨pod, operation, mode, hmem⟩ := h
  exact ⟨pod, operation, mode, List.mem_append_left _ hmem⟩

theorem Faulted.snoc (entries : List Entry) (service : Workload) (pod operation : String)
    (mode : FaultSpecMode) : Faulted (entries ++ [.fault service pod operation mode]) service :=
  ⟨pod, operation, mode, by simp⟩

theorem faulted_snoc {entries : List Entry} {entry : Entry} {service : Workload} :
    Faulted (entries ++ [entry]) service ↔
      Faulted entries service ∨ ∃ pod operation mode, entry = .fault service pod operation mode := by
  constructor
  · rintro ⟨pod, operation, mode, hmem⟩
    rcases List.mem_append.1 hmem with hmem | hmem
    · exact .inl ⟨pod, operation, mode, hmem⟩
    · exact .inr ⟨pod, operation, mode, (List.mem_singleton.1 hmem).symm⟩
  · rintro (h | ⟨pod, operation, mode, rfl⟩)
    · exact h.append [entry]
    · exact .snoc entries service pod operation mode

theorem touched_snoc {entries : List Entry} {entry : Entry} {workload : Workload} :
    Touched (entries ++ [entry]) workload ↔ Touched entries workload ∨ entry.workload = workload := by
  unfold Touched
  simp only [List.mem_append, List.mem_singleton]
  constructor
  · rintro ⟨e, he | rfl, hw⟩
    · exact .inl ⟨e, he, hw⟩
    · exact .inr hw
  · rintro (⟨e, he, hw⟩ | hw)
    · exact ⟨e, .inl he, hw⟩
    · exact ⟨entry, .inr rfl, hw⟩

/-- A later entry never overwrites the first count. -/
theorem firstScale_append (entries more : List Entry) (workload : Workload) :
    firstScale workload (entries ++ more) = (firstScale workload entries).or
      (firstScale workload more) := by
  induction entries with
  | nil => rfl
  | cons entry rest ih =>
    cases entry with
    | scale w originalReplicas replicas =>
      simp only [List.cons_append, firstScale]
      split
      · rfl
      · exact ih
    | fault service pod operation mode => exact ih
    | rolloutRestart w => exact ih
    | deletePod w pod uid => exact ih

theorem firstScale_of_some {entries : List Entry} {workload : Workload} {n : Nat}
    (h : firstScale workload entries = some n) (more : List Entry) :
    firstScale workload (entries ++ more) = some n := by
  rw [firstScale_append, h, Option.some_or]

/-! ## What the loop collects -/

section Lists
variable {α κ ν : Type} [DecidableEq α] [DecidableEq κ]

theorem mem_appendNew {xs : List α} {x y : α} : y ∈ appendNew xs x ↔ y ∈ xs ∨ y = x := by
  unfold appendNew
  split
  · rename_i h
    constructor
    · exact .inl
    · rintro (hy | rfl)
      · exact hy
      · exact h
  · simp

theorem nodup_appendNew {xs : List α} {x : α} (h : xs.Nodup) : (appendNew xs x).Nodup := by
  unfold appendNew
  split
  · exact h
  · rename_i hx
    exact List.nodup_append.2 ⟨h, List.nodup_singleton x, fun a ha b hb => by
      rintro rfl; exact hx (List.mem_singleton.1 hb ▸ ha)⟩

theorem mem_setDefault {xs : List (κ × ν)} {key : κ} {value : ν} {x : κ × ν} :
    x ∈ setDefault xs key value ↔ x ∈ xs ∨ (key ∉ xs.map Prod.fst ∧ x = (key, value)) := by
  unfold setDefault
  split
  · rename_i h
    simp [h]
  · rename_i h
    simp [h]

end Lists

theorem planState_snoc (entries : List Entry) (entry : Entry) :
    planState (entries ++ [entry]) = (planState entries).next entry := by
  simp [planState, List.foldl_append]

theorem mem_faultServices {entries : List Entry} {service : Workload} :
    service ∈ (planState entries).faultServices ↔ Faulted entries service := by
  induction entries using List.reverseRecOn with
  | nil => simp [planState, Faulted]
  | append_singleton entries entry ih =>
    rw [planState_snoc, faulted_snoc, ← ih]
    cases entry with
    | fault s pod operation mode =>
      simp only [PlanState.next, mem_appendNew]
      constructor
      · rintro (h | rfl)
        · exact .inl h
        · exact .inr ⟨pod, operation, mode, rfl⟩
      · rintro (h | ⟨_, _, _, h⟩)
        · exact .inl h
        · cases h; exact .inr rfl
    | scale w originalReplicas replicas => simp [PlanState.next]
    | rolloutRestart w => simp [PlanState.next]
    | deletePod w pod uid => simp [PlanState.next]

/-- The loop keeps the first count of every workload, and nothing else. -/
theorem mem_originalReplicas {entries : List Entry} {workload : Workload} {n : Nat} :
    (workload, n) ∈ (planState entries).originalReplicas ↔ firstScale workload entries = some n := by
  induction entries using List.reverseRecOn generalizing workload n with
  | nil => simp [planState, firstScale]
  | append_singleton entries entry ih =>
    rw [planState_snoc, firstScale_append]
    cases entry with
    | scale w originalReplicas replicas =>
      simp only [PlanState.next, mem_setDefault, ih, firstScale, Prod.mk.injEq]
      cases hold : firstScale workload entries with
      | some old =>
        -- scaled before: the new count is refused
        have hin : workload ∈ (planState entries).originalReplicas.map Prod.fst :=
          List.mem_map.2 ⟨_, ih.2 hold, rfl⟩
        simp only [Option.some_or, or_iff_left_iff_imp]
        rintro ⟨hnot, rfl, rfl⟩
        exact absurd hin hnot
      | none =>
        have hnot : workload ∉ (planState entries).originalReplicas.map Prod.fst := by
          intro h
          obtain ⟨⟨w', old⟩, hmem, rfl⟩ := List.mem_map.1 h
          rw [ih.1 hmem] at hold
          cases hold
        simp only [Option.none_or, reduceCtorEq, false_or]
        constructor
        · rintro ⟨_, rfl, rfl⟩; simp
        · intro h
          split at h
          · rename_i hw
            subst hw
            exact ⟨hnot, rfl, (Option.some.inj h).symm⟩
          · cases h
    | fault s pod operation mode => simpa [PlanState.next, firstScale] using ih
    | rolloutRestart w => simpa [PlanState.next, firstScale] using ih
    | deletePod w pod uid => simpa [PlanState.next, firstScale] using ih

theorem mem_touched {entries : List Entry} {workload : Workload} :
    workload ∈ (planState entries).touched ↔ Touched entries workload := by
  induction entries using List.reverseRecOn with
  | nil => simp [planState, Touched]
  | append_singleton entries entry ih =>
    rw [planState_snoc, touched_snoc, ← ih]
    simp only [PlanState.next, mem_appendNew, eq_comm]

theorem nodup_touched (entries : List Entry) : (planState entries).touched.Nodup := by
  induction entries using List.reverseRecOn with
  | nil => exact List.nodup_nil
  | append_singleton entries entry ih =>
    rw [planState_snoc]
    exact nodup_appendNew ih

/-! ## The plan -/

theorem clearFaults_mem_restorePlan {entries : List Entry} {service : Workload} :
    RestoreStep.clearFaults service ∈ restorePlan entries ↔ Faulted entries service := by
  simp [restorePlan, mem_faultServices]

theorem scale_mem_restorePlan {entries : List Entry} {workload : Workload} {n : Nat} :
    RestoreStep.scale workload n ∈ restorePlan entries ↔ firstScale workload entries = some n := by
  simp [restorePlan, mem_originalReplicas]

theorem waitAvailable_mem_restorePlan {entries : List Entry} {workload : Workload} :
    RestoreStep.waitAvailable workload ∈ restorePlan entries ↔ Touched entries workload := by
  simp [restorePlan, mem_touched]

/-- More entries never take a step out of the plan. -/
theorem restorePlan_append {entries : List Entry} {step : RestoreStep} (h : step ∈ restorePlan entries)
    (more : List Entry) : step ∈ restorePlan (entries ++ more) := by
  cases step with
  | clearFaults service =>
    exact clearFaults_mem_restorePlan.2 ((clearFaults_mem_restorePlan.1 h).append more)
  | scale workload n =>
    exact scale_mem_restorePlan.2 (firstScale_of_some (scale_mem_restorePlan.1 h) more)
  | waitAvailable workload =>
    obtain ⟨entry, hmem, hw⟩ := waitAvailable_mem_restorePlan.1 h
    exact waitAvailable_mem_restorePlan.2 ⟨entry, List.mem_append_left _ hmem, hw⟩

/-- Where the plan puts each kind of step. -/
def RestoreStep.rank : RestoreStep → Nat
  | clearFaults _ => 0
  | scale _ _ => 1
  | waitAvailable _ => 2

/-- Faults are removed first, then the counts are restored, then the workloads are awaited. -/
theorem restorePlan_ordered (entries : List Entry) :
    (restorePlan entries).Pairwise fun earlier later => earlier.rank ≤ later.rank := by
  simp only [restorePlan, List.pairwise_append, List.pairwise_map, List.mem_append, List.mem_map]
  refine ⟨⟨?_, ?_, ?_⟩, ?_, ?_⟩
  · exact List.pairwise_of_forall fun _ _ => le_refl _
  · exact List.pairwise_of_forall fun _ _ => le_refl _
  · rintro _ ⟨_, _, rfl⟩ later _
    exact Nat.zero_le _
  · exact List.pairwise_of_forall fun _ _ => le_refl _
  · rintro earlier (⟨_, _, rfl⟩ | ⟨_, _, rfl⟩) _ ⟨_, _, rfl⟩
    · exact Nat.zero_le 2
    · exact Nat.le_succ 1

theorem count_waitAvailable (entries : List Entry) (workload : Workload)
    [Decidable (Touched entries workload)] :
    (restorePlan entries).count
      (.waitAvailable workload) = if Touched entries workload then 1 else 0 := by
  have hclear : ((planState entries).faultServices.map RestoreStep.clearFaults).count
    (.waitAvailable workload) = 0 :=
    List.count_eq_zero.2 (by simp)
  have hscale : ((planState entries).originalReplicas.map
      fun (workload, replicas) => RestoreStep.scale workload replicas).count
        (.waitAvailable workload) = 0 :=
    List.count_eq_zero.2 (by simp)
  have hinj : Function.Injective RestoreStep.waitAvailable := fun a b h => by cases h; rfl
  rw [restorePlan, List.count_append, List.count_append, hclear, hscale,
    List.count_map_of_injective _ _ hinj, (nodup_touched entries).count]
  simp only [mem_touched, Nat.zero_add]

end TxPlatform
