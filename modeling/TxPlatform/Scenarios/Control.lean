import TxPlatform.Scenarios.Journal
import Mathlib.Data.List.Sort
import Mathlib.Logic.Function.Basic

/-! # Changing the running platform (control.py:48-148)

Every operator function is a sequence of calls to the Kubernetes API, to a pod's management port
and to the journal; other tasks of the run may come between any two of them. An `Instr` is what is
left of such a function before its next call, and `Instr.exec` makes the call: it changes the
platform or writes an entry, and says what is left afterwards. `none` means that the call raises.
-/

namespace TxPlatform

structure Pod where
  name : String
  uid : String
  /-- In phase `Running` and not being deleted; a pod that left this state never returns to it. -/
  running : Bool
  ready : Bool
  /-- What its fault rule store holds. -/
  rules : List Json

structure Platform where
  /-- `spec.replicas`; nothing for a workload that does not exist. -/
  replicas : Workload → Option Nat
  pods : List Pod

namespace Platform

/-! ## Pods -/

section
-- A pod is named after the workload whose selector matches it.
variable (owner : String → Workload)

def runningPods (platform : Platform) (workload : Workload) : List String :=
  ((platform.pods.filter fun pod => pod.running ∧ owner pod.name = workload).map Pod.name).insertionSort (· ≤ ·)

def readyPods (platform : Platform) (workload : Workload) : List String :=
  ((platform.pods.filter fun pod => pod.running ∧ pod.ready ∧ owner pod.name = workload).map Pod.name).insertionSort
    (· ≤ ·)

theorem mem_runningPods {platform : Platform} {workload : Workload} {name : String} :
    name ∈ platform.runningPods owner workload ↔
      ∃ pod ∈ platform.pods, pod.running ∧ owner pod.name = workload ∧ pod.name = name := by
  simp [runningPods, List.mem_insertionSort, and_assoc]

theorem owner_of_mem_readyPods {platform : Platform} {workload : Workload} {name : String}
    (h : name ∈ platform.readyPods owner workload) : owner name = workload := by
  simp only [readyPods, List.mem_insertionSort, List.mem_map, List.mem_filter, decide_eq_true_eq] at h
  obtain ⟨pod, ⟨_, _, _, howner⟩, rfl⟩ := h
  exact howner

end

def hasPod (platform : Platform) (name : String) : Bool := platform.pods.any fun pod => pod.name = name

/-- What happens to the pod of this name. -/
def onPod (platform : Platform) (name : String) (change : Pod → Pod) : Platform :=
  { platform with pods := platform.pods.map fun pod => if pod.name = name then change pod else pod }

/-- `PUT /internal/faults`, answered with 201. -/
def putFault (platform : Platform) (name : String) (rule : Json) : Platform :=
  platform.onPod name fun pod => { pod with rules := pod.rules ++ [rule] }

/-- `DELETE /internal/faults`. -/
def deleteFaults (platform : Platform) (name : String) : Platform :=
  platform.onPod name fun pod => { pod with rules := [] }

/-- The deletion timestamp is set; the pod may serve on until its grace period ends. -/
def deletePod (platform : Platform) (name : String) : Platform :=
  platform.onPod name fun pod => { pod with running := false }

theorem hasPod_iff {platform : Platform} {name : String} :
    platform.hasPod name ↔ ∃ pod ∈ platform.pods, pod.name = name := by
  simp [hasPod]

theorem mem_onPod {platform : Platform} {name : String} {change : Pod → Pod} {pod : Pod} :
    pod ∈ (platform.onPod name change).pods ↔
      ∃ old ∈ platform.pods, pod = if old.name = name then change old else old := by
  simp [onPod, eq_comm]

theorem hasPod_deleteFaults {platform : Platform} {name other : String} :
    (platform.deleteFaults name).hasPod other = platform.hasPod other := by
  simp only [hasPod, deleteFaults, onPod, List.any_map]
  congr 1
  funext pod
  simp only [Function.comp_apply]
  split <;> rfl

/-! ## Replicas -/

/-- `_set_replicas`: raises for a workload that does not exist. -/
def setReplicas (platform : Platform) (workload : Workload) (replicas : Nat) : Option Platform :=
  match platform.replicas workload with
  | none => none
  | some _ => some { platform with replicas := Function.update platform.replicas workload (some replicas) }

/-- `restore_replicas`: a workload that does not exist is left alone. -/
def restoreReplicas (platform : Platform) (workload : Workload) (replicas : Nat) : Platform :=
  (platform.setReplicas workload replicas).getD platform

theorem setReplicas_eq_some {platform after : Platform} {workload : Workload} {n : Nat}
    (h : platform.setReplicas workload n = some after) :
    (∃ old, platform.replicas workload = some old) ∧ after.pods = platform.pods ∧
      after.replicas = Function.update platform.replicas workload (some n) := by
  unfold setReplicas at h
  split at h
  · cases h
  · rename_i old hold
    cases h
    exact ⟨⟨old, hold⟩, rfl, rfl⟩

theorem restoreReplicas_cases (platform : Platform) (workload : Workload) (n : Nat) :
    (platform.replicas workload = none ∧ platform.restoreReplicas workload n = platform) ∨
      platform.setReplicas workload n = some (platform.restoreReplicas workload n) := by
  unfold restoreReplicas setReplicas
  split
  · rename_i h; exact .inl ⟨h, rfl⟩
  · exact .inr rfl

end Platform

/-! ## What pods do by themselves -/

/-- A started pod has an empty store. Time and container restarts only take rules away. -/
inductive PodEvent where
  | started (name uid : String)
  | readiness (name : String) (ready : Bool)
  | ended (name : String)
  | removed (name : String)
  | rulesLost (name : String) (keep : Json → Bool)

def PodEvent.apply (platform : Platform) : PodEvent → Platform
  | started name uid =>
    { platform with pods := platform.pods ++ [{ name, uid, running := true, ready := false, rules := [] }] }
  | readiness name ready => platform.onPod name fun pod => { pod with ready := ready }
  | ended name => platform.onPod name fun pod => { pod with running := false }
  | removed name => { platform with pods := platform.pods.filter fun pod => pod.name ≠ name }
  | rulesLost name keep => platform.onPod name fun pod => { pod with rules := pod.rules.filter keep }

/-- The running pods that hold rules in `after` already did so in `before`. -/
def Platform.NoNewRules (before after : Platform) : Prop :=
  ∀ pod ∈ after.pods, pod.running → pod.rules ≠ [] →
    ∃ old ∈ before.pods, old.running ∧ old.rules ≠ [] ∧ old.name = pod.name

theorem Platform.noNewRules_onPod (platform : Platform) (name : String) {change : Pod → Pod}
    (hname : ∀ pod, (change pod).name = pod.name) (hrunning : ∀ pod, (change pod).running → pod.running)
    (hrules : ∀ pod, (change pod).rules ≠ [] → pod.rules ≠ []) :
    platform.NoNewRules (platform.onPod name change) := by
  intro pod hpod hrun hne
  obtain ⟨old, hold, rfl⟩ := mem_onPod.1 hpod
  split at hrun
  · rename_i hn
    simp only [hn, if_true] at hne ⊢
    exact ⟨old, hold, hrunning old hrun, hrules old hne, (hname old).symm⟩
  · rename_i hn
    simp only [hn, if_false] at hne ⊢
    exact ⟨old, hold, hrun, hne, rfl⟩

theorem PodEvent.noNewRules (platform : Platform) (event : PodEvent) :
    platform.NoNewRules (event.apply platform) := by
  cases event with
  | started name uid =>
    intro pod hpod hrun hne
    rcases List.mem_append.1 hpod with hpod | hpod
    · exact ⟨pod, hpod, hrun, hne, rfl⟩
    · rw [List.mem_singleton.1 hpod] at hne
      exact absurd rfl hne
  | readiness name ready =>
    exact platform.noNewRules_onPod name (fun _ => rfl) (fun _ h => h) (fun _ h => h)
  | ended name =>
    exact platform.noNewRules_onPod name (fun _ => rfl) (fun _ h => nomatch h) (fun _ h => h)
  | removed name =>
    intro pod hpod hrun hne
    exact ⟨pod, (List.mem_filter.1 hpod).1, hrun, hne, rfl⟩
  | rulesLost name keep =>
    refine platform.noNewRules_onPod name (fun _ => rfl) (fun _ h => h) fun pod hne hnil => hne ?_
    simp [hnil]

@[simp] theorem PodEvent.apply_replicas (platform : Platform) (event : PodEvent) :
    (event.apply platform).replicas = platform.replicas := by
  cases event <;> rfl

/-! ## The operator functions, call by call -/

inductive Instr where
  /-- `apply_fault`, before it lists the ready pods. -/
  | applyFault (spec : FaultSpec)
  /-- Its loop over the pods that are left. -/
  | inject (spec : FaultSpec) (targets : List String)
  | putFault (spec : FaultSpec) (pod : String)
  /-- `scale`, before it reads the current count, and the restore planned after it. -/
  | scale (workload : Workload) (replicas : Nat) (restoreAfter : Bool)
  | recordScale (workload : Workload) (original replicas : Nat) (restoreAfter : Bool)
  | setReplicas (workload : Workload) (replicas : Nat)
  | restoreReplicas (workload : Workload) (replicas : Nat)
  /-- `delete_pod`, before it lists the ready pods. -/
  | deletePod (workload : Workload)
  | readUid (workload : Workload) (pod : String)
  | recordDelete (workload : Workload) (pod uid : String)
  | deleteNamespacedPod (pod : String)
  /-- `rollout_restart`. The new pods that its patch leads to are pod events. -/
  | rolloutRestart (workload : Workload)
  | patchTemplate (workload : Workload)

structure Effect where
  platform : Platform
  entry : Option Entry := none
  next : List Instr := []

def Instr.exec (owner : String → Workload) (runId : String) (platform : Platform) : Instr → Option Effect
  | applyFault spec =>
    match platform.readyPods owner spec.service with
    | [] => none
    | pod :: pods =>
      some { platform, next := [inject spec (if spec.replicas = .all then pod :: pods else [pod])] }
  | inject _ [] => some { platform }
  | inject spec (pod :: targets) =>
    some { platform, entry := some (.fault spec.service pod spec.operation spec.mode),
           next := [putFault spec pod, inject spec targets] }
  | putFault spec pod =>
    if platform.hasPod pod then some { platform := platform.putFault pod (spec.toRule runId) } else none
  | scale workload replicas restoreAfter =>
    match platform.replicas workload with
    | none => none
    | some original => some { platform, next := [recordScale workload original replicas restoreAfter] }
  | recordScale workload original replicas restoreAfter =>
    some { platform, entry := some (.scale workload original replicas),
           next := setReplicas workload replicas :: if restoreAfter then
             [restoreReplicas workload original] else [] }
  | setReplicas workload replicas =>
    match platform.setReplicas workload replicas with
    | none => none
    | some platform => some { platform }
  | restoreReplicas workload replicas => some { platform := platform.restoreReplicas workload replicas }
  | deletePod workload =>
    match platform.readyPods owner workload with
    | [] => none
    | pod :: _ => some { platform, next := [readUid workload pod] }
  | readUid workload name =>
    match platform.pods.find? fun pod => pod.name = name with
    | none => none
    | some pod => some { platform, next := [recordDelete workload name pod.uid] }
  | recordDelete workload pod uid =>
    some { platform, entry := some (.deletePod workload pod uid), next := [deleteNamespacedPod pod] }
  | deleteNamespacedPod pod =>
    if platform.hasPod pod then some { platform := platform.deletePod pod } else none
  | rolloutRestart workload =>
    some { platform, entry := some (.rolloutRestart workload), next := [patchTemplate workload] }
  | patchTemplate workload =>
    match platform.replicas workload with
    | none => none
    | some _ => some { platform }

/-- What is left of a restore: steps of the plan, and pods of a service that `clear_faults` listed. -/
inductive RestoreInstr where
  | step (step : RestoreStep)
  | clearPod (pod : String)

/-- One call of `restore` (engine.py:63-71). Waiting changes nothing. -/
def RestoreInstr.exec (owner : String → Workload) (platform : Platform) :
    RestoreInstr → Option (Platform × List RestoreInstr)
  | step (.clearFaults service) => some (platform, (platform.runningPods owner service).map clearPod)
  | step (.scale workload replicas) => some (platform.restoreReplicas workload replicas, [])
  | step (.waitAvailable _) => some (platform, [])
  | clearPod pod => if platform.hasPod pod then some (platform.deleteFaults pod, []) else none

end TxPlatform
