import TxPlatform.Lib.Machine
import TxPlatform.Scenarios.Control

/-! # Undoing a run from every crash point (engine.py:63-127)

A run applies its faults one after the other and then makes its Kubernetes actions as concurrent
tasks; it may end between any two calls. Whoever restores reads the journal and executes the plan,
and may itself end anywhere and start again.

The argument needs two facts of the run's own steps. Before a workload has a scale entry its count
is still the initial one, so every count read until then is the initial one and so is the first one
journaled. A pod holds rules only if its service has a fault entry. `Intact` states both of the
platform and the journal, `Instr.Ready` of what a task is about to do with what it read, and
`Covers` says that the rest of a restore still undoes all that is left.
-/

namespace TxPlatform

namespace ScenarioRun

structure System where
  platform : Platform
  journal : List Entry := []
  /-- The loop over `scenario.faults`. -/
  faults : List Instr
  /-- The tasks of `_traffic`. -/
  actions : List (List Instr)
  restoring : Option (List RestoreInstr) := none

/-- Calls that are not answered raise without an effect. -/
inductive Label where
  | fault (answered : Bool)
  | action (index : Nat) (answered : Bool)
  | pod (event : PodEvent)
  /-- The process ends: killed, interrupted or by an exception. -/
  | stop
  /-- A restore starts from the beginning of the plan. -/
  | restore
  | restoreCall (answered : Bool)

/-- `_kubernetes_action` (engine.py:101-117). -/
def actionCalls : KubernetesAction → List Instr
  | .deletePod workload => [.deletePod workload]
  | .rolloutRestart workload => [.rolloutRestart workload]
  | .scale workload replicas restoreAfter => [.scale workload replicas restoreAfter]

def start (platform : Platform) (faults : List FaultSpec) (actions : List KubernetesAction) : System where
  platform := platform
  faults := faults.map .applyFault
  actions := actions.map actionCalls

namespace System

/-- No task of the run is left. -/
def Over (s : System) : Prop := s.faults = [] ∧ ∀ calls ∈ s.actions, calls = []

instance (s : System) : Decidable s.Over :=
  decidable_of_iff (s.faults.isEmpty ∧ ∀ calls ∈ s.actions, calls.isEmpty) (by simp [Over])

def stopped (s : System) : System := { s with faults := [], actions := [], restoring := none }

/-- Everything the tasks are still going to do. -/
def pending (s : System) : List Instr := s.faults ++ s.actions.flatten

end System

section
variable (owner : String → Workload) (runId : String)

/-- One call of a task, with what is left of it: nothing if the call raises. -/
def call (s : System) (answered : Bool) (instr : Instr) : Option Effect :=
  if answered then instr.exec owner runId s.platform else none

def step (s : System) : Label → Option System
  | .fault answered =>
    match s.faults with
    | [] => none
    | instr :: rest =>
      match call owner runId s answered instr with
      -- the exception ends the run before its traffic
      | none => some s.stopped
      | some effect =>
        some { s with platform := effect.platform, journal := s.journal ++ effect.entry.toList,
                      faults := effect.next ++ rest }
  | .action index answered =>
    match s.faults, s.actions[index]? with
    | [], some (instr :: rest) =>
      match call owner runId s answered instr with
      -- the other tasks may still go on
      | none => some { s with actions := s.actions.set index [] }
      | some effect =>
        some { s with platform := effect.platform, journal := s.journal ++ effect.entry.toList,
                      actions := s.actions.set index (effect.next ++ rest) }
    | _, _ => none
  | .pod event => some { s with platform := event.apply s.platform }
  | .stop => some s.stopped
  | .restore =>
    if s.Over then some { s with restoring := some ((restorePlan s.journal).map .step) } else none
  | .restoreCall answered =>
    match s.restoring with
    | some (instr :: rest) =>
      match if answered then instr.exec owner s.platform else none with
      | none => some { s with restoring := none }
      | some (platform, more) => some { s with platform := platform, restoring := some (more ++ rest) }
    | _ => none

def machine : Machine System Label := { step := step owner runId }

end

/-! ## What every step keeps -/

section Invariant
variable (owner : String → Workload) (initial : Platform)

structure Intact (platform : Platform) (journal : List Entry) : Prop where
  faulted : ∀ pod ∈ platform.pods, pod.running → pod.rules ≠ [] → Faulted journal (owner pod.name)
  first : ∀ workload n, firstScale workload journal = some n → initial.replicas workload = some n
  unscaled : ∀ workload, firstScale workload journal = none →
    platform.replicas workload = initial.replicas workload
  present : ∀ workload, (platform.replicas workload).isSome = (initial.replicas workload).isSome

/-- What a task knows when it is about to make this call. -/
def Ready (journal : List Entry) : Instr → Prop
  | .inject spec targets => ∀ pod ∈ targets, owner pod = spec.service
  | .putFault spec pod => owner pod = spec.service ∧ Faulted journal spec.service
  | .recordScale workload original _ _ =>
    firstScale workload journal = none → initial.replicas workload = some original
  | .setReplicas workload _ => ∃ n, firstScale workload journal = some n
  | .restoreReplicas workload _ => ∃ n, firstScale workload journal = some n
  | _ => True

/-- The platform stays intact, and the calls that come next are ready. -/
def Keeps (journal : List Entry) (effect : Effect) : Prop :=
  Intact owner initial effect.platform (journal ++ effect.entry.toList) ∧
    ∀ next ∈ effect.next, Ready owner initial (journal ++ effect.entry.toList) next

variable {owner initial}

/-- More entries never make a task's knowledge wrong. -/
theorem Ready.append {journal : List Entry} {instr : Instr} (h : Ready owner initial journal instr)
    (more : List Entry) : Ready owner initial (journal ++ more) instr := by
  cases instr with
  | putFault spec pod => exact ⟨h.1, h.2.append more⟩
  | recordScale workload original replicas restoreAfter =>
    intro hnone
    rw [firstScale_append, Option.or_eq_none_iff] at hnone
    exact h hnone.1
  | setReplicas workload n => exact h.imp fun _ hn => firstScale_of_some hn more
  | restoreReplicas workload n => exact h.imp fun _ hn => firstScale_of_some hn more
  | inject spec targets => exact h
  | applyFault _ | scale _ _ _ | deletePod _ | readUid _ _ | recordDelete _ _ _ | deleteNamespacedPod _
  | rolloutRestart _ | patchTemplate _ => trivial

namespace Intact

variable {platform after : Platform} {journal : List Entry}

/-- A new entry changes nothing, if a first count it announces is the initial one. -/
theorem append (h : Intact owner initial platform journal) {entry : Entry}
    (hfirst : ∀ workload n, firstScale workload journal = none → firstScale workload [entry] = some n →
      initial.replicas workload = some n) : Intact owner initial platform (journal ++ [entry]) where
  faulted pod hpod hrun hne := (h.faulted pod hpod hrun hne).append [entry]
  first workload n hn := by
    rw [firstScale_append] at hn
    cases hold : firstScale workload journal with
    | some old =>
      rw [hold, Option.some_or] at hn
      exact h.first workload n (hold.trans hn)
    | none =>
      rw [hold, Option.none_or] at hn
      exact hfirst workload n hold hn
  unscaled workload hnone := by
    rw [firstScale_append, Option.or_eq_none_iff] at hnone
    exact h.unscaled workload hnone.1
  present := h.present

theorem of_noNewRules (h : Intact owner initial platform journal) (hrules : platform.NoNewRules after)
    (hreplicas : after.replicas = platform.replicas) : Intact owner initial after journal where
  faulted pod hpod hrun hne := by
    obtain ⟨old, hold, hrun, hne, hname⟩ := hrules pod hpod hrun hne
    exact hname ▸ h.faulted old hold hrun hne
  first := h.first
  unscaled workload hnone := hreplicas ▸ h.unscaled workload hnone
  present workload := hreplicas ▸ h.present workload

/-- Only a workload with a scale entry gets another count. -/
theorem setReplicas (h : Intact owner initial platform journal) {workload : Workload} {n m : Nat}
    (hscaled : firstScale workload journal = some m)
    (hset : platform.setReplicas workload n = some after) :
    Intact owner initial after journal := by
  obtain ⟨⟨old, hold⟩, hpods, hreplicas⟩ := Platform.setReplicas_eq_some hset
  refine ⟨fun pod hpod => h.faulted pod (hpods ▸ hpod), h.first, fun w hnone => ?_, fun w => ?_⟩
  · rw [hreplicas, Function.update_of_ne]
    · exact h.unscaled w hnone
    · rintro rfl
      rw [hscaled] at hnone
      cases hnone
  · rw [hreplicas]
    by_cases hw : w = workload
    · subst hw
      rw [Function.update_self, ← h.present w, hold]
      rfl
    · rw [Function.update_of_ne hw]
      exact h.present w

theorem restoreReplicas (h : Intact owner initial platform journal) {workload : Workload} {n m : Nat}
    (hscaled : firstScale workload journal = some m) :
    Intact owner initial (platform.restoreReplicas workload n) journal := by
  obtain ⟨_, heq⟩ | hset := Platform.restoreReplicas_cases platform workload n
  · rw [heq]; exact h
  · exact h.setReplicas hscaled hset

theorem putFault (h : Intact owner initial platform journal) {name : String} (rule : Json)
    (hfaulted : Faulted journal (owner name)) :
    Intact owner initial (platform.putFault name rule) journal := by
  refine ⟨fun pod hpod hrun hne => ?_, h.first, h.unscaled, h.present⟩
  obtain ⟨old, hold, rfl⟩ := Platform.mem_onPod.1 hpod
  by_cases hname : old.name = name
  · rw [if_pos hname, hname]
    exact hfaulted
  · rw [if_neg hname] at hrun hne ⊢
    exact h.faulted old hold hrun hne

/-! ### One call of a task -/

variable {runId : String} {effect : Effect}

theorem exec_applyFault (h : Intact owner initial platform journal) {spec : FaultSpec}
    (hexec : Instr.exec owner runId platform (.applyFault spec) = some effect) : Keeps owner initial journal effect := by
  simp only [Instr.exec] at hexec
  split at hexec
  · cases hexec
  · rename_i pod pods hpods
    cases hexec
    refine ⟨by simpa using h, fun next hnext => ?_⟩
    cases List.mem_singleton.1 hnext
    intro name hname
    have hready : name ∈ platform.readyPods owner spec.service := by
      rw [hpods]
      split at hname
      · exact hname
      · rw [List.mem_singleton.1 hname]
        exact List.mem_cons_self
    exact Platform.owner_of_mem_readyPods owner hready

theorem exec_inject (h : Intact owner initial platform journal) {spec : FaultSpec} {targets : List String}
    (hready : Ready owner initial journal (.inject spec targets))
    (hexec : Instr.exec owner runId platform (.inject spec targets) = some effect) :
    Keeps owner initial journal effect := by
  cases targets with
  | nil => cases hexec; exact ⟨by simpa using h, by simp⟩
  | cons pod targets =>
    cases hexec
    refine ⟨h.append fun w n _ hn => by simp [firstScale] at hn, fun next hnext => ?_⟩
    rcases List.mem_cons.1 hnext with rfl | hnext
    · exact ⟨hready pod List.mem_cons_self, .snoc journal spec.service pod spec.operation spec.mode⟩
    · cases List.mem_singleton.1 hnext
      exact fun name hname => hready name (List.mem_cons_of_mem _ hname)

theorem exec_putFault (h : Intact owner initial platform journal) {spec : FaultSpec} {pod : String}
    (hready : Ready owner initial journal (.putFault spec pod))
    (hexec : Instr.exec owner runId platform (.putFault spec pod) = some effect) :
    Keeps owner initial journal effect := by
  simp only [Instr.exec] at hexec
  split at hexec
  · cases hexec
    have hput : Intact owner initial (platform.putFault pod (spec.toRule runId)) journal :=
      h.putFault _ (hready.1 ▸ hready.2)
    exact ⟨by simpa using hput, by simp⟩
  · cases hexec

theorem exec_scale (h : Intact owner initial platform journal) {workload : Workload} {replicas : Nat}
    {restoreAfter : Bool}
    (hexec : Instr.exec owner runId platform (.scale workload replicas restoreAfter) = some effect) :
    Keeps owner initial journal effect := by
  simp only [Instr.exec] at hexec
  split at hexec
  · cases hexec
  · rename_i original horiginal
    cases hexec
    refine ⟨by simpa using h, fun next hnext => ?_⟩
    cases List.mem_singleton.1 hnext
    -- nothing was scaled yet, so the count just read is the initial one
    intro hnone
    rw [← h.unscaled workload (by simpa using hnone)]
    exact horiginal

theorem exec_recordScale (h : Intact owner initial platform journal) {workload : Workload} {original replicas : Nat}
    {restoreAfter : Bool}
    (hready : Ready owner initial journal (.recordScale workload original replicas restoreAfter))
    (hexec : Instr.exec owner runId platform (.recordScale workload original replicas restoreAfter) = some effect) :
    Keeps owner initial journal effect := by
  cases hexec
  have hscaled : ∃ n,
    firstScale workload (journal ++ [Entry.scale workload original replicas]) = some n := by
    rw [firstScale_append]
    cases firstScale workload journal <;> simp [firstScale]
  refine ⟨h.append fun w n hnone hn => ?_, fun next hnext => ?_⟩
  · simp only [firstScale] at hn
    split at hn
    · rename_i hw
      subst hw
      cases hn
      exact hready hnone
    · cases hn
  · rcases List.mem_cons.1 hnext with rfl | hnext
    · exact hscaled
    · split at hnext
      · cases List.mem_singleton.1 hnext; exact hscaled
      · cases hnext

theorem exec_setReplicas (h : Intact owner initial platform journal) {workload : Workload} {n : Nat}
    (hready : Ready owner initial journal (.setReplicas workload n))
    (hexec : Instr.exec owner runId platform (.setReplicas workload n) = some effect) :
    Keeps owner initial journal effect := by
  simp only [Instr.exec] at hexec
  split at hexec
  · cases hexec
  · rename_i after hset
    cases hexec
    obtain ⟨m, hm⟩ := hready
    exact ⟨by simpa using h.setReplicas hm hset, by simp⟩

theorem exec_deletePod (h : Intact owner initial platform journal) {workload : Workload}
    (hexec : Instr.exec owner runId platform (.deletePod workload) = some effect) :
    Keeps owner initial journal effect := by
  simp only [Instr.exec] at hexec
  split at hexec
  · cases hexec
  · cases hexec; exact ⟨by simpa using h, by simp [Ready]⟩

theorem exec_readUid (h : Intact owner initial platform journal) {workload : Workload} {pod : String}
    (hexec : Instr.exec owner runId platform (.readUid workload pod) = some effect) :
    Keeps owner initial journal effect := by
  simp only [Instr.exec] at hexec
  split at hexec
  · cases hexec
  · cases hexec; exact ⟨by simpa using h, by simp [Ready]⟩

theorem exec_deleteNamespacedPod (h : Intact owner initial platform journal) {pod : String}
    (hexec : Instr.exec owner runId platform (.deleteNamespacedPod pod) = some effect) :
    Keeps owner initial journal effect := by
  simp only [Instr.exec] at hexec
  split at hexec
  · cases hexec
    have hdel : Intact owner initial (platform.deletePod pod) journal :=
      h.of_noNewRules (platform.noNewRules_onPod pod (fun _ => rfl) (fun _ hr => absurd hr Bool.false_ne_true)
        fun _ hr => hr) rfl
    exact ⟨by simpa using hdel, by simp⟩
  · cases hexec

theorem exec_patchTemplate (h : Intact owner initial platform journal) {workload : Workload}
    (hexec : Instr.exec owner runId platform (.patchTemplate workload) = some effect) :
    Keeps owner initial journal effect := by
  simp only [Instr.exec] at hexec
  split at hexec
  · cases hexec
  · cases hexec; exact ⟨by simpa using h, by simp⟩

end Intact

/-- What one call of a task keeps, and what the task knows afterwards. -/
theorem exec_intact {runId : String} {platform : Platform} {journal : List Entry} {instr : Instr}
    {effect : Effect} (h : Intact owner initial platform journal)
    (hready : Ready owner initial journal instr)
    (hexec : instr.exec owner runId platform = some effect) : Keeps owner initial journal effect := by
  cases instr with
  | applyFault spec => exact h.exec_applyFault hexec
  | inject spec targets => exact h.exec_inject hready hexec
  | putFault spec pod => exact h.exec_putFault hready hexec
  | scale workload replicas restoreAfter => exact h.exec_scale hexec
  | recordScale workload original replicas restoreAfter => exact h.exec_recordScale hready hexec
  | setReplicas workload n => exact h.exec_setReplicas hready hexec
  | restoreReplicas workload n =>
    cases hexec
    obtain ⟨m, hm⟩ := hready
    exact ⟨by simpa using h.restoreReplicas hm, by simp⟩
  | deletePod workload => exact h.exec_deletePod hexec
  | readUid workload pod => exact h.exec_readUid hexec
  | recordDelete workload pod uid =>
    cases hexec
    exact ⟨h.append fun w n _ hn => by simp [firstScale] at hn, by simp [Ready]⟩
  | deleteNamespacedPod pod => exact h.exec_deleteNamespacedPod hexec
  | rolloutRestart workload =>
    cases hexec
    exact ⟨h.append fun w n _ hn => by simp [firstScale] at hn, by simp [Ready]⟩
  | patchTemplate workload => exact h.exec_patchTemplate hexec

/-! ## What a restore still covers -/

/-- What is left of a restore undoes everything that is left to undo. -/
structure Covers (owner : String → Workload) (initial platform : Platform) (journal : List Entry)
    (todo : List RestoreInstr) : Prop where
  rules : ∀ pod ∈ platform.pods, pod.running → pod.rules ≠ [] →
    .clearPod pod.name ∈ todo ∨ .step (.clearFaults (owner pod.name)) ∈ todo
  replicas : ∀ workload, platform.replicas workload ≠ initial.replicas workload →
    ∃ n, .step (.scale workload n) ∈ todo
  original : ∀ workload n, .step (.scale workload n) ∈ todo → firstScale workload journal = some n

/-- The plan covers whatever the run did. -/
theorem Intact.covers {platform : Platform} {journal : List Entry}
    (h : Intact owner initial platform journal) :
    Covers owner initial platform journal ((restorePlan journal).map .step) where
  rules pod hpod hrun hne :=
    .inr (List.mem_map.2 ⟨_, clearFaults_mem_restorePlan.2 (h.faulted pod hpod hrun hne), rfl⟩)
  replicas workload hne := by
    cases hscaled : firstScale workload journal with
    | none => exact absurd (h.unscaled workload hscaled) hne
    | some n => exact ⟨n, List.mem_map.2 ⟨_, scale_mem_restorePlan.2 hscaled, rfl⟩⟩
  original workload n hmem := by
    obtain ⟨_, hstep, heq⟩ := List.mem_map.1 hmem
    cases heq
    exact scale_mem_restorePlan.1 hstep

namespace Covers

variable {platform after : Platform} {journal : List Entry} {instr : RestoreInstr}
    {todo more : List RestoreInstr}

theorem of_noNewRules (h : Covers owner initial platform journal todo)
    (hrules : platform.NoNewRules after) (hreplicas : after.replicas = platform.replicas) :
    Covers owner initial after journal todo where
  rules pod hpod hrun hne := by
    obtain ⟨old, hold, hrun, hne, hname⟩ := hrules pod hpod hrun hne
    exact hname ▸ h.rules old hold hrun hne
  replicas workload hne := h.replicas workload (hreplicas ▸ hne)
  original := h.original

/-- When nothing is left of the restore, nothing is left to undo. -/
theorem restored (h : Covers owner initial platform journal []) :
    (∀ pod ∈ platform.pods, pod.running → pod.rules = []) ∧ platform.replicas = initial.replicas := by
  refine ⟨fun pod hpod hrun => ?_, funext fun workload => ?_⟩
  · by_contra hne
    rcases h.rules pod hpod hrun hne with hmem | hmem <;> cases hmem
  · by_contra hne
    obtain ⟨_, hmem⟩ := h.replicas workload hne
    cases hmem

/-- The pods that `clear_faults` lists take the place of the step that listed them. -/
theorem clearFaults {service : Workload}
    (h : Covers owner initial platform journal (.step (.clearFaults service) :: todo)) :
    Covers owner initial platform journal
      ((platform.runningPods owner service).map .clearPod ++ todo) where
  rules pod hpod hrun hne := by
    rcases h.rules pod hpod hrun hne with hmem | hmem
    · exact .inl (List.mem_append_right _ (by simpa using hmem))
    · rcases List.mem_cons.1 hmem with heq | hmem
      · cases heq
        have hlisted := (Platform.mem_runningPods owner).2 ⟨pod, hpod, hrun, rfl, rfl⟩
        exact .inl (List.mem_append_left _ (List.mem_map_of_mem hlisted))
      · exact .inr (List.mem_append_right _ hmem)
  replicas workload hne := by
    obtain ⟨n, hmem⟩ := h.replicas workload hne
    exact ⟨n, List.mem_append_right _ (by simpa using hmem)⟩
  original workload n hmem := by
    rcases List.mem_append.1 hmem with hmem | hmem
    · simp at hmem
    · exact h.original workload n (List.mem_cons_of_mem _ hmem)

theorem clearPod {name : String} (h : Covers owner initial platform journal (.clearPod name :: todo)) :
    Covers owner initial (platform.deleteFaults name) journal todo where
  rules pod hpod hrun hne := by
    obtain ⟨old, hold, rfl⟩ := Platform.mem_onPod.1 hpod
    by_cases hname : old.name = name
    · rw [if_pos hname] at hne
      exact absurd rfl hne
    · rw [if_neg hname] at hrun hne ⊢
      rcases h.rules old hold hrun hne with hmem | hmem
      · rcases List.mem_cons.1 hmem with heq | hmem
        · cases heq
          exact absurd rfl hname
        · exact .inl hmem
      · exact .inr (by simpa using hmem)
  replicas workload hne := by
    obtain ⟨n, hmem⟩ := h.replicas workload hne
    exact ⟨n, by simpa using hmem⟩
  original workload n hmem := h.original workload n (List.mem_cons_of_mem _ hmem)

theorem scale {workload : Workload} {n : Nat} (hintact : Intact owner initial platform journal)
    (h : Covers owner initial platform journal (.step (.scale workload n) :: todo)) :
    Covers owner initial (platform.restoreReplicas workload n) journal todo := by
  have hinitial := hintact.first workload n (h.original workload n List.mem_cons_self)
  obtain ⟨hmissing, _⟩ | hset := Platform.restoreReplicas_cases platform workload n
  · -- a workload that was scaled exists
    have hpresent := hintact.present workload
    simp [hmissing, hinitial] at hpresent
  obtain ⟨_, hpods, hreplicas⟩ := Platform.setReplicas_eq_some hset
  refine ⟨fun pod hpod hrun hne => ?_, fun w hne => ?_,
    fun w m hmem => h.original w m (List.mem_cons_of_mem _ hmem)⟩
  · simpa using h.rules pod (hpods ▸ hpod) hrun hne
  · rw [hreplicas] at hne
    by_cases hw : w = workload
    · subst hw
      exact absurd (by rw [Function.update_self, hinitial]) hne
    · rw [Function.update_of_ne hw] at hne
      obtain ⟨m, hmem⟩ := h.replicas w hne
      rcases List.mem_cons.1 hmem with heq | hmem
      · cases heq
        exact absurd rfl hw
      · exact ⟨m, hmem⟩

theorem wait {workload : Workload}
    (h : Covers owner initial platform journal (.step (.waitAvailable workload) :: todo)) :
    Covers owner initial platform journal todo where
  rules pod hpod hrun hne := by simpa using h.rules pod hpod hrun hne
  replicas w hne := by simpa using h.replicas w hne
  original w n hmem := h.original w n (List.mem_cons_of_mem _ hmem)

/-- **One call of a restore.** What it undid is no longer needed, and a restore that starts again
from the journal still covers everything. -/
theorem exec (hintact : Intact owner initial platform journal)
    (h : Covers owner initial platform journal (instr :: todo))
    (hexec : instr.exec owner platform = some (after, more)) :
    Intact owner initial after journal ∧ Covers owner initial after journal (more ++ todo) := by
  cases instr with
  | step restoreStep =>
    cases restoreStep with
    | clearFaults service =>
      cases hexec
      exact ⟨hintact, h.clearFaults⟩
    | scale workload n =>
      cases hexec
      exact ⟨hintact.restoreReplicas (h.original workload n List.mem_cons_self), h.scale hintact⟩
    | waitAvailable workload =>
      cases hexec
      exact ⟨hintact, h.wait⟩
  | clearPod name =>
    simp only [RestoreInstr.exec] at hexec
    split at hexec
    · cases hexec
      exact ⟨hintact.of_noNewRules (platform.noNewRules_onPod name (fun _ => rfl) (fun _ hr => hr)
        fun _ hr => absurd rfl hr) rfl, h.clearPod⟩
    · cases hexec

end Covers

/-! ## Runs -/

structure Sound (owner : String → Workload) (initial : Platform) (s : System) : Prop where
  intact : Intact owner initial s.platform s.journal
  ready : ∀ instr ∈ s.pending, Ready owner initial s.journal instr
  covers : ∀ todo, s.restoring = some todo → s.Over ∧ Covers owner initial s.platform s.journal todo

theorem start_sound (faults : List FaultSpec) (actions : List KubernetesAction)
    (hclean : ∀ pod ∈ initial.pods, pod.rules = []) :
    Sound owner initial (start initial faults actions) where
  intact :=
    { faulted := fun pod hpod _ hne => absurd (hclean pod hpod) hne
      first := fun _ _ h => nomatch h
      unscaled := fun _ _ => rfl
      present := fun _ => rfl }
  ready instr hmem := by
    simp only [System.pending, start, List.mem_append, List.mem_map, List.mem_flatten] at hmem
    obtain ⟨_, _, rfl⟩ | ⟨_, ⟨action, _, rfl⟩, hmem⟩ := hmem
    · trivial
    · cases action <;> simp only [actionCalls, List.mem_singleton] at hmem <;> subst hmem <;> trivial
  covers todo h := nomatch h

/-- What is in the lists after one of them was replaced. -/
theorem mem_flatten_set {α : Type} {lists : List (List α)} {index : Nat} {new : List α} {x : α}
    (h : x ∈ (lists.set index new).flatten) : x ∈ new ∨ x ∈ lists.flatten := by
  obtain ⟨others, hothers, hin⟩ := List.mem_flatten.1 h
  rcases List.mem_or_eq_of_mem_set hothers with hothers | heq
  · exact .inr (List.mem_flatten.2 ⟨others, hothers, hin⟩)
  · exact .inl (heq ▸ hin)

namespace Sound

variable {s s' : System}

theorem stopped (h : Sound owner initial s) : Sound owner initial s.stopped where
  intact := h.intact
  ready instr hmem := by simp [System.pending, System.stopped] at hmem
  covers todo htodo := nomatch htodo

/-- A task made one call; the tasks with what is left of it know what they knew. -/
theorem called {runId : String} (h : Sound owner initial s) {answered : Bool} {instr : Instr}
    {effect : Effect} (hmem : instr ∈ s.pending)
    (hcall : call owner runId s answered instr = some effect)
    (hafter : s'.platform = effect.platform ∧ s'.journal = s.journal ++ effect.entry.toList)
    (hpending : ∀ i ∈ s'.pending, i ∈ effect.next ∨ i ∈ s.pending)
    (hrestoring : s'.restoring = none) :
    Sound owner initial s' := by
  unfold call at hcall
  split at hcall
  · obtain ⟨hintact, hnext⟩ := exec_intact h.intact (h.ready instr hmem) hcall
    refine ⟨by rw [hafter.1, hafter.2]; exact hintact, fun i hi => ?_, fun todo htodo => ?_⟩
    · rw [hafter.2]
      rcases hpending i hi with hi | hi
      · exact hnext i hi
      · exact (h.ready i hi).append _
    · rw [hrestoring] at htodo
      cases htodo
  · cases hcall

/-- What is pending after one task's calls were replaced. -/
theorem mem_pending_set {index : Nat} {calls : List Instr} {i : Instr}
    (hi : i ∈ s.faults ++ (s.actions.set index calls).flatten) : i ∈ calls ∨ i ∈ s.pending := by
  rcases List.mem_append.1 hi with hi | hi
  · exact .inr (List.mem_append_left _ hi)
  · exact (mem_flatten_set hi).imp_right (List.mem_append_right _)

/-- A restore goes on only after the last task ended. -/
theorem restoring_eq_none (h : Sound owner initial s) {instr : Instr} (hmem : instr ∈ s.pending) :
    s.restoring = none := by
  cases htodo : s.restoring with
  | none => rfl
  | some todo =>
    obtain ⟨⟨hfaults, hactions⟩, _⟩ := h.covers todo htodo
    rw [System.pending, hfaults, List.nil_append, List.mem_flatten] at hmem
    obtain ⟨calls, hcalls, hmem⟩ := hmem
    rw [hactions calls hcalls] at hmem
    cases hmem

theorem step_fault {runId : String} (h : Sound owner initial s) {answered : Bool}
    (hstep : (machine owner runId).step s (.fault answered) = some s') : Sound owner initial s' := by
  dsimp only [machine, ScenarioRun.step] at hstep
  split at hstep
  · cases hstep
  · rename_i instr rest hfaults
    have hmem : instr ∈ s.pending := by simp [System.pending, hfaults]
    split at hstep
    · cases hstep
      exact h.stopped
    · rename_i effect hcall
      cases hstep
      refine h.called hmem hcall ⟨rfl, rfl⟩ (fun i hi => ?_) (h.restoring_eq_none hmem)
      simp only [System.pending, hfaults, List.mem_append, List.mem_cons] at hi ⊢
      tauto

theorem step_action {runId : String} (h : Sound owner initial s) {index : Nat} {answered : Bool}
    (hstep : (machine owner runId).step s (.action index answered) = some s') : Sound owner initial s' := by
  dsimp only [machine, ScenarioRun.step] at hstep
  split at hstep
  · rename_i instr rest hfaults hindex
    have hcalls : instr :: rest ∈ s.actions := List.mem_of_getElem? hindex
    have hmem : instr ∈ s.pending :=
      List.mem_append_right _ (List.mem_flatten.2 ⟨_, hcalls, List.mem_cons_self⟩)
    split at hstep
    · cases hstep
      refine ⟨h.intact, fun i hi => h.ready i ?_, fun todo htodo => ?_⟩
      · exact (mem_pending_set hi).resolve_left List.not_mem_nil
      · rw [h.restoring_eq_none hmem] at htodo
        cases htodo
    · rename_i effect hcall
      cases hstep
      refine h.called hmem hcall ⟨rfl, rfl⟩ (fun i hi => ?_) (h.restoring_eq_none hmem)
      have hi : i ∈ s.faults ++ (s.actions.set index (effect.next ++ rest)).flatten := hi
      rcases mem_pending_set hi with hi | hi
      · rcases List.mem_append.1 hi with hi | hi
        · exact .inl hi
        · exact .inr (List.mem_append_right _
            (List.mem_flatten.2 ⟨_, hcalls, List.mem_cons_of_mem _ hi⟩))
      · exact .inr hi
  · cases hstep

theorem step_restoreCall {runId : String} (h : Sound owner initial s) {answered : Bool}
    (hstep : (machine owner runId).step s (.restoreCall answered) = some s') : Sound owner initial s' := by
  dsimp only [machine, ScenarioRun.step] at hstep
  split at hstep
  · rename_i instr rest htodo
    obtain ⟨hover, hcovers⟩ := h.covers _ htodo
    split at hstep
    · cases hstep
      exact ⟨h.intact, h.ready, fun todo htodo => nomatch htodo⟩
    · rename_i platform more hexec
      cases hstep
      split at hexec
      · obtain ⟨hintact, hcovers⟩ := hcovers.exec h.intact hexec
        refine ⟨hintact, h.ready, fun todo htodo => ?_⟩
        cases htodo
        exact ⟨hover, hcovers⟩
      · cases hexec
  · cases hstep

theorem step_restore {runId : String} (h : Sound owner initial s)
    (hstep : (machine owner runId).step s .restore = some s') : Sound owner initial s' := by
  dsimp only [machine, ScenarioRun.step] at hstep
  split at hstep
  · rename_i hover
    cases hstep
    refine ⟨h.intact, h.ready, fun todo htodo => ?_⟩
    cases htodo
    exact ⟨hover, h.intact.covers⟩
  · cases hstep

/-- **Every step of the system keeps the invariant.** -/
theorem step {runId : String} {label : Label} (h : Sound owner initial s)
    (hstep : (machine owner runId).step s label = some s') : Sound owner initial s' := by
  cases label with
  | fault answered => exact h.step_fault hstep
  | action index answered => exact h.step_action hstep
  | pod event =>
    cases hstep
    have hrules := PodEvent.noNewRules s.platform event
    have hreplicas := PodEvent.apply_replicas s.platform event
    exact ⟨h.intact.of_noNewRules hrules hreplicas, h.ready, fun todo htodo =>
      ⟨(h.covers todo htodo).1, (h.covers todo htodo).2.of_noNewRules hrules hreplicas⟩⟩
  | stop =>
    cases hstep
    exact h.stopped
  | restore => exact h.step_restore hstep
  | restoreCall answered => exact h.step_restoreCall hstep

end Sound

end Invariant

/-! ## A restore comes to its end -/

section
variable (owner : String → Workload) (runId : String) {s s' : System}

/-- Calls of a restore that are all answered, with nothing in between, lead from `s` to `s'`. -/
def Restores (s s' : System) : Prop :=
  ∃ calls, (machine owner runId).run s (List.replicate calls (.restoreCall true)) = some s'

variable {owner runId}

theorem Restores.refl (s : System) : Restores owner runId s s := ⟨0, rfl⟩

theorem Restores.call {instr : RestoreInstr} {todo more : List RestoreInstr} {platform : Platform}
    (htodo : s.restoring = some (instr :: todo))
    (hexec : instr.exec owner s.platform = some (platform, more))
    (hrest : Restores owner runId { s with platform := platform,
                                           restoring := some (more ++ todo) } s') :
    Restores owner runId s s' := by
  obtain ⟨calls, hrun⟩ := hrest
  refine ⟨calls + 1, ?_⟩
  simp only [List.replicate_succ, Machine.run, machine, step, htodo, if_true, hexec]
  exact hrun

variable (owner runId)

/-- A restore whose calls are all answered, with nothing in between. -/
inductive Executes (owner : String → Workload) : Platform → List RestoreInstr → Platform → Prop
  | done (platform : Platform) : Executes owner platform [] platform
  | call {platform after final : Platform} {instr : RestoreInstr} {more todo : List RestoreInstr}
    (hexec : instr.exec owner platform = some (after, more))
      (hrest : Executes owner after (more ++ todo) final) :
    Executes owner platform (instr :: todo) final

/-- The pods `clear_faults` listed are cleared one after the other. -/
theorem executes_clears {todo : List RestoreInstr}
    (htodo : ∀ platform, ∃ final, Executes owner platform todo final) (names : List String)
    (platform : Platform) (hpods : ∀ name ∈ names, platform.hasPod name) :
    ∃ final, Executes owner platform (names.map .clearPod ++ todo) final := by
  induction names generalizing platform with
  | nil => exact htodo platform
  | cons name names ih =>
    have hexec : (RestoreInstr.clearPod name).exec owner platform =
      some (platform.deleteFaults name, []) := by
      simp [RestoreInstr.exec, hpods name List.mem_cons_self]
    obtain ⟨final, hfinal⟩ := ih (platform.deleteFaults name) fun other hother => by
      rw [Platform.hasPod_deleteFaults]
      exact hpods other (List.mem_cons_of_mem _ hother)
    exact ⟨final, .call hexec hfinal⟩

theorem executes_plan (plan : List RestoreStep) (platform : Platform) :
    ∃ final, Executes owner platform (plan.map .step) final := by
  induction plan generalizing platform with
  | nil => exact ⟨platform, .done platform⟩
  | cons restoreStep plan ih =>
    cases restoreStep with
    | clearFaults service =>
      obtain ⟨final, hfinal⟩ := executes_clears owner ih (platform.runningPods owner service) platform
        fun name hname => by
          obtain ⟨pod, hpod, _, _, heq⟩ := (Platform.mem_runningPods owner).1 hname
          exact Platform.hasPod_iff.2 ⟨pod, hpod, heq⟩
      exact ⟨final, .call rfl hfinal⟩
    | scale workload n =>
      obtain ⟨final, hfinal⟩ := ih (platform.restoreReplicas workload n)
      exact ⟨final, .call rfl hfinal⟩
    | waitAvailable workload =>
      obtain ⟨final, hfinal⟩ := ih platform
      exact ⟨final, .call rfl hfinal⟩

theorem finishes {todo : List RestoreInstr} {final : Platform} (h : Executes owner s.platform todo final)
    (htodo : s.restoring = some todo) : ∃ t, Restores owner runId s t ∧ t.restoring = some [] := by
  generalize hplatform : s.platform = platform at h
  induction h generalizing s with
  | done => exact ⟨s, .refl s, htodo⟩
  | @call platform after _ instr more todo hexec _ ih =>
    subst hplatform
    obtain ⟨t, hrest, ht⟩ := @ih { s with platform := after, restoring := some (more ++ todo) } rfl rfl
    exact ⟨t, .call htodo hexec hrest, ht⟩

end

/-! ## The guarantee -/

/-- What a complete restore leaves behind. -/
structure Undone (initial : Platform) (s : System) : Prop where
  rules : ∀ pod ∈ s.platform.pods, pod.running → pod.rules = []
  replicas : ∀ workload, s.platform.replicas workload = initial.replicas workload

/-- The plan of these entries is in a safe order and waits for every touched workload once. -/
structure SafePlan (entries : List Entry) : Prop where
  ordered : (restorePlan entries).Pairwise fun earlier later => earlier.rank ≤ later.rank
  waits : ∀ workload, Touched entries workload → (restorePlan entries).count (.waitAvailable workload) = 1

theorem safePlan (entries : List Entry) : SafePlan entries where
  ordered := restorePlan_ordered entries
  waits workload h := by
    classical
    rw [count_waitAvailable, if_pos h]

/-- **The restore plan undoes every run from every crash point.** Whatever the tasks of the run
did, in whatever order and up to whatever call, and however often a restore was cut short: the
plan is safe, a restore that reached its end left the platform as it was before the run, and
from every state in which the run has ended a restore that is not disturbed reaches its end. -/
theorem restore_undoes_every_run (owner : String → Workload) (runId : String) (initial : Platform)
    (hclean : ∀ pod ∈ initial.pods, pod.rules = []) (faults : List FaultSpec)
    (actions : List KubernetesAction) (labels : List Label) (s : System)
    (hrun : (machine owner runId).run (start initial faults actions) labels = some s) :
    SafePlan s.journal ∧ (s.restoring = some [] → Undone initial s) ∧
      (s.Over → ∃ calls t, t.restoring = some [] ∧
        (machine owner runId).run s (.restore :: List.replicate calls (.restoreCall true)) = some t) := by
  have hsound : Sound owner initial s :=
    Machine.run_inv (fun _ _ _ h hstep => h.step hstep) (start_sound faults actions hclean) hrun
  refine ⟨safePlan s.journal, fun hdone => ?_, fun hover => ?_⟩
  · obtain ⟨_, hcovers⟩ := hsound.covers [] hdone
    obtain ⟨hrules, hreplicas⟩ := hcovers.restored
    exact ⟨hrules, fun workload => congrFun hreplicas workload⟩
  · obtain ⟨final, hfinal⟩ := executes_plan owner (restorePlan s.journal) s.platform
    obtain ⟨t, ⟨calls, hcalls⟩, ht⟩ := @finishes owner runId
      { s with restoring := some ((restorePlan s.journal).map .step) } _ _ hfinal rfl
    refine ⟨calls, t, ht, ?_⟩
    simp only [Machine.run, machine, step, if_pos hover]
    exact hcalls

/-- A run with one fault and two scale actions, killed after a scale entry whose change was not made,
and a restore that is killed halfway and starts again. -/
def killedRun : List Label :=
  [.fault true, .fault true, .fault true, .fault true, .action 0 true, .action 1 true, .action 1 true,
    .action 1 true, .action 0 true, .stop, .restore, .restoreCall true, .stop, .restore,
      .restoreCall true,
    .restoreCall true, .restoreCall true, .restoreCall true]

/-- The second restore removes the fault and brings the count back. -/
theorem killed_run_is_undone :
    ∃ s, (machine (fun _ => .fraudService) "run-1").run
        (start ⟨fun _ => some 2, [⟨"fraud-1", "u1", true, true, []⟩]⟩
          [⟨.fraudService, "fraud.evaluate", .timeout, none, none, none, none, none, none, 60, .one, true⟩]
          [.scale .fraudService 0 false, .scale .fraudService 1 false]) killedRun = some s ∧
      s.journal.length = 3 ∧ s.restoring = some [] ∧
      (∀ pod ∈ s.platform.pods, pod.running → pod.rules = []) ∧
      s.platform.replicas .fraudService = some 2 := by
  refine ⟨_, rfl, rfl, rfl, ?_⟩
  have hundone := (restore_undoes_every_run (fun _ => .fraudService) "run-1"
    ⟨fun _ => some 2, [⟨"fraud-1", "u1", true, true, []⟩]⟩ (by simp)
    [⟨.fraudService, "fraud.evaluate", .timeout, none, none, none, none, none, none, 60, .one, true⟩]
    [.scale .fraudService 0 false, .scale .fraudService 1 false] killedRun _ rfl).2.1 rfl
  exact ⟨hundone.rules, hundone.replicas .fraudService⟩

end ScenarioRun

end TxPlatform
