import TxPlatform.Scenarios.Records
import TxPlatform.Scenarios.Recovery

/-! # Resets beside a run (engine.py:63-99, 159-204; records.py:57-77)

One process executes `run`, any number execute `reset(force=False)`. A reset never asks for the
experiment lock, so neither the lock nor its renewal decides what it may do. The processes meet in
three places: the platform, the run's journal and its `record.json`. A reset works on the copy of
the record it has loaded.

What the run does between two calls is as in Recovery.lean. Whole files are read and written at once
here.
-/

namespace TxPlatform

/-- `DOWNSTREAM_SERVICES`. -/
def downstreamServices : List Workload :=
  [.inventoryService, .fraudService, .paymentService, .shippingService]

namespace SharedRun

/-- Where `run` is. `last` is the restore in its `finally` block. -/
inductive RunStage where
  | starting
  | preflight
  | working (faults : List Instr) (actions : List (List Instr))
  | restoring (todo : List RestoreInstr) (last : Bool)
  | checking
  | finishing
  | ended

/-- Where a `reset` is. -/
inductive ResetStage where
  | starting
  | listed (record : RunRecord)
  | restoring (record : RunRecord) (todo : List RestoreInstr)
  | clearing (todo : List RestoreInstr)

/-- `file` is `record.json`, `record` the run's own record in memory. -/
structure System where
  platform : Platform
  journal : List Entry := []
  file : Option RunRecord := none
  record : RunRecord
  stage : RunStage := .starting
  resets : List ResetStage := []

inductive RunLabel where
  | save
  | preflight (problems : Bool)
  | fault (answered : Bool)
  | action (index : Nat) (answered : Bool)
  | restore
  | restoreCall (answered : Bool)
  | verdict (passed : Bool)
  /-- An exception or Ctrl+C in the `try` block, outside the calls above. -/
  | raises (interrupt : Bool)
  | finish (finishedAt : String)
  /-- The process ends: killed, or by an exception outside the `try` block. -/
  | dies

inductive Label where
  | run (label : RunLabel)
  | pod (event : PodEvent)
  | reset
  | resetStep (i : Nat) (answered : Bool)

def start (platform : Platform) (runId scenarioId startedAt : String) : System where
  platform := platform
  record := { runId, scenarioId, startedAt }

namespace System

/-- The plan of what the journal holds now. -/
def plan (s : System) : List RestoreInstr := (restorePlan s.journal).map .step

/-- The `except` clauses, up to the `finally` block. -/
def raises (s : System) (status : RunStatus) : System :=
  if s.record.restored then { s with record := { s.record with status }, stage := .finishing }
  else { s with record := { s.record with status }, stage := .restoring s.plan true }

def setReset (s : System) (i : Nat) (stage : ResetStage) : System :=
  { s with resets := s.resets.set i stage }

end System

section
variable (owner : String → Workload) (faults : List FaultSpec) (actions : List KubernetesAction)

def runStep (s : System) : RunLabel → Option System
  | .save =>
    match s.stage with
    | .starting => some { s with file := some s.record, stage := .preflight }
    | _ => none
  | .preflight problems =>
    match s.stage with
    | .preflight =>
      if problems then
        some { s with record := { s.record with status := .error, restored := true },
                      stage := .finishing }
      else some { s with stage := .working (faults.map .applyFault) (actions.map ScenarioRun.actionCalls) }
    | _ => none
  | .fault answered =>
    match s.stage with
    | .working (instr :: rest) actions =>
      match if answered then instr.exec owner s.record.runId s.platform else none with
      | none => some (s.raises .error)
      | some effect =>
        some { s with platform := effect.platform, journal := s.journal ++ effect.entry.toList,
                      stage := .working (effect.next ++ rest) actions }
    | _ => none
  | .action index answered =>
    match s.stage with
    | .working [] actions =>
      match actions[index]? with
      | some (instr :: rest) =>
        match if answered then instr.exec owner s.record.runId s.platform else none with
        -- the other tasks may still go on
        | none => some { s with stage := .working [] (actions.set index []) }
        | some effect =>
          some { s with platform := effect.platform, journal := s.journal ++ effect.entry.toList,
                        stage := .working [] (actions.set index (effect.next ++ rest)) }
      | _ => none
    | _ => none
  | .restore =>
    match s.stage with
    | .working [] actions =>
      if actions.all List.isEmpty then some { s with stage := .restoring s.plan false } else none
    | _ => none
  | .restoreCall answered =>
    match s.stage with
    | .restoring [] last =>
      some { s with record := { s.record with restored := true },
                    stage := if last then .finishing else .checking }
    | .restoring (instr :: rest) last =>
      match if answered then instr.exec owner s.platform else none with
      | none => some (if last then { s with stage := .ended } else s.raises .error)
      | some (platform, more) =>
        some { s with platform := platform, stage := .restoring (more ++ rest) last }
    | _ => none
  | .verdict passed =>
    match s.stage with
    | .checking =>
      some { s with record := { s.record with status := if passed then .passed else .failed },
                    stage := .finishing }
    | _ => none
  | .raises interrupt =>
    match s.stage with
    | .preflight | .working _ _ | .restoring _ false | .checking =>
      some (s.raises (if interrupt then .interrupted else .error))
    | _ => none
  | .finish finishedAt =>
    match s.stage with
    | .finishing => some { s with file := some { s.record with finishedAt }, stage := .ended }
    | _ => none
  | .dies => some { s with stage := .ended }

/-- The next step of a reset: listing, reading the journal, one call, or saving the record. -/
def resetStep (s : System) (i : Nat) (answered : Bool) : ResetStage → Option System
  | .starting =>
    match s.file with
    | none => some (s.setReset i (.clearing (downstreamServices.map fun service => .step (.clearFaults service))))
    | some record =>
      if record.restored then
        some (s.setReset i (.clearing (downstreamServices.map fun service => .step (.clearFaults service))))
      else some (s.setReset i (.listed record))
  | .listed record => some (s.setReset i (.restoring record s.plan))
  | .restoring record [] =>
    some { s.setReset i (.clearing (downstreamServices.map fun service => .step (.clearFaults service))) with
      file := some record.marked }
  | .restoring record (instr :: rest) =>
    match if answered then instr.exec owner s.platform else none with
    | none => some (s.setReset i (.clearing []))
    | some (platform, more) =>
      some { s.setReset i (.restoring record (more ++ rest)) with platform := platform }
  | .clearing [] => none
  | .clearing (instr :: rest) =>
    match if answered then instr.exec owner s.platform else none with
    | none => some (s.setReset i (.clearing []))
    | some (platform, more) => some { s.setReset i (.clearing (more ++ rest)) with platform := platform }

def machine : Machine System Label where
  step s
    | .run label => runStep owner faults actions s label
    | .pod event => some { s with platform := event.apply s.platform }
    | .reset => some { s with resets := s.resets ++ [.starting] }
    | .resetStep i answered =>
      match s.resets[i]? with
      | none => none
      | some reset => resetStep owner s i answered reset

end

/-- The platform is as it was before the run. -/
structure AsBefore (initial platform : Platform) : Prop where
  rules : ∀ pod ∈ platform.pods, pod.running → pod.rules = []
  replicas : platform.replicas = initial.replicas

/-- A reset executes restore steps for the run, and saves its record, only after the run's process
ended. -/
def LeavesLiveRun (before : System) (label : Label) (_after : System) : Prop :=
  ∀ i answered record todo, label = .resetStep i answered →
    before.resets[i]? = some (.restoring record todo) →
    before.stage = .ended

/-- A reset lists the run as unrestored only after the run's process ended. -/
def ListsEnded (before : System) (label : Label) (_after : System) : Prop :=
  ∀ i answered record, label = .resetStep i answered → before.resets[i]? = some .starting →
    before.file = some record → record.restored = false → before.stage = .ended

/-- Whatever the run journaled is undone: by its own restore, or, when it has ended with a record
that is not restored, by the next reset whose calls are answered. -/
structure Recoverable (owner : String → Workload) (faults : List FaultSpec)
    (actions : List KubernetesAction) (initial : Platform) (s : System) : Prop where
  own : s.record.restored = true → AsBefore initial s.platform
  marked : ∀ record, s.file = some record → record.restored = true → AsBefore initial s.platform
  unsaved : s.file = none → s.journal = []
  next : s.stage = .ended → ∀ record, s.file = some record → record.restored = false →
    ∃ calls t, (machine owner faults actions).run s
        (.reset :: List.replicate calls (.resetStep s.resets.length true)) = some t ∧
      t.file = some record.marked ∧ AsBefore initial t.platform

/-! ## Restores side by side -/

section
variable {owner : String → Workload} {initial platform after : Platform} {journal : List Entry}

theorem AsBefore.of_noNewRules (h : AsBefore initial platform) (hrules : platform.NoNewRules after)
    (hreplicas : after.replicas = platform.replicas) : AsBefore initial after := by
  refine ⟨?_, hreplicas.trans h.replicas⟩
  intro pod hpod hrun
  by_contra hne
  obtain ⟨old, hold, holdRun, holdRules, _⟩ := hrules pod hpod hrun hne
  exact holdRules (h.rules old hold holdRun)

theorem AsBefore.of_covers (h : ScenarioRun.Covers owner initial platform journal []) :
    AsBefore initial platform :=
  ⟨h.restored.1, h.restored.2⟩

theorem AsBefore.covers (h : AsBefore initial platform) :
    ScenarioRun.Covers owner initial platform journal [] where
  rules pod hpod hrun hne := absurd (h.rules pod hpod hrun) hne
  replicas workload hne := absurd (congrFun h.replicas workload) hne
  original _ _ hmem := by cases hmem

/-- Nothing journaled, nothing changed. -/
theorem AsBefore.of_intact (h : ScenarioRun.Intact owner initial platform []) :
    AsBefore initial platform := by
  refine ⟨?_, funext fun workload => h.unscaled workload rfl⟩
  intro pod hpod hrun
  by_contra hne
  obtain ⟨_, _, _, hmem⟩ := h.faulted pod hpod hrun hne
  cases hmem

/-- A call of one restore leaves what another one covers covered. -/
theorem covers_other {instr : RestoreInstr} {rest more todo : List RestoreInstr}
    (hintact : ScenarioRun.Intact owner initial platform journal)
    (hinstr : ScenarioRun.Covers owner initial platform journal (instr :: rest))
    (hexec : instr.exec owner platform = some (after, more))
    (h : ScenarioRun.Covers owner initial platform journal todo) :
    ScenarioRun.Covers owner initial after journal todo := by
  cases instr with
  | step restoreStep =>
    cases restoreStep with
    | clearFaults service => cases hexec; exact h
    | waitAvailable workload => cases hexec; exact h
    | scale workload n =>
      cases hexec
      -- seen as the first call of the other restore, the call undoes nothing the rest needs
      have hscaled := hinstr.original workload n List.mem_cons_self
      have hboth : ScenarioRun.Covers owner initial platform journal
        (.step (.scale workload n) :: todo) := by
        refine ⟨?_, ?_, ?_⟩
        · intro pod hpod hrun hne
          exact (h.rules pod hpod hrun hne).imp (List.mem_cons_of_mem _) (List.mem_cons_of_mem _)
        · intro other hne
          obtain ⟨m, hmem⟩ := h.replicas other hne
          exact ⟨m, List.mem_cons_of_mem _ hmem⟩
        · intro other m hmem
          rcases List.mem_cons.1 hmem with heq | hmem
          · cases heq
            exact hscaled
          · exact h.original other m hmem
      exact hboth.scale hintact
  | clearPod name =>
    simp only [RestoreInstr.exec] at hexec
    split at hexec
    · cases hexec
      exact h.of_noNewRules (platform.noNewRules_onPod name (fun _ => rfl) (fun _ hr => hr)
        fun _ hr => absurd rfl hr) rfl
    · cases hexec

/-- The call belongs to `clear_faults`. -/
def Clears : RestoreInstr → Prop
  | .step (.clearFaults _) => True
  | .clearPod _ => True
  | _ => False

/-- `clear_faults` only takes rules away. -/
theorem Clears.exec {instr : RestoreInstr} {more : List RestoreInstr} (h : Clears instr)
    (hexec : instr.exec owner platform = some (after, more)) :
    platform.NoNewRules after ∧ after.replicas = platform.replicas ∧ ∀ next ∈ more, Clears next := by
  have hself : platform.NoNewRules platform := fun pod hpod hrun hne => ⟨pod, hpod, hrun, hne, rfl⟩
  cases instr with
  | step restoreStep =>
    cases restoreStep with
    | clearFaults service =>
      cases hexec
      refine ⟨hself, rfl, ?_⟩
      intro next hnext
      obtain ⟨_, _, rfl⟩ := List.mem_map.1 hnext
      trivial
    | scale workload n => cases h
    | waitAvailable workload => cases h
  | clearPod name =>
    simp only [RestoreInstr.exec] at hexec
    split at hexec
    · cases hexec
      refine ⟨platform.noNewRules_onPod name (fun _ => rfl) (fun _ hr => hr) fun _ hr =>
        absurd rfl hr, rfl, ?_⟩
      intro next hnext
      cases hnext
    · cases hexec

end

/-! ## What every step keeps -/

/-- The reset is about to change something for the run. -/
def ResetStage.Restores : ResetStage → Prop
  | .listed _ => True
  | .restoring _ _ => True
  | _ => False

structure Inv (owner : String → Workload) (initial : Platform) (s : System) : Prop where
  intact : ScenarioRun.Intact owner initial s.platform s.journal
  fresh : s.stage = .starting ∨ s.stage = .preflight → s.journal = []
  ready : ∀ faults actions, s.stage = .working faults actions → ∀ instr ∈ faults ++ actions.flatten,
    ScenarioRun.Ready owner initial s.journal instr
  restoring : ∀ todo last, s.stage = .restoring todo last →
    ScenarioRun.Covers owner initial s.platform s.journal todo
  own : s.record.restored = true →
    AsBefore initial s.platform ∧ (s.stage = .checking ∨ s.stage = .finishing ∨ s.stage = .ended)
  file : ∀ record, s.file = some record → record.restored = true → AsBefore initial s.platform ∧
    s.stage = .ended
  unsaved : s.file = none → s.journal = [] ∧ (s.stage = .starting ∨ s.stage = .ended)
  others : ∀ reset ∈ s.resets, reset.Restores → s.stage = .ended
  covers : ∀ record todo, .restoring record todo ∈ s.resets →
    ScenarioRun.Covers owner initial s.platform s.journal todo
  clearing : ∀ todo, .clearing todo ∈ s.resets → ∀ instr ∈ todo, Clears instr

section
variable {owner : String → Workload} {initial : Platform} {s s' : System}

theorem inv_start (hclean : ∀ pod ∈ initial.pods, pod.rules = []) (runId scenarioId startedAt : String) :
    Inv owner initial (start initial runId scenarioId startedAt) where
  intact :=
    { faulted := fun pod hpod _ hne => absurd (hclean pod hpod) hne
      first := by intro _ _ h; cases h
      unscaled := by intro _ _; rfl
      present := by intro _; rfl }
  fresh := by intro _; rfl
  ready := by intro _ _ h; cases h
  restoring := by intro _ _ h; cases h
  own := by intro h; cases h
  file := by intro _ h; cases h
  unsaved := by intro _; exact ⟨rfl, .inl rfl⟩
  others := by intro _ h; cases h
  covers := by intro _ _ h; cases h
  clearing := by intro _ h; cases h

namespace Inv

/-- Pods and `clear_faults` only take rules away. -/
theorem noNewRules (h : Inv owner initial s) {after : Platform} (hrules : s.platform.NoNewRules after)
    (hreplicas : after.replicas = s.platform.replicas) :
    Inv owner initial { s with platform := after } where
  intact := h.intact.of_noNewRules hrules hreplicas
  fresh := h.fresh
  ready := h.ready
  restoring todo last hstage := (h.restoring todo last hstage).of_noNewRules hrules hreplicas
  own hrestored := ⟨(h.own hrestored).1.of_noNewRules hrules hreplicas, (h.own hrestored).2⟩
  file record hfile hrestored :=
    ⟨(h.file record hfile hrestored).1.of_noNewRules hrules hreplicas, (h.file record hfile hrestored).2⟩
  unsaved := h.unsaved
  others := h.others
  covers record todo hmem := (h.covers record todo hmem).of_noNewRules hrules hreplicas
  clearing := h.clearing

/-! ### The run -/

/-- While the run is alive no reset restores it, and its file says that it is not restored. -/
theorem of_live (h : Inv owner initial s) (hlive : s.stage ≠ .ended ∧ s.stage ≠ .starting)
    (hkept : s'.resets = s.resets ∧ s'.file = s.file)
    (hintact : ScenarioRun.Intact owner initial s'.platform s'.journal)
    (hfresh : s'.stage ≠ .starting ∧ s'.stage ≠ .preflight)
    (hready : ∀ faults actions, s'.stage = .working faults actions →
      ∀ instr ∈ faults ++ actions.flatten, ScenarioRun.Ready owner initial s'.journal instr)
    (hrestoring : ∀ todo last, s'.stage = .restoring todo last →
      ScenarioRun.Covers owner initial s'.platform s'.journal todo)
    (hown : s'.record.restored = true → AsBefore initial s'.platform ∧
      (s'.stage = .checking ∨ s'.stage = .finishing ∨ s'.stage = .ended)) :
    Inv owner initial s' := by
  obtain ⟨hresets, hfile⟩ := hkept
  refine ⟨hintact, ?_, hready, hrestoring, hown, ?_, ?_, ?_, ?_, ?_⟩
  · rintro (hstage | hstage)
    · exact absurd hstage hfresh.1
    · exact absurd hstage hfresh.2
  · intro record hsaved hrestored
    exact absurd (h.file record (hfile ▸ hsaved) hrestored).2 hlive.1
  · intro hnone
    rcases (h.unsaved (hfile ▸ hnone)).2 with hstage | hstage
    · exact absurd hstage hlive.2
    · exact absurd hstage hlive.1
  · intro reset hmem hrestores
    exact absurd (h.others reset (hresets ▸ hmem) hrestores) hlive.1
  · intro record todo hmem
    exact absurd (h.others (.restoring record todo) (hresets ▸ hmem) trivial) hlive.1
  · rw [hresets]
    exact h.clearing

/-- The tasks work next. -/
theorem of_working (h : Inv owner initial s) (hlive : s.stage ≠ .ended ∧ s.stage ≠ .starting)
    (hkept : s'.resets = s.resets ∧ s'.file = s.file)
    (hintact : ScenarioRun.Intact owner initial s'.platform s'.journal)
    {faults : List Instr} {actions : List (List Instr)} (hstage : s'.stage = .working faults actions)
    (hready : ∀ instr ∈ faults ++ actions.flatten, ScenarioRun.Ready owner initial s'.journal instr)
    (hunrestored : s'.record.restored ≠ true) : Inv owner initial s' := by
  refine h.of_live hlive hkept hintact ⟨by simp [hstage], by simp [hstage]⟩ ?_ ?_ ?_
  · intro _ _ hworking
    cases hstage.symm.trans hworking
    exact hready
  · intro _ _ hrestoring
    cases hstage.symm.trans hrestoring
  · intro hrestored
    exact absurd hrestored hunrestored

/-- The run restores next. -/
theorem of_restoring (h : Inv owner initial s) (hlive : s.stage ≠ .ended ∧ s.stage ≠ .starting)
    (hkept : s'.resets = s.resets ∧ s'.file = s.file)
    (hintact : ScenarioRun.Intact owner initial s'.platform s'.journal)
    {todo : List RestoreInstr} {last : Bool} (hstage : s'.stage = .restoring todo last)
    (hcovers : ScenarioRun.Covers owner initial s'.platform s'.journal todo)
    (hunrestored : s'.record.restored ≠ true) : Inv owner initial s' := by
  refine h.of_live hlive hkept hintact ⟨by simp [hstage], by simp [hstage]⟩ ?_ ?_ ?_
  · intro _ _ hworking
    cases hstage.symm.trans hworking
  · intro _ _ hrestoring
    cases hstage.symm.trans hrestoring
    exact hcovers
  · intro hrestored
    exact absurd hrestored hunrestored

/-- Nothing is left to do or to restore. -/
theorem of_settled (h : Inv owner initial s) (hlive : s.stage ≠ .ended ∧ s.stage ≠ .starting)
    (hkept : s'.resets = s.resets ∧ s'.file = s.file)
    (hintact : ScenarioRun.Intact owner initial s'.platform s'.journal)
    (hstage : s'.stage = .checking ∨ s'.stage = .finishing)
    (hbefore : s'.record.restored = true → AsBefore initial s'.platform) : Inv owner initial s' := by
  refine h.of_live hlive hkept hintact ?_ ?_ ?_ ?_
  · rcases hstage with hstage | hstage <;> simp [hstage]
  · intro _ _ hworking
    rcases hstage with hstage | hstage <;> cases hstage.symm.trans hworking
  · intro _ _ hrestoring
    rcases hstage with hstage | hstage <;> cases hstage.symm.trans hrestoring
  · intro hrestored
    exact ⟨hbefore hrestored, hstage.imp_right .inl⟩

theorem unrestored (h : Inv owner initial s)
    (hstage : ¬ (s.stage = .checking ∨ s.stage = .finishing ∨ s.stage = .ended)) :
    s.record.restored ≠ true := by
  intro hrestored
  exact hstage (h.own hrestored).2

theorem raises (h : Inv owner initial s) (hlive : s.stage ≠ .ended ∧ s.stage ≠ .starting)
    (status : RunStatus) : Inv owner initial (s.raises status) := by
  unfold System.raises
  split
  · rename_i hrestored
    exact h.of_settled hlive ⟨rfl, rfl⟩ h.intact (.inr rfl) fun _ => (h.own hrestored).1
  · rename_i hrestored
    exact h.of_restoring hlive ⟨rfl, rfl⟩ h.intact rfl h.intact.covers hrestored

theorem dies (h : Inv owner initial s) : Inv owner initial { s with stage := .ended } where
  intact := h.intact
  fresh := by rintro (hstage | hstage) <;> cases hstage
  ready := by intro _ _ hstage; cases hstage
  restoring := by intro _ _ hstage; cases hstage
  own hrestored := ⟨(h.own hrestored).1, .inr (.inr rfl)⟩
  file record hfile hrestored := ⟨(h.file record hfile hrestored).1, rfl⟩
  unsaved hnone := ⟨(h.unsaved hnone).1, .inr rfl⟩
  others _ _ _ := rfl
  covers := h.covers
  clearing := h.clearing

theorem save (h : Inv owner initial s) (hstage : s.stage = .starting) :
    Inv owner initial { s with file := some s.record, stage := .preflight } := by
  have hlive : s.stage ≠ .ended := by simp [hstage]
  have hunrestored := h.unrestored (by simp [hstage])
  refine ⟨h.intact, fun _ => h.fresh (.inl hstage), ?_, ?_, ?_, ?_, ?_, ?_, ?_, h.clearing⟩
  · intro _ _ hnew
    cases hnew
  · intro _ _ hnew
    cases hnew
  · intro hrestored
    exact absurd hrestored hunrestored
  · intro record hfile hrestored
    cases hfile
    exact absurd hrestored hunrestored
  · intro hnone
    cases hnone
  · intro reset hmem hrestores
    exact absurd (h.others reset hmem hrestores) hlive
  · exact h.covers

/-- A run that found problems has changed nothing. -/
theorem problems (h : Inv owner initial s) (hstage : s.stage = .preflight) :
    Inv owner initial { s with record := { s.record with status := .error, restored := true },
                               stage := .finishing } := by
  refine h.of_settled (by simp [hstage]) ⟨rfl, rfl⟩ h.intact (.inr rfl) fun _ => ?_
  have hintact := h.intact
  rw [h.fresh (.inr hstage)] at hintact
  exact .of_intact hintact

/-- The tasks begin with the calls of the scenario. -/
theorem begins (h : Inv owner initial s) (hstage : s.stage = .preflight) (faults : List FaultSpec)
    (actions : List KubernetesAction) :
    Inv owner initial
      { s with stage := .working (faults.map .applyFault) (actions.map ScenarioRun.actionCalls) } := by
  refine h.of_working (by simp [hstage]) ⟨rfl, rfl⟩ h.intact rfl ?_ (h.unrestored (by simp [hstage]))
  intro instr hmem
  rcases List.mem_append.1 hmem with hmem | hmem
  · obtain ⟨spec, _, rfl⟩ := List.mem_map.1 hmem
    trivial
  · obtain ⟨calls, hcalls, hmem⟩ := List.mem_flatten.1 hmem
    obtain ⟨action, _, rfl⟩ := List.mem_map.1 hcalls
    cases action <;> rw [List.mem_singleton.1 hmem] <;> trivial

/-- One call of a task, and what the tasks know afterwards. -/
theorem called (h : Inv owner initial s) {faults : List Instr} {actions : List (List Instr)}
    (hstage : s.stage = .working faults actions) {instr : Instr} {effect : Effect}
    (hmem : instr ∈ faults ++ actions.flatten)
    (hexec : instr.exec owner s.record.runId s.platform = some effect)
    {faults' : List Instr} {actions' : List (List Instr)}
    (hpending : ∀ i ∈ faults' ++ actions'.flatten,
      i ∈ effect.next ∨ i ∈ faults ++ actions.flatten) :
    Inv owner initial { s with platform := effect.platform,
                               journal := s.journal ++ effect.entry.toList,
                               stage := .working faults' actions' } := by
  have hready := h.ready faults actions hstage
  obtain ⟨hintact, hnext⟩ := ScenarioRun.exec_intact h.intact (hready instr hmem) hexec
  refine h.of_working (by simp [hstage]) ⟨rfl, rfl⟩ hintact rfl ?_ (h.unrestored (by simp [hstage]))
  intro i hi
  rcases hpending i hi with hi | hi
  · exact hnext i hi
  · exact (hready i hi).append _

/-- A task whose call failed does nothing more. -/
theorem gaveUp (h : Inv owner initial s) {actions : List (List Instr)}
    (hstage : s.stage = .working [] actions) (index : Nat) :
    Inv owner initial { s with stage := .working [] (actions.set index []) } := by
  refine h.of_working (by simp [hstage]) ⟨rfl, rfl⟩ h.intact rfl ?_ (h.unrestored (by simp [hstage]))
  intro instr hmem
  rcases ScenarioRun.mem_flatten_set hmem with hmem | hmem
  · cases hmem
  · exact h.ready [] actions hstage instr hmem

/-- The run's restore has come to its end. -/
theorem restored (h : Inv owner initial s) {last : Bool} (hstage : s.stage = .restoring [] last) :
    Inv owner initial { s with record := { s.record with restored := true },
                               stage := if last then .finishing else .checking } := by
  have hbefore := AsBefore.of_covers (h.restoring [] last hstage)
  refine h.of_settled (by simp [hstage]) ⟨rfl, rfl⟩ h.intact ?_ fun _ => hbefore
  cases last <;> simp

/-- One call of the run's own restore. -/
theorem restores (h : Inv owner initial s) {instr : RestoreInstr} {rest more : List RestoreInstr}
    {last : Bool} (hstage : s.stage = .restoring (instr :: rest) last) {after : Platform}
    (hexec : instr.exec owner s.platform = some (after, more)) :
    Inv owner initial { s with platform := after, stage := .restoring (more ++ rest) last } := by
  obtain ⟨hintact, hrest⟩ := (h.restoring _ last hstage).exec h.intact hexec
  exact h.of_restoring (by simp [hstage]) ⟨rfl, rfl⟩ hintact rfl hrest
    (h.unrestored (by simp [hstage]))

/-- The last `save` of the run. -/
theorem finish (h : Inv owner initial s) (finishedAt : String) :
    Inv owner initial { s with file := some { s.record with finishedAt }, stage := .ended } := by
  have hdead := h.dies
  refine ⟨hdead.intact, hdead.fresh, hdead.ready, hdead.restoring, hdead.own, ?_, ?_,
    hdead.others, hdead.covers, hdead.clearing⟩
  · intro record hfile hrestored
    cases hfile
    exact ⟨(h.own hrestored).1, rfl⟩
  · intro hnone
    cases hnone

/-! ### One step of the run -/

section RunStep
variable {faults : List FaultSpec} {actions : List KubernetesAction}

theorem runStep_save (h : Inv owner initial s)
    (hstep : SharedRun.runStep owner faults actions s .save = some s') : Inv owner initial s' := by
  simp only [SharedRun.runStep] at hstep
  split at hstep
  · rename_i hstage
    cases hstep
    exact h.save hstage
  · cases hstep

theorem runStep_preflight (h : Inv owner initial s) {problems : Bool}
    (hstep : SharedRun.runStep owner faults actions s (.preflight problems) = some s') : Inv owner initial s' := by
  simp only [SharedRun.runStep] at hstep
  split at hstep
  · rename_i hstage
    split at hstep <;> cases hstep
    · exact h.problems hstage
    · exact h.begins hstage faults actions
  · cases hstep

theorem runStep_fault (h : Inv owner initial s) {answered : Bool}
    (hstep : SharedRun.runStep owner faults actions s (.fault answered) = some s') : Inv owner initial s' := by
  simp only [SharedRun.runStep] at hstep
  split at hstep
  · rename_i instr rest calls hstage
    split at hstep
    · cases hstep
      exact h.raises (by simp [hstage]) .error
    · rename_i effect hcall
      cases hstep
      split at hcall
      · refine h.called hstage (by simp) hcall ?_
        intro i hi
        simp only [List.mem_append, List.mem_cons] at hi ⊢
        tauto
      · cases hcall
  · cases hstep

theorem runStep_action (h : Inv owner initial s) {index : Nat} {answered : Bool}
    (hstep : SharedRun.runStep owner faults actions s (.action index answered) = some s') : Inv owner initial s' := by
  simp only [SharedRun.runStep] at hstep
  split at hstep
  · rename_i calls hstage
    split at hstep
    · rename_i instr rest hindex
      have hmem : instr :: rest ∈ calls := List.mem_of_getElem? hindex
      split at hstep
      · cases hstep
        exact h.gaveUp hstage index
      · rename_i effect hcall
        cases hstep
        split at hcall
        · refine h.called hstage (List.mem_flatten.2 ⟨_, hmem, List.mem_cons_self⟩) hcall ?_
          intro i hi
          rcases ScenarioRun.mem_flatten_set hi with hi | hi
          · rcases List.mem_append.1 hi with hi | hi
            · exact .inl hi
            · exact .inr (List.mem_flatten.2 ⟨_, hmem, List.mem_cons_of_mem _ hi⟩)
          · exact .inr hi
        · cases hcall
    · cases hstep
  · cases hstep

theorem runStep_restore (h : Inv owner initial s)
    (hstep : SharedRun.runStep owner faults actions s .restore = some s') : Inv owner initial s' := by
  simp only [SharedRun.runStep] at hstep
  split at hstep
  · rename_i calls hstage
    split at hstep
    · cases hstep
      exact h.of_restoring (by simp [hstage]) ⟨rfl, rfl⟩ h.intact rfl h.intact.covers
        (h.unrestored (by simp [hstage]))
    · cases hstep
  · cases hstep

theorem runStep_restoreCall (h : Inv owner initial s) {answered : Bool}
    (hstep : SharedRun.runStep owner faults actions s (.restoreCall answered) = some s') : Inv owner initial s' := by
  simp only [SharedRun.runStep] at hstep
  split at hstep
  · rename_i last hstage
    cases hstep
    exact h.restored hstage
  · rename_i instr rest last hstage
    split at hstep
    · cases hstep
      split
      · exact h.dies
      · exact h.raises (by simp [hstage]) .error
    · rename_i after more hcall
      cases hstep
      split at hcall
      · exact h.restores hstage hcall
      · cases hcall
  · cases hstep

theorem runStep_verdict (h : Inv owner initial s) {passed : Bool}
    (hstep : SharedRun.runStep owner faults actions s (.verdict passed) = some s') : Inv owner initial s' := by
  simp only [SharedRun.runStep] at hstep
  split at hstep
  · rename_i hstage
    cases hstep
    exact h.of_settled (by simp [hstage]) ⟨rfl, rfl⟩ h.intact (.inr rfl)
      fun hrestored => (h.own hrestored).1
  · cases hstep

theorem runStep_raises (h : Inv owner initial s) {interrupt : Bool}
    (hstep : SharedRun.runStep owner faults actions s (.raises interrupt) = some s') : Inv owner initial s' := by
  simp only [SharedRun.runStep] at hstep
  split at hstep
  case h_5 => cases hstep
  all_goals
    rename_i hstage
    cases hstep
    exact h.raises (by simp [hstage]) _

theorem runStep_finish (h : Inv owner initial s) {finishedAt : String}
    (hstep : SharedRun.runStep owner faults actions s (.finish finishedAt) = some s') : Inv owner initial s' := by
  simp only [SharedRun.runStep] at hstep
  split at hstep
  · cases hstep
    exact h.finish finishedAt
  · cases hstep

theorem runStep (h : Inv owner initial s) {label : RunLabel}
    (hstep : SharedRun.runStep owner faults actions s label = some s') :
    Inv owner initial s' := by
  cases label with
  | save => exact h.runStep_save hstep
  | preflight problems => exact h.runStep_preflight hstep
  | fault answered => exact h.runStep_fault hstep
  | action index answered => exact h.runStep_action hstep
  | restore => exact h.runStep_restore hstep
  | restoreCall answered => exact h.runStep_restoreCall hstep
  | verdict passed => exact h.runStep_verdict hstep
  | raises interrupt => exact h.runStep_raises hstep
  | finish finishedAt => exact h.runStep_finish hstep
  | dies =>
    cases hstep
    exact h.dies

end RunStep

/-! ### The resets -/

theorem setReset (h : Inv owner initial s) (i : Nat) {reset : ResetStage}
    (hrestores : reset.Restores → s.stage = .ended)
    (hcovers : ∀ record todo, reset = .restoring record todo →
      ScenarioRun.Covers owner initial s.platform s.journal todo)
    (hclearing : ∀ todo, reset = .clearing todo → ∀ instr ∈ todo, Clears instr) :
    Inv owner initial (s.setReset i reset) := by
  refine ⟨h.intact, h.fresh, h.ready, h.restoring, h.own, h.file, h.unsaved, ?_, ?_, ?_⟩
  · intro other hmem
    rcases List.mem_or_eq_of_mem_set hmem with hmem | rfl
    · exact h.others other hmem
    · exact hrestores
  · intro record todo hmem
    rcases List.mem_or_eq_of_mem_set hmem with hmem | heq
    · exact h.covers record todo hmem
    · exact hcovers record todo heq.symm
  · intro todo hmem
    rcases List.mem_or_eq_of_mem_set hmem with hmem | heq
    · exact h.clearing todo hmem
    · exact hclearing todo heq.symm

theorem setClearing (h : Inv owner initial s) (i : Nat) {todo : List RestoreInstr}
    (hclears : ∀ instr ∈ todo, Clears instr) : Inv owner initial (s.setReset i (.clearing todo)) := by
  refine h.setReset i ?_ ?_ ?_
  · intro hrestores
    cases hrestores
  · intro _ _ heq
    cases heq
  · intro _ heq
    cases heq
    exact hclears

theorem setRestoring (h : Inv owner initial s) (i : Nat) (hended : s.stage = .ended)
    {record : RunRecord} {todo : List RestoreInstr}
    (hcovers : ScenarioRun.Covers owner initial s.platform s.journal todo) :
    Inv owner initial (s.setReset i (.restoring record todo)) := by
  refine h.setReset i ?_ ?_ ?_
  · intro _
    exact hended
  · intro _ _ heq
    cases heq
    exact hcovers
  · intro _ heq
    cases heq

/-- After the restores, `reset` clears the faults of every service. -/
theorem startClearing (h : Inv owner initial s) (i : Nat) : Inv owner initial
    (s.setReset i (.clearing (downstreamServices.map fun service => .step (.clearFaults service)))) := by
  refine h.setClearing i ?_
  intro instr hmem
  obtain ⟨_, _, rfl⟩ := List.mem_map.1 hmem
  trivial

/-- One call of a reset that restores the run. -/
theorem restoreCall (h : Inv owner initial s) {record : RunRecord} {instr : RestoreInstr}
    {rest more : List RestoreInstr} {after : Platform}
    (hmem : .restoring record (instr :: rest) ∈ s.resets)
    (hexec : instr.exec owner s.platform = some (after, more)) :
    Inv owner initial { s with platform := after } := by
  have hended := h.others (.restoring record (instr :: rest)) hmem trivial
  have hinstr := h.covers record _ hmem
  have hbefore : AsBefore initial s.platform → AsBefore initial after := fun hplatform =>
    .of_covers (covers_other h.intact hinstr hexec hplatform.covers)
  refine ⟨(hinstr.exec h.intact hexec).1, h.fresh, h.ready, ?_, ?_, ?_, h.unsaved, h.others,
    ?_, h.clearing⟩
  · intro todo last hstage
    exact covers_other h.intact hinstr hexec (h.restoring todo last hstage)
  · intro hrestored
    exact ⟨hbefore (h.own hrestored).1, (h.own hrestored).2⟩
  · intro saved hfile hrestored
    exact ⟨hbefore (h.file saved hfile hrestored).1, hended⟩
  · intro other todo hother
    exact covers_other h.intact hinstr hexec (h.covers other todo hother)

/-- A reset that has executed the whole plan saves the record. -/
theorem saveMarked (h : Inv owner initial s) {record saved : RunRecord}
    (hmem : .restoring record [] ∈ s.resets) :
    Inv owner initial { s with file := some saved } := by
  have hended := h.others (.restoring record []) hmem trivial
  refine ⟨h.intact, h.fresh, h.ready, h.restoring, h.own, ?_, ?_, h.others, h.covers, h.clearing⟩
  · intro other hfile _
    exact ⟨.of_covers (h.covers record [] hmem), hended⟩
  · intro hnone
    cases hnone

theorem resetStep (h : Inv owner initial s) {i : Nat} {answered : Bool} {reset : ResetStage}
    (hreset : s.resets[i]? = some reset)
    (hended : ∀ record, reset = .starting → s.file = some record → record.restored = false →
      s.stage = .ended)
    (hstep : SharedRun.resetStep owner s i answered reset = some s') : Inv owner initial s' := by
  have hmem := List.mem_of_getElem? hreset
  cases reset with
  | starting =>
    simp only [SharedRun.resetStep] at hstep
    split at hstep
    · cases hstep
      exact h.startClearing i
    · rename_i record hfile
      split at hstep
      · cases hstep
        exact h.startClearing i
      · rename_i hrestored
        cases hstep
        refine h.setReset i ?_ ?_ ?_
        · intro _
          exact hended record rfl hfile (Bool.eq_false_iff.2 hrestored)
        · intro _ _ heq
          cases heq
        · intro _ heq
          cases heq
  | listed record =>
    cases hstep
    exact h.setRestoring i (h.others (.listed record) hmem trivial) h.intact.covers
  | restoring record todo =>
    cases todo with
    | nil =>
      cases hstep
      exact (h.saveMarked hmem).startClearing i
    | cons instr rest =>
      simp only [SharedRun.resetStep] at hstep
      split at hstep
      · cases hstep
        exact h.setClearing i (by simp)
      · rename_i after more hcall
        cases hstep
        split at hcall
        · exact (h.restoreCall hmem hcall).setRestoring i
            (h.others (.restoring record (instr :: rest)) hmem trivial)
            ((h.covers record _ hmem).exec h.intact hcall).2
        · cases hcall
  | clearing todo =>
    cases todo with
    | nil => cases hstep
    | cons instr rest =>
      have hclears := h.clearing _ hmem
      simp only [SharedRun.resetStep] at hstep
      split at hstep
      · cases hstep
        exact h.setClearing i (by simp)
      · rename_i after more hcall
        cases hstep
        split at hcall
        · obtain ⟨hrules, hreplicas, hmore⟩ := (hclears instr List.mem_cons_self).exec hcall
          refine (h.noNewRules hrules hreplicas).setClearing i ?_
          intro next hnext
          rcases List.mem_append.1 hnext with hnext | hnext
          · exact hmore next hnext
          · exact hclears next (List.mem_cons_of_mem _ hnext)
        · cases hcall

theorem newReset (h : Inv owner initial s) :
    Inv owner initial { s with resets := s.resets ++ [.starting] } := by
  refine ⟨h.intact, h.fresh, h.ready, h.restoring, h.own, h.file, h.unsaved, ?_, ?_, ?_⟩
  · intro reset hmem hrestores
    rcases List.mem_append.1 hmem with hmem | hmem
    · exact h.others reset hmem hrestores
    · rw [List.mem_singleton.1 hmem] at hrestores
      cases hrestores
  · intro record todo hmem
    rcases List.mem_append.1 hmem with hmem | hmem
    · exact h.covers record todo hmem
    · cases List.mem_singleton.1 hmem
  · intro todo hmem
    rcases List.mem_append.1 hmem with hmem | hmem
    · exact h.clearing todo hmem
    · cases List.mem_singleton.1 hmem

end Inv

variable {faults : List FaultSpec} {actions : List KubernetesAction}

theorem inv_step (s : System) (label : Label) (s' : System) (h : Inv owner initial s)
    (hstep : (machine owner faults actions).step s label = some s') (hlists : ListsEnded s label s') :
    Inv owner initial s' := by
  cases label with
  | run label => exact h.runStep hstep
  | pod event =>
    cases hstep
    exact h.noNewRules (PodEvent.noNewRules s.platform event) (PodEvent.apply_replicas s.platform event)
  | reset =>
    cases hstep
    exact h.newReset
  | resetStep i answered =>
    simp only [machine] at hstep
    split at hstep
    · cases hstep
    · rename_i reset hreset
      refine h.resetStep hreset ?_ hstep
      rintro record rfl
      exact hlists i answered record rfl hreset

/-! ## The next reset -/

theorem step_reset {i : Nat} {reset : ResetStage} (hreset : s.resets[i]? = some reset)
    (hstep : SharedRun.resetStep owner s i true reset = some s') :
    (machine owner faults actions).step s (.resetStep i true) = some s' := by
  simp only [machine, hreset]
  exact hstep

/-- A reset whose calls are answered, with nothing in between, reaches the end of the plan. -/
theorem Inv.executes {i : Nat} {record : RunRecord} {platform final : Platform} {todo : List RestoreInstr}
    (hexecutes : ScenarioRun.Executes owner platform todo final) (h : Inv owner initial s)
    (hplatform : s.platform = platform) (hreset : s.resets[i]? = some (.restoring record todo)) :
    ∃ calls t, (machine owner faults actions).run s (List.replicate calls (.resetStep i true)) = some t ∧
      Inv owner initial t ∧ t.resets[i]? = some (.restoring record []) := by
  induction hexecutes generalizing s with
  | done => exact ⟨0, s, rfl, h, hreset⟩
  | @call platform after _ instr more todo hexec _ ih =>
    subst hplatform
    have hi : i < s.resets.length := (List.getElem?_eq_some_iff.1 hreset).1
    have hcall : SharedRun.resetStep owner s i true (.restoring record (instr :: todo)) =
        some { s.setReset i (.restoring record (more ++ todo)) with platform := after } := by
      simp only [SharedRun.resetStep, if_true, hexec]
    have hnext := h.resetStep hreset (by intro _ heq; cases heq) hcall
    obtain ⟨calls, t, hrun, ht, hdone⟩ := ih hnext rfl (List.getElem?_set_self hi)
    refine ⟨calls + 1, t, ?_, ht, hdone⟩
    simp only [List.replicate_succ, Machine.run, step_reset hreset hcall]
    exact hrun

/-- A new reset lists the run, reads its journal, executes the plan and saves the record. -/
theorem Inv.next (h : Inv owner initial s) (hended : s.stage = .ended) {record : RunRecord}
    (hfile : s.file = some record) (hrestored : record.restored = false) :
    ∃ calls t, (machine owner faults actions).run s
        (.reset :: List.replicate calls (.resetStep s.resets.length true)) = some t ∧
      t.file = some record.marked ∧ AsBefore initial t.platform := by
  let started : System := { s with resets := s.resets ++ [.starting] }
  have hi : s.resets.length < started.resets.length := by simp [started]
  have hstarted : started.resets[s.resets.length]? = some .starting := List.getElem?_concat_length
  let listed := started.setReset s.resets.length (.listed record)
  have hlist : SharedRun.resetStep owner started s.resets.length true .starting = some listed := by
    simp [SharedRun.resetStep, started, listed, hfile, hrestored]
  have hlisted : listed.resets[s.resets.length]? = some (.listed record) := List.getElem?_set_self hi
  have hlistedInv : Inv owner initial listed :=
    h.newReset.resetStep hstarted (fun _ _ _ _ => hended) hlist
  let planned := listed.setReset s.resets.length (.restoring record s.plan)
  have hread : SharedRun.resetStep owner listed s.resets.length true (.listed record) =
    some planned := rfl
  have hplanned : planned.resets[s.resets.length]? = some (.restoring record s.plan) :=
    List.getElem?_set_self (by simp [listed, System.setReset, hi])
  have hplannedInv : Inv owner initial planned :=
    hlistedInv.resetStep hlisted (by intro _ heq; cases heq) hread
  obtain ⟨final, hfinal⟩ := ScenarioRun.executes_plan owner (restorePlan s.journal) planned.platform
  obtain ⟨calls, t, hrun, ht, hdone⟩ :=
    @Inv.executes owner initial planned faults actions _ _ _ _ _ hfinal hplannedInv rfl hplanned
  let saved : System :=
    { t.setReset s.resets.length (.clearing (downstreamServices.map fun service => .step (.clearFaults service))) with
      file := some record.marked }
  have hsave : SharedRun.resetStep owner t s.resets.length true (.restoring record []) = some saved := rfl
  refine ⟨calls + 2 + 1, saved, ?_, rfl, .of_covers (ht.covers record [] (List.mem_of_getElem? hdone))⟩
  have hreset : (machine owner faults actions).step s .reset = some started := rfl
  rw [Machine.run_of_step hreset, List.replicate_succ', Machine.run_append, List.replicate_succ,
    List.replicate_succ, Machine.run_of_step (step_reset hstarted hlist),
    Machine.run_of_step (step_reset hlisted hread), hrun,
    Option.bind_some, Machine.run_of_step (step_reset hdone hsave)]
  rfl

end

/-! ## The guarantee -/

/-- **Only runs that have ended are restored by others**, in every run of the processes in which no
reset lists the run between the first save of its record and the end of its process: then no reset
restores or marks it while it is alive, and whatever it journaled is undone. -/
theorem only_ended_runs_are_restored (owner : String → Workload) (faults : List FaultSpec)
    (actions : List KubernetesAction) (initial : Platform) (hclean : ∀ pod ∈ initial.pods, pod.rules = [])
    (runId scenarioId startedAt : String) (labels : List Label) (s : System)
    (hrun : (machine owner faults actions).run (start initial runId scenarioId startedAt) labels = some s)
    (hlists : (machine owner faults actions).Along ListsEnded (start initial runId scenarioId startedAt) labels) :
    (machine owner faults actions).Along LeavesLiveRun (start initial runId scenarioId startedAt) labels ∧
      Recoverable owner faults actions initial s := by
  have hstart : Inv owner initial (start initial runId scenarioId startedAt) :=
    inv_start hclean runId scenarioId startedAt
  have hinv := Machine.run_inv_of_along inv_step hstart hlists hrun
  refine ⟨?_, ?_⟩
  · refine Machine.along_of_inv (I := Inv owner initial) ?_ hstart hlists
    intro before label after h hstep hcond
    refine ⟨?_, inv_step before label after h hstep hcond⟩
    intro i answered record todo _ hreset
    exact h.others (.restoring record todo) (List.mem_of_getElem? hreset) trivial
  · refine ⟨fun hrestored => (hinv.own hrestored).1, ?_, fun hnone => (hinv.unsaved hnone).1, ?_⟩
    · intro record hfile hrestored
      exact (hinv.file record hfile hrestored).1
    · intro hended record hfile hrestored
      exact hinv.next hended hfile hrestored

/-- FraudService has one pod, and the scenario makes its evaluations time out. -/
def onePod : Platform := ⟨fun _ => some 1, [⟨"fraud-1", "u1", true, true, []⟩]⟩

def slowFraud : FaultSpec :=
  ⟨.fraudService, "fraud.evaluate", .timeout, none, none, none, none, none, none, 60, .one, true⟩

/-- The run applies its fault and is killed. -/
def faultAndKill : List Label := [.run (.fault true), .run (.fault true), .run (.fault true), .run .dies]

/-- A reset lists the run and is about to restore it. -/
def resetListed : List Label := [.reset, .resetStep 0 true, .resetStep 0 true]

theorem listsEnded_of_run (before after : System) (label : RunLabel) :
    ListsEnded before (.run label) after := by
  intro _ _ _ heq
  cases heq

def killedRun : List Label := [.run .save, .run (.preflight false)] ++ faultAndKill ++ resetListed

theorem killed_run_is_recoverable :
    ∃ s, (machine (fun _ => .fraudService) [slowFraud] []).run
        (start onePod "run-1" "slow-fraud" "") killedRun = some s ∧
      s.journal.length = 1 ∧ Recoverable (fun _ => .fraudService) [slowFraud] [] onePod s := by
  refine ⟨_, rfl, rfl,
    (only_ended_runs_are_restored (fun _ => .fraudService) [slowFraud] [] onePod (by simp [onePod])
    "run-1" "slow-fraud" "" killedRun _ rfl ?_).2⟩
  refine ⟨listsEnded_of_run _ _ _, listsEnded_of_run _ _ _, listsEnded_of_run _ _ _,
    listsEnded_of_run _ _ _, listsEnded_of_run _ _ _, listsEnded_of_run _ _ _, ?_, ?_, ?_, trivial⟩
  · intro _ _ _ heq
    cases heq
  · intro _ _ _ _ _ _ _
    rfl
  · intro _ _ _ _ _ _ _
    rfl

/-- The reset comes before the fault: it marks the living run as restored, and the fault of the
killed run stays. -/
def earlyReset : List Label :=
  [.run .save, .run (.preflight false)] ++ resetListed ++ [.resetStep 0 true] ++ faultAndKill

theorem living_run_is_marked :
    ¬ ((machine (fun _ => .fraudService) [slowFraud] []).Along LeavesLiveRun (start onePod "run-1" "slow-fraud" "")
        earlyReset) ∧
    ∃ s, (machine (fun _ => .fraudService) [slowFraud] []).run
      (start onePod "run-1" "slow-fraud" "") earlyReset = some s ∧ s.stage = .ended ∧
        ¬ Recoverable (fun _ => .fraudService) [slowFraud] [] onePod s := by
  refine ⟨?_, _, rfl, rfl, ?_⟩
  · rintro ⟨_, _, _, _, _, hmark, _⟩
    cases hmark 0 true _ [] rfl rfl
  · intro h
    have hrules := (h.marked _ rfl rfl).rules _ List.mem_cons_self rfl
    cases hrules

end SharedRun

end TxPlatform
