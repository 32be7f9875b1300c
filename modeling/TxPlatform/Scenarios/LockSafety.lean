import Mathlib.Data.Int.Order.Basic
import TxPlatform.Scenarios.RunLock

/-! # Who holds the lock (runlock.py:83-118)

A process that acquired or renewed holds the lock for 90 seconds. That is so as long as `release`
deletes only the caller's own lease (it deletes without the version it has read), and `acquire` does
not return early for a lease that is running out (it does not renew a lease that already names the
caller).
-/

namespace TxPlatform

namespace LockState

/-- The process has not called `release`, and its last success is at most 90 seconds old. -/
def Holds (time : Confirmation → Int) (s : LockState) (identity : String) : Prop :=
  ∃ success, s.confirmed identity = some success ∧
    s.clock - time success ≤ seconds TxPlatform.leaseDurationSeconds

/-- Every holder is named by the lease, so there is at most one. -/
structure Safe (time : Confirmation → Int) (s : LockState) : Prop where
  named : ∀ identity, s.Holds time identity →
    ∃ version lease, s.lease.object = some (version, lease) ∧ lease.holderIdentity = some identity
  unique : ∀ identity other, s.Holds time identity → s.Holds time other → identity = other

end LockState

/-- `release` deletes a lease only while the lease names the caller. -/
def DeletesOwn (before : LockState) (label : LockStep) (_after : LockState) : Prop :=
  ∀ identity version lease, label = .main identity → before.main identity = .deleting →
    before.lease.object = some (version, lease) → lease.holderIdentity = some identity

/-- `acquire` finds a lease that names the caller only at the moment it was renewed. -/
def FindsOwnFresh (before : LockState) (label : LockStep) (_after : LockState) : Prop :=
  ∀ identity purpose again version lease, label = .main identity →
    before.main identity = .reading purpose again →
    before.lease.object = some (version, lease) → lease.holderIdentity = some identity →
    lease.renewTime = some before.clock

/-- The request of `acquire` or `renew` takes effect at the time it carries. -/
def WritesAtOnce (before : LockState) (label : LockStep) (_after : LockState) : Prop :=
  (∀ identity purpose now, label = .main identity → before.main identity = .creating purpose now →
    now = before.clock) ∧
  (∀ identity purpose version now,
    label = .main identity → before.main identity = .replacing purpose version now →
    now = before.clock) ∧
  ∀ i identity version lease now, label = .renewal i →
    before.renewals[i]? = some ⟨identity, .replacing version lease now⟩ → now = before.clock

/-! ## What is known about the calls under way -/

/-- A lease as the code writes them. -/
structure V1Lease.Written (lease : V1Lease) (holder : String) (renewed : Int) : Prop where
  holder : lease.holderIdentity = some holder
  renewed : lease.renewTime = some renewed
  duration : lease.leaseDurationSeconds = some TxPlatform.leaseDurationSeconds

theorem written_leaseBody (identity purpose : String) (now : Int) :
    (leaseBody identity purpose now).Written identity now := ⟨rfl, rfl, rfl⟩

/-- The lease that was read under the version had expired. -/
def ReadExpired (store : Versioned V1Lease) (clock : Int) (version : Nat) : Prop :=
  ∃ lease holder renewed, store.Snapshot version lease ∧ lease.Written holder renewed ∧
    renewed + seconds leaseDurationSeconds < clock

def MainStage.Sound (store : Versioned V1Lease) (clock : Int) : MainStage → Prop
  | .creating _ now => now ≤ clock
  | .found _ version state => ∃ lease holder, store.Snapshot version lease ∧
      lease.Written holder state.renewedAt ∧
      state.durationSeconds = leaseDurationSeconds
  | .expired _ version => ReadExpired store clock version
  | .replacing _ version now => ReadExpired store clock version ∧ now ≤ clock
  | _ => True

def Renewal.Sound (store : Versioned V1Lease) (clock : Int) (renewal : Renewal) : Prop :=
  match renewal.stage with
  | .found version lease => ∃ renewed, store.Snapshot version lease ∧
      lease.Written renewal.identity renewed ∧
      renewed ≤ clock
  | .replacing version lease now => ∃ renewed, store.Snapshot version lease ∧
      lease.Written renewal.identity renewed ∧ renewed ≤ now ∧ now ≤ clock
  | _ => True

/-- The success still counts: the lease names the process, renewed at least as late; or it is too
old. -/
def Covered (store : Versioned V1Lease) (clock : Int) (identity : String)
    (success : Confirmation) : Prop :=
  (∃ version lease renewed, store.object = some (version, lease) ∧ lease.Written identity renewed ∧
    success.dated ≤ renewed) ∨ success.dated + seconds leaseDurationSeconds < clock

structure LockInv (s : LockState) : Prop where
  issued : s.lease.Issued
  written : ∀ version lease, s.lease.object = some (version, lease) →
    ∃ holder renewed, lease.Written holder renewed ∧ renewed ≤ s.clock
  main : ∀ identity, (s.main identity).Sound s.lease s.clock
  renewals : ∀ renewal ∈ s.renewals, renewal.Sound s.lease s.clock
  released : ∀ identity, s.main identity = .releasing ∨ s.main identity = .deleting →
    s.confirmed identity = none
  covered : ∀ identity success, s.confirmed identity = some success →
    Covered s.lease s.clock identity success

/-- What holds of every success still does when one process gets another. -/
theorem confirmed_update {confirmed : String → Option Confirmation} {P : String → Confirmation → Prop}
    {identity : String} {value : Option Confirmation}
    (h : ∀ other success, confirmed other = some success → P other success)
    (hvalue : ∀ success, value = some success → P identity success) :
    ∀ other success, Function.update confirmed identity value other = some success →
      P other success := by
  intro other success hsuccess
  by_cases hother : other = identity
  · subst hother
    rw [Function.update_self] at hsuccess
    exact hvalue success hsuccess
  · rw [Function.update_of_ne hother] at hsuccess
    exact h other success hsuccess

section

variable {store store' : Versioned V1Lease} {clock clock' : Int}

theorem ReadExpired.mono {version : Nat} (h : ReadExpired store clock version) (ha : store.Advance store')
    (hle : clock ≤ clock') : ReadExpired store' clock' version := by
  obtain ⟨lease, holder, renewed, hsnapshot, hwritten, hold⟩ := h
  exact ⟨lease, holder, renewed, hsnapshot.advance ha, hwritten, by omega⟩

/-- What a call knows stays true while others write and time passes. -/
theorem MainStage.Sound.mono {stage : MainStage} (h : stage.Sound store clock) (ha : store.Advance store')
    (hle : clock ≤ clock') : stage.Sound store' clock' := by
  cases stage with
  | idle => trivial
  | reading => trivial
  | absent => trivial
  | creating purpose now => exact le_trans (h : now ≤ clock) hle
  | found purpose version state =>
    obtain ⟨lease, holder, hsnapshot, hwritten, hduration⟩ := h
    exact ⟨lease, holder, hsnapshot.advance ha, hwritten, hduration⟩
  | expired purpose version => exact ReadExpired.mono h ha hle
  | replacing purpose version now => exact ⟨h.1.mono ha hle, le_trans h.2 hle⟩
  | releasing => trivial
  | deleting => trivial

theorem Renewal.Sound.mono {renewal : Renewal} (h : renewal.Sound store clock) (ha : store.Advance store')
    (hle : clock ≤ clock') : renewal.Sound store' clock' := by
  obtain ⟨identity, stage⟩ := renewal
  cases stage with
  | reading => trivial
  | found version lease =>
    obtain ⟨renewed, hsnapshot, hwritten, hrenewed⟩ := h
    exact ⟨renewed, hsnapshot.advance ha, hwritten, le_trans hrenewed hle⟩
  | replacing version lease now =>
    obtain ⟨renewed, hsnapshot, hwritten, hrenewed, hnow⟩ := h
    exact ⟨renewed, hsnapshot.advance ha, hwritten, hrenewed, le_trans hnow hle⟩
  | done => trivial

end

/-! ## What each step keeps -/

theorem lockInv_start (now : Int) : LockInv (.start now) where
  issued := Versioned.issued_empty
  written := by intro _ _ h; cases h
  main := by intro _; trivial
  renewals := by intro _ h; cases h
  released := by intro _ _; rfl
  covered := by intro _ _ h; cases h

namespace LockInv

variable {s : LockState} {identity : String}

theorem tick (h : LockInv s) (d : Nat) : LockInv { s with clock := s.clock + d } := by
  have hle : s.clock ≤ s.clock + d := by omega
  refine ⟨h.issued, ?_, ?_, ?_, h.released, ?_⟩
  · intro version lease hobject
    obtain ⟨holder, renewed, hwritten, hrenewed⟩ := h.written version lease hobject
    exact ⟨holder, renewed, hwritten, le_trans hrenewed hle⟩
  · intro other
    exact (h.main other).mono (.refl _) hle
  · intro renewal hrenewal
    exact (h.renewals renewal hrenewal).mono (.refl _) hle
  · intro other success hsuccess
    rcases h.covered other success hsuccess with hnamed | hold
    · exact .inl hnamed
    · exact .inr (lt_of_lt_of_le hold hle)

theorem goTo (h : LockInv s) {stage : MainStage} (hsound : stage.Sound s.lease s.clock)
    (hreleased : stage = .releasing ∨ stage = .deleting → s.confirmed identity = none) :
    LockInv (s.goTo identity stage) := by
  refine ⟨h.issued, h.written, ?_, h.renewals, ?_, h.covered⟩
  · intro other
    by_cases hother : other = identity
    · subst hother
      simpa [LockState.goTo] using hsound
    · simpa [LockState.goTo, hother] using h.main other
  · intro other hstage
    by_cases hother : other = identity
    · subst hother
      exact hreleased (by simpa [LockState.goTo] using hstage)
    · exact h.released other (by simpa [LockState.goTo, hother] using hstage)

/-- A stage outside `release`. -/
theorem goToOther (h : LockInv s) {stage : MainStage} (hsound : stage.Sound s.lease s.clock)
    (hreleasing : stage ≠ .releasing) (hdeleting : stage ≠ .deleting) :
    LockInv (s.goTo identity stage) := by
  refine h.goTo hsound ?_
  rintro (hstage | hstage)
  · exact absurd hstage hreleasing
  · exact absurd hstage hdeleting

theorem setRenewal (h : LockInv s) {i : Nat} {renewal : Renewal} {stage : RenewalStage}
    (hsound : (Renewal.mk renewal.identity stage).Sound s.lease s.clock) :
    LockInv (s.setRenewal i renewal stage) := by
  refine ⟨h.issued, h.written, h.main, ?_, h.released, h.covered⟩
  intro other hother
  rcases List.mem_or_eq_of_mem_set hother with hother | rfl
  · exact h.renewals other hother
  · exact hsound

/-- A process whose lease has just been renewed may take it for acquired. -/
theorem acquired (h : LockInv s) {dated : Int}
    (hcovered : Covered s.lease s.clock identity ⟨dated, s.clock⟩) :
    LockInv (s.acquired identity dated) := by
  have hidle := @goToOther s identity h (.idle .acquired) trivial nofun nofun
  refine ⟨h.issued, h.written, hidle.main, h.renewals, ?_, ?_⟩
  · intro other hstage
    by_cases hother : other = identity
    · subst hother
      simp [LockState.acquired, LockState.goTo] at hstage
    · have hnone : s.confirmed other = none := hidle.released other hstage
      simpa [LockState.acquired, hother] using hnone
  · refine confirmed_update h.covered ?_
    intro success hsuccess
    cases hsuccess
    exact hcovered

/-- A success of a process that still counts as holding the lock. -/
theorem reconfirm (h : LockInv s) {now : Int}
    (hcovered : Covered s.lease s.clock identity ⟨now, s.clock⟩) :
    LockInv { s with
      confirmed := Function.update s.confirmed identity
        ((s.confirmed identity).map fun _ => ⟨now, s.clock⟩) } := by
  refine ⟨h.issued, h.written, h.main, h.renewals, ?_, ?_⟩
  · intro other hstage
    by_cases hother : other = identity
    · subst hother
      simp [h.released other hstage]
    · simpa [hother] using h.released other hstage
  · refine confirmed_update h.covered ?_
    intro success hsuccess
    obtain ⟨_, _, rfl⟩ := Option.map_eq_some_iff.1 hsuccess
    exact hcovered

theorem clear (h : LockInv s) (identity : String) :
    LockInv { s with confirmed := Function.update s.confirmed identity none } := by
  refine ⟨h.issued, h.written, h.main, h.renewals, ?_, ?_⟩
  · intro other hstage
    by_cases hother : other = identity
    · subst hother
      simp
    · simpa [hother] using h.released other hstage
  · refine confirmed_update h.covered ?_
    intro success hsuccess
    cases hsuccess

theorem call (h : LockInv s) {s' : LockState} {stage : MainStage} (hsound : stage.Sound s.lease s.clock)
    (hreleased : stage = .releasing ∨ stage = .deleting → s.confirmed identity = none)
    (hcall : s.call identity stage = some s') : LockInv s' := by
  unfold LockState.call at hcall
  split at hcall
  · cases hcall
    exact h.goTo hsound hreleased
  · cases hcall

theorem start (h : LockInv s) (identity : String) :
    LockInv { s with renewals := s.renewals ++ [⟨identity, .reading⟩] } := by
  refine ⟨h.issued, h.written, h.main, ?_, h.released, h.covered⟩
  intro renewal hrenewal
  rcases List.mem_append.1 hrenewal with hrenewal | hrenewal
  · exact h.renewals renewal hrenewal
  · rw [List.mem_singleton.1 hrenewal]
    trivial

/-- A write over a lease that has run out or names the writer. -/
theorem write (h : LockInv s) {lease : V1Lease} {now : Int} (hwritten : lease.Written identity now)
    (hnow : now ≤ s.clock)
    (hfree : ∀ version old holder renewed, s.lease.object = some (version, old) →
      old.Written holder renewed →
      renewed + seconds leaseDurationSeconds < s.clock ∨ (holder = identity ∧ renewed ≤ now)) :
    LockInv { s with lease := ⟨some (s.lease.last + 1, lease), s.lease.last + 1⟩ } := by
  have hadvance := Versioned.Advance.written s.lease lease
  refine ⟨Versioned.issued_written _ _, ?_, ?_, ?_, h.released, ?_⟩
  · intro version new hobject
    cases hobject
    exact ⟨identity, now, hwritten, hnow⟩
  · intro other
    exact (h.main other).mono hadvance le_rfl
  · intro renewal hrenewal
    exact (h.renewals renewal hrenewal).mono hadvance le_rfl
  · intro other success hsuccess
    rcases h.covered other success hsuccess with ⟨version, old, renewed, hobject, hold, hdated⟩ | hold
    · rcases hfree version old other renewed hobject hold with hexpired | ⟨rfl, hrenewed⟩
      · exact .inr (show success.dated + _ < s.clock by omega)
      · exact .inl ⟨_, lease, now, rfl, hwritten, by omega⟩
    · exact .inr hold

/-- The lease goes, and nobody but the process whose lease it was is concerned. -/
theorem delete (h : LockInv s) (hconfirmed : s.confirmed identity = none)
    (hown : ∀ version lease, s.lease.object = some (version, lease) →
      lease.holderIdentity = some identity) :
    LockInv { s with lease := { s.lease with object := none } } := by
  have hadvance := Versioned.Advance.deleted s.lease
  refine ⟨?_, ?_, ?_, ?_, h.released, ?_⟩
  · intro version lease hobject
    cases hobject
  · intro version lease hobject
    cases hobject
  · intro other
    exact (h.main other).mono hadvance le_rfl
  · intro renewal hrenewal
    exact (h.renewals renewal hrenewal).mono hadvance le_rfl
  · intro other success hsuccess
    rcases h.covered other success hsuccess with ⟨version, lease, renewed, hobject, hwritten, _⟩ | hold
    · have hother : other = identity :=
        Option.some.inj (hwritten.holder.symm.trans (hown version lease hobject))
      rw [hother, hconfirmed] at hsuccess
      cases hsuccess
    · exact .inr hold

end LockInv

theorem leaseState_of_written {lease : V1Lease} {holder : String} {renewed : Int}
    (h : lease.Written holder renewed) (now : Int) :
    (leaseState lease now).holder = holder ∧ (leaseState lease now).renewedAt = renewed ∧
      (leaseState lease now).durationSeconds = leaseDurationSeconds := by
  unfold leaseState
  rw [h.holder, h.renewed, h.duration]
  exact ⟨rfl, rfl, rfl⟩

/-- The lock was free. -/
theorem LockInv.created {s : LockState} {identity purpose : String} {now : Int}
    {store : Versioned V1Lease} (h : LockInv s) (hnow : now ≤ s.clock)
    (hcreate : s.lease.create (leaseBody identity purpose now) = some store) :
    LockInv (LockState.acquired { s with lease := store } identity now) := by
  obtain ⟨hnone, rfl⟩ := Versioned.create_eq_some hcreate
  have hwritten := written_leaseBody identity purpose now
  have hwrite := h.write hwritten hnow (by
    intro version old holder renewed hobject
    rw [hnone] at hobject
    cases hobject)
  exact hwrite.acquired (.inl ⟨_, _, now, rfl, hwritten, le_refl _⟩)

/-- The lease that was replaced is the one that was read, and that one has expired. -/
theorem LockInv.tookOver {s : LockState} {identity purpose : String} {version : Nat} {now : Int}
    {store : Versioned V1Lease} (h : LockInv s) (hread : ReadExpired s.lease s.clock version)
    (hnow : now ≤ s.clock)
    (hreplace : s.lease.replace version (leaseBody identity purpose now) = some store) :
    LockInv (LockState.acquired { s with lease := store } identity now) := by
  obtain ⟨lease, holder, renewed, hsnapshot, hwritten, hold⟩ := hread
  obtain ⟨⟨current, hcurrent⟩, rfl⟩ := Versioned.replace_eq_some hreplace
  have hsame := hsnapshot.current current hcurrent
  have hnew := written_leaseBody identity purpose now
  have hwrite := h.write hnew hnow (by
    intro version' old holder' renewed' hobject hwritten'
    rw [hcurrent] at hobject
    cases hobject
    rw [hsame] at hwritten'
    have : renewed' = renewed := Option.some.inj (hwritten'.renewed.symm.trans hwritten.renewed)
    exact .inl (by omega))
  exact hwrite.acquired (.inl ⟨_, _, now, rfl, hnew, le_refl _⟩)

/-! ### One step of the main thread -/

theorem LockInv.goIdle {s : LockState} {identity : String} (h : LockInv s) (outcome : LockOutcome) :
    LockInv (s.goTo identity (.idle outcome)) := h.goToOther trivial nofun nofun

theorem LockInv.main_reading {s s' : LockState} {identity : String} {purpose : String} {again : Bool} (h : LockInv s)
    (hstage : s.main identity = .reading purpose again) (hstep : s.mainStep identity = some s')
    (hfresh : FindsOwnFresh s (.main identity) s') : LockInv s' := by
  simp only [LockState.mainStep, hstage] at hstep
  split at hstep
  · cases hstep
    split
    · exact h.goIdle _
    · exact h.goToOther trivial nofun nofun
  · rename_i version lease hobject
    obtain ⟨holder, renewed, hwritten, hrenewed⟩ := h.written version lease hobject
    obtain ⟨hholder, hrenewedAt, hduration⟩ := leaseState_of_written hwritten s.clock
    split at hstep
    · rename_i hown
      cases hstep
      rw [hholder] at hown
      subst hown
      have hnow := hfresh holder purpose again version lease rfl hstage hobject hwritten.holder
      rw [hwritten.renewed, Option.some.injEq] at hnow
      exact h.acquired (.inl ⟨version, lease, renewed, hobject, hwritten, le_of_eq hnow.symm⟩)
    · cases hstep
      refine h.goToOther
        ⟨lease, holder, Versioned.snapshot_of_read h.issued hobject, ?_, hduration⟩ nofun nofun
      rw [hrenewedAt]
      exact hwritten

theorem LockInv.main_creating {s s' : LockState} {identity : String} {purpose : String} {now : Int} (h : LockInv s)
    (hstage : s.main identity = .creating purpose now) (hstep : s.mainStep identity = some s') : LockInv s' := by
  have hsound := h.main identity
  rw [hstage] at hsound
  simp only [LockState.mainStep, hstage] at hstep
  split at hstep
  · rename_i store hcreate
    cases hstep
    exact h.created hsound hcreate
  · cases hstep
    exact h.goToOther trivial nofun nofun

theorem LockInv.main_found {s s' : LockState} {identity : String} {purpose : String} {version : Nat} {state : LeaseState}
    (h : LockInv s)
    (hstage : s.main identity = .found purpose version state) (hstep : s.mainStep identity = some s') : LockInv s' := by
  have hsound := h.main identity
  rw [hstage] at hsound
  simp only [LockState.mainStep, hstage] at hstep
  obtain ⟨lease, holder, hsnapshot, hwritten, hduration⟩ := hsound
  split at hstep
  · rename_i hexpired
    cases hstep
    refine h.goToOther ⟨lease, holder, state.renewedAt, hsnapshot, hwritten, ?_⟩ nofun nofun
    have hgt := of_decide_eq_true hexpired
    rw [hduration] at hgt
    omega
  · cases hstep
    exact h.goIdle _

theorem LockInv.main_replacing {s s' : LockState} {identity : String} {purpose : String} {version : Nat} {now : Int}
    (h : LockInv s)
    (hstage : s.main identity = .replacing purpose version now) (hstep : s.mainStep identity = some s') : LockInv s' := by
  have hsound := h.main identity
  rw [hstage] at hsound
  simp only [LockState.mainStep, hstage] at hstep
  split at hstep
  · rename_i store hreplace
    cases hstep
    exact h.tookOver hsound.1 hsound.2 hreplace
  · cases hstep
    exact h.goIdle _

theorem LockInv.main_releasing {s s' : LockState} {identity : String} (h : LockInv s)
    (hstage : s.main identity = .releasing) (hstep : s.mainStep identity = some s') : LockInv s' := by
  simp only [LockState.mainStep, hstage] at hstep
  split at hstep
  · cases hstep
    exact h.goIdle _
  · split at hstep
    · cases hstep
      exact h.goTo trivial fun _ => h.released identity (.inl hstage)
    · cases hstep
      exact h.goIdle _

theorem LockInv.main_deleting {s s' : LockState} {identity : String} (h : LockInv s)
    (hstage : s.main identity = .deleting) (hstep : s.mainStep identity = some s')
    (hdelete : DeletesOwn s (.main identity) s') : LockInv s' := by
  simp only [LockState.mainStep, hstage] at hstep
  split at hstep
  · rename_i store hdeleted
    obtain ⟨_, rfl⟩ := Versioned.delete_eq_some hdeleted
    cases hstep
    have hgone := h.delete (h.released identity (.inr hstage)) fun version lease =>
      hdelete identity version lease rfl hstage
    exact hgone.goToOther trivial nofun nofun
  · cases hstep
    exact h.goIdle _

theorem LockInv.mainStep {s s' : LockState} {identity : String} (h : LockInv s)
    (hstep : s.mainStep identity = some s') (hdelete : DeletesOwn s (.main identity) s')
    (hfresh : FindsOwnFresh s (.main identity) s') : LockInv s' := by
  cases hstage : s.main identity with
  | idle => simp [LockState.mainStep, hstage] at hstep
  | reading purpose again => exact h.main_reading hstage hstep hfresh
  | absent purpose =>
    simp only [LockState.mainStep, hstage] at hstep
    cases hstep
    exact h.goToOther (le_refl _) nofun nofun
  | creating purpose now => exact h.main_creating hstage hstep
  | found purpose version state => exact h.main_found hstage hstep
  | expired purpose version =>
    have hsound := h.main identity
    rw [hstage] at hsound
    simp only [LockState.mainStep, hstage] at hstep
    cases hstep
    exact h.goToOther ⟨hsound, le_refl _⟩ nofun nofun
  | replacing purpose version now => exact h.main_replacing hstage hstep
  | releasing => exact h.main_releasing hstage hstep
  | deleting => exact h.main_deleting hstage hstep hdelete

/-- One step of a renewal. -/
theorem LockInv.renewalStep {s s' : LockState} {i : Nat} {renewal : Renewal} (h : LockInv s)
    (hrenewal : s.renewals[i]? = some renewal) (hstep : s.renewalStep i renewal = some s') :
    LockInv s' := by
  have hsound := h.renewals renewal (List.mem_of_getElem? hrenewal)
  have hdone : LockInv (s.setRenewal i renewal .done) := h.setRenewal trivial
  unfold LockState.renewalStep at hstep
  obtain ⟨identity, stage⟩ := renewal
  cases stage with
  | reading =>
    simp only at hstep
    split at hstep
    · cases hstep
      exact hdone
    · rename_i version lease hobject
      obtain ⟨holder, renewed, hwritten, hrenewed⟩ := h.written version lease hobject
      split at hstep
      · rename_i hown
        rw [(leaseState_of_written hwritten s.clock).1] at hown
        subst hown
        cases hstep
        exact h.setRenewal ⟨renewed, Versioned.snapshot_of_read h.issued hobject, hwritten, hrenewed⟩
      · cases hstep
        exact hdone
  | found version lease =>
    obtain ⟨renewed, hsnapshot, hwritten, hrenewed⟩ := hsound
    cases hstep
    exact h.setRenewal ⟨renewed, hsnapshot, hwritten, hrenewed, le_refl _⟩
  | replacing version lease now =>
    obtain ⟨renewed, hsnapshot, hwritten, hrenewed, hnow⟩ := hsound
    simp only at hstep
    split at hstep
    · rename_i store hreplace
      obtain ⟨⟨current, hcurrent⟩, rfl⟩ := Versioned.replace_eq_some hreplace
      cases hstep
      have hsame := hsnapshot.current current hcurrent
      have hnew : V1Lease.Written { lease with renewTime := some now } identity now :=
        ⟨hwritten.holder, rfl, hwritten.duration⟩
      have hwrite := hdone.write hnew hnow (by
        intro version' old holder' renewed' hobject hwritten'
        have hobject : s.lease.object = some (version', old) := hobject
        rw [hcurrent] at hobject
        cases hobject
        rw [hsame] at hwritten'
        have hholder : holder' = identity := Option.some.inj (hwritten'.holder.symm.trans hwritten.holder)
        have : renewed' = renewed := Option.some.inj (hwritten'.renewed.symm.trans hwritten.renewed)
        exact .inr ⟨hholder, by omega⟩)
      exact hwrite.reconfirm (.inl ⟨_, _, now, rfl, hnew, le_refl _⟩)
    · cases hstep
      exact hdone
  | done => cases hstep

theorem lockInv_step (s : LockState) (label : LockStep) (s' : LockState) (h : LockInv s)
    (hstep : lockMachine.step s label = some s')
    (hgood : DeletesOwn s label s' ∧ FindsOwnFresh s label s') : LockInv s' := by
  cases label with
  | tick d => cases hstep; exact h.tick d
  | acquire identity purpose =>
    refine h.call ?_ ?_ hstep
    · trivial
    · rintro (hstage | hstage) <;> cases hstage
  | release identity =>
    have hcleared : LockInv { s with confirmed := Function.update s.confirmed identity none } :=
      h.clear identity
    refine hcleared.call ?_ ?_ hstep
    · trivial
    · intro _
      exact Function.update_self _ _ _
  | renew identity =>
    cases hstep
    exact h.start identity
  | main identity => exact h.mainStep hstep hgood.1 hgood.2
  | renewal i =>
    simp only [lockMachine] at hstep
    split at hstep
    · cases hstep
    · rename_i renewal hrenewal
      exact h.renewalStep hrenewal hstep
  | interrupt identity =>
    cases hstep
    exact h.goToOther trivial nofun nofun

theorem LockInv.safe {s : LockState} (h : LockInv s) {time : Confirmation → Int}
    (htime : ∀ identity success, s.confirmed identity = some success → time success ≤ success.dated) :
    s.Safe time := by
  have hnamed : ∀ identity, s.Holds time identity →
      ∃ version lease, s.lease.object = some (version, lease) ∧ lease.holderIdentity = some identity := by
    rintro identity ⟨success, hsuccess, hrecent⟩
    have := htime identity success hsuccess
    rcases h.covered identity success hsuccess with ⟨version, lease, _, hobject, hwritten, _⟩ | hold
    · exact ⟨version, lease, hobject, hwritten.holder⟩
    · omega
  refine ⟨hnamed, ?_⟩
  intro identity other hidentity hother
  obtain ⟨version, lease, hobject, hholder⟩ := hnamed identity hidentity
  obtain ⟨version', lease', hobject', hholder'⟩ := hnamed other hother
  rw [hobject] at hobject'
  cases hobject'
  exact Option.some.inj (hholder.symm.trans hholder')

/-! ## Requests that take effect at once -/

/-- No success took effect later than it is dated. -/
def AllAtOnce (s : LockState) : Prop :=
  ∀ identity success, s.confirmed identity = some success → success.effective ≤ success.dated

theorem AllAtOnce.acquired {s : LockState} (h : AllAtOnce s) (identity : String) {dated : Int}
    (hdated : s.clock ≤ dated) : AllAtOnce (s.acquired identity dated) := by
  refine confirmed_update h ?_
  intro success hsuccess
  cases hsuccess
  exact hdated

theorem AllAtOnce.mainStep {s s' : LockState} {identity : String} (h : AllAtOnce s)
    (hstep : s.mainStep identity = some s') (hgood : WritesAtOnce s (.main identity) s') :
    AllAtOnce s' := by
  obtain ⟨hcreating, hreplacing, _⟩ := hgood
  simp only [LockState.mainStep] at hstep
  cases hstage : s.main identity with
  | idle => simp [hstage] at hstep
  | reading purpose again =>
    simp only [hstage] at hstep
    split at hstep
    · cases hstep; exact h
    · split at hstep <;> cases hstep
      · exact h.acquired identity (le_refl _)
      · exact h
  | absent purpose => simp only [hstage] at hstep; cases hstep; exact h
  | creating purpose now =>
    simp only [hstage] at hstep
    split at hstep <;> cases hstep
    · exact AllAtOnce.acquired h identity (le_of_eq (hcreating identity purpose now rfl hstage).symm)
    · exact h
  | found purpose version state =>
    simp only [hstage] at hstep
    split at hstep <;> cases hstep <;> exact h
  | expired purpose version => simp only [hstage] at hstep; cases hstep; exact h
  | replacing purpose version now =>
    simp only [hstage] at hstep
    split at hstep <;> cases hstep
    · exact AllAtOnce.acquired h identity
        (le_of_eq (hreplacing identity purpose version now rfl hstage).symm)
    · exact h
  | releasing =>
    simp only [hstage] at hstep
    split at hstep
    · cases hstep; exact h
    · split at hstep <;> cases hstep <;> exact h
  | deleting =>
    simp only [hstage] at hstep
    split at hstep <;> cases hstep <;> exact h

theorem AllAtOnce.renewalStep {s s' : LockState} {i : Nat} {renewal : Renewal} (h : AllAtOnce s)
    (hrenewal : s.renewals[i]? = some renewal) (hstep : s.renewalStep i renewal = some s')
    (hgood : WritesAtOnce s (.renewal i) s') : AllAtOnce s' := by
  obtain ⟨identity, stage⟩ := renewal
  cases stage with
  | reading =>
    simp only [LockState.renewalStep] at hstep
    split at hstep
    · cases hstep; exact h
    · split at hstep <;> cases hstep <;> exact h
  | found version lease => cases hstep; exact h
  | replacing version lease now =>
    simp only [LockState.renewalStep] at hstep
    split at hstep <;> cases hstep
    · refine confirmed_update h ?_
      intro success hsuccess
      obtain ⟨_, _, rfl⟩ := Option.map_eq_some_iff.1 hsuccess
      exact le_of_eq (hgood.2.2 i identity version lease now rfl hrenewal).symm
    · exact h
  | done => cases hstep

theorem allAtOnce_step (s : LockState) (label : LockStep) (s' : LockState) (h : AllAtOnce s)
    (hstep : lockMachine.step s label = some s') (hgood : WritesAtOnce s label s') :
    AllAtOnce s' := by
  cases label with
  | tick d => cases hstep; exact h
  | renew identity => cases hstep; exact h
  | interrupt identity => cases hstep; exact h
  | acquire identity purpose =>
    simp only [lockMachine, LockState.call] at hstep
    split at hstep <;> cases hstep
    exact h
  | release identity =>
    simp only [lockMachine, LockState.call] at hstep
    split at hstep <;> cases hstep
    refine confirmed_update h ?_
    intro success hsuccess
    cases hsuccess
  | main identity => exact h.mainStep hstep hgood
  | renewal i =>
    simp only [lockMachine] at hstep
    split at hstep
    · cases hstep
    · rename_i renewal hrenewal
      exact h.renewalStep hrenewal hstep hgood

/-- **The lock is safe** in every run in which `release` deletes only the caller's own lease and
`acquire` never relies on a lease that it does not renew: each process whose last success is dated
at most 90 seconds back is the one the lease names. Where requests take effect at once, that success
may also be dated by its effect. -/
theorem lock_is_safe {now : Int} {labels : List LockStep} {s : LockState}
    (hrun : lockMachine.run (.start now) labels = some s)
    (hgood : lockMachine.Along (fun before label after => DeletesOwn before label after ∧
      FindsOwnFresh before label after) (.start now) labels) :
    s.Safe Confirmation.dated ∧
    (lockMachine.Along WritesAtOnce (.start now) labels → s.Safe Confirmation.effective) := by
  have hinv := Machine.run_inv_of_along lockInv_step (lockInv_start now) hgood hrun
  refine ⟨hinv.safe fun _ _ _ => le_refl _, ?_⟩
  intro hatOnce
  have hstart : AllAtOnce (.start now) := by
    intro _ _ h
    cases h
  exact hinv.safe (Machine.run_inv_of_along allAtOnce_step hstart hatOnce hrun)

/-- `acquire` and the steps that take the free lock. -/
def acquireFree (identity : String) : List LockStep :=
  [.acquire identity "run", .main identity, .main identity, .main identity]

/-- `acquire` and the steps that take the lock over. -/
def takeOver (identity : String) : List LockStep :=
  [.acquire identity "run", .main identity, .main identity, .main identity, .main identity]

/-- `release` and its two calls. -/
def releaseOwn (identity : String) : List LockStep := [.release identity, .main identity, .main identity]

instance (before : LockState) (label : LockStep) (after : LockState) : Decidable (DeletesOwn before label after) :=
  decidable_of_iff (match label with
      | .main identity =>
        match before.main identity, before.lease.object with
        | .deleting, some (_, lease) => decide (lease.holderIdentity = some identity)
        | _, _ => true
      | _ => true : Bool) <| by
    constructor
    · rintro h identity version lease rfl hstage hobject
      simpa only [hstage, hobject, decide_eq_true_eq] using h
    · intro h
      cases label with
      | main identity =>
        dsimp only
        split
        · exact decide_eq_true (h identity _ _ rfl ‹_› ‹_›)
        · rfl
      | _ => rfl

instance (before : LockState) (label : LockStep) (after : LockState) : Decidable (FindsOwnFresh before label after) :=
  decidable_of_iff (match label with
      | .main identity =>
        match before.main identity, before.lease.object with
        | .reading _ _, some (_, lease) =>
          decide (lease.holderIdentity = some identity → lease.renewTime = some before.clock)
        | _, _ => true
      | _ => true : Bool) <| by
    constructor
    · rintro h identity purpose again version lease rfl hstage hobject
      simpa only [hstage, hobject, decide_eq_true_eq] using h
    · intro h
      cases label with
      | main identity =>
        dsimp only
        split
        · exact decide_eq_true (h identity _ _ _ _ rfl ‹_› ‹_›)
        · rfl
      | _ => rfl

/-- The first process is paused, the second takes its lock over and releases it, the third finds it free. -/
def handedOn : List LockStep :=
  acquireFree "host/1" ++ .tick 91000000 :: takeOver "host/2" ++ releaseOwn "host/2" ++ acquireFree "host/3"

theorem held_by_last : ∃ s, lockMachine.run (.start 0) handedOn = some s ∧
    s.Holds Confirmation.dated "host/3" ∧ s.Safe Confirmation.dated ∧
    ¬ s.Holds Confirmation.dated "host/1" ∧ ¬ s.Holds Confirmation.dated "host/2" := by
  obtain ⟨s, hrun, hholds⟩ : ∃ s, lockMachine.run (.start 0) handedOn = some s ∧
      s.Holds Confirmation.dated "host/3" := ⟨_, rfl, ⟨_, rfl, by decide⟩⟩
  have hsafe := (lock_is_safe hrun (by decide)).1
  refine ⟨s, hrun, hholds, hsafe, fun hfirst => ?_, fun hsecond => ?_⟩
  · exact absurd (hsafe.unique _ _ hfirst hholds) (by decide)
  · exact absurd (hsafe.unique _ _ hsecond hholds) (by decide)

/-- The first process pauses between the two calls of its `release`. -/
def slowRelease : List LockStep :=
  acquireFree "host/1" ++ [.tick 91000000, .release "host/1", .main "host/1"] ++ takeOver "host/2" ++
    [.main "host/1"] ++ acquireFree "host/3"

/-- Two processes hold the lock. -/
theorem held_twice : ¬ ∀ labels s, lockMachine.run (.start 0) labels = some s →
    s.Safe Confirmation.dated ∨ s.Safe Confirmation.effective := by
  intro h
  rcases h slowRelease _ rfl with hsafe | hsafe
  · exact absurd (hsafe.unique "host/2" "host/3" ⟨_, rfl, by decide⟩ ⟨_, rfl, by decide⟩) (by decide)
  · exact absurd (hsafe.unique "host/2" "host/3" ⟨_, rfl, by decide⟩ ⟨_, rfl, by decide⟩) (by decide)

end TxPlatform
