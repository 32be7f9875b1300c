import Mathlib.Logic.Function.Basic
import TxPlatform.Lib.Machine
import TxPlatform.Lib.Versioned

/-! # The experiment lock (runlock.py)

The lock is one Lease object. `acquire`, `renew` and `release` are cut at every API call and at every
reading of the clock, so that a process may pause anywhere in between. A process is named by its
holder identity; its main thread acquires and releases, any number of renewals run beside it.

| stage of the main thread | where in the source                                    |
|--------------------------|--------------------------------------------------------|
| `reading purpose again`  | `acquire`, before `_read()`; `again` after a 409       |
| `absent`                 | before `_body(purpose)` of the create                  |
| `creating`               | before `create_namespaced_lease`                       |
| `found`                  | before `is_expired(state, _now())`                     |
| `expired`                | before `_body(purpose, resource_version)`              |
| `replacing`              | before `replace_namespaced_lease`                      |
| `releasing`, `deleting`  | `release`, before `_read()` and `delete_namespaced_lease` |
-/

namespace TxPlatform

/-- Times are in microseconds. -/
def seconds (n : Int) : Int := n * 1000000

def leaseDurationSeconds : Int := 90

/-- What runlock.py reads and writes of a `V1Lease`; the version is kept beside it. -/
structure V1Lease where
  purpose : Option String
  holderIdentity : Option String
  leaseDurationSeconds : Option Int
  acquireTime : Option Int
  renewTime : Option Int

structure LeaseState where
  holder : String
  purpose : String
  renewedAt : Int
  durationSeconds : Int

/-- `is_expired`. -/
def isExpired (state : LeaseState) (now : Int) : Bool :=
  now - state.renewedAt > seconds state.durationSeconds

/-- `lease.spec.lease_duration_seconds or LEASE_DURATION_SECONDS`: 0 counts as missing. -/
def durationOr (duration : Option Int) : Int :=
  match duration with
  | none => leaseDurationSeconds
  | some n => if n = 0 then leaseDurationSeconds else n

/-- `_read`, once the object is there. -/
def leaseState (lease : V1Lease) (now : Int) : LeaseState where
  holder := lease.holderIdentity.getD ""
  purpose := lease.purpose.getD ""
  renewedAt := (lease.renewTime.or lease.acquireTime).getD now
  durationSeconds := durationOr lease.leaseDurationSeconds

/-- `_body`. -/
def leaseBody (identity purpose : String) (now : Int) : V1Lease where
  purpose := some purpose
  holderIdentity := some identity
  leaseDurationSeconds := some TxPlatform.leaseDurationSeconds
  acquireTime := some now
  renewTime := some now

/-! ## Processes -/

/-- How the last call of the main thread ended. -/
inductive LockOutcome where
  | notCalled
  | acquired
  | lockHeld (state : LeaseState)
  | released (deleted : Bool)
  | apiError
  | assertionError
  | interrupted

inductive MainStage where
  | idle (outcome : LockOutcome)
  | reading (purpose : String) (again : Bool)
  | absent (purpose : String)
  | creating (purpose : String) (now : Int)
  | found (purpose : String) (version : Nat) (state : LeaseState)
  | expired (purpose : String) (version : Nat)
  | replacing (purpose : String) (version : Nat) (now : Int)
  | releasing
  | deleting

inductive RenewalStage where
  | reading
  | found (version : Nat) (lease : V1Lease)
  | replacing (version : Nat) (lease : V1Lease) (now : Int)
  | done

structure Renewal where
  identity : String
  stage : RenewalStage

/-- A successful `acquire` or `renew`: the renew time it wrote (the time of its read, if it wrote
none), and when its last API call took effect. -/
structure Confirmation where
  dated : Int
  effective : Int

/-- `confirmed` is the last success of a process that has not called `release` since it acquired. -/
structure LockState where
  clock : Int
  lease : Versioned V1Lease
  main : String → MainStage
  renewals : List Renewal
  confirmed : String → Option Confirmation

inductive LockStep where
  | tick (d : Nat)
  | acquire (identity purpose : String)
  | release (identity : String)
  | renew (identity : String)
  | main (identity : String)
  | renewal (i : Nat)
  | interrupt (identity : String)

namespace LockState

def start (now : Int) : LockState := ⟨now, .empty, fun _ => .idle .notCalled, [], fun _ => none⟩

def goTo (s : LockState) (identity : String) (stage : MainStage) : LockState :=
  { s with main := Function.update s.main identity stage }

/-- `acquire` returns. -/
def acquired (s : LockState) (identity : String) (dated : Int) : LockState :=
  { s.goTo identity (.idle .acquired) with
    confirmed := Function.update s.confirmed identity (some ⟨dated, s.clock⟩) }

/-- The next API call or reading of the clock of the main thread. -/
def mainStep (s : LockState) (identity : String) : Option LockState :=
  match s.main identity with
  | .idle _ => none
  | .reading purpose again =>
    match s.lease.object with
    | none => some (s.goTo identity (if again then .idle .assertionError else .absent purpose))
    | some (version, lease) =>
      let state := leaseState lease s.clock
      if state.holder = identity then some (s.acquired identity s.clock)
      else some (s.goTo identity (.found purpose version state))
  | .absent purpose => some (s.goTo identity (.creating purpose s.clock))
  | .creating purpose now =>
    match s.lease.create (leaseBody identity purpose now) with
    | some lease => some ({ s with lease := lease }.acquired identity now)
    | none => some (s.goTo identity (.reading purpose true))
  | .found purpose version state =>
    if isExpired state s.clock then some (s.goTo identity (.expired purpose version))
    else some (s.goTo identity (.idle (.lockHeld state)))
  | .expired purpose version => some (s.goTo identity (.replacing purpose version s.clock))
  | .replacing purpose version now =>
    match s.lease.replace version (leaseBody identity purpose now) with
    | some lease => some ({ s with lease := lease }.acquired identity now)
    | none => some (s.goTo identity (.idle .apiError))
  | .releasing =>
    match s.lease.object with
    | none => some (s.goTo identity (.idle (.released false)))
    | some (_, lease) =>
      if (leaseState lease s.clock).holder = identity then some (s.goTo identity .deleting)
      else some (s.goTo identity (.idle (.released false)))
  | .deleting =>
    match s.lease.delete with
    | some lease => some ({ s with lease := lease }.goTo identity (.idle (.released true)))
    | none => some (s.goTo identity (.idle .apiError))

def setRenewal (s : LockState) (i : Nat) (renewal : Renewal) (stage : RenewalStage) : LockState :=
  { s with renewals := s.renewals.set i { renewal with stage := stage } }

/-- The next API call or reading of the clock of a renewal. -/
def renewalStep (s : LockState) (i : Nat) (renewal : Renewal) : Option LockState :=
  match renewal.stage with
  | .reading =>
    match s.lease.object with
    | none => some (s.setRenewal i renewal .done)
    | some (version, lease) =>
      if (leaseState lease s.clock).holder = renewal.identity then
        some (s.setRenewal i renewal (.found version lease))
      else some (s.setRenewal i renewal .done)
  | .found version lease => some (s.setRenewal i renewal (.replacing version lease s.clock))
  | .replacing version lease now =>
    match s.lease.replace version { lease with renewTime := some now } with
    | some lease => some { s.setRenewal i renewal .done with
        lease := lease
        confirmed := Function.update s.confirmed renewal.identity
          ((s.confirmed renewal.identity).map fun _ => ⟨now, s.clock⟩) }
    | none => some (s.setRenewal i renewal .done)
  | .done => none

/-- The main thread of a process calls something new. -/
def call (s : LockState) (identity : String) (stage : MainStage) : Option LockState :=
  match s.main identity with
  | .idle _ => some (s.goTo identity stage)
  | _ => none

end LockState

def lockMachine : Machine LockState LockStep where
  step s
    | .tick d => some { s with clock := s.clock + d }
    | .acquire identity purpose => s.call identity (.reading purpose false)
    | .release identity =>
      { s with confirmed := Function.update s.confirmed identity none }.call identity .releasing
    | .renew identity => some { s with renewals := s.renewals ++ [⟨identity, .reading⟩] }
    | .main identity => s.mainStep identity
    | .renewal i =>
      match s.renewals[i]? with
      | none => none
      | some renewal => s.renewalStep i renewal
    | .interrupt identity => some (s.goTo identity (.idle .interrupted))

end TxPlatform
