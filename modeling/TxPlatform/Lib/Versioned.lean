/-!
# An object behind conflict checks

An API server keeps one object under a version that grows with every write. `create` needs the
object to be absent and `replace` needs the version its caller has read; `delete` checks nothing. A
`Snapshot` is what a caller has read: whatever happens in between, a `replace` that succeeds
replaces just that value.
-/

namespace TxPlatform

/-- `last` is the latest version given out. -/
structure Versioned (α : Type) where
  object : Option (Nat × α)
  last : Nat

namespace Versioned

variable {α : Type}

def empty : Versioned α := ⟨none, 0⟩

/-- `none` is a conflict: there is an object. -/
def create (store : Versioned α) (value : α) : Option (Versioned α) :=
  match store.object with
  | none => some ⟨some (store.last + 1, value), store.last + 1⟩
  | some _ => none

/-- `none` is a conflict: the object is gone or has another version. -/
def replace (store : Versioned α) (version : Nat) (value : α) : Option (Versioned α) :=
  match store.object with
  | none => none
  | some (current, _) =>
    if current = version then some ⟨some (store.last + 1, value), store.last + 1⟩ else none

/-- `none`: there is no object. -/
def delete (store : Versioned α) : Option (Versioned α) :=
  match store.object with
  | none => none
  | some _ => some { store with object := none }

/-- Only versions given out are in use. -/
def Issued (store : Versioned α) : Prop :=
  ∀ version value, store.object = some (version, value) → version ≤ store.last

/-- The value was once stored under the version. -/
structure Snapshot (store : Versioned α) (version : Nat) (value : α) : Prop where
  issued : version ≤ store.last
  current : ∀ value', store.object = some (version, value') → value' = value

/-- What any writes can do: what is stored afterwards was stored before, or has a new version. -/
structure Advance (before after : Versioned α) : Prop where
  last : before.last ≤ after.last
  object : ∀ version value, after.object = some (version, value) →
    before.object = some (version, value) ∨ before.last < version

variable {store store' : Versioned α} {version : Nat} {value : α}

theorem issued_empty : Issued (empty : Versioned α) := by
  intro version value h
  cases h

/-- The spec of `create`. -/
theorem create_eq_some (h : store.create value = some store') :
    store.object = none ∧ store' = ⟨some (store.last + 1, value), store.last + 1⟩ := by
  unfold create at h
  split at h
  · rename_i hnone
    cases h
    exact ⟨hnone, rfl⟩
  · cases h

/-- The spec of `replace`. -/
theorem replace_eq_some (h : store.replace version value = some store') :
    (∃ old, store.object = some (version, old)) ∧
      store' = ⟨some (store.last + 1, value), store.last + 1⟩ := by
  unfold replace at h
  split at h
  · cases h
  · rename_i current old hobject
    split at h
    · rename_i hsame
      cases h
      exact ⟨⟨old, hsame ▸ hobject⟩, rfl⟩
    · cases h

/-- The spec of `delete`. -/
theorem delete_eq_some (h : store.delete = some store') :
    store.object.isSome ∧ store' = { store with object := none } := by
  unfold delete at h
  split at h
  · cases h
  · rename_i hsome
    cases h
    exact ⟨by rw [hsome]; rfl, rfl⟩

/-! ## Writes keep snapshots -/

theorem Advance.refl (store : Versioned α) : Advance store store := ⟨Nat.le_refl _, fun _ _ h => .inl h⟩

theorem Advance.written (store : Versioned α) (value : α) :
    Advance store ⟨some (store.last + 1, value), store.last + 1⟩ := by
  refine ⟨Nat.le_succ _, ?_⟩
  intro version value' h
  cases h
  exact .inr (Nat.lt_succ_self _)

theorem Advance.deleted (store : Versioned α) : Advance store { store with object := none } := by
  refine ⟨Nat.le_refl _, ?_⟩
  intro version value h
  cases h

theorem issued_written (store : Versioned α) (value : α) :
    Issued ⟨some (store.last + 1, value), store.last + 1⟩ := by
  intro version value' h
  cases h
  exact Nat.le_refl _

theorem snapshot_of_read (hissued : store.Issued) (h : store.object = some (version, value)) :
    Snapshot store version value := by
  refine ⟨hissued version value h, ?_⟩
  intro value' h'
  rw [h] at h'
  cases h'
  rfl

theorem Snapshot.advance (h : Snapshot store version value) (ha : Advance store store') :
    Snapshot store' version value := by
  refine ⟨Nat.le_trans h.issued ha.last, ?_⟩
  intro value' h'
  rcases ha.object version value' h' with h' | hnew
  · exact h.current value' h'
  · exact absurd h.issued (Nat.not_le.2 hnew)

end Versioned

end TxPlatform
