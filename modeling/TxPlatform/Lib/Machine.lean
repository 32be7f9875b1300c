/-!
# Runs of partial step functions

A machine is a partial step function on states and labels: `none` means that the label is not
enabled. A run is a list of labels. Two ways of speaking about a run are used everywhere:

* `m.run s as = some s'`: the labels `as` lead from `s` to `s'`;
* `m.Along P s as`: every step `(before, label, after)` the run takes satisfies `P`.

The rules below package the induction over the run once. `run_inv` and `along_of_inv` need an
invariant kept by every step; `along_iff` compares two properties of the steps under an
invariant that only the good steps keep.
-/

namespace TxPlatform

structure Machine (σ α : Type) where
  step : σ → α → Option σ

namespace Machine

variable {σ α : Type} (m : Machine σ α)

def run : σ → List α → Option σ
  | s, [] => some s
  | s, a :: as =>
    match m.step s a with
    | none => none
    | some s' => run s' as

/-- Every step of the run satisfies `P`; a label that is not enabled ends the run. -/
def Along (P : σ → α → σ → Prop) : σ → List α → Prop
  | _, [] => True
  | s, a :: as =>
    match m.step s a with
    | none => True
    | some s' => P s a s' ∧ Along P s' as

/-- A run on given labels can be checked step by step. -/
instance decidableAlong (P : σ → α → σ → Prop) [∀ s a s', Decidable (P s a s')] :
    ∀ s as, Decidable (m.Along P s as)
  | _, [] => .isTrue trivial
  | s, a :: as =>
    match h : m.step s a with
    | none => .isTrue (by simp only [Along, h])
    | some s' =>
      have := decidableAlong P s' as
      decidable_of_iff (P s a s' ∧ m.Along P s' as) (by simp only [Along, h])

variable {m}

theorem run_cons {s s' : σ} {a : α} {as : List α} (h : m.run s (a :: as) = some s') :
    ∃ t, m.step s a = some t ∧ m.run t as = some s' := by
  simp only [run] at h
  split at h
  · cases h
  · rename_i t ht; exact ⟨t, ht, h⟩

theorem run_of_step {s s' : σ} {a : α} {as : List α} (h : m.step s a = some s') :
    m.run s (a :: as) = m.run s' as := by
  simp only [run, h]

theorem run_append {s : σ} {as bs : List α} :
    m.run s (as ++ bs) = (m.run s as).bind (m.run · bs) := by
  induction as generalizing s with
  | nil => rfl
  | cons a as ih =>
    simp only [List.cons_append, run]
    cases m.step s a with
    | none => rfl
    | some t => exact ih

/-! ## Invariants -/

/-- An invariant of every step holds in every state a run reaches. -/
theorem run_inv {I : σ → Prop} (hstep : ∀ s a s', I s → m.step s a = some s' → I s')
    {s s' : σ} {as : List α} (h0 : I s) (h : m.run s as = some s') : I s' := by
  induction as generalizing s with
  | nil => cases h; exact h0
  | cons a as ih =>
    obtain ⟨t, ht, h⟩ := run_cons h
    exact ih (hstep s a t h0 ht) h

/-- An invariant that needs the steps to satisfy `C` holds after every run along `C`. -/
theorem run_inv_of_along {I : σ → Prop} {C : σ → α → σ → Prop}
    (hstep : ∀ s a s', I s → m.step s a = some s' → C s a s' → I s')
    {s s' : σ} {as : List α} (h0 : I s) (hC : m.Along C s as) (h : m.run s as = some s') : I s' := by
  induction as generalizing s with
  | nil => cases h; exact h0
  | cons a as ih =>
    obtain ⟨t, ht, h⟩ := run_cons h
    simp only [Along, ht] at hC
    exact ih (hstep s a t h0 ht hC.1) hC.2 h

/-- What one step guarantees under the invariant holds along the run. -/
theorem along_of_inv {I : σ → Prop} {C P : σ → α → σ → Prop}
    (hstep : ∀ s a s', I s → m.step s a = some s' → C s a s' → P s a s' ∧ I s')
    {s : σ} {as : List α} (h0 : I s) (hC : m.Along C s as) : m.Along P s as := by
  induction as generalizing s with
  | nil => trivial
  | cons a as ih =>
    simp only [Along] at hC ⊢
    split
    · trivial
    · rename_i t ht
      simp only [ht] at hC
      obtain ⟨hp, hi⟩ := hstep s a t h0 ht hC.1
      exact ⟨hp, ih hi hC.2⟩

theorem along_mono {P Q : σ → α → σ → Prop} (h : ∀ s a s', P s a s' → Q s a s')
    {s : σ} {as : List α} (hP : m.Along P s as) : m.Along Q s as :=
  along_of_inv (I := fun _ => True) (fun s a s' _ _ hp => ⟨h s a s' hp, trivial⟩) trivial hP

theorem along_trivial {s : σ} {as : List α} : m.Along (fun _ _ _ => True) s as := by
  induction as generalizing s with
  | nil => trivial
  | cons a as ih =>
    simp only [Along]
    split
    · trivial
    · exact ⟨trivial, ih⟩

theorem along_and {P Q : σ → α → σ → Prop} {s : σ} {as : List α} (hP : m.Along P s as) (hQ : m.Along Q s as) :
    m.Along (fun s a s' => P s a s' ∧ Q s a s') s as := by
  induction as generalizing s with
  | nil => trivial
  | cons a as ih =>
    simp only [Along] at hP hQ ⊢
    split
    · trivial
    · rename_i t ht
      simp only [ht] at hP hQ
      exact ⟨⟨hP.1, hQ.1⟩, ih hP.2 hQ.2⟩

/-- What is true of the labels holds along the run. -/
theorem along_of_labels {P : α → Prop} {s : σ} {as : List α} (h : ∀ a ∈ as, P a) : m.Along (fun _ a _ => P a) s as := by
  induction as generalizing s with
  | nil => trivial
  | cons a as ih =>
    simp only [Along]
    split
    · trivial
    · exact ⟨h a List.mem_cons_self, ih fun b hb => h b (List.mem_cons_of_mem a hb)⟩

/-- A property along a run holds along what follows a part of it. -/
theorem along_of_append {P : σ → α → σ → Prop} {s t : σ} {as bs : List α} (h : m.Along P s (as ++ bs))
    (hrun : m.run s as = some t) : m.Along P t bs := by
  induction as generalizing s with
  | nil => cases hrun; exact h
  | cons a as ih =>
    obtain ⟨u, hu, hrun⟩ := run_cons hrun
    simp only [List.cons_append, Along, hu] at h
    exact ih h.2 hrun

/-- Two step properties that agree under an invariant, which the steps satisfying either of
them keep, hold along the same runs. -/
theorem along_iff {I : σ → Prop} {C P : σ → α → σ → Prop}
    (hiff : ∀ s a s', I s → m.step s a = some s' → (C s a s' ↔ P s a s'))
    (hinv : ∀ s a s', I s → m.step s a = some s' → C s a s' → I s')
    {s : σ} {as : List α} (h0 : I s) : m.Along C s as ↔ m.Along P s as := by
  constructor
  · exact along_of_inv (fun s a s' hi hs hc => ⟨(hiff s a s' hi hs).1 hc, hinv s a s' hi hs hc⟩) h0
  · refine along_of_inv (fun s a s' hi hs hp => ?_) h0
    have hc := (hiff s a s' hi hs).2 hp
    exact ⟨hc, hinv s a s' hi hs hc⟩

end Machine

end TxPlatform
