import Mathlib.Tactic.Common

/-!
# Programs that share a state

A program asks the state for one thing after another, and what it asks next depends on the answers. Between
two of its requests others may change the state, so a program that runs beside others takes single steps.
`Alone` is what it does when nothing runs beside it; the rules below take it apart step by step.
-/

namespace TxPlatform

/-- Requests `R` with answers `A`, and a result of type `α` if no exception ends the program. -/
inductive Program (R : Type) (A : R → Type) (α : Type) where
  | done (result : α)
  | raised
  | ask (request : R) (next : A request → Program R A α)

namespace Program

variable {R : Type} {A : R → Type} {α σ : Type} (perform : σ → (request : R) → σ × A request)

/-- The next request. -/
def step (s : σ) : Program R A α → σ × Program R A α
  | .done result => (s, .done result)
  | .raised => (s, .raised)
  | .ask request next => ((perform s request).1, next (perform s request).2)

/-- From `s`, with nothing beside it, every request leaves `I`, nothing raises, and the result meets `Q`. -/
def Alone (I : σ → Prop) (Q : α → σ → Prop) : Program R A α → σ → Prop
  | .done result, s => Q result s
  | .raised, _ => False
  | .ask request next, s => I (perform s request).1 ∧ (next (perform s request).2).Alone I Q (perform s request).1

variable {perform} {I : σ → Prop} {Q : α → σ → Prop} {program : Program R A α} {s : σ}

@[simp] theorem alone_done {result : α} : (done result : Program R A α).Alone perform I Q s ↔ Q result s := Iff.rfl

@[simp] theorem alone_ask {request : R} {next : A request → Program R A α} :
    (ask request next).Alone perform I Q s ↔
      I (perform s request).1 ∧ (next (perform s request).2).Alone perform I Q (perform s request).1 := Iff.rfl

/-- One step of a program that is alone. -/
theorem Alone.step (h : program.Alone perform I Q s) (hs : I s) :
    I (program.step perform s).1 ∧ (program.step perform s).2.Alone perform I Q (program.step perform s).1 := by
  cases program with
  | done result => exact ⟨hs, h⟩
  | raised => exact h.elim
  | ask request next => exact h

end Program

end TxPlatform
