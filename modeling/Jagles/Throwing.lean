import Mathlib.Tactic

set_option autoImplicit false
set_option linter.dupNamespace false

/-!
# Steps that may throw

The value of such a step is the state it has come to, by its end or by the exception.
-/
namespace Jagles.Throwing

variable {State : Type*}

/-- `P` at the end, `E` where an exception leaves the step. -/
def Ends (P E : State → Prop) : Except State State → Prop
  | .ok s => P s
  | .error s => E s

variable {P P' Q E E' : State → Prop} {r : Except State State} {f : State → Except State State}

@[simp] theorem ends_ok {s : State} : Ends P E (.ok s) ↔ P s := Iff.rfl

@[simp] theorem ends_error {s : State} : Ends P E (.error s) ↔ E s := Iff.rfl

@[simp] theorem ends_pure {s : State} : Ends P E (pure s) ↔ P s := Iff.rfl

theorem Ends.bind (h : Ends P E r) (hf : ∀ s, P s → Ends Q E (f s)) : Ends Q E (r >>= f) := by
  cases r with
  | ok s => exact hf s h
  | error s => exact h

theorem Ends.mono (h : Ends P E r) (hP : ∀ s, P s → P' s) (hE : ∀ s, E s → E' s) :
    Ends P' E' r := by
  cases r with
  | ok s => exact hP s h
  | error s => exact hE s h

theorem Ends.and (h : Ends P E r) (h' : Ends P' E' r) :
    Ends (fun s => P s ∧ P' s) (fun s => E s ∧ E' s) r := by
  cases r with
  | ok s => exact ⟨h, h'⟩
  | error s => exact ⟨h, h'⟩

end Jagles.Throwing
