import Mathlib.Tactic

set_option autoImplicit false
set_option linter.dupNamespace false

/-!
# A mutex and the sections it guards

A `View` is the owner of one mutex with the threads that are inside the code the
mutex guards. Locking waits until the mutex is free. Unlocking does not look at
the owner, so a stray unlock frees a mutex that another thread holds.
-/
namespace Jagles.CriticalSections

variable {Thread : Type*} [DecidableEq Thread]

structure View (Thread : Type*) where
  owner : Option Thread
  inside : Thread → Bool

/-- What a thread does to the mutex on its way through a guarded section. -/
inductive Turn : View Thread → View Thread → Prop where
  | keep (v : View Thread) : Turn v v
  | lock {v : View Thread} (th : Thread) (free : v.owner = none) :
      Turn v ⟨some th, Function.update v.inside th true⟩
  | unlock {v : View Thread} (th : Thread) (h : v.inside th = true) :
      Turn v ⟨none, Function.update v.inside th false⟩

/-- A thread that is inside or outside as before. -/
theorem Turn.stay {v : View Thread} {th : Thread} {b : Bool} (h : b = v.inside th) :
    Turn v ⟨v.owner, Function.update v.inside th b⟩ := by
  rw [h, Function.update_eq_self]
  exact .keep _

/-- The owner is the one thread inside. -/
def Exclusive (v : View Thread) : Prop := ∀ th, v.owner = some th ↔ v.inside th = true

theorem Exclusive.turn {v v' : View Thread} (e : Exclusive v) (h : Turn v v') :
    Exclusive v' := by
  cases h with
  | keep => exact e
  | lock th free =>
    intro u
    by_cases hu : u = th
    · subst hu
      simp
    · have := (e u).symm
      simp only [free, reduceCtorEq, iff_false] at this
      simp [Function.update_of_ne hu, Ne.symm hu, this]
  | unlock th h =>
    intro u
    by_cases hu : u = th
    · subst hu
      simp
    · have := (e u).symm
      rw [(e th).mpr h] at this
      simp only [Option.some.injEq, Ne.symm hu, iff_false] at this
      simp [Function.update_of_ne hu, this]

section Machine
variable {Pc : Type*} {inside : Pc → Bool} {owner : Option Thread} {pc : Thread → Pc} {th : Thread}
  {q : Pc}

theorem inside_update :
    (fun u => inside (Function.update pc th q u)) =
      Function.update (fun u => inside (pc u)) th (inside q) := by
  funext u
  by_cases hu : u = th
  · subst hu
    simp
  · simp [Function.update_of_ne hu]

theorem Turn.goto (h : inside q = inside (pc th)) :
    Turn ⟨owner, fun u => inside (pc u)⟩ ⟨owner, fun u => inside (Function.update pc th q u)⟩ := by
  rw [inside_update]
  exact Turn.stay (v := ⟨owner, fun u => inside (pc u)⟩) h

theorem Turn.acquire (free : owner = none) (hq : inside q = true) :
    Turn ⟨owner, fun u => inside (pc u)⟩
      ⟨some th, fun u => inside (Function.update pc th q u)⟩ := by
  rw [inside_update, hq]
  exact .lock th free

theorem Turn.give (hin : inside (pc th) = true) (hq : inside q = false) :
    Turn ⟨owner, fun u => inside (pc u)⟩ ⟨none, fun u => inside (Function.update pc th q u)⟩ := by
  rw [inside_update, hq]
  exact .unlock th hin

end Machine

omit [DecidableEq Thread] in
theorem Exclusive.eq {v : View Thread} (e : Exclusive v) {th th' : Thread}
    (h : v.inside th = true) (h' : v.inside th' = true) : th = th' := by
  have ho := (e th).mpr h
  rw [(e th').mpr h'] at ho
  exact (Option.some.inj ho).symm

def OwnerInside (v : View Thread) : Prop := ∀ th, v.owner = some th → v.inside th = true

theorem OwnerInside.turn {v v' : View Thread} (e : OwnerInside v) (h : Turn v v') :
    OwnerInside v' := by
  cases h with
  | keep => exact e
  | lock th free =>
    intro u hu
    cases hu
    simp
  | unlock th h =>
    intro u hu
    cases hu

omit [DecidableEq Thread] in
theorem OwnerInside.stray (inside : Thread → Bool) : OwnerInside ⟨none, inside⟩ := by
  intro u hu
  cases hu

end Jagles.CriticalSections
