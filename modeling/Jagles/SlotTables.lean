import Mathlib.Tactic

set_option autoImplicit false
set_option linter.dupNamespace false

/-!
# Tables of slots

A table is a part of a larger state. It has `n` slots, and each is empty or holds an object.
Looking outside the table is a fault, and so is a call on an empty slot. An operation at an
index is guarded when it makes no fault, and leaves the state alone unless the slot at the
index is filled.
-/
namespace Jagles.SlotTables

inductive Fault where
  | outside (index : ℤ)
  | empty (index : ℤ)
  deriving DecidableEq

/-- The place of the table in the state. -/
structure Slots (State Obj : Type) (n : ℕ) where
  object : State → Fin n → Option Obj
  put : State → Fin n → Obj → State
  object_put : ∀ s i c, object (put s i c) i = some c

abbrev Op (State α : Type) := StateT State (Except Fault) α

def Inside (n : ℕ) (index : ℤ) : Prop := 0 ≤ index ∧ index < n

instance (n : ℕ) (index : ℤ) : Decidable (Inside n index) :=
  inferInstanceAs (Decidable (_ ∧ _))

/-- The slot at an index of the table. -/
def place {n : ℕ} {index : ℤ} (h : Inside n index) : Fin n :=
  ⟨index.toNat, by unfold Inside at h; omega⟩

variable {State Obj α β : Type} {n : ℕ} (T : Slots State Obj n)

/-- The object at an index. -/
def look (index : ℤ) : Op State (Option Obj) := fun s =>
  if h : Inside n index then .ok (T.object s (place h), s) else .error (.outside index)

/-- A method call on the object at an index. -/
def call (index : ℤ) (run : Obj → α × Obj) : Op State α := fun s =>
  if h : Inside n index then
    match T.object s (place h) with
    | some c => .ok ((run c).1, T.put s (place h) (run c).2)
    | none => .error (.empty index)
  else .error (.outside index)

/-- The index is checked first. -/
def ifInside (n : ℕ) (index : ℤ) (invalid : α) (x : Op State α) : Op State α :=
  if index < 0 ∨ index ≥ n then pure invalid else x

/-- The slot is checked first. -/
def ifFilled (index : ℤ) (empty : α) (x : Op State α) : Op State α := do
  if (← look T index).isSome then x else pure empty

/-- The filled slots in turn. -/
def each (f : β → ℤ → Op State β) (b : β) : Op State β :=
  (List.finRange n).foldlM (fun (b : β) (i : Fin n) => ifFilled T (i : ℕ) b (f b (i : ℕ))) b

def Filled (s : State) (index : ℤ) : Prop :=
  ∃ h : Inside n index, (T.object s (place h)).isSome

instance (s : State) (index : ℤ) : Decidable (Filled T s index) :=
  inferInstanceAs (Decidable (∃ _, _))

/-- No fault, and no change unless the slot is filled. -/
def Guarded (x : Op State α) (index : ℤ) (s : State) : Prop :=
  ∃ a t, x s = .ok (a, t) ∧ (¬ Filled T s index → t = s)

/-- No fault when the slot is filled, which it stays. -/
def Serves (x : Op State α) (index : ℤ) : Prop :=
  ∀ s, Filled T s index → ∃ a t, x s = .ok (a, t) ∧ Filled T t index

section Rules
variable {T} {s t : State} {index : ℤ}

theorem bind_ok {x : Op State α} {a : α} (f : α → Op State β) (h : x s = .ok (a, t)) :
    (x >>= f) s = f a t := by
  change StateT.bind x f s = f a t
  simp only [StateT.bind, h]
  rfl

theorem bind_error {x : Op State α} {e : Fault} (f : α → Op State β) (h : x s = .error e) :
    (x >>= f) s = .error e := by
  change StateT.bind x f s = .error e
  simp only [StateT.bind, h]
  rfl

theorem look_inside (h : Inside n index) (s : State) :
    look T index s = .ok (T.object s (place h), s) := dif_pos h

theorem look_outside (h : ¬ Inside n index) (s : State) :
    look T index s = .error (.outside index) := dif_neg h

theorem ifInside_inside (h : Inside n index) (invalid : α) (x : Op State α) :
    ifInside n index invalid x = x := if_neg (by unfold Inside at h; omega)

theorem ifInside_outside (h : ¬ Inside n index) (invalid : α) (x : Op State α) :
    ifInside n index invalid x = pure invalid := if_pos (by unfold Inside at h; omega)

theorem ifFilled_filled (h : Filled T s index) (empty : α) (x : Op State α) :
    ifFilled T index empty x s = x s := by
  obtain ⟨hin, hsome⟩ := h
  rw [ifFilled, bind_ok _ (look_inside hin s), if_pos hsome]

theorem ifFilled_empty (hin : Inside n index) (h : ¬ Filled T s index) (empty : α)
    (x : Op State α) : ifFilled T index empty x s = .ok (empty, s) := by
  rw [ifFilled, bind_ok _ (look_inside hin s), if_neg fun hsome => h ⟨hin, hsome⟩]
  rfl

theorem ifFilled_outside (h : ¬ Inside n index) (empty : α) (x : Op State α) :
    ifFilled T index empty x s = .error (.outside index) :=
  bind_error _ (look_outside h s)

/-- A call goes through just when the slot is filled. -/
theorem call_cases (index : ℤ) (run : Obj → α × Obj) (s : State) :
    (∃ (hin : Inside n index) (c : Obj), T.object s (place hin) = some c ∧
      call T index run s = .ok ((run c).1, T.put s (place hin) (run c).2)) ∨
    ¬ Filled T s index ∧ ∃ e, call T index run s = .error e := by
  unfold call
  by_cases hin : Inside n index
  · rw [dif_pos hin]
    cases hc : T.object s (place hin) with
    | some c => exact .inl ⟨hin, c, hc, rfl⟩
    | none =>
      refine .inr ⟨?_, _, rfl⟩
      rintro ⟨_, hsome⟩
      rw [hc] at hsome
      cases hsome
  · rw [dif_neg hin]
    exact .inr ⟨fun h => hin h.1, _, rfl⟩

theorem call_serves (index : ℤ) (run : Obj → α × Obj) : Serves T (call T index run) index := by
  intro s h
  rcases call_cases (T := T) index run s with ⟨hin, c, -, he⟩ | ⟨hempty, -⟩
  · exact ⟨_, _, he, hin, by rw [T.object_put]; rfl⟩
  · exact absurd h hempty

theorem Serves.bind {x : Op State α} {f : α → Op State β} (hx : Serves T x index)
    (hf : ∀ a, Serves T (f a) index) : Serves T (x >>= f) index := by
  intro s h
  obtain ⟨a, t, he, ht⟩ := hx s h
  obtain ⟨b, u, hb, hu⟩ := hf a t ht
  exact ⟨b, u, (bind_ok f he).trans hb, hu⟩

theorem Serves.pure (a : α) (index : ℤ) : Serves T (pure a : Op State α) index :=
  fun s h => ⟨a, s, rfl, h⟩

/-- What serves a filled slot can be done for all of them. -/
theorem each_ok {f : β → ℤ → Op State β} (hf : ∀ b (i : Fin n), Serves T (f b (i : ℕ)) (i : ℕ))
    (b : β) (s : State) : ∃ a t, each T f b s = .ok (a, t) := by
  unfold each
  induction List.finRange n generalizing b s with
  | nil => exact ⟨b, s, rfl⟩
  | cons i is ih =>
    have hone : ∃ a t, ifFilled T (i : ℕ) b (f b (i : ℕ)) s = .ok (a, t) := by
      by_cases hfilled : Filled T s (i : ℕ)
      · obtain ⟨a, t, he, -⟩ := hf b i s hfilled
        exact ⟨a, t, (ifFilled_filled hfilled _ _).trans he⟩
      · have hin : Inside n (i : ℕ) := ⟨by omega, by have := i.isLt; omega⟩
        exact ⟨b, s, ifFilled_empty hin hfilled _ _⟩
    obtain ⟨a, t, he⟩ := hone
    obtain ⟨a', t', hrest⟩ := ih a t
    exact ⟨a', t', by rw [List.foldlM_cons, bind_ok _ he]; exact hrest⟩

/-! ## Which checks guard an operation -/

theorem guarded_pure (a : α) (index : ℤ) (s : State) :
    Guarded T (pure a : Op State α) index s := ⟨a, s, rfl, fun _ => rfl⟩

theorem not_guarded_of_error {x : Op State α} {e : Fault} (h : x s = .error e) :
    ¬ Guarded T x index s := by
  rintro ⟨a, t, he, -⟩
  rw [h] at he
  cases he

theorem Serves.guarded {x : Op State α} (hx : Serves T x index) (h : Filled T s index) :
    Guarded T x index s := by
  obtain ⟨a, t, he, -⟩ := hx s h
  exact ⟨a, t, he, fun hempty => absurd h hempty⟩

theorem guarded_ifInside_iff {invalid : α} {x : Op State α} :
    Guarded T (ifInside n index invalid x) index s ↔ (Inside n index → Guarded T x index s) := by
  by_cases hin : Inside n index
  · rw [ifInside_inside hin]
    exact ⟨fun h _ => h, fun h => h hin⟩
  · rw [ifInside_outside hin]
    exact iff_of_true (guarded_pure _ _ _) fun h => absurd h hin

theorem guarded_ifFilled_iff {empty : α} {x : Op State α} (hx : Serves T x index) :
    Guarded T (ifFilled T index empty x) index s ↔ Inside n index := by
  by_cases hin : Inside n index
  · refine iff_of_true ?_ hin
    by_cases hfilled : Filled T s index
    · obtain ⟨a, t, he, hkeep⟩ := hx.guarded hfilled
      exact ⟨a, t, (ifFilled_filled hfilled _ _).trans he, hkeep⟩
    · exact ⟨empty, s, ifFilled_empty hin hfilled _ _, fun _ => rfl⟩
  · exact iff_of_false (not_guarded_of_error (ifFilled_outside hin _ _)) hin

/-- A call without a check of the slot. -/
theorem guarded_call_iff {run : Obj → α × Obj} :
    Guarded T (call T index run) index s ↔ Filled T s index := by
  by_cases hfilled : Filled T s index
  · exact iff_of_true ((call_serves index run).guarded hfilled) hfilled
  · refine iff_of_false ?_ hfilled
    rcases call_cases (T := T) index run s with ⟨hin, c, hc, -⟩ | ⟨-, e, he⟩
    · exact absurd ⟨hin, by rw [hc]; rfl⟩ hfilled
    · exact not_guarded_of_error he

/-- Both checks are enough. -/
theorem guarded_both {invalid empty : α} {x : Op State α} (hx : Serves T x index) :
    Guarded T (ifInside n index invalid (ifFilled T index empty x)) index s :=
  guarded_ifInside_iff.mpr fun hin => (guarded_ifFilled_iff hx).mpr hin

end Rules

end Jagles.SlotTables
