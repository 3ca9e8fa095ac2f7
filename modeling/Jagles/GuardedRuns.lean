import Mathlib.Tactic

set_option autoImplicit false
set_option linter.dupNamespace false

/-!
# Runs of a labelled step function

`step s l` is the state after the step labelled `l`, or `none` when that step
cannot be taken from `s`. A guarded run takes only steps that meet a condition
in the state they start from; the always-true condition gives all runs.
-/
namespace Jagles.GuardedRuns

variable {State Label : Type*}

inductive Run (step : State → Label → Option State) (cond : State → Label → Prop) :
    State → List Label → State → Prop where
  | nil (s : State) : Run step cond s [] s
  | cons {s t u : State} {l : Label} {ls : List Label} (hc : cond s l)
      (hs : step s l = some t) (tail : Run step cond t ls u) : Run step cond s (l :: ls) u

variable {step : State → Label → Option State} {cond cond' : State → Label → Prop}

/-- A predicate kept by every guarded step holds in every state reached. -/
theorem Run.invariant {s t : State} {ls : List Label} (I : State → Prop)
    (keep : ∀ s l t, I s → cond s l → step s l = some t → I t)
    (h : Run step cond s ls t) (hs : I s) : I t := by
  induction h with
  | nil _ => exact hs
  | cons hc he _ ih => exact ih (keep _ _ _ hs hc he)

theorem Run.append {s t u : State} {ls ks : List Label} (h : Run step cond s ls t)
    (h' : Run step cond t ks u) : Run step cond s (ls ++ ks) u := by
  induction h with
  | nil _ => exact h'
  | cons hc he _ ih => exact .cons hc he (ih h')

theorem Run.snoc {s t u : State} {l : Label} {ls : List Label} (h : Run step cond s ls t)
    (hc : cond t l) (hs : step t l = some u) : Run step cond s (ls ++ [l]) u :=
  h.append (.cons hc hs (.nil u))

theorem Run.weaken {s t : State} {ls : List Label} (hw : ∀ s l, cond s l → cond' s l)
    (h : Run step cond s ls t) : Run step cond' s ls t := by
  induction h with
  | nil s => exact .nil s
  | cons hc he _ ih => exact .cons (hw _ _ hc) he ih

/-- A run meets another condition when an invariant gives it at every step. -/
theorem Run.guarded {s t : State} {ls : List Label} (I : State → Prop)
    (keep : ∀ s l t, I s → cond s l → step s l = some t → I t)
    (hw : ∀ s l, I s → cond s l → cond' s l)
    (h : Run step cond s ls t) (hs : I s) : Run step cond' s ls t := by
  induction h with
  | nil s => exact .nil s
  | cons hc he _ ih => exact .cons (hw _ _ hs hc) he (ih (keep _ _ _ hs hc he))

/-- When each step that can be taken meets one condition exactly if it meets another, so
does each run. -/
theorem Run.guarded_iff {s t : State} {ls : List Label} (I : State → Prop)
    (keep : ∀ s l t, I s → cond s l → step s l = some t → I t)
    (exact : ∀ s l t, I s → step s l = some t → (cond s l ↔ cond' s l)) (hs : I s) :
    Run step cond s ls t ↔ Run step cond' s ls t := by
  constructor
  · intro h
    induction h with
    | nil s => exact .nil s
    | cons hc he _ ih =>
      exact .cons ((exact _ _ _ hs he).mp hc) he (ih (keep _ _ _ hs hc he))
  · intro h
    induction h with
    | nil s => exact .nil s
    | cons hc' he _ ih =>
      have hc := (exact _ _ _ hs he).mpr hc'
      exact .cons hc he (ih (keep _ _ _ hs hc he))

/-- What holds at the end has held all along, or it began to hold at some step and has
held in every state since. -/
theorem Run.since {s t : State} {ls : List Label} (P : State → Prop) (h : Run step cond s ls t)
    (ht : P t) :
    P s ∧ Run step (fun x l => cond x l ∧ ∀ y, step x l = some y → P y) s ls t ∨
    ∃ before l after u v, ls = before ++ l :: after ∧ Run step cond s before u ∧ cond u l ∧
      step u l = some v ∧ ¬ P u ∧ P v ∧
      Run step (fun x l => cond x l ∧ ∀ y, step x l = some y → P y) v after t := by
  induction h with
  | nil s => exact .inl ⟨ht, .nil s⟩
  | @cons s u t l ls hc he tail ih =>
    cases ih ht with
    | inl hkept =>
      by_cases hs : P s
      · refine .inl ⟨hs, .cons ⟨hc, ?_⟩ he hkept.2⟩
        intro y hy
        obtain rfl := Option.some.inj (he.symm.trans hy)
        exact hkept.1
      · exact .inr ⟨[], l, ls, s, u, rfl, .nil s, hc, he, hs, hkept.1, hkept.2⟩
    | inr hlater =>
      obtain ⟨before, l', after, x, y, rfl, hbefore, hrest⟩ := hlater
      exact .inr ⟨l :: before, l', after, x, y, rfl, .cons hc he hbefore, hrest⟩

/-- When each step that ends in `P` began in it and lowers a rank, the rank bounds the length of
the runs that end in `P`. -/
theorem Run.rank_le {s t : State} {ls : List Label} (P : State → Prop) (rank : State → ℕ)
    (down : ∀ s l t, cond s l → step s l = some t → P t → P s ∧ rank t < rank s)
    (h : Run step cond s ls t) (ht : P t) : P s ∧ rank t + ls.length ≤ rank s := by
  induction h with
  | nil s => exact ⟨ht, le_rfl⟩
  | @cons s u t l ls hc he _ ih =>
    obtain ⟨hu, hrank⟩ := ih ht
    obtain ⟨hs, hlt⟩ := down s l u hc he hu
    refine ⟨hs, ?_⟩
    rw [List.length_cons]
    omega

/-- When each step pays its cost out of a rank and what it adds to the rank, so does a run. -/
theorem Run.cost_le {s t : State} {ls : List Label} (I : State → Prop) (rank : State → ℕ)
    (cost gain : Label → ℕ) (keep : ∀ s l t, I s → cond s l → step s l = some t → I t)
    (pay : ∀ s l t, I s → cond s l → step s l = some t → rank t + cost l ≤ rank s + gain l)
    (h : Run step cond s ls t) (hs : I s) :
    rank t + (ls.map cost).sum ≤ rank s + (ls.map gain).sum := by
  induction h with
  | nil s => exact le_rfl
  | cons hc he _ ih =>
    have htail := ih (keep _ _ _ hs hc he)
    have hhead := pay _ _ _ hs hc he
    rw [List.map_cons, List.sum_cons, List.map_cons, List.sum_cons]
    omega

/-- A run with `P` in every state it comes to. -/
def Throughout (step : State → Label → Option State) (P : State → Prop) :
    State → List Label → State → Prop := Run step fun s l => ∀ t, step s l = some t → P t

/-- When each step keeps `P` exactly if it meets a condition, `P` holds throughout a
run exactly if every step of the run meets it. -/
theorem Run.throughout_iff {s t : State} {ls : List Label} {I P : State → Prop}
    (keep : ∀ s l t, I s → cond s l → step s l = some t → I t)
    (exact : ∀ s l t, I s → P s → cond s l → step s l = some t → (P t ↔ cond' s l))
    (h : Run step cond s ls t) (hs : I s) (hp : P s) :
    Throughout step P s ls t ↔ Run step cond' s ls t := by
  constructor
  · intro all
    induction all with
    | nil s => exact .nil s
    | cons hP he _ ih =>
      cases h with
      | cons hc he' tail =>
        obtain rfl := Option.some.inj (he.symm.trans he')
        have hnext := hP _ he
        exact .cons ((exact _ _ _ hs hp hc he).mp hnext) he
          (ih tail (keep _ _ _ hs hc he) hnext)
  · intro all
    induction all with
    | nil s => exact .nil s
    | cons hcond he _ ih =>
      cases h with
      | cons hc he' tail =>
        obtain rfl := Option.some.inj (he.symm.trans he')
        have hnext := (exact _ _ _ hs hp hc he).mpr hcond
        refine .cons (fun y hy => ?_) he (ih tail (keep _ _ _ hs hc he) hnext)
        obtain rfl := Option.some.inj (he.symm.trans hy)
        exact hnext

/-- The state a list of labels leads to, when every step can be taken and meets
the condition. -/
def final (step : State → Label → Option State) (cond : State → Label → Prop)
    [∀ s l, Decidable (cond s l)] : State → List Label → Option State
  | s, [] => some s
  | s, l :: ls => if cond s l then (step s l).bind fun t => final step cond t ls else none

theorem run_of_final [∀ s l, Decidable (cond s l)] {s t : State} {ls : List Label}
    (h : final step cond s ls = some t) : Run step cond s ls t := by
  induction ls generalizing s with
  | nil =>
    obtain rfl : s = t := by simpa [final] using h
    exact .nil s
  | cons l ls ih =>
    simp only [final] at h
    split at h
    · rename_i hc
      obtain ⟨u, hu, ht⟩ := Option.bind_eq_some_iff.mp h
      exact .cons hc hu (ih ht)
    · cases h

theorem exists_run [∀ s l, Decidable (cond s l)] {s : State} {ls : List Label} {P : State → Prop}
    [DecidablePred P] (h : (final step cond s ls).any (fun t => decide (P t)) = true) :
    ∃ t, Run step cond s ls t ∧ P t := by
  obtain ⟨t, ht, hp⟩ := (Option.any_eq_true _ _).mp h
  exact ⟨t, run_of_final ht, of_decide_eq_true hp⟩

end Jagles.GuardedRuns
