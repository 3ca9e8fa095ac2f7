import Jagles.MediaBufferGapFree

set_option autoImplicit false
set_option linter.dupNamespace false

/-!
# Runs whose frames fit

Whatever the readers do and however many laps the writer makes, a run whose
frames fit the buffer keeps the layout; only writes and resets change the frames.
-/
namespace Jagles.MediaBuffer
open ByteMemory GuardedRuns LinkChains

theorem World.step_cases {fuel : ℕ} {w w' : World} {op : Op} (h : w.step fuel op = some w') :
    (∃ f t, op = .write f t ∧ w' = w.write f t) ∨ (op = .reset ∧ w' = w.reset) ∨ SameLaps w w' := by
  cases op with
  | write f t => exact .inl ⟨f, t, rfl, (Option.some.inj h).symm⟩
  | reset => exact .inr (.inl ⟨rfl, (Option.some.inj h).symm⟩)
  | read i size =>
    obtain ⟨⟨p', r⟩, hr, rfl⟩ := Option.map_eq_some_iff.mp h
    exact .inr (.inr (.of_read hr))
  | unlock i =>
    obtain rfl := Option.some.inj h
    exact .inr (.inr ⟨rfl, rfl, rfl, rfl, rfl, rfl, rfl, .refl _ _ _⟩)
  | release i =>
    obtain rfl := Option.some.inj h
    exact .inr (.inr ⟨rfl, rfl, rfl, rfl, rfl, rfl, rfl, .refl _ _ _⟩)
  | getIndex =>
    obtain rfl := Option.some.inj h
    refine .inr (.inr ?_)
    unfold World.getIndex GetReadIndex
    cases (List.finRange 16).find? fun i => !w.ring.isuse i with
    | none => exact ⟨rfl, rfl, rfl, rfl, rfl, rfl, rfl, .refl _ _ _⟩
    | some i => exact ⟨rfl, rfl, rfl, rfl, rfl, rfl, rfl, .refl _ _ _⟩
  | outside m =>
    obtain rfl := Option.some.inj h
    refine .inr (.inr ⟨rfl, rfl, rfl, rfl, rfl, rfl, rfl, ?_⟩)
    intro a _ ha
    exact if_pos (by omega)

/-- Only a read moves a read position, and a reset takes all of them to zero. -/
theorem World.step_readpos {fuel : ℕ} {w w' : World} {op : Op} (h : w.step fuel op = some w')
    (i : Fin 16) : w'.ring.readpos i = w.ring.readpos i ∨ (op = .reset ∧ w'.ring.readpos i = 0) ∨
      ∃ size, op = .read i size ∧ w.ring.readpos i ≠ w.ring.writepos := by
  cases op with
  | write f t =>
    obtain rfl := Option.some.inj h
    exact .inl (congrFun (WrtieBuffer_readpos _ _ _) i)
  | reset =>
    obtain rfl := Option.some.inj h
    exact .inr (.inl ⟨rfl, rfl⟩)
  | read j size =>
    obtain ⟨⟨p', r⟩, hr, rfl⟩ := Option.map_eq_some_iff.mp h
    by_cases hij : i = j
    · subst hij
      by_cases hne : w.ring.readpos i = w.ring.writepos
      · rw [ReadBuffer_empty fuel size hne] at hr
        obtain ⟨rfl, -⟩ := Prod.mk.inj (Option.some.inj hr)
        exact .inl rfl
      · exact .inr (.inr ⟨size, rfl, hne⟩)
    · exact .inl ((ReadBuffer_onlyReader hr).readpos i hij)
  | getIndex =>
    obtain rfl := Option.some.inj h
    unfold World.getIndex GetReadIndex
    cases (List.finRange 16).find? fun i => !w.ring.isuse i with
    | none => exact .inl rfl
    | some k => exact .inl rfl
  | unlock j =>
    obtain rfl := Option.some.inj h
    exact .inl rfl
  | release j =>
    obtain rfl := Option.some.inj h
    exact .inl rfl
  | outside m =>
    obtain rfl := Option.some.inj h
    exact .inl rfl

theorem Layout.step {fuel : ℕ} {w w' : World} {op : Op} (L : Layout w) (hfit : Fits w op)
    (h : w.step fuel op = some w') : Layout w' := by
  rcases World.step_cases h with ⟨f, t, rfl, rfl⟩ | ⟨-, rfl⟩ | hs
  · exact L.write t hfit
  · exact L.reset
  · exact hs.layout L

/-- The layout, and every reader at offset zero while nothing has been written. -/
structure Sound (w : World) : Prop where
  layout : Layout w
  idle : w.hist.log.length = 0 → ∀ i, w.ring.readpos i = 0

theorem Sound.start {size : ℕ} (h : size < 2 ^ 31) (m : Memory) : Sound (World.start size m) :=
  ⟨(Inv.start h m).layout, fun _ _ => rfl⟩

theorem Sound.waiting {w : World} (s : Sound w) {i : Fin 16}
    (hne : w.ring.readpos i ≠ w.ring.writepos) : 0 < w.hist.log.length := by
  by_contra hn
  have hz := s.layout.writepos
  rw [if_pos (by omega)] at hz
  exact hne ((s.idle (by omega) i).trans hz.symm)

theorem Sound.step {fuel : ℕ} {w w' : World} {op : Op} (s : Sound w) (hfit : Fits w op)
    (h : w.step fuel op = some w') : Sound w' := by
  refine ⟨s.layout.step hfit h, fun hn i => ?_⟩
  rcases World.step_cases h with ⟨f, t, rfl, rfl⟩ | ⟨-, rfl⟩ | hs
  · have hlen : (w.write f t).hist.log.length = w.hist.log.length + 1 := length_snoc _ _
    omega
  · rfl
  · rw [hs.log] at hn
    rcases World.step_readpos h i with hsame | ⟨-, hzero⟩ | ⟨_, -, hne⟩
    · rw [hsame]
      exact s.idle hn i
    · exact hzero
    · have := s.waiting hne
      omega

theorem sound_of_run {fuel size : ℕ} (hsize : size < 2 ^ 31) {m : Memory} {ops : List Op} {w : World}
    (run : Run (World.step fuel) Fits (World.start size m) ops w) : Sound w :=
  run.invariant Sound (fun _ _ _ s hop hstep => s.step hop hstep) (.start hsize m)

end Jagles.MediaBuffer
