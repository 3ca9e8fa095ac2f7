import Jagles.MotionTexturesHandoff

set_option autoImplicit false
set_option linter.dupNamespace false

/-!
# Which calls of `LoadTexture` are served

The thread comes to each of its indices within two rounds. It never comes to the last one, and a
call that waits there does so for ever.
-/
namespace Jagles.MotionTextures
open GuardedRuns
namespace GPUMotionTracking

/-! ## The way to an index -/

/-- The places of the thread in the order of a round. -/
def position : Pc → ℕ
  | .start => 0
  | .check j => 6 * j.val + 1
  | .width j => 6 * j.val + 2
  | .height j => 6 * j.val + 3
  | .pixels j => 6 * j.val + 4
  | .detect j => 6 * j.val + 5
  | .decrement j => 6 * j.val + 6
  | .sleep => 19

/-- How many steps there are at most until the decrement at an index is over. -/
def distance (i : Fin 3) (pc : Pc) : ℕ :=
  if position pc ≤ 6 * i.val + 6 then 6 * i.val + 7 - position pc
  else 6 * i.val + 26 - position pc

section Rounds
variable {s t : GPUMotionTracking} {i : Fin 3}

theorem position_next (j : Fin 3) : position (next j) = 6 * j.val + 7 := by
  unfold next
  split
  · simp only [position]
    omega
  · simp only [position]
    omega

theorem position_le (pc : Pc) : position pc ≤ 19 := by
  cases pc <;> simp only [position] <;> omega

theorem distance_le {pc : Pc} (h : position pc ≤ 6 * i.val + 6) :
    distance i pc = 6 * i.val + 7 - position pc := if_pos h

theorem distance_gt {pc : Pc} (h : 6 * i.val + 6 < position pc) :
    distance i pc = 6 * i.val + 26 - position pc := if_neg (by omega)

theorem distance_next_self (i : Fin 3) : distance i (next i) = 19 := by
  simp only [distance, position_next]
  split <;> omega

theorem distance_next {j : Fin 3} (hj : i ≠ j) (pc : Pc)
    (hpc : position pc = 6 * j.val + 1 ∨ position pc = 6 * j.val + 6) :
    distance i (next j) < distance i pc := by
  have hval : i.val ≠ j.val := fun he => hj (Fin.ext he)
  simp only [distance, position_next]
  split <;> split <;> omega

/-- The places within the part for one index. -/
theorem distance_succ {pc pc' : Pc} (j : Fin 3) (hlow : 6 * j.val + 1 ≤ position pc)
    (hhigh : position pc < 6 * j.val + 6) (hsucc : position pc' = position pc + 1) :
    distance i pc' < distance i pc := by
  simp only [distance]
  split <;> split <;> omega

/-- As long as a picture is counted at the index, each step of the thread brings it nearer. -/
theorem thread_nearer (ht : 0 < s.doThread.mHaveTexture i.castSucc) :
    0 < s.mHaveTexture i.castSucc ∧
      19 * (s.doThread.mHaveTexture i.castSucc).toNat + distance i s.doThread.pc <
        19 * (s.mHaveTexture i.castSucc).toNat + distance i s.pc := by
  cases hpc : s.pc with
  | decrement j =>
    simp only [doThread, hpc] at ht ⊢
    by_cases hj : i = j
    · subst hj
      rw [Function.update_self] at ht ⊢
      have hone : distance i (.decrement i) = 1 := by
        have hplace : position (.decrement i) = 6 * i.val + 6 := rfl
        rw [distance_le hplace.le, hplace]
        omega
      rw [distance_next_self, hone]
      omega
    · have hne : i.castSucc ≠ j.castSucc := fun he => hj (Fin.castSucc_injective _ he)
      rw [Function.update_of_ne hne] at ht ⊢
      exact ⟨ht, Nat.add_lt_add_left (distance_next hj _ (.inr rfl)) _⟩
  | check j =>
    simp only [doThread, hpc] at ht ⊢
    refine ⟨ht, Nat.add_lt_add_left ?_ _⟩
    split
    · exact distance_succ j le_rfl (by simp only [position]; omega) rfl
    · refine distance_next ?_ _ (.inl rfl)
      rintro rfl
      omega
  | width j | height j | pixels j | detect j =>
    simp only [doThread, hpc] at ht ⊢
    refine ⟨ht, Nat.add_lt_add_left (distance_succ j ?_ ?_ rfl) _⟩
    · simp only [position]
      omega
    · simp only [position]
      omega
  | start =>
    simp only [doThread, hpc] at ht ⊢
    refine ⟨ht, Nat.add_lt_add_left ?_ _⟩
    have hfrom : position .start = 0 := rfl
    have hto : position (.check 0) = 1 := rfl
    rw [distance_le (by omega), distance_le (by omega)]
    omega
  | sleep =>
    simp only [doThread, hpc] at ht ⊢
    refine ⟨ht, Nat.add_lt_add_left ?_ _⟩
    have hfrom : position .sleep = 19 := rfl
    have hto : position (.check 0) = 1 := rfl
    rw [distance_le (by omega), distance_gt (by omega)]
    omega

theorem Handoff.have_le (h : Handoff s) (i : Fin 3) : s.mHaveTexture i.castSucc ≤ 2 := by
  have hbusy : busy s.pc i.castSucc ≤ 1 := by
    unfold busy
    split
    · split <;> decide
    · split <;> decide
    · decide
  have hahead := (h.ahead_mem (castSucc_ne i)).2
  unfold ahead at hahead
  omega

/-- A run of the thread alone that leaves a picture counted is a short one. -/
theorem Handoff.counted_short (h : Handoff s) {ks : List Label}
    (hks : Run step (fun _ l => l = .thread) s ks t) (ht : 0 < t.mHaveTexture i.castSucc) :
    ks.length ≤ 37 := by
  have hrank := (hks.rank_le (fun s => 0 < s.mHaveTexture i.castSucc)
    (fun s => 19 * (s.mHaveTexture i.castSucc).toNat + distance i s.pc) ?_ ht).2
  · have hle := h.have_le i
    have hdistance : distance i s.pc ≤ 19 := by
      unfold distance
      split
      · omega
      · omega
    have hdistance' : 1 ≤ distance i t.pc := by
      have hp := position_le t.pc
      unfold distance
      split
      · omega
      · omega
    omega
  · rintro s l t rfl hs ht
    obtain rfl := Option.some.inj hs
    exact thread_nearer ht

end Rounds

/-! ## The last index -/

/-- The thread never counts the last index down. -/
structure LastKept (s : GPUMotionTracking) : Prop where
  nonneg : 0 ≤ s.mHaveTexture 3
  waiting : ∀ c call, s.callers c = some call → call.pc = .wait → call.scnindex = 3 →
    0 < s.mHaveTexture 3

section Last
variable {s t : GPUMotionTracking}

theorem last_doThread (s : GPUMotionTracking) : s.doThread.mHaveTexture 3 = s.mHaveTexture 3 := by
  cases hpc : s.pc with
  | decrement i =>
    simp only [doThread, hpc]
    exact Function.update_of_ne (castSucc_ne i).symm _ _
  | _ => simp only [doThread, hpc]

/-- The thread moves no call. -/
theorem callers_doThread (s : GPUMotionTracking) (c : ℕ) :
    ∃ f : Call → Call, s.doThread.callers c = (s.callers c).map f ∧
      ∀ call, (f call).pc = call.pc ∧ (f call).scnindex = call.scnindex := by
  cases hpc : s.pc with
  | pixels i =>
    refine ⟨mark i.castSucc, ?_, fun call => ?_⟩
    · simp only [doThread, hpc, markLoaded]
      rfl
    · unfold mark
      split <;> exact ⟨rfl, rfl⟩
  | _ =>
    refine ⟨id, ?_, fun _ => ⟨rfl, rfl⟩⟩
    simp only [doThread, hpc, Option.map_id, id_eq]

theorem LastKept.thread (h : LastKept s) : LastKept s.doThread := by
  constructor
  · rw [last_doThread]
    exact h.nonneg
  · intro c call hsome hwait hlast
    obtain ⟨f, hf, hkeep⟩ := callers_doThread s c
    rw [hf] at hsome
    obtain ⟨before, hbefore, rfl⟩ := Option.map_eq_some_iff.mp hsome
    rw [last_doThread]
    exact h.waiting c before hbefore ((hkeep before).1 ▸ hwait) ((hkeep before).2 ▸ hlast)

theorem advance_other {c d : ℕ} (call : Call) (hd : d ≠ c) :
    (s.advance c call).callers d = s.callers d := by
  cases hpc : call.pc with
  | wait =>
    simp only [advance, hpc]
    split
    · rfl
    · exact Function.update_of_ne hd _ _
  | _ =>
    simp only [advance, hpc]
    exact Function.update_of_ne hd _ _

theorem advance_last (s : GPUMotionTracking) (c : ℕ) (call : Call) :
    s.mHaveTexture 3 ≤ (s.advance c call).mHaveTexture 3 := by
  cases hpc : call.pc with
  | increment =>
    simp only [advance, hpc, goTo]
    by_cases hlast : 3 = call.scnindex
    · rw [← hlast, Function.update_self]
      omega
    · rw [Function.update_of_ne hlast]
  | wait =>
    simp only [advance, hpc]
    split <;> exact le_rfl
  | _ =>
    simp only [advance, hpc]
    exact le_rfl

theorem LastKept.caller (h : LastKept s) {c : ℕ} {call : Call} (hsome : s.callers c = some call) :
    LastKept (s.advance c call) := by
  have hmore := advance_last s c call
  refine ⟨h.nonneg.trans hmore, fun d other hother hwait hlast => ?_⟩
  by_cases hd : d = c
  · subst hd
    cases hpc : call.pc with
    | increment =>
      simp only [advance, hpc, goTo] at hother ⊢
      obtain rfl := Option.some.inj ((Function.update_self d _ s.callers).symm.trans hother)
      have hindex : call.scnindex = 3 := hlast
      have hnonneg := h.nonneg
      rw [hindex, Function.update_self]
      omega
    | wait =>
      simp only [advance, hpc] at hother ⊢
      split at hother
      · rename_i hhave
        rw [if_pos hhave]
        exact h.waiting d other hother hwait hlast
      · cases (Function.update_self d none s.callers).symm.trans hother
    | _ =>
      simp only [advance, hpc, goTo] at hother
      obtain rfl := Option.some.inj ((Function.update_self d _ s.callers).symm.trans hother)
      cases hwait
  · rw [advance_other call hd] at hother
    exact (h.waiting d other hother hwait hlast).trans_le hmore

theorem LastKept.after {l : Label} (h : LastKept s) (hs : step s l = some t) : LastKept t := by
  cases l with
  | LoadTexture c picture scnindex =>
    simp only [step] at hs
    split at hs
    · obtain rfl := Option.some.inj hs
      unfold loadTexture
      split
      · refine ⟨h.nonneg, fun d call hsome hwait hlast => ?_⟩
        by_cases hd : d = c
        · subst hd
          obtain rfl := Option.some.inj ((Function.update_self d _ s.callers).symm.trans hsome)
          cases hwait
        · exact h.waiting d call ((Function.update_of_ne hd _ s.callers).symm.trans hsome) hwait hlast
      · exact h
    · cases hs
  | caller c =>
    obtain ⟨call, hsome, rfl⟩ := Option.map_eq_some_iff.mp hs
    exact h.caller hsome
  | thread =>
    obtain rfl := Option.some.inj hs
    exact h.thread

theorem LastKept.waits (h : LastKept s) {c : ℕ} {l : Label} (hc : s.WaitsLast c)
    (hs : step s l = some t) : t.WaitsLast c := by
  obtain ⟨call, hsome, hwait, hlast⟩ := hc
  cases l with
  | LoadTexture d picture scnindex =>
    simp only [step] at hs
    split at hs
    · rename_i hnone
      obtain rfl := Option.some.inj hs
      have hd : c ≠ d := by
        rintro rfl
        rw [hsome] at hnone
        cases hnone
      unfold loadTexture
      split
      · exact ⟨call, (Function.update_of_ne hd _ _).trans hsome, hwait, hlast⟩
      · exact ⟨call, hsome, hwait, hlast⟩
    · cases hs
  | caller d =>
    obtain ⟨other, hother, rfl⟩ := Option.map_eq_some_iff.mp hs
    by_cases hd : c = d
    · subst hd
      obtain rfl := Option.some.inj (hsome.symm.trans hother)
      have hcounted := h.waiting c call hsome hwait hlast
      simp only [advance, hwait]
      rw [if_pos (by rw [hlast]; omega)]
      exact ⟨call, hsome, hwait, hlast⟩
    · exact ⟨call, (advance_other other hd).trans hsome, hwait, hlast⟩
  | thread =>
    obtain rfl := Option.some.inj hs
    obtain ⟨f, hf, hkeep⟩ := callers_doThread s c
    exact ⟨f call, by rw [hf, hsome]; rfl, (hkeep call).1.trans hwait, (hkeep call).2.trans hlast⟩

end Last

/-! ## Runs -/

section Runs
variable (widths heights : Fin 4 → ℤ) (pixels : Fin 4 → ℕ)

theorem lastKept_create : LastKept (create widths heights pixels) where
  nonneg := le_rfl
  waiting _ _ hsome := nomatch hsome

theorem advance_motion (s : GPUMotionTracking) (c : ℕ) (call : Call) :
    (s.advance c call).mMotion = s.mMotion ∧ (s.advance c call).pc = s.pc := by
  cases hpc : call.pc with
  | wait =>
    simp only [advance, hpc]
    split <;> exact ⟨rfl, rfl⟩
  | _ => simp [advance, hpc, goTo]

/-- The thread has made a detector for each index that it looks at. -/
theorem motion_created {ls : List Label} {s : GPUMotionTracking}
    (h : Run step (fun _ _ => True) (create widths heights pixels) ls s) (hpc : s.pc ≠ .start)
    (i : Fin 3) : s.mMotion i.castSucc = true := by
  refine (h.invariant (fun s => s.pc = .start ∨ ∀ i : Fin 3, s.mMotion i.castSucc = true)
    ?_ (.inl rfl)).resolve_left hpc i
  intro s l t hs _ ht
  cases l with
  | LoadTexture c picture scnindex =>
    simp only [step] at ht
    split at ht
    · obtain rfl := Option.some.inj ht
      unfold loadTexture
      split <;> exact hs
    · cases ht
  | caller c =>
    obtain ⟨call, -, rfl⟩ := Option.map_eq_some_iff.mp ht
    rw [(advance_motion s c call).1, (advance_motion s c call).2]
    exact hs
  | thread =>
    obtain rfl := Option.some.inj ht
    cases hfrom : s.pc with
    | start =>
      simp only [doThread, hfrom]
      exact .inr fun i => decide_eq_true i.isLt
    | _ =>
      simp only [doThread, hfrom]
      exact .inr (hs.resolve_left (by simp [hfrom]))

/-- In a run of allowed steps each call waits until its picture has been tracked, and 38 steps of
the thread end the wait. A call that waits at the last index does so for ever. -/
theorem textures_served :
    (∀ (ls : List Label) (s : GPUMotionTracking),
      Run step Allowed (create widths heights pixels) ls s →
        s.Served ∧ ∀ (ks : List Label) (t : GPUMotionTracking),
          Run step (fun _ l => l = .thread) s ks t → 38 ≤ ks.length →
            ∀ c call, t.callers c = some call → call.pc = .wait →
              t.mHaveTexture call.scnindex = 0) ∧
    ∀ (ls : List Label) (s : GPUMotionTracking),
      Run step (fun _ _ => True) (create widths heights pixels) ls s →
        ∀ c, s.WaitsLast c → ∀ (ks : List Label) (t : GPUMotionTracking),
          Run step (fun _ _ => True) s ks t → t.WaitsLast c := by
  constructor
  · intro ls s h
    have hs := h.invariant Handoff (fun _ _ _ hi hc he => hi.after hc he)
      (handoff_create widths heights pixels)
    refine ⟨hs.served, fun ks t hks hlong c call hsome hwait => ?_⟩
    have ht := (hks.weaken (fun _ l hl => by subst hl; exact trivial)).invariant Handoff
      (fun _ _ _ hi hc he => hi.after hc he) hs
    have hlow := (ht.calls c call hsome).low
    obtain ⟨i, hi⟩ := Fin.exists_castSucc_eq.mpr hlow
    rw [← hi]
    by_contra hne
    have hnonneg : 0 ≤ t.mHaveTexture i.castSucc := by
      have hbusy := busy_nonneg t.pc i.castSucc
      have hahead := (ht.ahead_mem (castSucc_ne i)).1
      unfold ahead at hahead
      omega
    have hshort := hs.counted_short hks (lt_of_le_of_ne hnonneg (Ne.symm hne))
    omega
  · intro ls s h c hc ks t hks
    have hs := h.invariant LastKept (fun _ _ _ hi _ he => hi.after he)
      (lastKept_create widths heights pixels)
    exact (hks.invariant (fun s => LastKept s ∧ s.WaitsLast c)
      (fun _ _ _ hi _ he => ⟨hi.1.after he, hi.1.waits hi.2 he⟩) ⟨hs, hc⟩).2

/-- The steps of one caller alone that keeps off the last index. -/
def Alone (c : ℕ) : Label → Bool
  | .LoadTexture d _ scnindex => d = c && scnindex ≠ 3
  | .caller d => d = c
  | .thread => true

theorem alone_step {c d : ℕ} {s t : GPUMotionTracking} {l : Label} (h : s.callers d = none)
    (hd : d ≠ c) (hl : Alone c l = true) (hs : step s l = some t) : t.callers d = none := by
  cases l with
  | LoadTexture e picture scnindex =>
    simp only [Alone, Bool.and_eq_true, decide_eq_true_eq] at hl
    obtain ⟨rfl, -⟩ := hl
    simp only [step] at hs
    split at hs
    · obtain rfl := Option.some.inj hs
      unfold loadTexture
      split
      · exact (Function.update_of_ne hd _ _).trans h
      · exact h
    · cases hs
  | caller e =>
    obtain rfl := of_decide_eq_true hl
    obtain ⟨call, -, rfl⟩ := Option.map_eq_some_iff.mp hs
    exact (advance_other call hd).trans h
  | thread =>
    obtain rfl := Option.some.inj hs
    obtain ⟨f, hf, -⟩ := callers_doThread s d
    rw [hf, h]
    rfl

/-- One caller alone stores no picture over another one. -/
theorem alone_allowed {c : ℕ} {ls : List Label} {s : GPUMotionTracking}
    (h : Run step (fun _ l => Alone c l = true) (create widths heights pixels) ls s) :
    Run step Allowed (create widths heights pixels) ls s := by
  refine h.guarded (fun s => ∀ d, d ≠ c → s.callers d = none)
    (fun _ _ _ hi hl he d hd => alone_step (hi d hd) hd hl he) ?_ (fun _ _ => rfl)
  intro s l hi hl
  cases l with
  | LoadTexture d picture scnindex =>
    simp only [Alone, Bool.and_eq_true, decide_eq_true_eq] at hl
    exact hl.2
  | caller d =>
    obtain rfl := of_decide_eq_true hl
    intro call _ _ e other he hheld
    cases (hi e he).symm.trans hheld.1
  | thread => trivial

end Runs

/-! ## Three runs -/

def picture : Picture := ⟨640, 480, 1⟩

/-- A call up to its loop. -/
def call (c : ℕ) (picture : Picture) (scnindex : ℤ) : List Label :=
  .LoadTexture c picture scnindex :: List.replicate 4 (.caller c)

theorem textures_served_alone :
    (∃ s t, Run step Allowed (create 0 0 0) (call 0 picture 0) s ∧ s.Served ∧
      Run step (fun _ l => l = .thread) s (List.replicate 38 .thread) t ∧
      t.callers 0 = some ⟨0, picture, .wait, true⟩ ∧ t.mHaveTexture 0 = 0) ∧
    ∃ s t, Run step (fun _ _ => True) (create 0 0 0) (call 0 picture 3) s ∧
      Run step (fun _ _ => True) s (List.replicate 38 .thread) t ∧ t.WaitsLast 0 := by
  obtain ⟨hserved, hlast⟩ := textures_served 0 0 0
  constructor
  · obtain ⟨s, halone, hfinal⟩ : ∃ s,
        Run step (fun _ l => Alone 0 l = true) (create 0 0 0) (call 0 picture 0) s ∧
        (final step (fun _ l => l = .thread) s (List.replicate 38 .thread)).any
          (fun t => decide (t.callers 0 = some ⟨0, picture, .wait, true⟩)) = true :=
      exists_run (by decide)
    obtain ⟨t, hs, ht⟩ := exists_run hfinal
    have hrun := alone_allowed 0 0 0 halone
    obtain ⟨hnow, hend⟩ := hserved _ s hrun
    exact ⟨s, t, hrun, hnow, hs, ht, hend _ t hs (by decide) 0 _ ht rfl⟩
  · obtain ⟨s, hrun, hwaits, hfinal⟩ : ∃ s,
        Run step (fun _ _ => True) (create 0 0 0) (call 0 picture 3) s ∧
        s.callers 0 = some ⟨3, picture, .wait, false⟩ ∧
        (final step (fun _ _ => True) s (List.replicate 38 .thread)).any (fun _ => true) = true :=
      exists_run (by decide)
    obtain ⟨t, ht, -⟩ := (Option.any_eq_true _ _).mp hfinal
    have hs := run_of_final ht
    exact ⟨s, t, hrun, hs, hlast _ s hrun 0 ⟨_, hwaits, rfl, rfl⟩ _ t hs⟩

/-- Two calls at one index, and the thread until it has counted both down. -/
def shared : List Label :=
  call 0 picture 0 ++ call 1 ⟨320, 240, 2⟩ 0 ++ List.replicate 16 .thread

/-- A call waits at the last index, and a call goes on after the picture of another call has been
tracked twice in the place of its own. -/
theorem textures_unserved :
    (∃ s, Run step (fun _ _ => True) (create 0 0 0) (call 0 picture 3) s ∧ s.WaitsLast 0 ∧
      ¬ s.Served) ∧
    ∃ s, Run step (fun _ _ => True) (create 0 0 0) shared s ∧
      s.callers 0 = some ⟨0, picture, .wait, true⟩ ∧ s.mHaveTexture 0 = 0 ∧ ¬ s.Served := by
  constructor
  · obtain ⟨s, hrun, hwaits⟩ : ∃ s,
        Run step (fun _ _ => True) (create 0 0 0) (call 0 picture 3) s ∧
        s.callers 0 = some ⟨3, picture, .wait, false⟩ :=
      exists_run (by decide)
    exact ⟨s, hrun, ⟨_, hwaits, rfl, rfl⟩, fun hserved => (hserved 0 _ hwaits rfl).1 rfl⟩
  · obtain ⟨s, hrun, hwaits, hzero, hnever⟩ : ∃ s,
        Run step (fun _ _ => True) (create 0 0 0) shared s ∧
        s.callers 0 = some ⟨0, picture, .wait, true⟩ ∧ s.mHaveTexture 0 = 0 ∧
        Event.DetectTracking 0 picture ∉ since 0 s.history :=
      exists_run (by decide)
    exact ⟨s, hrun, hwaits, hzero, fun hserved => hnever ((hserved 0 _ hwaits rfl).2 hzero)⟩

end GPUMotionTracking

end Jagles.MotionTextures
