import Jagles.MotionTextures

set_option autoImplicit false
set_option linter.dupNamespace false

/-!
# The hand-off of a picture

As long as no picture is stored over one that the thread has not read yet, and the last index is
left alone, each call waits until its picture has been tracked.
-/
namespace Jagles.MotionTextures
open GuardedRuns
namespace GPUMotionTracking

/-- Part of the picture of the call has been stored, and the thread has not read it. -/
def Held (s : GPUMotionTracking) (c : ℕ) (call : Call) : Prop :=
  s.callers c = some call ∧ call.pc ≠ .width ∧ call.loaded = false

/-- The condition on a step. A call stores its first value at an index that the thread looks
at, where no other call holds a picture. -/
def Allowed (s : GPUMotionTracking) : Label → Prop
  | .LoadTexture _ _ scnindex => scnindex ≠ 3
  | .caller c => ∀ call, s.callers c = some call → call.pc = .width →
      ∀ c' call', c' ≠ c → s.Held c' call' → call'.scnindex ≠ call.scnindex
  | .thread => True

/-- What has happened since a call was counted. -/
def since (c : ℕ) (history : List Event) : List Event :=
  history.takeWhile fun e => decide (e ≠ .increment c)

/-- The picture of the call has been tracked since it was counted. -/
def Tracked (s : GPUMotionTracking) (c : ℕ) (call : Call) : Prop :=
  Event.DetectTracking call.scnindex call.picture ∈ since c s.history

/-- A call waits at an index of the loop of the thread, and goes on only after its picture has
been tracked. -/
def Served (s : GPUMotionTracking) : Prop :=
  ∀ c call, s.callers c = some call → call.pc = .wait →
    call.scnindex ≠ 3 ∧ (s.mHaveTexture call.scnindex = 0 → s.Tracked c call)

/-- The call waits at the last index. -/
def WaitsLast (s : GPUMotionTracking) (c : ℕ) : Prop :=
  ∃ call, s.callers c = some call ∧ call.pc = .wait ∧ call.scnindex = 3

/-! ## The invariant -/

/-- A waiting call has a picture at the index that the thread has not read. -/
def Claimed (s : GPUMotionTracking) (i : Fin 4) : Prop :=
  ∃ c call, s.Held c call ∧ call.scnindex = i ∧ call.pc = .wait

/-- The picture that the thread has read is still counted. -/
def busy : Pc → Fin 4 → ℤ
  | .detect j, i | .decrement j, i => if j.castSucc = i then 1 else 0
  | _, _ => 0

/-- The count without the picture that the thread is at. -/
def ahead (s : GPUMotionTracking) (i : Fin 4) : ℤ := s.mHaveTexture i - busy s.pc i

structure CallOk (s : GPUMotionTracking) (c : ℕ) (call : Call) : Prop where
  low : call.scnindex ≠ 3
  width : call.loaded = false → call.pc ≠ .width →
    s.mTexWidth call.scnindex = call.picture.w
  height : call.loaded = false → call.pc ≠ .width → call.pc ≠ .height →
    s.mTexHeight call.scnindex = call.picture.h
  pixels : call.loaded = false → call.pc = .increment ∨ call.pc = .wait →
    s.mPixels call.scnindex = call.picture.pixels
  waits : call.loaded = true → call.pc = .wait
  taken : call.loaded = true → s.Tracked c call ∨
    ∃ i : Fin 3, s.pc = .detect i ∧ i.castSucc = call.scnindex ∧ s.texture = call.picture
  copied : ∀ i : Fin 3, i.castSucc = call.scnindex → call.loaded = false → call.pc = .wait →
    (s.pc = .height i → s.texture.w = call.picture.w) ∧
      (s.pc = .pixels i → s.texture.w = call.picture.w ∧ s.texture.h = call.picture.h)

structure Handoff (s : GPUMotionTracking) : Prop where
  calls : ∀ c call, s.callers c = some call → s.CallOk c call
  alone : ∀ c c' call call', s.Held c call → s.Held c' call' →
    call.scnindex = call'.scnindex → c = c'
  claimed : ∀ i, s.Claimed i → s.ahead i = 1
  unclaimed : ∀ i, i ≠ 3 → ¬ s.Claimed i → s.ahead i = 0
  reading : ∀ i : Fin 3, s.pc = .width i ∨ s.pc = .height i ∨ s.pc = .pixels i →
    s.Claimed i.castSucc

section Invariant
variable {s t : GPUMotionTracking} {c : ℕ} {call call' : Call}

theorem busy_nonneg (pc : Pc) (i : Fin 4) : 0 ≤ busy pc i := by
  unfold busy
  split
  · split <;> decide
  · split <;> decide
  · exact le_rfl

theorem mem_since_cons {c : ℕ} {e e' : Event} {history : List Event} (h : e ∈ since c history)
    (he : e' ≠ .increment c) : e ∈ since c (e' :: history) := by
  rw [since, List.takeWhile_cons, if_pos (decide_eq_true he)]
  exact List.mem_cons_of_mem _ h

theorem castSucc_ne (i : Fin 3) : i.castSucc ≠ 3 := Fin.castSucc_ne_last i

/-- A step of a call leaves what the other calls hold alone. -/
theorem held_ne {d : ℕ} {other : Call} {x : Option Call}
    (hcallers : t.callers = Function.update s.callers c x) (hd : d ≠ c) :
    t.Held d other ↔ s.Held d other := by
  unfold Held
  rw [hcallers, Function.update_of_ne hd]

/-- A step of a call that stores one of its values. -/
structure Stores (s t : GPUMotionTracking) (c : ℕ) (call call' : Call) : Prop where
  before : s.callers c = some call
  callers : t.callers = Function.update s.callers c (some call')
  index : call'.scnindex = call.scnindex
  waits : call.pc ≠ .wait
  waits' : call'.pc ≠ .wait
  have_eq : t.mHaveTexture = s.mHaveTexture
  pc : t.pc = s.pc
  texture : t.texture = s.texture
  history : t.history = s.history
  slots : ∀ i, i ≠ call.scnindex →
    t.mTexWidth i = s.mTexWidth i ∧ t.mTexHeight i = s.mTexHeight i ∧ t.mPixels i = s.mPixels i

theorem Stores.claimed (h : Stores s t c call call') (i : Fin 4) : t.Claimed i ↔ s.Claimed i := by
  constructor
  · rintro ⟨d, other, hheld, hi, hwait⟩
    by_cases hd : d = c
    · subst hd
      obtain rfl : call' = other := by
        have hsome := hheld.1
        rw [h.callers, Function.update_self] at hsome
        exact Option.some.inj hsome
      exact absurd hwait h.waits'
    · exact ⟨d, other, (held_ne h.callers hd).mp hheld, hi, hwait⟩
  · rintro ⟨d, other, hheld, hi, hwait⟩
    by_cases hd : d = c
    · subst hd
      obtain rfl : call = other := Option.some.inj (h.before.symm.trans hheld.1)
      exact absurd hwait h.waits
    · exact ⟨d, other, (held_ne h.callers hd).mpr hheld, hi, hwait⟩

/-- A value can be stored where no other call holds a picture. -/
theorem Handoff.store (h : Handoff s) (hs : Stores s t c call call') (hown : t.CallOk c call')
    (hfree : ∀ d other, d ≠ c → s.Held d other → other.scnindex ≠ call.scnindex) :
    Handoff t where
  calls d other hsome := by
    by_cases hd : d = c
    · subst hd
      rw [hs.callers, Function.update_self] at hsome
      exact Option.some.inj hsome ▸ hown
    · rw [hs.callers, Function.update_of_ne hd] at hsome
      have hok := h.calls d other hsome
      have hslots : other.loaded = false → other.pc ≠ .width → _ := fun hloaded hpc =>
        hs.slots other.scnindex (hfree d other hd ⟨hsome, hpc, hloaded⟩)
      refine ⟨hok.low, fun hl hp => ?_, fun hl hp hp' => ?_, fun hl hp => ?_, hok.waits, ?_, ?_⟩
      · rw [(hslots hl hp).1]
        exact hok.width hl hp
      · rw [(hslots hl hp).2.1]
        exact hok.height hl hp hp'
      · rw [(hslots hl (by rcases hp with hp | hp <;> simp [hp])).2.2]
        exact hok.pixels hl hp
      · rw [Tracked, hs.history, hs.pc, hs.texture]
        exact hok.taken
      · rw [hs.pc, hs.texture]
        exact hok.copied
  alone d d' other other' hheld hheld' hindex := by
    by_cases hd : d = c
    · by_cases hd' : d' = c
      · exact hd.trans hd'.symm
      · subst hd
        have hsome := hheld.1
        rw [hs.callers, Function.update_self] at hsome
        obtain rfl := Option.some.inj hsome
        exact absurd (hindex.symm.trans hs.index)
          (hfree d' other' hd' ((held_ne hs.callers hd').mp hheld'))
    · by_cases hd' : d' = c
      · subst hd'
        have hsome := hheld'.1
        rw [hs.callers, Function.update_self] at hsome
        obtain rfl := Option.some.inj hsome
        exact absurd (hindex.trans hs.index) (hfree d other hd ((held_ne hs.callers hd).mp hheld))
      · exact h.alone d d' other other' ((held_ne hs.callers hd).mp hheld)
          ((held_ne hs.callers hd').mp hheld') hindex
  claimed i hi := by
    rw [ahead, hs.have_eq, hs.pc]
    exact h.claimed i ((hs.claimed i).mp hi)
  unclaimed i hlow hi := by
    rw [ahead, hs.have_eq, hs.pc]
    exact h.unclaimed i hlow fun hc => hi ((hs.claimed i).mpr hc)
  reading i hi := by
    rw [hs.pc] at hi
    exact (hs.claimed _).mpr (h.reading i hi)

/-- The arrays of the pictures are as before. -/
structure SameSlots (s t : GPUMotionTracking) : Prop where
  width : t.mTexWidth = s.mTexWidth
  height : t.mTexHeight = s.mTexHeight
  pixels : t.mPixels = s.mPixels

/-- A call comes or goes that holds no picture. -/
theorem Handoff.swap {x : Option Call} (h : Handoff s)
    (ht : t = { s with callers := Function.update s.callers c x })
    (hbefore : ∀ call, ¬ s.Held c call) (hafter : ∀ call, ¬ t.Held c call)
    (hown : ∀ call, x = some call → t.CallOk c call) : Handoff t := by
  have hcallers : t.callers = Function.update s.callers c x := by rw [ht]
  have hheld : ∀ d other, t.Held d other ↔ s.Held d other := by
    intro d other
    by_cases hd : d = c
    · subst hd
      exact iff_of_false (hafter other) (hbefore other)
    · exact held_ne hcallers hd
  have hclaimed : ∀ i, t.Claimed i ↔ s.Claimed i := by
    intro i
    unfold Claimed
    simp only [hheld]
  refine ⟨?_, ?_, ?_, ?_, ?_⟩
  · intro d other hsome
    by_cases hd : d = c
    · subst hd
      rw [hcallers, Function.update_self] at hsome
      exact hown other hsome
    · rw [hcallers, Function.update_of_ne hd] at hsome
      have hok := h.calls d other hsome
      subst ht
      exact ⟨hok.low, hok.width, hok.height, hok.pixels, hok.waits, hok.taken, hok.copied⟩
  · intro d d' other other' hd hd'
    exact h.alone d d' other other' ((hheld _ _).mp hd) ((hheld _ _).mp hd')
  · intro i hi
    have hcount := h.claimed i ((hclaimed i).mp hi)
    subst ht
    exact hcount
  · intro i hlow hi
    have hcount := h.unclaimed i hlow fun hc => hi ((hclaimed i).mpr hc)
    subst ht
    exact hcount
  · intro i hi
    refine (hclaimed _).mpr (h.reading i ?_)
    subst ht
    exact hi

/-- The step of a call that counts it. -/
structure Counts (s t : GPUMotionTracking) (c : ℕ) (call : Call) : Prop where
  before : s.callers c = some call
  increment : call.pc = .increment
  callers : t.callers = Function.update s.callers c (some { call with pc := .wait })
  slots : SameSlots s t
  have_self : t.mHaveTexture call.scnindex = s.mHaveTexture call.scnindex + 1
  have_ne : ∀ i, i ≠ call.scnindex → t.mHaveTexture i = s.mHaveTexture i
  pc : t.pc = s.pc
  texture : t.texture = s.texture
  history : t.history = .increment c :: s.history

theorem advance_counts (hsome : s.callers c = some call) (hpc : call.pc = .increment) :
    Counts s (s.advance c call) c call := by
  simp only [advance, hpc, goTo]
  exact ⟨hsome, hpc, rfl, ⟨rfl, rfl, rfl⟩, Function.update_self _ _ _,
    fun i hi => Function.update_of_ne hi _ _, rfl, rfl, rfl⟩

theorem CallOk.unloaded (h : s.CallOk c call) (hpc : call.pc ≠ .wait) : call.loaded = false := by
  cases hl : call.loaded with
  | false => rfl
  | true => exact absurd (h.waits hl) hpc

section Counts
variable (hs : Counts s t c call)
include hs

theorem Counts.unloaded (h : Handoff s) : call.loaded = false :=
  (h.calls c call hs.before).unloaded (by simp [hs.increment])

theorem Counts.held (h : Handoff s) : s.Held c call :=
  ⟨hs.before, by simp [hs.increment], hs.unloaded h⟩

/-- The call that is counted is the only one that holds a picture at its index. -/
theorem Counts.not_claimed (h : Handoff s) : ¬ s.Claimed call.scnindex := by
  rintro ⟨d, other, hother, hindex, hwait⟩
  obtain rfl := h.alone c d call other (hs.held h) hother hindex.symm
  obtain rfl := Option.some.inj (hs.before.symm.trans hother.1)
  rw [hs.increment] at hwait
  cases hwait

theorem Counts.held_self (h : Handoff s) : t.Held c { call with pc := .wait } :=
  ⟨by rw [hs.callers, Function.update_self], by simp, hs.unloaded h⟩

/-- What is held afterwards was held before, at the same index. -/
theorem Counts.held_before (h : Handoff s) {d : ℕ} {other : Call} (hother : t.Held d other) :
    ∃ other', s.Held d other' ∧ other'.scnindex = other.scnindex := by
  by_cases hd : d = c
  · subst hd
    obtain rfl := Option.some.inj ((hs.held_self h).1.symm.trans hother.1)
    exact ⟨call, hs.held h, rfl⟩
  · exact ⟨other, (held_ne hs.callers hd).mp hother, rfl⟩

theorem Counts.claimed_ne (h : Handoff s) {i : Fin 4} (hi : i ≠ call.scnindex) :
    t.Claimed i ↔ s.Claimed i := by
  constructor
  · rintro ⟨d, other, hother, hindex, hwait⟩
    by_cases hd : d = c
    · subst hd
      obtain rfl := Option.some.inj ((hs.held_self h).1.symm.trans hother.1)
      exact absurd hindex.symm hi
    · exact ⟨d, other, (held_ne hs.callers hd).mp hother, hindex, hwait⟩
  · rintro ⟨d, other, hother, hindex, hwait⟩
    by_cases hd : d = c
    · subst hd
      obtain rfl := Option.some.inj (hs.before.symm.trans hother.1)
      exact absurd hindex.symm hi
    · exact ⟨d, other, (held_ne hs.callers hd).mpr hother, hindex, hwait⟩

theorem Counts.ahead_ne {i : Fin 4} (hi : i ≠ call.scnindex) : t.ahead i = s.ahead i := by
  rw [ahead, ahead, hs.have_ne i hi, hs.pc]

theorem Counts.ahead_self (h : Handoff s) : t.ahead call.scnindex = 1 := by
  have hzero := h.unclaimed call.scnindex (h.calls c call hs.before).low (hs.not_claimed h)
  rw [ahead] at hzero
  rw [ahead, hs.have_self, hs.pc]
  omega

theorem Counts.callOk_self (h : Handoff s) : t.CallOk c { call with pc := .wait } := by
  have hok := h.calls c call hs.before
  have hloaded := hs.unloaded h
  refine ⟨hok.low, fun _ _ => ?_, fun _ _ _ => ?_, fun _ _ => ?_, fun _ => rfl, ?_, ?_⟩
  · rw [hs.slots.width]
    exact hok.width hloaded (by simp [hs.increment])
  · rw [hs.slots.height]
    exact hok.height hloaded (by simp [hs.increment]) (by simp [hs.increment])
  · rw [hs.slots.pixels]
    exact hok.pixels hloaded (.inl hs.increment)
  · exact fun hl => absurd (hloaded.symm.trans hl) (by simp)
  · intro i hi _ _
    rw [hs.pc]
    have hno : ¬ (s.pc = .width i ∨ s.pc = .height i ∨ s.pc = .pixels i) :=
      fun hr => hs.not_claimed h (by rw [← hi]; exact h.reading i hr)
    exact ⟨fun hp => absurd (.inr (.inl hp)) hno, fun hp => absurd (.inr (.inr hp)) hno⟩

theorem Counts.callOk_ne {d : ℕ} {other : Call} (hd : d ≠ c) (hok : s.CallOk d other) :
    t.CallOk d other := by
  refine ⟨hok.low, ?_, ?_, ?_, hok.waits, ?_, ?_⟩
  · rw [hs.slots.width]
    exact hok.width
  · rw [hs.slots.height]
    exact hok.height
  · rw [hs.slots.pixels]
    exact hok.pixels
  · intro hl
    rw [hs.pc, hs.texture, Tracked, hs.history]
    refine (hok.taken hl).imp_left fun htracked => mem_since_cons htracked ?_
    simpa using Ne.symm hd
  · rw [hs.pc, hs.texture]
    exact hok.copied

end Counts

/-- A call is counted, and waits. -/
theorem Handoff.count (h : Handoff s) (hs : Counts s t c call) : Handoff t where
  calls d other hsome := by
    by_cases hd : d = c
    · subst hd
      obtain rfl := Option.some.inj ((hs.held_self h).1.symm.trans hsome)
      exact hs.callOk_self h
    · rw [hs.callers, Function.update_of_ne hd] at hsome
      exact hs.callOk_ne hd (h.calls d other hsome)
  alone d d' other other' hheld hheld' hindex := by
    obtain ⟨o, ho, hoi⟩ := hs.held_before h hheld
    obtain ⟨o', ho', hoi'⟩ := hs.held_before h hheld'
    exact h.alone d d' o o' ho ho' (hoi.trans (hindex.trans hoi'.symm))
  claimed i hi := by
    by_cases hic : i = call.scnindex
    · rw [hic]
      exact hs.ahead_self h
    · rw [hs.ahead_ne hic]
      exact h.claimed i ((hs.claimed_ne h hic).mp hi)
  unclaimed i hlow hi := by
    by_cases hic : i = call.scnindex
    · exact absurd ⟨c, _, hs.held_self h, hic.symm, rfl⟩ hi
    · rw [hs.ahead_ne hic]
      exact h.unclaimed i hlow fun hc => hi ((hs.claimed_ne h hic).mpr hc)
  reading i hi := by
    rw [hs.pc] at hi
    have hbefore := h.reading i hi
    have hic : i.castSucc ≠ call.scnindex := fun he => hs.not_claimed h (he ▸ hbefore)
    exact (hs.claimed_ne h hic).mpr hbefore

/-- What the thread has read of the picture of a call, at each of its places. -/
def Copied (pc : Pc) (texture picture : Picture) (i : Fin 3) : Prop :=
  (pc = .height i → texture.w = picture.w) ∧
    (pc = .pixels i → texture.w = picture.w ∧ texture.h = picture.h)

/-- A step of the thread that leaves the calls and the arrays of pictures alone. -/
theorem Handoff.move (h : Handoff s) (hcallers : t.callers = s.callers) (hslots : SameSlots s t)
    (hahead : ∀ i, t.ahead i = s.ahead i)
    (hreading : ∀ i : Fin 3, t.pc = .width i ∨ t.pc = .height i ∨ t.pc = .pixels i →
      s.Claimed i.castSucc)
    (htaken : ∀ c call, (s.Tracked c call ∨ ∃ i : Fin 3, s.pc = .detect i ∧
      i.castSucc = call.scnindex ∧ s.texture = call.picture) → t.Tracked c call)
    (hcopied : ∀ c call (i : Fin 3), s.CallOk c call → i.castSucc = call.scnindex →
      call.loaded = false → call.pc = .wait → Copied t.pc t.texture call.picture i) :
    Handoff t := by
  have hheld : ∀ c call, t.Held c call ↔ s.Held c call := by
    intro c call
    unfold Held
    rw [hcallers]
  have hclaimed : ∀ i, t.Claimed i ↔ s.Claimed i := by
    intro i
    unfold Claimed
    simp only [hheld]
  refine ⟨?_, ?_, ?_, ?_, ?_⟩
  · intro c call hsome
    rw [hcallers] at hsome
    have hok := h.calls c call hsome
    refine ⟨hok.low, ?_, ?_, ?_, hok.waits, fun hl => .inl (htaken c call (hok.taken hl)), ?_⟩
    · rw [hslots.width]
      exact hok.width
    · rw [hslots.height]
      exact hok.height
    · rw [hslots.pixels]
      exact hok.pixels
    · exact fun i hi hl hw => hcopied c call i hok hi hl hw
  · intro c c' call call' hc hc'
    exact h.alone c c' call call' ((hheld _ _).mp hc) ((hheld _ _).mp hc')
  · intro i hi
    rw [hahead]
    exact h.claimed i ((hclaimed i).mp hi)
  · intro i hlow hi
    rw [hahead]
    exact h.unclaimed i hlow fun hc => hi ((hclaimed i).mpr hc)
  · exact fun i hi => (hclaimed _).mpr (hreading i hi)

/-- The thread goes to a place between two pictures. -/
theorem Handoff.pass (h : Handoff s) (hfrom : ∀ i, busy s.pc i = 0) {mMotion : Fin 4 → Bool}
    {pc : Pc} (hpc : ∀ i, busy pc i = 0) (hplace : ∀ i : Fin 3, pc ≠ .height i ∧ pc ≠ .pixels i)
    (hreading : ∀ i : Fin 3, pc = .width i → s.Claimed i.castSucc) :
    Handoff { s with mMotion := mMotion, pc := pc } := by
  refine h.move rfl ⟨rfl, rfl, rfl⟩ (fun i => ?_) ?_ ?_ ?_
  · simp only [ahead, hpc, hfrom]
  · rintro i (hi | hi | hi)
    · exact hreading i hi
    · exact absurd hi (hplace i).1
    · exact absurd hi (hplace i).2
  · rintro c call (htracked | ⟨i, hi, -, -⟩)
    · exact htracked
    · have hone := hfrom i.castSucc
      rw [hi] at hone
      simp [busy] at hone
  · exact fun c call i _ _ _ _ => ⟨fun hp => absurd hp (hplace i).1, fun hp => absurd hp (hplace i).2⟩

theorem busy_next (i : Fin 3) (j : Fin 4) : busy (next i) j = 0 := by
  unfold next
  split <;> rfl

theorem next_ne (i j : Fin 3) :
    next i ≠ .width j ∧ next i ≠ .height j ∧ next i ≠ .pixels j := by
  unfold next
  split <;> simp

section Load
variable {i : Fin 3}

/-- A call after the thread has read a picture. -/
def mark (i : Fin 4) (call : Call) : Call :=
  if call.scnindex = i ∧ call.pc = .wait then { call with loaded := true } else call

theorem mark_of (h : call.scnindex = i.castSucc ∧ call.pc = .wait) :
    mark i.castSucc call = { call with loaded := true } := if_pos h

theorem mark_of_not (h : ¬ (call.scnindex = i.castSucc ∧ call.pc = .wait)) :
    mark i.castSucc call = call := if_neg h

theorem load_held_iff (hpc : s.pc = .pixels i) (c : ℕ) (call : Call) :
    s.doThread.Held c call ↔
      s.Held c call ∧ ¬ (call.scnindex = i.castSucc ∧ call.pc = .wait) := by
  have hcallers : s.doThread.callers c = (s.callers c).map (mark i.castSucc) := by
    simp only [doThread, hpc, markLoaded]
    rfl
  unfold Held
  rw [hcallers]
  constructor
  · rintro ⟨hsome, hstored, hloaded⟩
    obtain ⟨before, hbefore, rfl⟩ := Option.map_eq_some_iff.mp hsome
    by_cases hm : before.scnindex = i.castSucc ∧ before.pc = .wait
    · rw [mark_of hm] at hloaded
      cases hloaded
    · rw [mark_of_not hm] at hstored hloaded ⊢
      exact ⟨⟨hbefore, hstored, hloaded⟩, hm⟩
  · rintro ⟨⟨hsome, hstored, hloaded⟩, hm⟩
    rw [hsome, Option.map_some, mark_of_not hm]
    exact ⟨rfl, hstored, hloaded⟩

theorem load_claimed_iff (hpc : s.pc = .pixels i) (j : Fin 4) :
    s.doThread.Claimed j ↔ s.Claimed j ∧ j ≠ i.castSucc := by
  unfold Claimed
  simp only [load_held_iff hpc]
  constructor
  · rintro ⟨c, call, ⟨hheld, hm⟩, hj, hwait⟩
    exact ⟨⟨c, call, hheld, hj, hwait⟩, fun he => hm ⟨hj.trans he, hwait⟩⟩
  · rintro ⟨⟨c, call, hheld, hj, hwait⟩, hne⟩
    exact ⟨c, call, ⟨hheld, fun hm => hne (hj.symm.trans hm.1)⟩, hj, hwait⟩

theorem load_callOk (h : s.CallOk c call) (hpc : s.pc = .pixels i) :
    s.doThread.CallOk c (mark i.castSucc call) := by
  have ht : s.doThread = { s with
      texture := { s.texture with pixels := s.mPixels i.castSucc }
      callers := s.markLoaded i.castSucc
      pc := .detect i } := by simp only [doThread, hpc]
  have htracked : call.loaded = true → s.Tracked c call := fun hl =>
    (h.taken hl).resolve_right fun ⟨j, hj, _⟩ => by rw [hpc] at hj; cases hj
  rw [ht]
  by_cases hm : call.scnindex = i.castSucc ∧ call.pc = .wait
  · rw [mark_of hm]
    refine ⟨h.low, nofun, nofun, nofun, fun _ => hm.2, fun _ => ?_, nofun⟩
    cases hl : call.loaded with
    | true => exact .inl (htracked hl)
    | false =>
      have hcopied := (h.copied i hm.1.symm hl hm.2).2 hpc
      have hpixels := h.pixels hl (.inr hm.2)
      refine .inr ⟨i, rfl, hm.1.symm, ?_⟩
      rw [← hm.1]
      dsimp only
      rw [hcopied.1, hcopied.2, hpixels]
  · rw [mark_of_not hm]
    exact ⟨h.low, h.width, h.height, h.pixels, h.waits, fun hl => .inl (htracked hl),
      fun _ _ _ _ => ⟨nofun, nofun⟩⟩

/-- The picture of an index has been read whole. -/
theorem Handoff.load (h : Handoff s) (hpc : s.pc = .pixels i) : Handoff s.doThread := by
  have hbusy : ∀ j, busy s.pc j = 0 := by simp [hpc, busy]
  have hafter : s.doThread.pc = .detect i := by simp only [doThread, hpc]
  have hhave : s.doThread.mHaveTexture = s.mHaveTexture := by simp only [doThread, hpc]
  have hahead : ∀ j, j ≠ i.castSucc → s.doThread.ahead j = s.ahead j := by
    intro j hj
    rw [ahead, ahead, hafter, hhave, hbusy, busy, if_neg (Ne.symm hj)]
  refine ⟨?_, ?_, ?_, ?_, ?_⟩
  · intro c call hsome
    have hcallers : s.doThread.callers c = (s.callers c).map (mark i.castSucc) := by
      simp only [doThread, hpc, markLoaded]
      rfl
    rw [hcallers] at hsome
    obtain ⟨before, hbefore, rfl⟩ := Option.map_eq_some_iff.mp hsome
    exact load_callOk (h.calls c before hbefore) hpc
  · intro c c' call call' hc hc'
    exact h.alone c c' call call' ((load_held_iff hpc _ _).mp hc).1 ((load_held_iff hpc _ _).mp hc').1
  · intro j hj
    obtain ⟨hclaimed, hne⟩ := (load_claimed_iff hpc j).mp hj
    rw [hahead j hne]
    exact h.claimed j hclaimed
  · intro j hlow hj
    by_cases hji : j = i.castSucc
    · have hone := h.claimed i.castSucc (h.reading i (.inr (.inr hpc)))
      rw [ahead, hbusy] at hone
      rw [hji, ahead, hafter, hhave, busy, if_pos rfl]
      omega
    · rw [hahead j hji]
      exact h.unclaimed j hlow fun hc => hj ((load_claimed_iff hpc j).mpr ⟨hc, hji⟩)
  · intro j hj
    rw [hafter] at hj
    rcases hj with hj | hj | hj <;> cases hj

end Load

/-- Away from `DetectTracking` what has been read has been tracked. -/
theorem tracked_of_taken (hpc : ∀ i, s.pc ≠ .detect i)
    (h : s.Tracked c call ∨ ∃ i : Fin 3, s.pc = .detect i ∧ i.castSucc = call.scnindex ∧
      s.texture = call.picture) : s.Tracked c call :=
  h.resolve_right fun ⟨i, hi, _⟩ => hpc i hi

section Thread
variable {i : Fin 3}

theorem Handoff.check (h : Handoff s) (hpc : s.pc = .check i) : Handoff s.doThread := by
  simp only [doThread, hpc]
  split
  · rename_i hhave
    refine h.pass (by simp [hpc, busy]) (fun _ => rfl) (fun _ => ⟨nofun, nofun⟩) ?_
    intro j hj
    obtain rfl := Pc.width.inj hj
    by_contra hno
    have hzero := h.unclaimed i.castSucc (castSucc_ne i) hno
    simp only [ahead, hpc, busy] at hzero
    omega
  · exact h.pass (by simp [hpc, busy]) (busy_next i)
      (fun j => ⟨(next_ne i j).2.1, (next_ne i j).2.2⟩) fun j hj => absurd hj (next_ne i j).1

theorem Handoff.width (h : Handoff s) (hpc : s.pc = .width i) : Handoff s.doThread := by
  simp only [doThread, hpc]
  refine h.move rfl ⟨rfl, rfl, rfl⟩ (fun _ => by simp [ahead, hpc, busy]) ?_
    (fun _ _ => tracked_of_taken (by simp [hpc])) ?_
  · rintro j (hj | hj | hj)
    · cases hj
    · obtain rfl := Pc.height.inj hj
      exact h.reading i (.inl hpc)
    · cases hj
  · intro c call j hok hindex hloaded hwait
    refine ⟨fun hj => ?_, nofun⟩
    obtain rfl := Pc.height.inj hj
    have hwidth := hok.width hloaded (by simp [hwait])
    rwa [← hindex] at hwidth

theorem Handoff.height (h : Handoff s) (hpc : s.pc = .height i) : Handoff s.doThread := by
  simp only [doThread, hpc]
  refine h.move rfl ⟨rfl, rfl, rfl⟩ (fun _ => by simp [ahead, hpc, busy]) ?_
    (fun _ _ => tracked_of_taken (by simp [hpc])) ?_
  · rintro j (hj | hj | hj)
    · cases hj
    · cases hj
    · obtain rfl := Pc.pixels.inj hj
      exact h.reading i (.inr (.inl hpc))
  · intro c call j hok hindex hloaded hwait
    refine ⟨nofun, fun hj => ?_⟩
    obtain rfl := Pc.pixels.inj hj
    have hheight := hok.height hloaded (by simp [hwait]) (by simp [hwait])
    rw [← hindex] at hheight
    exact ⟨(hok.copied i hindex hloaded hwait).1 hpc, hheight⟩

theorem Handoff.detect (h : Handoff s) (hpc : s.pc = .detect i) : Handoff s.doThread := by
  simp only [doThread, hpc]
  refine h.move rfl ⟨rfl, rfl, rfl⟩ (fun _ => by simp [ahead, hpc, busy]) ?_ ?_
    fun _ _ _ _ _ _ _ => ⟨nofun, nofun⟩
  · rintro j (hj | hj | hj) <;> cases hj
  · rintro c call (htracked | ⟨j, hj, hindex, htexture⟩)
    · exact mem_since_cons htracked nofun
    · rw [hpc] at hj
      obtain rfl := Pc.detect.inj hj
      rw [Tracked, since, List.takeWhile_cons, if_pos (by simp), hindex, htexture]
      exact List.mem_cons_self

theorem Handoff.decrement (h : Handoff s) (hpc : s.pc = .decrement i) : Handoff s.doThread := by
  simp only [doThread, hpc]
  refine h.move rfl ⟨rfl, rfl, rfl⟩ (fun j => ?_) ?_
    (fun _ _ => tracked_of_taken (by simp [hpc])) ?_
  · simp only [ahead, hpc, busy_next]
    simp only [busy]
    by_cases hj : i.castSucc = j
    · rw [if_pos hj, hj, Function.update_self]
      omega
    · rw [if_neg hj, Function.update_of_ne (Ne.symm hj)]
  · rintro j (hj | hj | hj)
    · exact absurd hj (next_ne i j).1
    · exact absurd hj (next_ne i j).2.1
    · exact absurd hj (next_ne i j).2.2
  · exact fun _ _ j _ _ _ _ =>
      ⟨fun hj => absurd hj (next_ne i j).2.1, fun hj => absurd hj (next_ne i j).2.2⟩

end Thread

theorem Handoff.thread (h : Handoff s) : Handoff s.doThread := by
  cases hpc : s.pc with
  | start | sleep =>
    simp only [doThread, hpc]
    exact h.pass (by simp [hpc, busy]) (fun _ => rfl) (fun _ => ⟨nofun, nofun⟩) nofun
  | check i => exact h.check hpc
  | width i => exact h.width hpc
  | height i => exact h.height hpc
  | pixels i => exact h.load hpc
  | detect i => exact h.detect hpc
  | decrement i => exact h.decrement hpc

theorem Handoff.begin (h : Handoff s) (hnone : s.callers c = none) (picture : Picture)
    {scnindex : ℤ} (hindex : scnindex ≠ 3) : Handoff (s.loadTexture c picture scnindex) := by
  unfold loadTexture
  split
  · refine h.swap rfl (fun call hheld => ?_) (fun call hheld => ?_) (fun call hsome => ?_)
    · rw [hheld.1] at hnone
      cases hnone
    · obtain rfl := Option.some.inj ((Function.update_self c _ s.callers).symm.trans hheld.1)
      exact hheld.2.1 rfl
    · obtain rfl := Option.some.inj hsome
      refine ⟨fun hlow => ?_, fun _ hp => absurd rfl hp, fun _ hp => absurd rfl hp, ?_, nofun, nofun,
        fun _ _ _ => nofun⟩
      · have hval := congrArg Fin.val hlow
        change scnindex.toNat = 3 at hval
        omega
      · rintro - (hp | hp) <;> cases hp
  · exact h

theorem Handoff.leave (h : Handoff s) (hsome : s.callers c = some call) (hwait : call.pc = .wait)
    (hzero : s.mHaveTexture call.scnindex = 0) :
    Handoff { s with callers := Function.update s.callers c none } := by
  refine h.swap rfl (fun other hheld => ?_) (fun other hheld => ?_) nofun
  · obtain rfl := Option.some.inj (hsome.symm.trans hheld.1)
    have hone := h.claimed call.scnindex ⟨c, call, hheld, rfl, hwait⟩
    have hbusy := busy_nonneg s.pc call.scnindex
    unfold ahead at hone
    omega
  · cases (Function.update_self c none s.callers).symm.trans hheld.1

theorem Handoff.caller (h : Handoff s) (hsome : s.callers c = some call)
    (hfree : call.pc = .width →
      ∀ d other, d ≠ c → s.Held d other → other.scnindex ≠ call.scnindex) :
    Handoff (s.advance c call) := by
  have hok := h.calls c call hsome
  have hunloaded : call.pc ≠ .wait → call.loaded = false := hok.unloaded
  have hlone : call.pc ≠ .width → call.pc ≠ .wait →
      ∀ d other, d ≠ c → s.Held d other → other.scnindex ≠ call.scnindex :=
    fun hwidth hwait d other hd hother hindex =>
      hd (h.alone d c other call hother ⟨hsome, hwidth, hunloaded hwait⟩ hindex)
  cases hpc : call.pc with
  | width =>
    have hloaded := hunloaded (by simp [hpc])
    have hs : Stores s (s.advance c call) c call { call with pc := .height } := by
      simp only [advance, hpc]
      exact ⟨hsome, rfl, rfl, by simp [hpc], by simp, rfl, rfl, rfl, rfl,
        fun i hi => ⟨Function.update_of_ne hi _ _, rfl, rfl⟩⟩
    refine h.store hs ?_ (hfree hpc)
    simp only [advance, hpc]
    exact ⟨hok.low, fun _ _ => Function.update_self _ _ _, fun _ _ hp => absurd rfl hp, by simp,
      fun hl => absurd (hloaded.symm.trans hl) (by simp),
      fun hl => absurd (hloaded.symm.trans hl) (by simp), fun _ _ _ => nofun⟩
  | height =>
    have hloaded := hunloaded (by simp [hpc])
    have hs : Stores s (s.advance c call) c call { call with pc := .pixels } := by
      simp only [advance, hpc]
      exact ⟨hsome, rfl, rfl, by simp [hpc], by simp, rfl, rfl, rfl, rfl,
        fun i hi => ⟨rfl, Function.update_of_ne hi _ _, rfl⟩⟩
    refine h.store hs ?_ (hlone (by simp [hpc]) (by simp [hpc]))
    simp only [advance, hpc]
    exact ⟨hok.low, fun _ _ => hok.width hloaded (by simp [hpc]),
      fun _ _ _ => Function.update_self _ _ _, by simp,
      fun hl => absurd (hloaded.symm.trans hl) (by simp),
      fun hl => absurd (hloaded.symm.trans hl) (by simp), fun _ _ _ => nofun⟩
  | pixels =>
    have hloaded := hunloaded (by simp [hpc])
    have hs : Stores s (s.advance c call) c call { call with pc := .increment } := by
      simp only [advance, hpc]
      exact ⟨hsome, rfl, rfl, by simp [hpc], by simp, rfl, rfl, rfl, rfl,
        fun i hi => ⟨rfl, rfl, Function.update_of_ne hi _ _⟩⟩
    refine h.store hs ?_ (hlone (by simp [hpc]) (by simp [hpc]))
    simp only [advance, hpc]
    exact ⟨hok.low, fun _ _ => hok.width hloaded (by simp [hpc]),
      fun _ _ _ => hok.height hloaded (by simp [hpc]) (by simp [hpc]),
      fun _ _ => Function.update_self _ _ _,
      fun hl => absurd (hloaded.symm.trans hl) (by simp),
      fun hl => absurd (hloaded.symm.trans hl) (by simp), fun _ _ _ => nofun⟩
  | increment => exact h.count (advance_counts hsome hpc)
  | wait =>
    simp only [advance, hpc]
    split
    · exact h
    · exact h.leave hsome hpc (not_not.mp ‹_›)

theorem Handoff.after {l : Label} (h : Handoff s) (hl : s.Allowed l) (hs : step s l = some t) :
    Handoff t := by
  cases l with
  | LoadTexture c picture scnindex =>
    simp only [step] at hs
    split at hs
    · obtain rfl := Option.some.inj hs
      exact h.begin ‹_› picture hl
    · cases hs
  | caller c =>
    obtain ⟨call, hsome, rfl⟩ := Option.map_eq_some_iff.mp hs
    exact h.caller hsome (hl call hsome)
  | thread =>
    obtain rfl := Option.some.inj hs
    exact h.thread

theorem handoff_create (widths heights : Fin 4 → ℤ) (pixels : Fin 4 → ℕ) :
    Handoff (create widths heights pixels) where
  calls _ _ hsome := nomatch hsome
  alone _ _ _ _ hheld := nomatch hheld.1
  claimed _ hi := by
    obtain ⟨_, _, hheld, -⟩ := hi
    cases hheld.1
  unclaimed _ _ _ := rfl
  reading _ hi := by rcases hi with hi | hi | hi <;> cases hi

theorem Handoff.ahead_mem (h : Handoff s) {i : Fin 4} (hlow : i ≠ 3) :
    0 ≤ s.ahead i ∧ s.ahead i ≤ 1 := by
  by_cases hc : s.Claimed i
  · rw [h.claimed i hc]
    decide
  · rw [h.unclaimed i hlow hc]
    decide

theorem Handoff.served (h : Handoff s) : s.Served := by
  intro c call hsome hwait
  have hok := h.calls c call hsome
  refine ⟨hok.low, fun hzero => ?_⟩
  cases hl : call.loaded with
  | false =>
    have hheld : s.Held c call := ⟨hsome, by simp [hwait], hl⟩
    have hone := h.claimed call.scnindex ⟨c, call, hheld, rfl, hwait⟩
    have hbusy := busy_nonneg s.pc call.scnindex
    unfold ahead at hone
    omega
  | true =>
    refine (hok.taken hl).resolve_right ?_
    rintro ⟨i, hi, hindex, -⟩
    -- the picture that is being tracked is still counted
    have hahead := (h.ahead_mem hok.low).1
    rw [ahead, hzero, hi, busy, if_pos hindex] at hahead
    omega

end Invariant

end GPUMotionTracking

end Jagles.MotionTextures
