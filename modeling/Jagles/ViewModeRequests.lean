import Jagles.ViewModes

set_option autoImplicit false
set_option linter.dupNamespace false

/-!
# Requests and drawn items

What is known at each statement of `SwitchMode` and of `DrawSelf`, in runs where the change
thread does not finish an animation that has been called off.
-/
namespace Jagles.ViewModes
open CriticalSections GuardedRuns

/-! ## Counts -/

def count (mode : ℤ) : Option ℕ := (vMode.find? fun vm => vm.mode = mode).map (·.count)

/-- The two lists have the same modes with the same counts. -/
theorem count_getCurrent (dualMode mode : ℤ) :
    (getCurrent dualMode mode).map (·.count) = count mode := by
  have hlist : mVertexList dualMode = vMode := by
    unfold mVertexList
    split <;> rfl
  simp only [getCurrent, hlist, count, Option.map_map]
  rfl

def SameCount (mode mode' : ℤ) : Prop := ∃ c, count mode = some c ∧ count mode' = some c

/-- The mode has an item for each one of `vm`. -/
def Fits (vm : PVOMode) (mode : ℤ) : Prop := ∃ c, count mode = some c ∧ vm.count ≤ c

theorem sameCount_of_startsAnimation {dualMode current mode : ℤ} {vm1 : Option PVOMode}
    (hvm1 : vm1.map (·.count) = count current)
    (h : VertexObjectImpl.startsAnimation vm1 (getCurrent dualMode mode) = true) :
    SameCount current mode := by
  have hvm2 := count_getCurrent dualMode mode
  cases vm1 with
  | none => simp [VertexObjectImpl.startsAnimation] at h
  | some a =>
    cases hb : getCurrent dualMode mode with
    | none => simp [VertexObjectImpl.startsAnimation, hb] at h
    | some b =>
      simp only [hb, VertexObjectImpl.startsAnimation, decide_eq_true_eq] at h
      rw [hb] at hvm2
      refine ⟨b.count, ?_, hvm2.symm⟩
      rw [← h.1]
      exact hvm1.symm

theorem fits_of_sameCount {dualMode current mode : ℤ} {vm : PVOMode}
    (hvm : getCurrent dualMode current = some vm) (h : SameCount current mode) : Fits vm mode := by
  obtain ⟨c, hcurrent, hmode⟩ := h
  have hcount := count_getCurrent dualMode current
  rw [hvm, hcurrent] at hcount
  exact ⟨c, hmode, (Option.some.inj hcount).le⟩

/-! ## Conditions -/

/-- Between the test that ends the animation and the write of the mode. -/
def ChangeAt.finishing : ChangeAt → Bool
  | .clear | .assign => true
  | _ => false

/-- `SwitchMode` without animation does not write the mode while the change thread is about to
write another, the change thread does not finish an animation that has been called off since
it looked, and no animation starts towards a mode with fewer items than the mode which is
being drawn. -/
def InTurn (s : VertexObjectImpl) : Label → Prop
  | .switch =>
    match s.switchAt with
    | .assign mode false => s.changeAt.finishing = true → s.mChangeMode = mode
    | .aim mode => ∀ vm, s.drawAt.drawing = some vm → Fits vm mode
    | _ => True
  | .change =>
    s.changeAt = .test → s.mChangeStepCount ≤ s.mChangeStep →
      s.mChangeAnimation = true ∨ s.switchAt ≠ .idle ∨ s.mChangeMode = s.requested
  | _ => True

/-- No mode animation is active and no `SwitchMode` call is in progress. -/
def Settled (s : VertexObjectImpl) : Prop :=
  s.mChangeAnimation = false ∧ s.changeAt ≠ .assign ∧ s.switchAt = .idle

/-! ## What holds at each statement -/

def insides (a : SwitchAt) (b : ChangeAt) (c : DrawAt) : Thread → Bool
  | .switch => a.inside
  | .change => b.inside
  | .draw => c.inside

/-- The flag is set, or it is about to be. -/
def Aiming (s : VertexObjectImpl) : Prop := s.mChangeAnimation = true ∨ s.switchAt = .start

def AtSwitch (s : VertexObjectImpl) : SwitchAt → Prop
  | .idle =>
    (s.mChangeAnimation = true ∨ s.changeAt.finishing = true → s.mChangeMode = s.requested) ∧
      (s.mChangeAnimation = false → s.changeAt ≠ .assign → s.mCurrentMode = s.requested)
  | .enter mode _ | .lock mode | .first mode | .clear mode _ => mode = s.requested
  | .second mode vm1 => mode = s.requested ∧ vm1.map (·.count) = count s.mCurrentMode
  | .aim mode => mode = s.requested ∧ SameCount s.mCurrentMode mode
  | .start => s.mChangeMode = s.requested
  | .count | .reset => s.mChangeAnimation = true ∧ s.mChangeMode = s.requested
  | .assign mode _ => mode = s.requested ∧ s.mChangeAnimation = false
  | .unlock =>
    s.mChangeAnimation = true ∧ s.mChangeMode = s.requested ∨
      s.mChangeAnimation = false ∧ s.mCurrentMode = s.requested

def AtDraw (s : VertexObjectImpl) : DrawAt → Prop
  | .choose vm | .vertex vm _ | .unlock vm _ => Aiming s → Fits vm s.mChangeMode
  | .lock vm i | .target vm i => i < vm.count ∧ Fits vm s.mChangeMode
  | .change vm i vm1 =>
    (∃ v, vm1 = some v ∧ i < v.count) ∧ (Aiming s → Fits vm s.mChangeMode)
  | _ => True

structure Kept (s : VertexObjectImpl) : Prop where
  exclusive : Exclusive ⟨s.mChangeLock, insides s.switchAt s.changeAt s.drawAt⟩
  switch : AtSwitch s s.switchAt
  same : Aiming s → SameCount s.mCurrentMode s.mChangeMode
  change : s.changeAt = .assign → s.mChangeAnimation = false
  draw : AtDraw s s.drawAt
  outside : s.outside = []

section exclusion

variable {o : Option Thread} {a a' : SwitchAt} {b b' : ChangeAt} {c c' : DrawAt}

theorem insides_switch (a : SwitchAt) :
    insides a' b c = Function.update (insides a b c) .switch a'.inside := by
  funext th
  cases th <;> rfl

theorem insides_change (b : ChangeAt) :
    insides a b' c = Function.update (insides a b c) .change b'.inside := by
  funext th
  cases th <;> rfl

theorem insides_draw (c : DrawAt) :
    insides a b c' = Function.update (insides a b c) .draw c'.inside := by
  funext th
  cases th <;> rfl

theorem exclusive_switch (h : Exclusive ⟨o, insides a b c⟩) (ha : a'.inside = a.inside) :
    Exclusive ⟨o, insides a' b c⟩ := by
  rw [insides_switch a]
  exact h.turn (.stay ha)

theorem exclusive_change (h : Exclusive ⟨o, insides a b c⟩) (hb : b'.inside = b.inside) :
    Exclusive ⟨o, insides a b' c⟩ := by
  rw [insides_change b]
  exact h.turn (.stay hb)

theorem exclusive_draw (h : Exclusive ⟨o, insides a b c⟩) (hc : c'.inside = c.inside) :
    Exclusive ⟨o, insides a b c'⟩ := by
  rw [insides_draw c]
  exact h.turn (.stay hc)

/-- The lock keeps `SwitchMode` and the change thread apart. -/
theorem switch_outside (h : Exclusive ⟨o, insides a b c⟩) (hb : b.inside = true) :
    a.inside = false := by
  by_contra ha
  have heq : Thread.switch = Thread.change := h.eq (by simpa [insides] using ha) hb
  cases heq

theorem change_outside (h : Exclusive ⟨o, insides a b c⟩) (ha : a.inside = true) :
    b.inside = false := by
  by_contra hb
  rw [switch_outside h (by simpa using hb)] at ha
  cases ha

end exclusion

section frames

variable {s t : VertexObjectImpl}

theorem AtDraw.frame {p : DrawAt} (h : AtDraw s p) (hmode : t.mChangeMode = s.mChangeMode)
    (haim : Aiming t → Aiming s) : AtDraw t p := by
  cases p with
  | choose vm | vertex vm i | unlock vm i => exact fun ha => hmode ▸ h (haim ha)
  | lock vm i | target vm i => exact ⟨h.1, hmode ▸ h.2⟩
  | change vm i vm1 => exact ⟨h.1, fun ha => hmode ▸ h.2 (haim ha)⟩
  | idle | enter scnindex | pick | sphere vm i => trivial

/-- What is known of `SwitchMode` outside its lock does not depend on the change thread. -/
theorem AtSwitch.frame {p : SwitchAt} (h : AtSwitch s p) (hin : p.inside = false)
    (hidle : p ≠ .idle) (hreq : t.requested = s.requested)
    (hflag : s.mChangeAnimation = false → t.mChangeAnimation = false) : AtSwitch t p := by
  cases p with
  | idle => exact absurd rfl hidle
  | enter mode ani | lock mode | clear mode locked => exact Eq.trans h hreq.symm
  | assign mode locked => exact ⟨h.1.trans hreq.symm, hflag h.2⟩
  | first mode | second mode vm1 | aim mode | start | count | reset | unlock => cases hin

end frames

/-! ## The change thread -/

section change

variable {s t : VertexObjectImpl}

/-- A statement of the change thread outside the two that write the flag and the mode. -/
theorem Kept.goChange (h : Kept s) {o : Option Thread} {n : ℤ} {b : ChangeAt}
    (he : Exclusive ⟨o, insides s.switchAt b s.drawAt⟩) (hb : b ≠ .assign)
    (hs : s.changeAt ≠ .assign)
    (hfin : b.finishing = true → s.switchAt = .idle → s.mChangeMode = s.requested) :
    Kept { s with mChangeStep := n, mChangeLock := o, changeAt := b } where
  exclusive := he
  switch := by
    have hsw := h.switch
    cases ha : s.switchAt with
    | idle =>
      rw [ha] at hsw
      exact ⟨fun hor => hor.elim (fun hf => hsw.1 (.inl hf)) (fun hf => hfin hf ha),
        fun hf _ => hsw.2 hf hs⟩
    | enter mode ani | lock mode | first mode | second mode vm1 | aim mode | start | count | reset
      | clear mode locked | assign mode locked | unlock =>
      rw [ha] at hsw
      exact hsw
  same := h.same
  change hassign := absurd hassign hb
  draw := h.draw.frame rfl id
  outside := h.outside

theorem Kept.clearChange (h : Kept s) (hp : s.changeAt = .clear) :
    Kept { s with mChangeAnimation := false, changeAt := .assign } where
  exclusive := exclusive_change h.exclusive (by rw [hp]; rfl)
  switch := by
    have hsw := h.switch
    have hout := switch_outside h.exclusive (by rw [hp]; rfl)
    by_cases ha : s.switchAt = .idle
    · rw [ha] at hsw ⊢
      exact ⟨fun _ => hsw.1 (.inr (by rw [hp]; rfl)), fun _ hne => absurd rfl hne⟩
    · exact hsw.frame hout ha rfl fun _ => rfl
  same haim := h.same (haim.elim (fun hf => absurd hf (by simp)) .inr)
  change _ := rfl
  draw := h.draw.frame rfl fun haim => haim.elim (fun hf => absurd hf (by simp)) .inr
  outside := h.outside

theorem Kept.assignChange (h : Kept s) (hp : s.changeAt = .assign) :
    Kept { s with mCurrentMode := s.mChangeMode, changeAt := .unlock } where
  exclusive := exclusive_change h.exclusive (by rw [hp]; rfl)
  switch := by
    have hsw := h.switch
    have hout := switch_outside h.exclusive (by rw [hp]; rfl)
    by_cases ha : s.switchAt = .idle
    · rw [ha] at hsw ⊢
      have hmode : s.mChangeMode = s.requested := hsw.1 (.inr (by rw [hp]; rfl))
      exact ⟨fun _ => hmode, fun _ _ => hmode⟩
    · exact hsw.frame hout ha rfl id
  same haim := by
    have hout := switch_outside h.exclusive (by rw [hp]; rfl)
    rcases haim with hf | hstart
    · exact absurd ((h.change hp).symm.trans hf) (by simp)
    · change s.switchAt = .start at hstart
      rw [hstart] at hout
      cases hout
  change hassign := by cases hassign
  draw := h.draw.frame rfl id
  outside := h.outside

theorem Kept.handleChangeThread (h : Kept s) (hc : InTurn s .change)
    (hs : s.handleChangeThread = some t) : Kept t := by
  unfold VertexObjectImpl.handleChangeThread at hs
  cases hp : s.changeAt with
  | check =>
    simp only [hp, Option.some.injEq] at hs
    subst hs
    have hin : s.changeAt.inside = false := by rw [hp]; rfl
    split
    · exact h.goChange (exclusive_change h.exclusive hin.symm) (by simp) (by simp [hp])
        fun hfin => by cases hfin
    · exact h.goChange (exclusive_change h.exclusive hin.symm) (by simp) (by simp [hp])
        fun hfin => by cases hfin
  | lock =>
    simp only [hp, VertexObjectImpl.lock] at hs
    split at hs
    · rename_i hfree
      obtain rfl := Option.some.inj hs
      refine h.goChange ?_ (by simp) (by simp [hp]) fun hfin => by cases hfin
      rw [insides_change s.changeAt]
      exact h.exclusive.turn (.lock Thread.change hfree)
    · cases hs
  | increment =>
    simp only [hp, Option.some.injEq] at hs
    subst hs
    exact h.goChange (exclusive_change h.exclusive (by rw [hp]; rfl)) (by simp) (by simp [hp])
      fun hfin => by cases hfin
  | test =>
    simp only [hp, Option.some.injEq] at hs
    subst hs
    split
    · rename_i hend
      refine h.goChange (exclusive_change h.exclusive (by rw [hp]; rfl)) (by simp) (by simp [hp]) ?_
      intro _ hidle
      have hsw := h.switch
      rw [hidle] at hsw
      rcases hc hp hend with hf | hne | hmode
      · exact hsw.1 (.inl hf)
      · exact absurd hidle hne
      · exact hmode
    · exact h.goChange (exclusive_change h.exclusive (by rw [hp]; rfl)) (by simp) (by simp [hp])
        fun hfin => by cases hfin
  | clear =>
    simp only [hp, Option.some.injEq] at hs
    subst hs
    exact h.clearChange hp
  | assign =>
    simp only [hp, Option.some.injEq] at hs
    subst hs
    exact h.assignChange hp
  | unlock =>
    simp only [hp, Option.some.injEq] at hs
    subst hs
    refine h.goChange ?_ (by simp) (by simp [hp]) fun hfin => by cases hfin
    rw [insides_change s.changeAt]
    exact h.exclusive.turn (.unlock Thread.change (by change s.changeAt.inside = true; rw [hp]; rfl))

end change

/-! ## `SwitchMode` -/

section switch

variable {s t : VertexObjectImpl}

/-- A statement of `SwitchMode` that leaves the modes and the flag alone. -/
theorem Kept.goSwitch (h : Kept s) {o : Option Thread} {n m : ℤ} {a : SwitchAt}
    (he : Exclusive ⟨o, insides a s.changeAt s.drawAt⟩) (ha : AtSwitch s a) (hstart : a ≠ .start) :
    Kept { s with mChangeStep := n, mChangeStepCount := m, mChangeLock := o, switchAt := a } where
  exclusive := he
  switch := by cases a <;> exact ha
  same haim := h.same (haim.elim .inl fun hs => absurd hs hstart)
  change := h.change
  draw := h.draw.frame rfl fun haim => haim.elim .inl fun hs => absurd hs hstart
  outside := h.outside

theorem AtDraw.aim {p : DrawAt} (h : AtDraw s p) {mode : ℤ}
    (hfits : ∀ vm, p.drawing = some vm → Fits vm mode) :
    AtDraw { s with mChangeMode := mode, switchAt := .start } p := by
  cases p with
  | choose vm | vertex vm i | unlock vm i => exact fun _ => hfits vm rfl
  | lock vm i | target vm i => exact ⟨h.1, hfits vm rfl⟩
  | change vm i vm1 => exact ⟨h.1, fun _ => hfits vm rfl⟩
  | idle | enter scnindex | pick | sphere vm i => trivial

theorem Kept.aimSwitch (h : Kept s) {mode : ℤ} (hp : s.switchAt = .aim mode)
    (hfits : ∀ vm, s.drawAt.drawing = some vm → Fits vm mode) :
    Kept { s with mChangeMode := mode, switchAt := .start } := by
  have hsw := h.switch
  rw [hp] at hsw
  exact ⟨exclusive_switch h.exclusive (by rw [hp]; rfl), hsw.1, fun _ => hsw.2, h.change,
    h.draw.aim hfits, h.outside⟩

theorem Kept.startSwitch (h : Kept s) (hp : s.switchAt = .start) :
    Kept { s with mChangeAnimation := true, switchAt := .count } := by
  have hsw := h.switch
  rw [hp] at hsw
  have hout : s.changeAt.inside = false := change_outside h.exclusive (by rw [hp]; rfl)
  refine ⟨exclusive_switch h.exclusive (by rw [hp]; rfl), ⟨rfl, hsw⟩, fun _ => h.same (.inr hp), ?_,
    h.draw.frame rfl fun _ => .inr hp, h.outside⟩
  intro hassign
  change s.changeAt = .assign at hassign
  rw [hassign] at hout
  cases hout

theorem Kept.clearSwitch (h : Kept s) {mode : ℤ} {locked : Bool}
    (hp : s.switchAt = .clear mode locked) :
    Kept { s with mChangeAnimation := false, switchAt := .assign mode locked } := by
  have hsw := h.switch
  rw [hp] at hsw
  have hnot : ¬ Aiming { s with mChangeAnimation := false, switchAt := .assign mode locked } := by
    simp [Aiming]
  exact ⟨exclusive_switch h.exclusive (by rw [hp]; rfl), ⟨hsw, rfl⟩, fun haim => absurd haim hnot,
    fun _ => rfl, h.draw.frame rfl fun haim => absurd haim hnot, h.outside⟩

theorem Kept.assignSwitch (h : Kept s) {mode : ℤ} {locked : Bool}
    (hp : s.switchAt = .assign mode locked)
    (hc : locked = false → s.changeAt.finishing = true → s.mChangeMode = mode) :
    Kept { s with mCurrentMode := mode, switchAt := if locked then .unlock else .idle } := by
  have hsw := h.switch
  rw [hp] at hsw
  obtain ⟨hmode, hflag⟩ := hsw
  have hnot : ¬ Aiming
      { s with mCurrentMode := mode, switchAt := if locked then .unlock else .idle } := by
    cases locked <;> simp [Aiming, hflag]
  refine ⟨exclusive_switch h.exclusive (by rw [hp]; cases locked <;> rfl), ?_,
    fun haim => absurd haim hnot, h.change, h.draw.frame rfl fun haim => absurd haim hnot,
    h.outside⟩
  cases locked with
  | true => exact .inr ⟨hflag, hmode⟩
  | false =>
    refine ⟨fun hor => ?_, fun _ _ => hmode⟩
    rcases hor with hf | hfin
    · exact absurd (hflag.symm.trans hf) (by simp)
    · exact (hc rfl hfin).trans hmode

theorem Kept.unlockSwitch (h : Kept s) (hp : s.switchAt = .unlock) :
    Kept { s with mChangeLock := none, switchAt := .idle } := by
  have hsw := h.switch
  rw [hp] at hsw
  have hout : s.changeAt.inside = false := change_outside h.exclusive (by rw [hp]; rfl)
  have hexcl : Exclusive ⟨none, insides .idle s.changeAt s.drawAt⟩ := by
    rw [insides_switch s.switchAt]
    exact h.exclusive.turn
      (.unlock Thread.switch (by change s.switchAt.inside = true; rw [hp]; rfl))
  refine h.goSwitch hexcl ⟨fun hor => ?_, fun hf _ => ?_⟩ (by simp)
  · rcases hor with hf | hfin
    · rcases hsw with hon | hoff
      · exact hon.2
      · exact absurd (hoff.1.symm.trans hf) (by simp)
    · cases hb : s.changeAt <;> simp [hb, ChangeAt.inside, ChangeAt.finishing] at hout hfin
  · rcases hsw with hon | hoff
    · exact absurd (hf.symm.trans hon.1) (by simp)
    · exact hoff.2

theorem Kept.switchMode (h : Kept s) (hc : InTurn s .switch) (hs : s.switchMode = some t) :
    Kept t := by
  have hsw := h.switch
  unfold VertexObjectImpl.switchMode at hs
  cases hp : s.switchAt with
  | idle => simp [hp] at hs
  | enter mode ani =>
    rw [hp] at hsw
    simp only [hp, Option.some.injEq] at hs
    subst hs
    split
    · exact h.goSwitch (exclusive_switch h.exclusive (by rw [hp]; rfl)) hsw (by simp)
    · exact h.goSwitch (exclusive_switch h.exclusive (by rw [hp]; rfl)) hsw (by simp)
  | lock mode =>
    rw [hp] at hsw
    simp only [hp, VertexObjectImpl.lock] at hs
    split at hs
    · rename_i hfree
      obtain rfl := Option.some.inj hs
      refine h.goSwitch ?_ hsw (by simp)
      rw [insides_switch s.switchAt]
      exact h.exclusive.turn (.lock Thread.switch hfree)
    · cases hs
  | first mode =>
    rw [hp] at hsw
    simp only [hp, Option.some.injEq] at hs
    subst hs
    exact h.goSwitch (exclusive_switch h.exclusive (by rw [hp]; rfl))
      ⟨hsw, count_getCurrent s.mDualMode s.mCurrentMode⟩ (by simp)
  | second mode vm1 =>
    rw [hp] at hsw
    simp only [hp, Option.some.injEq] at hs
    subst hs
    split
    · rename_i hani
      exact h.goSwitch (exclusive_switch h.exclusive (by rw [hp]; rfl))
        ⟨hsw.1, sameCount_of_startsAnimation hsw.2 hani⟩ (by simp)
    · exact h.goSwitch (exclusive_switch h.exclusive (by rw [hp]; rfl)) hsw.1 (by simp)
  | aim mode =>
    simp only [hp, Option.some.injEq] at hs
    subst hs
    simp only [InTurn, hp] at hc
    exact h.aimSwitch hp hc
  | start =>
    simp only [hp, Option.some.injEq] at hs
    subst hs
    exact h.startSwitch hp
  | count =>
    rw [hp] at hsw
    simp only [hp, Option.some.injEq] at hs
    subst hs
    exact h.goSwitch (exclusive_switch h.exclusive (by rw [hp]; rfl)) hsw (by simp)
  | reset =>
    rw [hp] at hsw
    simp only [hp, Option.some.injEq] at hs
    subst hs
    exact h.goSwitch (exclusive_switch h.exclusive (by rw [hp]; rfl)) (.inl hsw) (by simp)
  | clear mode locked =>
    simp only [hp, Option.some.injEq] at hs
    subst hs
    exact h.clearSwitch hp
  | assign mode locked =>
    simp only [hp, Option.some.injEq] at hs
    subst hs
    refine h.assignSwitch hp fun hlocked => ?_
    subst hlocked
    simpa only [InTurn, hp] using hc
  | unlock =>
    simp only [hp, Option.some.injEq] at hs
    subst hs
    exact h.unlockSwitch hp

end switch

/-! ## `DrawSelf` -/

section draw

variable {s t : VertexObjectImpl}

theorem Kept.goDraw (h : Kept s) {o : Option Thread} {c : DrawAt}
    (he : Exclusive ⟨o, insides s.switchAt s.changeAt c⟩) (hc : AtDraw s c) :
    Kept { s with mChangeLock := o, drawAt := c } where
  exclusive := he
  switch := by
    have hsw := h.switch
    cases ha : s.switchAt <;> rw [ha] at hsw <;> exact hsw
  same := h.same
  change := h.change
  draw := hc.frame rfl id
  outside := h.outside

theorem item_eq (s : VertexObjectImpl) {vm : PVOMode} {i : ℕ} (hi : i < vm.count) :
    s.item (some vm) i = s := by
  simp [VertexObjectImpl.item, hi]

theorem Fits.getCurrent {vm : PVOMode} {mode : ℤ} (h : Fits vm mode) (dualMode : ℤ) {i : ℕ}
    (hi : i < vm.count) : ∃ v, getCurrent dualMode mode = some v ∧ i < v.count := by
  obtain ⟨c, hc, hle⟩ := h
  rw [← count_getCurrent dualMode] at hc
  obtain ⟨v, hv, rfl⟩ := Option.map_eq_some_iff.mp hc
  exact ⟨v, hv, hi.trans_le hle⟩

theorem Kept.drawSelf (h : Kept s) (hs : s.drawSelf = some t) : Kept t := by
  have hd := h.draw
  unfold VertexObjectImpl.drawSelf at hs
  cases hp : s.drawAt with
  | idle => simp [hp] at hs
  | enter scnindex =>
    simp only [hp, Option.some.injEq] at hs
    subst hs
    split
    · exact h.goDraw (exclusive_draw h.exclusive (by rw [hp]; rfl)) trivial
    · exact h.goDraw (exclusive_draw h.exclusive (by rw [hp]; rfl)) trivial
  | pick =>
    simp only [hp] at hs
    split at hs
    · obtain rfl := Option.some.inj hs
      exact h.goDraw (exclusive_draw h.exclusive (by rw [hp]; rfl)) trivial
    · rename_i vm hvm
      obtain rfl := Option.some.inj hs
      exact h.goDraw (exclusive_draw h.exclusive (by rw [hp]; rfl))
        fun haim => fits_of_sameCount hvm (h.same haim)
  | choose vm =>
    rw [hp] at hd
    simp only [hp, Option.some.injEq] at hs
    subst hs
    split
    · exact h.goDraw (exclusive_draw h.exclusive (by rw [hp]; rfl)) trivial
    · exact h.goDraw (exclusive_draw h.exclusive (by rw [hp]; rfl)) hd
  | sphere vm i =>
    simp only [hp] at hs
    split at hs
    · rename_i hi
      obtain rfl := Option.some.inj hs
      rw [item_eq s hi]
      exact h.goDraw (exclusive_draw h.exclusive (by rw [hp]; rfl)) trivial
    · obtain rfl := Option.some.inj hs
      exact h.goDraw (exclusive_draw h.exclusive (by rw [hp]; rfl)) trivial
  | vertex vm i =>
    rw [hp] at hd
    simp only [hp] at hs
    split at hs
    · rename_i hi
      obtain rfl := Option.some.inj hs
      rw [item_eq s hi]
      split
      · rename_i hf
        exact h.goDraw (exclusive_draw h.exclusive (by rw [hp]; rfl)) ⟨hi, hd (.inl hf)⟩
      · exact h.goDraw (exclusive_draw h.exclusive (by rw [hp]; rfl)) hd
    · obtain rfl := Option.some.inj hs
      exact h.goDraw (exclusive_draw h.exclusive (by rw [hp]; rfl)) trivial
  | lock vm i =>
    rw [hp] at hd
    simp only [hp, VertexObjectImpl.lock] at hs
    split at hs
    · rename_i hfree
      obtain rfl := Option.some.inj hs
      refine h.goDraw ?_ hd
      rw [insides_draw s.drawAt]
      exact h.exclusive.turn (.lock Thread.draw hfree)
    · cases hs
  | target vm i =>
    rw [hp] at hd
    simp only [hp, Option.some.injEq] at hs
    subst hs
    exact h.goDraw (exclusive_draw h.exclusive (by rw [hp]; rfl))
      ⟨hd.2.getCurrent s.mDualMode hd.1, fun _ => hd.2⟩
  | change vm i vm1 =>
    rw [hp] at hd
    simp only [hp, Option.some.injEq] at hs
    obtain ⟨⟨v, rfl, hi⟩, hfits⟩ := hd
    rw [item_eq s hi] at hs
    subst hs
    exact h.goDraw (exclusive_draw h.exclusive (by rw [hp]; rfl)) hfits
  | unlock vm i =>
    rw [hp] at hd
    simp only [hp, Option.some.injEq] at hs
    subst hs
    refine h.goDraw ?_ hd
    rw [insides_draw s.drawAt]
    exact h.exclusive.turn (.unlock Thread.draw (by change s.drawAt.inside = true; rw [hp]; rfl))

end draw

/-! ## Runs -/

theorem kept_create (mode n m : ℤ) : Kept (.create false mode n m) where
  exclusive th := by cases th <;> simp [VertexObjectImpl.create, insides, SwitchAt.inside,
    ChangeAt.inside, DrawAt.inside]
  switch := by
    refine ⟨fun hor => ?_, fun _ _ => rfl⟩
    simp [VertexObjectImpl.create, ChangeAt.finishing] at hor
  same haim := by simp [Aiming, VertexObjectImpl.create] at haim
  change _ := rfl
  draw := trivial
  outside := rfl

theorem Kept.step {s t : VertexObjectImpl} {l : Label} (h : Kept s) (hc : InTurn s l)
    (hs : step s l = some t) : Kept t := by
  cases l with
  | switchMode mode ani =>
    obtain ⟨hidle, hs⟩ := Option.ite_none_right_eq_some.mp hs
    obtain rfl := Option.some.inj hs
    exact ⟨exclusive_switch h.exclusive (by rw [hidle]; rfl), rfl,
      fun haim => h.same (haim.elim .inl fun hstart => absurd hstart (by simp)), h.change,
      h.draw.frame rfl fun haim => haim.elim .inl fun hstart => absurd hstart (by simp), h.outside⟩
  | switch => exact h.switchMode hc hs
  | change => exact h.handleChangeThread hc hs
  | drawSelf scnindex =>
    obtain ⟨hidle, hs⟩ := Option.ite_none_right_eq_some.mp hs
    obtain rfl := Option.some.inj hs
    exact h.goDraw (exclusive_draw h.exclusive (by rw [hidle]; rfl)) trivial
  | draw => exact h.drawSelf hs
  | setDualMode mode =>
    obtain ⟨-, hs⟩ := Option.ite_none_right_eq_some.mp hs
    obtain rfl := Option.some.inj hs
    refine ⟨h.exclusive, ?_, h.same, h.change, h.draw.frame rfl id, h.outside⟩
    have hsw := h.switch
    cases ha : s.switchAt <;> rw [ha] at hsw <;> exact hsw

/-- In such a run the current mode is the one last requested whenever nothing is in progress,
and every item drawn is one of its mode's. -/
theorem request_kept {mode n m : ℤ} {ls : List Label} {t : VertexObjectImpl}
    (h : Run step InTurn (.create false mode n m) ls t) :
    (Settled t → t.mCurrentMode = t.requested) ∧ t.outside = [] := by
  have hk : Kept t := h.invariant Kept (fun _ _ _ hs hc hstep => hs.step hc hstep)
    (kept_create mode n m)
  refine ⟨?_, hk.outside⟩
  rintro ⟨hflag, hassign, hidle⟩
  have hsw := hk.switch
  rw [hidle] at hsw
  exact hsw.2 hflag hassign

/-! ## Runs that end so, and runs that do not -/

instance (vm : PVOMode) (mode : ℤ) : Decidable (Fits vm mode) :=
  decidable_of_iff (∃ c ∈ count mode, vm.count ≤ c) (by simp [Fits])

instance (s : VertexObjectImpl) (l : Label) : Decidable (InTurn s l) :=
  match l with
  | .switch =>
    match h : s.switchAt with
    | .assign mode false =>
      decidable_of_iff (s.changeAt.finishing = true → s.mChangeMode = mode) (by simp [InTurn, h])
    | .aim mode =>
      decidable_of_iff (∀ vm ∈ s.drawAt.drawing, Fits vm mode) (by simp [InTurn, h])
    | .assign _ true | .idle | .enter .. | .lock _ | .first _ | .second .. | .start | .count
      | .reset | .clear .. | .unlock => .isTrue (by simp [InTurn, h])
  | .change =>
    decidable_of_iff (s.changeAt = .test → s.mChangeStepCount ≤ s.mChangeStep →
      s.mChangeAnimation = true ∨ s.switchAt ≠ .idle ∨ s.mChangeMode = s.requested) Iff.rfl
  | .switchMode .. | .drawSelf _ | .draw | .setDualMode _ => .isTrue trivial

instance (s : VertexObjectImpl) : Decidable (Settled s) :=
  inferInstanceAs (Decidable (_ ∧ _ ∧ _))

/-- An animated change to the cylinder, up to the change thread's last step. -/
def cylinderLabels : List Label :=
  Label.switchMode SCRN_CYLINDER true :: List.replicate 9 Label.switch ++ List.replicate 295 Label.change

theorem request_kept_cylinder :
    ∃ t, Run step InTurn (.create false 0 0 0) (cylinderLabels ++ List.replicate 7 Label.change) t ∧
      ((Settled t → t.mCurrentMode = t.requested) ∧ t.outside = []) := by
  have hrun : ∃ t, Run step InTurn (.create false 0 0 0)
      (cylinderLabels ++ List.replicate 7 Label.change) t ∧ Settled t := exists_run (by decide +kernel)
  obtain ⟨t, ht, -⟩ := hrun
  exact ⟨t, ht, request_kept ht⟩

/-- The change thread has looked at the flag when `SwitchMode` calls the animation off, and
writes its mode over the new one; an animation starts while a mode with more items is being
drawn; the flag was set in the memory the object was created in. -/
theorem request_lost :
    (∃ t, Run step (fun _ _ => True) (.create false 0 0 0)
      (cylinderLabels ++ Label.change :: Label.switchMode SCRN_SIX false ::
        (List.replicate 3 Label.switch ++ List.replicate 6 Label.change)) t ∧
      Settled t ∧ t.requested = SCRN_SIX ∧ t.mCurrentMode = SCRN_CYLINDER) ∧
    (∃ t, Run step (fun _ _ => True) (.create false 0 0 0)
      (Label.switchMode SCRN_FOUR false :: List.replicate 3 Label.switch ++
        Label.drawSelf 0 :: List.replicate 4 Label.draw ++
        Label.switchMode SCRN_HEMISPHERE false :: List.replicate 3 Label.switch ++
        Label.switchMode SCRN_CYLINDER true :: List.replicate 9 Label.switch ++ List.replicate 4 Label.draw) t ∧
      t.outside = [(some ⟨⟨SCRN_CYLINDER, 1⟩, 0⟩, 1)]) ∧
    ∃ t, Run step (fun _ _ => True) (.create true SCRN_SPHERE 0 0) (List.replicate 7 Label.change) t ∧
      Settled t ∧ t.requested = SCRN_HEMISPHERE ∧ t.mCurrentMode = SCRN_SPHERE :=
  ⟨exists_run (by decide +kernel), exists_run (by decide +kernel),
    exists_run (by decide +kernel)⟩

end Jagles.ViewModes
