import Jagles.RenderThreadHandover

set_option autoImplicit false
set_option linter.dupNamespace false

/-!
# No call waits for nothing

A caller sleeps only while the drawing thread can still take steps, and after a number of those that
is bounded by the queued events the caller's condition is over.
-/
namespace Jagles.RenderThread
open Throwing GLThread GuardedRuns

variable {Runnable : Type*} {s t u : GLThread Runnable} {a : Answers} {c : Call}
  {l : Label Runnable} {ls ks : List (Label Runnable)}

/-- The thread is past its loop and will tell everybody when it has gone. -/
def Pc.leaving : Pc Runnable → Bool
  | .cleanup | .exiting => true
  | _ => false

/-- A sleeper's condition still holds, unless the thread is leaving. -/
def Heard (s : GLThread Runnable) : Prop :=
  ∀ c, s.client = some c → s.clientAsleep → s.fields.waitsIn c ∨ s.pc.leaving

/-- The drawing thread sleeps only when it has caught up with the callers. -/
structure Settled (f : Fields Runnable) : Prop where
  mShouldExit : f.mShouldExit = false
  mPaused : f.mPaused = f.mRequestPaused
  mWaitingForSurface : f.mWaitingForSurface = !f.mHasSurface
  ableToDraw : f.ableToDraw = false

/-- Nobody waits for a thread that has caught up. -/
theorem Settled.waitsIn {f : Fields Runnable} (h : Settled f) (hc : f.requests c) :
    f.waitsIn c = false := by
  obtain ⟨hexit, hpaused, hwait, hable⟩ := h
  cases c <;> simp only [Fields.requests, Fields.waitsIn] at hc ⊢ <;> simp_all

theorem Heard.of_heeds (h : Heard s) (hpc : s.pc.leaving = false) (hclient : t.client = s.client)
    (hexited : t.fields.mExited = s.fields.mExited) (hheeds : Heeds s t) : Heard t := by
  intro c hc hasleep
  obtain ⟨hs, hwaits⟩ := hheeds hasleep
  rcases h c (hclient ▸ hc) hs with hw | hw
  · exact .inl (hwaits.waitsIn hexited hw)
  · rw [hpc] at hw
    cases hw

theorem Heard.leaving (h : t.pc.leaving) : Heard t := fun _ _ _ => .inr h

theorem Heard.awake (h : t.clientAsleep = false) : Heard t := by
  intro c _ hasleep
  rw [h] at hasleep
  cases hasleep

/-- A step that leaves what callers look at alone. -/
theorem Heard.same (h : Heard s) (hpc : s.pc.leaving = false) (hclient : t.client = s.client)
    (hasleep : t.clientAsleep = s.clientAsleep) (hfields : t.fields = s.fields) : Heard t := by
  refine h.of_heeds hpc hclient (by rw [hfields]) fun ht => ⟨hasleep ▸ ht, ?_⟩
  rw [hfields]
  exact Waits.refl _

theorem Heard.advance (h : Heard s) (ha : Advances a s t) : Heard t := by
  cases ha with
  | turned hpc ht =>
    have hstay : s.pc.leaving = false := by rcases hpc with hpc | hpc <;> rw [hpc] <;> rfl
    cases ht with
    | exit => exact Heard.leaving rfl
    | event hexit event rest hq =>
      exact h.of_heeds hstay rfl rfl fun hasleep => ⟨hasleep, rfl, rfl, rfl, rfl, id⟩
    | sleep hexit hq ht hu =>
      exact h.of_heeds hstay (hu.client.trans ht.client) (hu.mExited.trans ht.mExited)
        (ht.heeds.trans hu.heeds)
    | take hexit hq ht hu =>
      exact h.of_heeds hstay (hu.client.trans ht.client) (hu.mExited.trans ht.mExited)
        (ht.heeds.trans hu.heeds)
  | threw hpc ht => exact Heard.leaving rfl
  | released hpc ht => exact Heard.leaving rfl
  | ran event pc hpc hto =>
    exact h.same (by rw [hpc]; rfl) rfl rfl rfl
  | surfaceCreated hpc => exact Heard.awake rfl
  | surfaceFailed hpc => exact Heard.awake rfl
  | swapFailed hpc =>
    refine Heard.awake ?_
    unfold afterSwap
    split <;> rfl
  | exits hpc => exact Heard.awake rfl
  | swapped lost hpc =>
    refine h.same (by rw [hpc]; rfl) ?_ ?_ ?_ <;> grind -linarith [afterSwap, act, goTo]
  | surfaceIsNew pc hpc =>
    refine h.same (by rw [hpc]; rfl) ?_ ?_ ?_ <;> grind -linarith [destroySurfaceImp, act, goTo]
  | _ hpc =>
    refine h.same (by rw [hpc]; rfl) ?_ ?_ ?_ <;>
      grind -linarith [destroySurfaceImp, act, goTo, told]

/-- `onWindowResize` on the drawing thread tells nobody; with an empty size it would take away what
a caller waits for. -/
def Label.sized : Label Runnable → Bool
  | .resizeWithin w h => decide (0 < w) && decide (0 < h)
  | _ => true

theorem loop_heard : (s.loop c).client = none ∨ (s.loop c).fields.waitsIn c := by
  unfold loop
  split
  · exact .inr (by assumption)
  · exact .inl rfl

theorem Heard.loop : Heard (s.loop c) := by
  intro d hd hasleep
  obtain rfl := loop_client hd
  rcases loop_heard with h | h
  · rw [h] at hd
    cases hd
  · exact .inl h

theorem resizeWithin_waits {w h : ℤ} (hw : 0 < w) (hh : 0 < h) (hc : s.fields.waitsIn c) :
    (s.resizeWithin w h).fields.waitsIn c := by
  cases c <;>
    simp only [Fields.waitsIn, resizeWithin, Fields.ableToDraw, Fields.readyToDraw] at hc ⊢ <;>
    grind -linarith

theorem Heard.kept (h : Heard s) (hs : Invariant s) (hl : l.sized) (ht : step s l = some t) :
    Heard t := by
  cases l with
  | draw a => exact h.advance (hs.advances ht)
  | call c =>
    simp only [step, call] at ht
    split at ht
    · exact Option.some.inj ht ▸ Heard.loop
    · cases ht
  | wake =>
    simp only [step, wake] at ht
    split at ht
    · split at ht
      · cases ht
      · exact Option.some.inj ht ▸ Heard.loop
    · cases ht
  | resizeWithin w hgt =>
    simp only [step] at ht
    split at ht
    · obtain rfl := Option.some.inj ht
      intro c hc hasleep
      simp only [Label.sized, Bool.and_eq_true, decide_eq_true_eq] at hl
      exact (h c hc hasleep).imp (resizeWithin_waits hl.1 hl.2) id
    · cases ht
  | setPreserveEGLContextOnPause preserveOnPause =>
    simp only [step] at ht
    split at ht
    · obtain rfl := Option.some.inj ht
      exact h
    · cases ht
  | collect =>
    simp only [step] at ht
    split at ht
    · obtain rfl := Option.some.inj ht
      exact h
    · cases ht
  | setRenderMode renderMode =>
    simp only [step, setRenderMode] at ht
    split at ht
    · exact Option.some.inj ht ▸ Heard.awake rfl
    · cases ht
  | _ => exact Option.some.inj ht ▸ Heard.awake rfl

def Rested (s : GLThread Runnable) : Prop := s.pc = .waiting → s.asleep → Settled s.fields

theorem Rested.awake (h : t.asleep = false) : Rested t := by
  intro _ hasleep
  rw [h] at hasleep
  cases hasleep

theorem Rested.busy (h : t.pc ≠ .waiting) : Rested t := fun hpc => absurd hpc h

theorem Sleeps.settled (hexit : s.fields.mShouldExit = false) (ht : Updated s t)
    (hu : Sleeps t u) : Settled u.fields where
  mShouldExit := by rw [hu.mShouldExit, ht.mShouldExit, hexit]
  mPaused := by rw [hu.mPaused, ht.mPaused, hu.mRequestPaused, ht.mRequestPaused]
  mWaitingForSurface := by
    rw [hu.mWaitingForSurface, ht.mWaitingForSurface, hu.mHasSurface, ht.mHasSurface]
  ableToDraw := hu.ableToDraw

theorem Rested.advance (ha : Advances a s t) : Rested t := by
  cases ha with
  | turned hpc ht =>
    cases ht with
    | exit => exact Rested.busy (by simp)
    | event => exact Rested.busy (by simp)
    | sleep hexit hq ht hu => exact fun _ _ => hu.settled hexit ht
    | take hexit hq ht hu => exact Rested.busy (by rw [hu.pc]; simp)
  | ran event pc hpc hto => exact Rested.busy (by rcases hto with rfl | rfl <;> simp [goTo])
  | surfaceIsNew pc hpc hc hview hto =>
    exact Rested.busy (by rcases hto with rfl | rfl <;> simp [goTo])
  | swapped lost hpc => exact Rested.busy (by unfold afterSwap; split <;> simp [goTo])
  | swapFailed hpc => exact Rested.busy (by unfold afterSwap; split <;> simp [goTo])
  | _ => exact Rested.busy (by simp [goTo])

theorem loop_rested (h : s.asleep = false) : Rested (s.loop c) := by
  refine Rested.awake ?_
  unfold loop
  split <;> exact h

theorem Rested.kept (h : Rested s) (hs : Invariant s) (ht : step s l = some t) : Rested t := by
  cases l with
  | draw a => exact Rested.advance (hs.advances ht)
  | call c =>
    simp only [step, call] at ht
    split at ht
    · exact Option.some.inj ht ▸ loop_rested (by cases c <;> rfl)
    · cases ht
  | wake =>
    simp only [step, wake] at ht
    split at ht
    · split at ht
      · cases ht
      · obtain rfl := Option.some.inj ht
        intro hpc hasleep
        rw [loop_fields]
        unfold loop at hpc hasleep
        exact h (by split at hpc <;> exact hpc) (by split at hasleep <;> exact hasleep)
    · cases ht
  | resizeWithin w hgt =>
    simp only [step] at ht
    split at ht
    · rename_i hin
      obtain rfl := Option.some.inj ht
      refine Rested.busy fun hpc => ?_
      change s.pc = .waiting at hpc
      simp [inCallback, hpc] at hin
    · cases ht
  | setPreserveEGLContextOnPause preserveOnPause =>
    simp only [step] at ht
    split at ht
    · obtain rfl := Option.some.inj ht
      exact h
    · cases ht
  | collect =>
    simp only [step] at ht
    split at ht
    · obtain rfl := Option.some.inj ht
      exact h
    · cases ht
  | setRenderMode renderMode =>
    simp only [step, setRenderMode] at ht
    split at ht
    · exact Option.some.inj ht ▸ Rested.awake rfl
    · cases ht
  | _ => exact Option.some.inj ht ▸ Rested.awake rfl

theorem advance_none (h : s.advance a = none) : s.pc = .waiting ∧ s.asleep ∨ s.pc = .exited := by
  unfold advance at h
  split at h <;> first | cases h | skip
  · split at h
    · exact .inl ⟨by assumption, by assumption⟩
    · cases h
  · exact .inr (by assumption)

/-- No wake-up is lost: while a caller sleeps, the drawing thread can take a step, whatever EGL and
the renderer answer. -/
theorem no_deadlock {preserve : Bool}
    (hrun : Run step (fun _ l => l.sized) (setRenderer preserve) ls s)
    (hc : s.client = some c) (hasleep : s.clientAsleep) (a : Answers) :
    (step s (.draw a)).isSome := by
  have hall := hrun.invariant (fun s => Invariant s ∧ Heard s ∧ Rested s)
    (fun _ _ _ hs hl ht => ⟨hs.1.kept ht, hs.2.1.kept hs.1 hl ht, hs.2.2.kept hs.1 ht⟩)
    ⟨Invariant.start preserve, Heard.awake rfl, Rested.awake rfl⟩
  obtain ⟨hinv, hheard, hrested⟩ := hall
  have hreq := reaches_asked ⟨preserve, hrun.weaken fun _ _ _ => trivial⟩ c hc
  cases hstep : step s (.draw a) with
  | some t => rfl
  | none =>
    exfalso
    rcases advance_none hstep with ⟨hpc, hsleep⟩ | hpc
    · have hwaits := (hrested hpc hsleep).waitsIn hreq
      rcases hheard c hc hasleep with h | h
      · rw [hwaits] at h
        cases h
      · rw [hpc] at h
        cases h
    · have hexited := hinv.exited.mpr hpc
      rcases hheard c hc hasleep with h | h
      · cases c <;> simp [Fields.waitsIn, hexited] at h
      · rw [hpc] at h
        cases h

theorem no_deadlock_destroyed :
    ∃ s : GLThread ℕ, s.client = some .surfaceDestroyed ∧ s.clientAsleep = true ∧
      (step s (.draw { throws := true })).isSome := by
  obtain ⟨s, hrun, hclient, hasleep⟩ : ∃ s : GLThread ℕ,
      Run step (fun _ l => l.sized) (setRenderer true)
        (oneFrame ++ [.call .surfaceDestroyed, .spurious, .wake]) s ∧
      s.client = some .surfaceDestroyed ∧ s.clientAsleep = true := exists_run (by decide +kernel)
  exact ⟨s, hclient, hasleep, no_deadlock hrun hclient hasleep _⟩

/-! ## How long a call waits -/

/-- The calls that wait for a frame. -/
def Call.renders : Call → Bool
  | .onWindowResize _ _ | .requestRenderAndWait => true
  | _ => false

/-- A frame that a caller waits for has been noted somewhere. -/
def Noted (s : GLThread Runnable) : Prop :=
  ∀ c, s.client = some c → c.renders → s.pc.alive → s.fields.mRenderComplete = false →
    s.fields.mWantRenderNotification ∨ s.fields.mSizeChanged ∨ s.locals.wantRenderNotification ∨
      s.locals.doRenderNotification

theorem Noted.advance (h : Noted s) (ha : Advances a s t) : Noted t := by
  intro c hc hr halive hcomplete
  have hclient := ha.obeys.client
  have hs := h c (hclient ▸ hc) hr
  cases ha with
  | turned hpc ht =>
    have halive' : s.pc.alive := by rcases hpc with hpc | hpc <;> rw [hpc] <;> rfl
    cases ht with
    | exit => cases halive
    | event => exact hs halive' hcomplete
    | sleep hexit hq htt hu => grind -linarith [Updated, Sleeps, Quiet]
    | take hexit hq htt hu => grind -linarith [Updated, Takes]
  | threw hpc ht => cases halive
  | released hpc ht => cases halive
  | exits hpc => cases halive
  | ran event pc hpc hto =>
    have halive' : s.pc.alive := by rw [hpc]; rfl
    exact hs halive' hcomplete
  | surfaceIsNew pc hpc =>
    have halive' : s.pc.alive := by rw [hpc]; rfl
    grind -linarith [destroySurfaceImp, act, goTo]
  | swapped lost hpc =>
    have halive' : s.pc.alive := by rw [hpc]; rfl
    grind -linarith [afterSwap, act, goTo]
  | _ hpc =>
    have halive' : s.pc.alive := by rw [hpc]; rfl
    grind -linarith [destroySurfaceImp, act, goTo, told, afterSwap, notifyAll]

theorem enter_noted (hr : c.renders) : (s.enter c).fields.mWantRenderNotification ∨
    (s.enter c).fields.mSizeChanged := by
  cases c <;> simp [Call.renders, enter, notifyAll] at hr ⊢

theorem Noted.kept (h : Noted s) (hs : Invariant s) (ht : step s l = some t) : Noted t := by
  cases l with
  | draw a => exact h.advance (hs.advances ht)
  | call c =>
    simp only [step, call] at ht
    split at ht
    · obtain rfl := Option.some.inj ht
      intro d hd hr halive hcomplete
      obtain rfl := loop_client hd
      rw [loop_fields]
      rcases enter_noted (s := s) hr with hw | hw
      · exact .inl hw
      · exact .inr (.inl hw)
    · cases ht
  | wake =>
    simp only [step, wake] at ht
    split at ht
    · rename_i d hd
      split at ht
      · cases ht
      · obtain rfl := Option.some.inj ht
        intro e he hr
        obtain rfl := loop_client he
        have hsame := h e hd hr
        unfold loop
        split <;> exact hsame
    · cases ht
  | _ =>
    simp only [step] at ht
    intro c hc hr halive hcomplete
    have hsame := h c
    grind -linarith [notifyAll, setRenderMode, queueEvent, resizeWithin]

/-- The steps up to the head of the loop or the end of the thread. -/
def Pc.weight : Pc Runnable → ℕ
  | .createSurface => 8
  | .surfaceCreated => 7
  | .createGL => 6
  | .onSurfaceChanged => 5
  | .onDrawFrame => 4
  | .swap => 3
  | .swapFailed => 2
  | .event _ | .surfaceFailed | .exiting => 1
  | .monitor | .waiting | .exited => 0
  | .cleanup => 2

/-- The frames that have to be begun before the caller is told. -/
def frames (c : Call) (s : GLThread Runnable) : ℕ :=
  if !c.renders || s.locals.doRenderNotification ||
    (decide (1 ≤ s.pc.stage) && s.locals.wantRenderNotification) then 0 else 1

/-- How many steps of the drawing thread are left at most while the call waits. -/
def rank (c : Call) (s : GLThread Runnable) : ℕ :=
  if s.pc.alive then 3 + 2 * s.fields.mEventQueue.length + 9 * frames c s + s.pc.weight
  else s.pc.weight

/-- Only a call for a frame still waits when one is begun. -/
theorem Takes.renders (hexit : s.fields.mShouldExit = false) (ht : Updated s t) (hu : Takes t u)
    (hreq : s.fields.requests c) (hwaits : u.fields.waitsIn c) : c.renders := by
  have hready := hu.readyToDraw
  have hsurf := hu.mHaveEglSurface
  have hwait := hu.sound.waiting
  have hpaused := hu.sound.paused
  have hpaused' := ht.mPaused
  have hhas := ht.mHasSurface
  cases c <;> simp only [Call.renders, Fields.requests, Fields.waitsIn, Fields.readyToDraw] at * <;>
    grind -linarith

theorem rank_turned (hs : s.pc = .monitor ∨ s.pc = .waiting) (ht : Turned s t)
    (hreq : s.fields.requests c)
    (hnoted : c.renders → s.fields.mRenderComplete = false → s.fields.mWantRenderNotification ∨
      s.fields.mSizeChanged ∨ s.locals.wantRenderNotification ∨ s.locals.doRenderNotification)
    (hwaits : t.fields.waitsIn c) : rank c t < rank c s := by
  have halive : s.pc.alive := by rcases hs with hpc | hpc <;> rw [hpc] <;> rfl
  have hweight : s.pc.weight = 0 := by rcases hs with hpc | hpc <;> rw [hpc] <;> rfl
  have hstage : s.pc.stage = 0 := by rcases hs with hpc | hpc <;> rw [hpc] <;> rfl
  cases ht with
  | exit =>
    simp only [rank, Pc.alive, Pc.weight]
    grind -linarith
  | event hexit event rest hq =>
    simp only [rank, Pc.alive, Pc.weight, hq, List.length_cons, frames, Pc.stage]
    grind -linarith
  | sleep hexit hq htt hu =>
    have hrequests := Fields.requests_congr (hu.mHasSurface.trans htt.mHasSurface)
      (hu.mRequestPaused.trans htt.mRequestPaused) (hu.mShouldExit.trans htt.mShouldExit) hreq
    rw [(hu.settled hexit htt).waitsIn hrequests] at hwaits
    cases hwaits
  | take hexit hq htt hu =>
    have hrenders := hu.renders hexit htt hreq hwaits
    have hcomplete : t.fields.mRenderComplete = false := by
      cases c <;> simp_all [Fields.waitsIn, Call.renders]
    rw [hu.mRenderComplete, htt.mRenderComplete, Bool.or_eq_false_iff] at hcomplete
    have hnote := hnoted hrenders hcomplete.1
    have hwant : t.locals.wantRenderNotification := by
      rw [hu.wantRenderNotification, htt.wantRenderNotification, htt.mWantRenderNotification,
        htt.mSizeChanged]
      grind -linarith
    have hqueue := hu.mEventQueue.trans (htt.mEventQueue.trans hq)
    have hbefore : frames c s = 1 := by simp [frames, hrenders, hcomplete.2, hstage]
    have hafter : frames c t = 0 := by simp [frames, hu.pc, hwant, Pc.stage]
    have hranks : rank c s = 12 := by simp [rank, halive, hq, hweight, hbefore]
    have hrankt : rank c t = 11 := by simp [rank, hu.pc, hqueue, hafter, Pc.alive, Pc.weight]
    omega

theorem rank_advance (hc : s.client = some c) (hasked : Asked s) (hnoted : Noted s)
    (ha : Advances a s t) (hwaits : t.fields.waitsIn c) : rank c t < rank c s := by
  have hrender := hnoted c hc
  cases ha with
  | turned hpc ht =>
    have halive : s.pc.alive := by rcases hpc with hpc | hpc <;> rw [hpc] <;> rfl
    exact rank_turned hpc ht (hasked c hc) (fun hr => hrender hr halive) hwaits
  | threw hpc ht =>
    rcases hpc with hpc | hpc <;> simp only [rank, hpc, Pc.alive, goTo, Pc.weight] <;>
      grind -linarith
  | released hpc ht => simp [rank, hpc, Pc.alive, goTo, Pc.weight]
  | exits hpc => simp [rank, hpc, Pc.alive, goTo, Pc.weight]
  | ran event pc hpc hto =>
    rcases hto with rfl | rfl <;>
      simp only [rank, frames, hpc, Pc.alive, goTo, act, Pc.weight, Pc.stage] <;> grind -linarith
  | surfaceIsNew pc hpc hc hview hto =>
    rcases hto with rfl | rfl <;>
      simp only [rank, frames, hpc, Pc.alive, goTo, act, Pc.weight, Pc.stage] <;>
      grind -linarith [destroySurfaceImp, act]
  | surfaceIsNull hpc hc =>
    simp only [rank, frames, hpc, Pc.alive, goTo, Pc.weight, Pc.stage]
    grind -linarith [destroySurfaceImp, act]
  | surfaceFailed hpc =>
    -- the surface is bad now, which ends the calls for a frame
    have hr : c.renders = false := by
      cases c <;> simp_all [Fields.waitsIn, goTo, notifyAll, Fields.ableToDraw,
        Fields.readyToDraw, Call.renders]
    simp only [rank, frames, hpc, hr, Pc.alive, goTo, notifyAll, Pc.weight, Pc.stage]
    grind -linarith
  | swapFailed hpc =>
    simp only [rank, frames, hpc, Pc.alive, goTo, notifyAll, afterSwap, Pc.weight, Pc.stage]
    grind -linarith
  | swapped lost hpc =>
    simp only [rank, frames, hpc, Pc.alive, goTo, act, afterSwap, Pc.weight, Pc.stage]
    grind -linarith
  | _ hpc =>
    simp only [rank, frames, hpc, Pc.alive, goTo, act, told, notifyAll, Pc.weight, Pc.stage]
    grind -linarith

theorem rank_asks (hl : ∀ a, l ≠ .draw a) (hs : Invariant s) (ht : step s l = some t) :
    rank c t ≤ rank c s + 2 * l.event.length := by
  have hasks := step_asks hl ht
  have hevents := step_events hs ht
  have hran : t.ran = s.ran := congrArg (List.filterMap Act.event) hasks.acts
  have hqueue : t.fields.mEventQueue = s.fields.mEventQueue ++ l.event := by
    unfold GLThread.events at hevents
    rw [hasks.pc, hran, List.append_assoc, List.append_assoc, List.append_assoc] at hevents
    exact List.append_cancel_left (List.append_cancel_left hevents)
  simp only [rank, frames, hasks.pc, hasks.locals, hqueue, List.length_append]
  grind -linarith

/-- The steps of the drawing thread. -/
def Label.cost : Label Runnable → ℕ
  | .draw _ => 1
  | _ => 0

theorem rank_le (c : Call) (s : GLThread Runnable) :
    rank c s ≤ 20 + 2 * s.fields.mEventQueue.length := by
  have hweight : s.pc.weight ≤ 8 := by cases s.pc <;> simp [Pc.weight]
  have hframes : frames c s ≤ 1 := by
    unfold frames
    split <;> omega
  unfold rank
  split <;> omega

/-- While a call waits and its condition is not over, the drawing thread takes at most twenty steps
and two more for each event that is in the queue or comes to it. -/
theorem wait_bounded (h : Reaches ls s) (hc : s.client = some c)
    (hrun : Throughout step (fun x => x.client = some c ∧ x.fields.waitsIn c) s ks t) :
    (ks.map Label.cost).sum ≤
      20 + 2 * (s.fields.mEventQueue.length + (ks.flatMap Label.event).length) := by
  have hnoted : Noted s := by
    obtain ⟨preserve, hrun⟩ := h
    refine (hrun.invariant (fun s => Invariant s ∧ Noted s)
      (fun _ _ _ hs _ ht => ⟨hs.1.kept ht, hs.2.kept hs.1 ht⟩) ⟨Invariant.start preserve, ?_⟩).2
    rintro c ⟨⟩
  have hpaid := hrun.cost_le (fun x => Invariant x ∧ Asked x ∧ Noted x ∧ x.client = some c)
    (rank c) Label.cost (fun l => 2 * l.event.length)
    (fun x l y hx hP hy =>
      ⟨hx.1.kept hy, hx.2.1.kept hx.1 hy, hx.2.2.1.kept hx.1 hy, (hP y hy).1⟩)
    (fun x l y hx hP hy => by
      obtain ⟨hinv, hasked, hnoted, hclient⟩ := hx
      cases l with
      | draw a =>
        have hlt := rank_advance hclient hasked hnoted (hinv.advances hy) (hP y hy).2
        change rank c y + 1 ≤ rank c x + 0
        omega
      | _ => exact rank_asks (by rintro a ⟨⟩) hinv hy)
    ⟨reaches_invariant h, reaches_asked h, hnoted, hc⟩
  have hevents : (ks.map fun l => 2 * l.event.length).sum =
      2 * (ks.flatMap Label.event).length := by
    rw [List.length_flatMap, List.sum_map_mul_left]
  have hstart := rank_le c s
  omega

theorem wait_bounded_created :
    ∃ s t : GLThread ℕ, Throughout step (fun x => x.client = some .surfaceCreated ∧
        x.fields.waitsIn .surfaceCreated) s [.queueEvent 7, .draw {}, .draw {}] t ∧
      (([.queueEvent 7, .draw {}, .draw {}] : List (Label ℕ)).map Label.cost).sum ≤
        20 + 2 * (0 + 1) := by
  obtain ⟨s, hrun, hclient, hqueue, hall⟩ : ∃ s : GLThread ℕ,
      Run step (fun _ _ => True) (setRenderer false) [.draw {}, .call .surfaceCreated] s ∧
      s.client = some .surfaceCreated ∧ s.fields.mEventQueue = [] ∧
      (final step (fun x l => ((step x l).all fun y =>
        decide (y.client = some .surfaceCreated) && y.fields.waitsIn .surfaceCreated) = true) s
        [.queueEvent 7, .draw {}, .draw {}]).isSome := exists_run (by decide +kernel)
  obtain ⟨t, ht⟩ := Option.isSome_iff_exists.mp hall
  have hrun' := run_of_final ht
  have hthrough : Throughout step (fun x => x.client = some .surfaceCreated ∧
      x.fields.waitsIn .surfaceCreated) s [.queueEvent 7, .draw {}, .draw {}] t := by
    refine hrun'.weaken fun x l hx y hy => ?_
    simpa [hy] using hx
  have hbound := wait_bounded ⟨false, hrun⟩ hclient hthrough
  rw [hqueue] at hbound
  exact ⟨s, t, hthrough, hbound⟩

end Jagles.RenderThread
