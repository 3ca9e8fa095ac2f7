import Jagles.RenderThread

set_option autoImplicit false
set_option linter.dupNamespace false

/-!
# What a turn in the monitor does

Each part of a turn keeps the flags of the drawing thread in agreement with each other and with the
helper, and wakes a caller before it takes away what the caller waits for.
-/
namespace Jagles.RenderThread
open Throwing GLThread

variable {Runnable : Type*} {s t u : GLThread Runnable} {p : Bool} {a : Answers}

/-- The flags agree. While the thread is `pausing` it may hold a surface that it has to give up. -/
structure Sound (pausing : Bool) (s : GLThread Runnable) : Prop where
  context_of_surface : s.fields.mHaveEglSurface → s.fields.mHaveEglContext
  context : s.mEglHelper.mEglContext = s.fields.mHaveEglContext
  config : s.fields.mHaveEglContext → s.mEglHelper.mEglDisplay ∧ s.mEglHelper.mEglConfig
  surface : s.mEglHelper.mEglSurface → s.fields.mHaveEglSurface
  created : s.fields.mHaveEglSurface → !s.locals.createEglSurface → s.mEglHelper.mEglSurface
  sizeChanged : s.locals.createEglSurface → s.locals.sizeChanged
  size : !s.fields.mSizeChanged → s.locals.w = s.fields.mWidth ∧ s.locals.h = s.fields.mHeight
  waiting : s.fields.mWaitingForSurface → !s.fields.mHaveEglSurface
  paused : s.fields.mPaused → s.fields.mHaveEglSurface → pausing

theorem Sound.anyhow (h : Sound p s) (hs : s.fields.mHaveEglSurface = false) (q : Bool) :
    Sound q s := by
  obtain ⟨hcs, hctx, hcfg, hsurf, hcre, hsc, hsize, hwait, hpaused⟩ := h
  constructor <;> grind -linarith

def Act.event : Act Runnable → Option Runnable
  | .run event => some event
  | _ => none

/-- The events that have been run, the newest first. -/
def GLThread.ran (s : GLThread Runnable) : List Runnable := s.acts.filterMap Act.event

/-- The part of what was done that draws. -/
def Act.draws : Act Runnable → Bool
  | .createContext | .destroyContext | .destroySurface | .run _ => false
  | _ => true

def GLThread.drawn (s : GLThread Runnable) : List (Act Runnable) := s.acts.filter Act.draws

/-- What EGL and the renderer know: the objects that exist, whether `onSurfaceCreated` has been
called with this context, the size that was last told since the surface was created, and the size
of the view when the frame was begun. -/
structure Phase where
  context : Bool := false
  surface : Bool := false
  told : Bool := false
  size : Option (ℤ × ℤ) := none
  frame : ℤ × ℤ := (0, 0)

/-- The order that EGL and the renderer rely on. -/
def Act.follow : Act Runnable → Phase → Option Phase
  | .createContext, p => if p.context then none else some { p with context := true, told := false }
  | .destroyContext, p => if p.context && !p.surface then some { p with context := false } else none
  | .createWindowSurface, p =>
    if p.context && !p.surface then some { p with surface := true, size := none } else none
  | .destroySurface, p => if p.surface then some { p with surface := false } else none
  | .take w h, p => if p.context then some { p with frame := (w, h) } else none
  | .onSurfaceCreated, p =>
    if p.context && p.surface && !p.told then some { p with told := true } else none
  | .onSurfaceChanged w h, p =>
    if p.context && p.surface && p.told then some { p with size := some (w, h) } else none
  | .onDrawFrame, p =>
    if p.context && p.surface && p.told && decide (p.size = some p.frame) then some p else none
  | .swap, p => if p.context && p.surface then some p else none
  | .run _, p => some p

/-- The phase after a history, the newest act first, if the order has been kept. -/
def phase (acts : List (Act Runnable)) : Option Phase :=
  acts.foldr (fun a p => p.bind a.follow) (some {})

theorem phase_cons {x : Act Runnable} {acts : List (Act Runnable)} {ph ph' : Phase}
    (h : phase acts = some ph) (hx : x.follow ph = some ph') : phase (x :: acts) = some ph' := by
  change (phase acts).bind x.follow = some ph'
  rw [h]
  exact hx

/-- The thread agrees with the phase. Once a method of the renderer has thrown it is not `alive`
any more. -/
structure Fits (alive : Bool) (s : GLThread Runnable) (ph : Phase) : Prop where
  surface : s.mEglHelper.mEglSurface → ph.surface
  context : s.mEglHelper.mEglContext → ph.context
  noSurface : s.view.isSome → ph.surface → s.mEglHelper.mEglSurface
  noContext : s.view.isSome → ph.context → s.mEglHelper.mEglContext
  told : s.view.isSome → alive → s.fields.mHaveEglContext → ph.told = !s.locals.createEglContext
  size : s.view.isSome → alive → s.mEglHelper.mEglSurface → s.locals.sizeChanged = false →
    ph.size = some (s.locals.w, s.locals.h)

def Rendered (alive : Bool) (s : GLThread Runnable) : Prop :=
  ∃ ph, phase s.acts = some ph ∧ Fits alive s ph

/-- A frame is drawn at the size that the view had when the frame was begun. -/
def Framed (s : GLThread Runnable) : Prop :=
  ∀ ph, phase s.acts = some ph → ph.frame = (s.locals.w, s.locals.h)

theorem Rendered.same {alive : Bool}
    (h : (t.acts, t.mEglHelper.mEglSurface, t.mEglHelper.mEglContext, t.view,
        t.fields.mHaveEglContext, t.locals.createEglContext, t.locals.sizeChanged, t.locals.w,
        t.locals.h) =
      (s.acts, s.mEglHelper.mEglSurface, s.mEglHelper.mEglContext, s.view,
        s.fields.mHaveEglContext, s.locals.createEglContext, s.locals.sizeChanged, s.locals.w,
        s.locals.h)) (hs : Rendered alive s) :
    Rendered alive t := by
  obtain ⟨ph, hph, hsurf, hctx, hsurf', hctx', htold, hsize⟩ := hs
  refine ⟨ph, by grind -linarith, ?_⟩
  constructor <;> grind -linarith

/-- What a call waits for is as far away as before. -/
structure Waits (f g : Fields Runnable) : Prop where
  mPaused : g.mPaused = f.mPaused
  mWaitingForSurface : g.mWaitingForSurface = f.mWaitingForSurface
  mFinishedCreatingEglSurface : g.mFinishedCreatingEglSurface = f.mFinishedCreatingEglSurface
  mRenderComplete : g.mRenderComplete = f.mRenderComplete
  ableToDraw : f.ableToDraw → g.ableToDraw

theorem Waits.refl (f : Fields Runnable) : Waits f f := ⟨rfl, rfl, rfl, rfl, id⟩

theorem Waits.trans {f g k : Fields Runnable} (h : Waits f g) (h' : Waits g k) : Waits f k where
  mPaused := h'.mPaused.trans h.mPaused
  mWaitingForSurface := h'.mWaitingForSurface.trans h.mWaitingForSurface
  mFinishedCreatingEglSurface :=
    h'.mFinishedCreatingEglSurface.trans h.mFinishedCreatingEglSurface
  mRenderComplete := h'.mRenderComplete.trans h.mRenderComplete
  ableToDraw hf := h'.ableToDraw (h.ableToDraw hf)

theorem Waits.waitsIn {f g : Fields Runnable} (h : Waits f g) (he : g.mExited = f.mExited)
    {c : Call} (hc : f.waitsIn c) : g.waitsIn c := by
  have hp := h.mPaused
  have hw := h.mWaitingForSurface
  have hf := h.mFinishedCreatingEglSurface
  have hr := h.mRenderComplete
  have hd := h.ableToDraw
  cases c <;> simp only [Fields.waitsIn] at hc ⊢ <;> grind -linarith

/-- What no part of a turn changes. -/
structure Frame (s t : GLThread Runnable) : Prop where
  view : t.view = s.view
  client : t.client = s.client
  ran : t.ran = s.ran
  mEventQueue : t.fields.mEventQueue = s.fields.mEventQueue
  mShouldExit : t.fields.mShouldExit = s.fields.mShouldExit
  mExited : t.fields.mExited = s.fields.mExited
  mRequestPaused : t.fields.mRequestPaused = s.fields.mRequestPaused
  mHasSurface : t.fields.mHasSurface = s.fields.mHasSurface
  rendered : ∀ alive, Rendered alive s → Rendered alive t

theorem Frame.refl (s : GLThread Runnable) : Frame s s :=
  ⟨rfl, rfl, rfl, rfl, rfl, rfl, rfl, rfl, fun _ => .same rfl⟩

theorem Frame.trans (h : Frame s t) (h' : Frame t u) : Frame s u where
  view := h'.view.trans h.view
  client := h'.client.trans h.client
  ran := h'.ran.trans h.ran
  mEventQueue := h'.mEventQueue.trans h.mEventQueue
  mShouldExit := h'.mShouldExit.trans h.mShouldExit
  mExited := h'.mExited.trans h.mExited
  mRequestPaused := h'.mRequestPaused.trans h.mRequestPaused
  mHasSurface := h'.mHasSurface.trans h.mHasSurface
  rendered alive hs := h'.rendered alive (h.rendered alive hs)

/-- A caller that still sleeps has slept before and has as much to wait for. -/
def Heeds (s t : GLThread Runnable) : Prop :=
  t.clientAsleep → s.clientAsleep ∧ Waits s.fields t.fields

theorem Heeds.refl (s : GLThread Runnable) : Heeds s s := fun h => ⟨h, Waits.refl _⟩

theorem Heeds.trans (h : Heeds s t) (h' : Heeds t u) : Heeds s u := by
  intro hu
  obtain ⟨ht, hw'⟩ := h' hu
  obtain ⟨hs, hw⟩ := h ht
  exact ⟨hs, hw.trans hw'⟩

theorem heeds_notifyAll : Heeds s t.notifyAll := by
  intro h
  cases h

/-- The parts that leave the pause state and the notification of a frame alone too. -/
structure Quiet (s t : GLThread Runnable) : Prop extends Frame s t where
  drawn : t.drawn = s.drawn
  mPaused : t.fields.mPaused = s.fields.mPaused
  mRenderComplete : t.fields.mRenderComplete = s.fields.mRenderComplete
  mWantRenderNotification :
    t.fields.mWantRenderNotification = s.fields.mWantRenderNotification
  mSizeChanged : t.fields.mSizeChanged = s.fields.mSizeChanged
  doRenderNotification : t.locals.doRenderNotification = s.locals.doRenderNotification
  wantRenderNotification : t.locals.wantRenderNotification = s.locals.wantRenderNotification

theorem Quiet.refl (s : GLThread Runnable) : Quiet s s :=
  ⟨Frame.refl s, rfl, rfl, rfl, rfl, rfl, rfl, rfl⟩

theorem Quiet.trans (h : Quiet s t) (h' : Quiet t u) : Quiet s u where
  toFrame := h.toFrame.trans h'.toFrame
  drawn := h'.drawn.trans h.drawn
  mPaused := h'.mPaused.trans h.mPaused
  mRenderComplete := h'.mRenderComplete.trans h.mRenderComplete
  mWantRenderNotification := h'.mWantRenderNotification.trans h.mWantRenderNotification
  mSizeChanged := h'.mSizeChanged.trans h.mSizeChanged
  doRenderNotification := h'.doRenderNotification.trans h.doRenderNotification
  wantRenderNotification := h'.wantRenderNotification.trans h.wantRenderNotification

/-- The parts that only give up what the thread holds. -/
structure Release (s t : GLThread Runnable) : Prop extends Quiet s t where
  mWaitingForSurface : t.fields.mWaitingForSurface = s.fields.mWaitingForSurface
  mHaveEglSurface : t.fields.mHaveEglSurface → s.fields.mHaveEglSurface

theorem Release.refl (s : GLThread Runnable) : Release s s := ⟨Quiet.refl s, rfl, id⟩

theorem Release.trans (h : Release s t) (h' : Release t u) : Release s u where
  toQuiet := h.toQuiet.trans h'.toQuiet
  mWaitingForSurface := h'.mWaitingForSurface.trans h.mWaitingForSurface
  mHaveEglSurface ht := h.mHaveEglSurface (h'.mHaveEglSurface ht)

/-- Where an exception leaves a turn. -/
structure Left (s t : GLThread Runnable) : Prop extends Frame s t where
  sound : Sound false t
  surface : t.fields.mHaveEglSurface = false
  drawn : t.drawn = s.drawn

/-! ## Giving up the surface and the context -/

theorem stopEglContextLocked_eq (h : Sound p s) : s.stopEglContextLocked a =
    if s.fields.mHaveEglContext then
      if s.view.isSome && !a.destroyContext then .error s
      else
        let t := if s.view.isSome then s.act .destroyContext else s
        .ok { t with
          mEglHelper.mEglDisplay := false
          mEglHelper.mEglContext := false
          fields.mHaveEglContext := false }.notifyAll
    else .ok s := by
  have hc := h.context
  cases hctx : s.fields.mHaveEglContext <;> cases hv : s.view <;> cases hd : a.destroyContext <;>
    rw [hctx] at hc <;>
    simp [stopEglContextLocked, finish, hc, hctx, hv, hd, notifyAll, act, bind, Except.bind, pure,
      Except.pure]

@[simp] theorem stopEglSurfaceLocked_mHaveEglSurface :
    s.stopEglSurfaceLocked.fields.mHaveEglSurface = false := by
  grind -linarith [stopEglSurfaceLocked, destroySurfaceImp, act]

@[simp] theorem stopEglSurfaceLocked_mHaveEglContext :
    s.stopEglSurfaceLocked.fields.mHaveEglContext = s.fields.mHaveEglContext := by
  grind -linarith [stopEglSurfaceLocked, destroySurfaceImp, act]

theorem stopEglSurfaceLocked_of_not (h : s.fields.mHaveEglSurface = false) :
    s.stopEglSurfaceLocked = s := by
  simp [stopEglSurfaceLocked, h]

theorem stopEglSurfaceLocked_sound (h : Sound p s) : Sound p s.stopEglSurfaceLocked := by
  obtain ⟨hcs, hctx, hcfg, hsurf, hcre, hsc, hsize, hwait, hpaused⟩ := h
  constructor <;> grind -linarith [stopEglSurfaceLocked, destroySurfaceImp, act]

theorem stopEglSurfaceLocked_rendered {alive : Bool} (hs : Rendered alive s) :
    Rendered alive s.stopEglSurfaceLocked := by
  obtain ⟨ph, hph, hsurf, hctx, hsurf', hctx', htold, hsize⟩ := hs
  by_cases hact : s.fields.mHaveEglSurface && s.mEglHelper.mEglSurface && s.view.isSome
  · have hacts : s.stopEglSurfaceLocked.acts = .destroySurface :: s.acts := by
      grind -linarith [stopEglSurfaceLocked, destroySurfaceImp, act]
    refine ⟨{ ph with surface := false }, hacts ▸ phase_cons hph ?_, ?_⟩
    · exact if_pos (by grind -linarith)
    · constructor <;> grind -linarith [stopEglSurfaceLocked, destroySurfaceImp, act]
  · refine ⟨ph, ?_, ?_⟩
    · grind -linarith [stopEglSurfaceLocked, destroySurfaceImp, act]
    · constructor <;> grind -linarith [stopEglSurfaceLocked, destroySurfaceImp, act]

theorem stopEglSurfaceLocked_release : Release s s.stopEglSurfaceLocked := by
  refine ⟨⟨⟨?_, ?_, ?_, ?_, ?_, ?_, ?_, ?_, fun _ => stopEglSurfaceLocked_rendered⟩, ?_, ?_, ?_,
    ?_, ?_, ?_, ?_⟩, ?_, ?_⟩ <;>
    grind -linarith [stopEglSurfaceLocked, destroySurfaceImp, act, ran, Act.event, drawn, Act.draws]

theorem destroyContext_rendered (h : Sound p s) (hs : s.fields.mHaveEglSurface = false)
    (hctx : s.fields.mHaveEglContext) (alive : Bool) (hr : Rendered alive s) :
    Rendered alive { (if s.view.isSome then s.act .destroyContext else s) with
      mEglHelper.mEglDisplay := false
      mEglHelper.mEglContext := false
      fields.mHaveEglContext := false }.notifyAll := by
  have hnone := h.surface
  have hsome := h.context
  obtain ⟨ph, hph, hsurf, hctx, hsurf', hctx', htold, hsize⟩ := hr
  cases hview : s.view.isSome with
  | true =>
    refine ⟨{ ph with context := false }, phase_cons hph (if_pos (by grind -linarith)), ?_⟩
    constructor <;> grind -linarith [act, notifyAll]
  | false =>
    refine ⟨ph, hph, ?_⟩
    constructor <;> grind -linarith [act, notifyAll]

theorem stopEglContextLocked_spec (h : Sound p s) (hs : s.fields.mHaveEglSurface = false) :
    Ends (fun t => Sound p t ∧ Release s t ∧ Heeds s t ∧ t.fields.mHaveEglContext = false ∧
        (s.fields.mHaveEglContext → !t.clientAsleep))
      (fun t => Left s t ∧ a.destroyContext = false) (s.stopEglContextLocked a) := by
  rw [stopEglContextLocked_eq h]
  split
  · split
    · rename_i hthrows
      exact ⟨⟨Frame.refl s, h.anyhow hs false, hs, rfl⟩, by grind -linarith⟩
    · rename_i hhave _
      have hrendered := destroyContext_rendered h hs hhave
      refine ⟨?_, ?_, heeds_notifyAll, ?_, ?_⟩
      · obtain ⟨hcs, hctx, hcfg, hsurf, hcre, hsc, hsize, hwait, hpaused⟩ := h
        constructor <;> grind -linarith [notifyAll, act]
      · refine ⟨⟨⟨?_, ?_, ?_, ?_, ?_, ?_, ?_, ?_, hrendered⟩, ?_, ?_, ?_, ?_, ?_, ?_, ?_⟩,
          ?_, ?_⟩ <;> grind -linarith [notifyAll, act, ran, Act.event, drawn, Act.draws]
      · grind -linarith [notifyAll, act]
      · grind -linarith [notifyAll]
  · exact ⟨h, Release.refl s, Heeds.refl s, by grind -linarith, by grind -linarith⟩

/-- Without a context there is no surface, so the caller hears of it when either goes. -/
theorem stop_spec (h : Sound p s) :
    Ends (fun t => Sound p t ∧ Release s t ∧ Heeds s t ∧ t.fields.mHaveEglSurface = false ∧
        t.fields.mHaveEglContext = false)
      (fun t => Left s t ∧ a.destroyContext = false)
      (s.stopEglSurfaceLocked.stopEglContextLocked a) := by
  have hstop := stopEglContextLocked_spec (a := a) (stopEglSurfaceLocked_sound h)
    stopEglSurfaceLocked_mHaveEglSurface
  refine hstop.mono ?_ ?_
  · rintro t ⟨hsound, hrel, hheeds, hctx, hwoken⟩
    refine ⟨hsound, stopEglSurfaceLocked_release.trans hrel, ?_, ?_, hctx⟩
    · cases hs : s.fields.mHaveEglSurface with
      | false =>
        rw [stopEglSurfaceLocked_of_not hs] at hheeds
        exact hheeds
      | true =>
        intro ht
        have := hwoken (by rw [stopEglSurfaceLocked_mHaveEglContext]; exact h.context_of_surface hs)
        simp [ht] at this
    · have := hrel.mHaveEglSurface
      simpa using this
  · rintro t ⟨⟨hframe, hsound, hsurf, hdrawn⟩, hthrows⟩
    have hrel := stopEglSurfaceLocked_release (s := s)
    exact ⟨⟨hrel.toFrame.trans hframe, hsound, hsurf, hdrawn.trans hrel.drawn⟩, hthrows⟩

/-! ## The update -/

theorem updatePauseState_spec (h : Sound false s) :
    Sound s.pausing s.updatePauseState ∧ Frame s s.updatePauseState ∧
      s.updatePauseState.drawn = s.drawn ∧ Heeds s s.updatePauseState ∧
      (s.pausing → !s.updatePauseState.clientAsleep) := by
  obtain ⟨hcs, hctx, hcfg, hsurf, hcre, hsc, hsize, hwait, hpaused⟩ := h
  refine ⟨?_, ?_, ?_, ?_, ?_⟩
  · constructor <;> grind -linarith [updatePauseState, pausing, notifyAll]
  · unfold updatePauseState
    split
    · exact ⟨rfl, rfl, rfl, rfl, rfl, rfl, rfl, rfl, fun _ => .same rfl⟩
    · exact Frame.refl s
  · grind -linarith [updatePauseState, notifyAll, drawn]
  · unfold updatePauseState
    split
    · exact heeds_notifyAll
    · exact Heeds.refl s
  · grind -linarith [updatePauseState, pausing, notifyAll]

/-- What the three parts that give up EGL objects have in common. -/
def Gives (p : Bool) (s t : GLThread Runnable) : Prop := Sound p t ∧ Release s t ∧ Heeds s t

theorem releaseWhenAsked_spec (h : Sound p s) :
    Ends (Gives p s) (Left s) (s.releaseWhenAsked a) := by
  unfold releaseWhenAsked
  split
  · refine ((stop_spec h).mono (fun _ => id) fun _ => And.left).bind fun t ht => ?_
    obtain ⟨hsound, hrel, hheeds, hsurf, hctx⟩ := ht
    obtain ⟨hcs, hctx, hcfg, hsurf, hcre, hsc, hsize, hwait, hpaused⟩ := hsound
    refine ⟨by constructor <;> grind -linarith, hrel.trans ?_, hheeds.trans ?_⟩
    · exact ⟨⟨⟨rfl, rfl, rfl, rfl, rfl, rfl, rfl, rfl, fun _ => .same rfl⟩, rfl, rfl, rfl, rfl, rfl,
        rfl, rfl⟩, rfl, id⟩
    · exact fun h => ⟨h, rfl, rfl, rfl, rfl, id⟩
  · exact ⟨h, Release.refl s, Heeds.refl s⟩

theorem releaseWhenLost_spec (h : Sound p s) :
    Ends (Gives p s) (Left s) (s.releaseWhenLost a) := by
  unfold releaseWhenLost
  split
  · refine ((stop_spec h).mono (fun _ => id) fun _ => And.left).bind fun t ht => ?_
    obtain ⟨hsound, hrel, hheeds, hsurf, hctx⟩ := ht
    obtain ⟨hcs, hctx, hcfg, hsurf, hcre, hsc, hsize, hwait, hpaused⟩ := hsound
    refine ⟨by constructor <;> grind -linarith, hrel.trans ?_, hheeds.trans ?_⟩
    · exact ⟨⟨⟨rfl, rfl, rfl, rfl, rfl, rfl, rfl, rfl, fun _ => .same rfl⟩, rfl, rfl, rfl, rfl, rfl,
        rfl, rfl⟩, rfl, id⟩
    · exact fun h => ⟨h, rfl, rfl, rfl, rfl, id⟩
  · exact ⟨h, Release.refl s, Heeds.refl s⟩

theorem releaseWhenPausing_spec (h : Sound p s) (hwoken : p → !s.clientAsleep) :
    Ends (Gives false s) (Left s) (s.releaseWhenPausing a p) := by
  cases p with
  | false => exact ⟨h, Release.refl s, Heeds.refl s⟩
  | true =>
    have hsound := stopEglSurfaceLocked_sound h
    have hrel := stopEglSurfaceLocked_release (s := s)
    have hsurf := stopEglSurfaceLocked_mHaveEglSurface (s := s)
    have hasleep : s.stopEglSurfaceLocked.clientAsleep = s.clientAsleep := by
      grind -linarith [stopEglSurfaceLocked, destroySurfaceImp, act]
    have hheeds : Heeds s s.stopEglSurfaceLocked := by
      intro ht
      have := hwoken rfl
      simp [← hasleep, ht] at this
    have hcond : (if true && s.fields.mHaveEglSurface then s.stopEglSurfaceLocked else s) =
        s.stopEglSurfaceLocked := by
      cases hs : s.fields.mHaveEglSurface with
      | false => rw [stopEglSurfaceLocked_of_not hs]; rfl
      | true => rfl
    unfold releaseWhenPausing
    rw [hcond]
    dsimp only
    split
    · split
      · exact ⟨hsound.anyhow hsurf false, hrel, hheeds⟩
      · refine (stopEglContextLocked_spec hsound hsurf).mono ?_ ?_
        · rintro t ⟨hsound', hrel', hheeds', -, -⟩
          have hsurf' : t.fields.mHaveEglSurface = false := by
            have := hrel'.mHaveEglSurface
            simpa using this
          exact ⟨hsound'.anyhow hsurf' false, hrel.trans hrel', hheeds.trans hheeds'⟩
        · rintro t ⟨⟨hframe, hsound', hsurf', hdrawn⟩, -⟩
          exact ⟨hrel.toFrame.trans hframe, hsound', hsurf', hdrawn.trans hrel.drawn⟩
    · exact ⟨hsound.anyhow hsurf false, hrel, hheeds⟩

theorem surfaceLost_spec (h : Sound false s) :
    Sound false s.surfaceLost ∧ Quiet s s.surfaceLost ∧ Heeds s s.surfaceLost ∧
      (!s.fields.mHasSurface → s.surfaceLost.fields.mWaitingForSurface) := by
  have hsurf := stopEglSurfaceLocked_mHaveEglSurface (s := s)
  have hquiet := (stopEglSurfaceLocked_release (s := s)).toQuiet
  unfold surfaceLost
  split
  · obtain ⟨hcs, hctx, hcfg, hsurf', hcre, hsc, hsize, hwait, hpaused⟩ :=
      stopEglSurfaceLocked_sound h
    refine ⟨by constructor <;> grind -linarith [notifyAll], hquiet.trans ?_, heeds_notifyAll,
      fun _ => rfl⟩
    exact ⟨⟨rfl, rfl, rfl, rfl, rfl, rfl, rfl, rfl, fun _ => .same rfl⟩, rfl, rfl, rfl, rfl, rfl,
      rfl, rfl⟩
  · exact ⟨h, Quiet.refl s, Heeds.refl s, by grind -linarith⟩

theorem surfaceAcquired_spec (h : Sound false s) :
    Sound false s.surfaceAcquired ∧ Quiet s s.surfaceAcquired ∧ Heeds s s.surfaceAcquired ∧
      s.surfaceAcquired.fields.mWaitingForSurface =
        (!s.fields.mHasSurface && s.fields.mWaitingForSurface) := by
  unfold surfaceAcquired
  split
  · obtain ⟨hcs, hctx, hcfg, hsurf, hcre, hsc, hsize, hwait, hpaused⟩ := h
    refine ⟨by constructor <;> grind -linarith [notifyAll], ?_, heeds_notifyAll,
      by grind -linarith [notifyAll]⟩
    exact ⟨⟨rfl, rfl, rfl, rfl, rfl, rfl, rfl, rfl, fun _ => .same rfl⟩, rfl, rfl, rfl, rfl, rfl,
      rfl, rfl⟩
  · exact ⟨h, Quiet.refl s, Heeds.refl s, by grind -linarith⟩

/-- The state after the update, when the thread has caught up with what the callers have asked. -/
structure Updated (s t : GLThread Runnable) : Prop extends Frame s t where
  drawn : t.drawn = s.drawn
  sound : Sound false t
  heeds : Heeds s t
  mPaused : t.fields.mPaused = s.fields.mRequestPaused
  mWaitingForSurface : t.fields.mWaitingForSurface = !s.fields.mHasSurface
  doRenderNotification : t.locals.doRenderNotification = false
  mRenderComplete :
    t.fields.mRenderComplete = (s.fields.mRenderComplete || s.locals.doRenderNotification)
  mWantRenderNotification :
    t.fields.mWantRenderNotification =
      (s.fields.mWantRenderNotification && !s.locals.doRenderNotification)
  mSizeChanged : t.fields.mSizeChanged = s.fields.mSizeChanged
  wantRenderNotification : t.locals.wantRenderNotification = s.locals.wantRenderNotification

theorem sendRenderNotification_updated (h : Sound false s) (hheeds : Heeds u s)
    (hq : Quiet u.updatePauseState s) (hf : Frame u u.updatePauseState)
    (hwait : s.fields.mWaitingForSurface = !u.fields.mHasSurface) :
    Updated u s.sendRenderNotification := by
  have hpaused : u.updatePauseState.fields.mPaused = u.fields.mRequestPaused := by
    grind -linarith [updatePauseState, notifyAll]
  have hcomplete : u.updatePauseState.fields.mRenderComplete = u.fields.mRenderComplete := by
    grind -linarith [updatePauseState, notifyAll]
  have hwant : u.updatePauseState.fields.mWantRenderNotification =
      u.fields.mWantRenderNotification := by grind -linarith [updatePauseState, notifyAll]
  have hsize : u.updatePauseState.fields.mSizeChanged = u.fields.mSizeChanged := by
    grind -linarith [updatePauseState, notifyAll]
  have hlocals : u.updatePauseState.locals = u.locals := by
    grind -linarith [updatePauseState, notifyAll]
  have hframe := hf.trans hq.toFrame
  have hdo := hq.doRenderNotification
  have hwantR := hq.wantRenderNotification
  have hdrawn : s.drawn = u.drawn :=
    hq.drawn.trans (by grind -linarith [updatePauseState, notifyAll, drawn])
  rw [hlocals] at hdo hwantR
  unfold sendRenderNotification
  split
  · obtain ⟨hcs, hctx, hcfg, hsurf, hcre, hsc, hsize', hwait', hpaused'⟩ := h
    refine ⟨hframe.trans ⟨rfl, rfl, rfl, rfl, rfl, rfl, rfl, rfl, fun _ => .same rfl⟩,
      hdrawn, by constructor <;> grind -linarith [notifyAll], hheeds.trans heeds_notifyAll, ?_,
      hwait, rfl,
      ?_, ?_,
      ?_, ?_⟩ <;> grind -linarith [notifyAll, Quiet]
  · refine ⟨hframe, hdrawn, h, hheeds, ?_, hwait, ?_, ?_, ?_, ?_, ?_⟩ <;> grind -linarith [Quiet]

theorem Left.of_frame (h : Frame s t) (hd : t.drawn = s.drawn) (h' : Left t u) : Left s u :=
  ⟨h.trans h'.toFrame, h'.sound, h'.surface, h'.drawn.trans hd⟩

theorem update_spec (h : Sound false s) : Ends (Updated s) (Left s) (s.update a) := by
  obtain ⟨hsound₀, hframe₀, hdrawn₀, hheeds₀, hwoken⟩ := updatePauseState_spec h
  change Ends _ _ (s.updatePauseState.releaseWhenAsked a >>= _)
  refine ((releaseWhenAsked_spec hsound₀).mono (fun _ => id) fun _ =>
    Left.of_frame hframe₀ hdrawn₀).bind ?_
  rintro t₁ ⟨hsound₁, hrel₁, hheeds₁⟩
  refine ((releaseWhenLost_spec hsound₁).mono (fun _ => id) fun _ =>
    Left.of_frame (hframe₀.trans hrel₁.toFrame) (hrel₁.drawn.trans hdrawn₀)).bind ?_
  rintro t₂ ⟨hsound₂, hrel₂, hheeds₂⟩
  have hrel := hrel₁.trans hrel₂
  have hheeds := hheeds₁.trans hheeds₂
  have hwoken₂ : s.pausing → !t₂.clientAsleep := by
    intro hp
    have := hwoken hp
    have := hheeds
    grind -linarith [Heeds]
  refine ((releaseWhenPausing_spec hsound₂ hwoken₂).mono (fun _ => id) fun _ =>
    Left.of_frame (hframe₀.trans hrel.toFrame) (hrel.drawn.trans hdrawn₀)).bind ?_
  rintro t₃ ⟨hsound₃, hrel₃, hheeds₃⟩
  obtain ⟨hsound₄, hquiet₄, hheeds₄, hwait₄⟩ := surfaceLost_spec hsound₃
  obtain ⟨hsound₅, hquiet₅, hheeds₅, hwait₅⟩ := surfaceAcquired_spec hsound₄
  have hquiet := ((hrel.trans hrel₃).toQuiet.trans hquiet₄).trans hquiet₅
  have hhas₃ := hframe₀.trans (hrel.trans hrel₃).toFrame
  refine sendRenderNotification_updated hsound₅
    (hheeds₀.trans (((hheeds.trans hheeds₃).trans hheeds₄).trans hheeds₅)) hquiet hframe₀ ?_
  rw [hwait₅, hquiet₄.mHasSurface, ← hhas₃.mHasSurface]
  cases hhas : t₃.fields.mHasSurface with
  | false => simpa [hhas] using hwait₄
  | true => rfl

/-! ## The test for a frame -/

/-- On the way to a frame. -/
structure Prepares (s t : GLThread Runnable) : Prop extends Quiet s t where
  sound : Sound false t
  heeds : Heeds s t
  mWaitingForSurface : t.fields.mWaitingForSurface = s.fields.mWaitingForSurface
  readyToDraw : t.fields.readyToDraw = s.fields.readyToDraw

theorem Prepares.trans (h : Prepares s t) (h' : Prepares t u) : Prepares s u where
  toQuiet := h.toQuiet.trans h'.toQuiet
  sound := h'.sound
  heeds := h.heeds.trans h'.heeds
  mWaitingForSurface := h'.mWaitingForSurface.trans h.mWaitingForSurface
  readyToDraw := h'.readyToDraw.trans h.readyToDraw

theorem start_cases (s : GLThread Runnable) (a : Answers) :
    (∃ config context, (context = false ∨ context = s.mEglHelper.mEglContext) ∧
      s.start a = .error
        { s with mEglHelper := ⟨true, config, context, s.mEglHelper.mEglSurface⟩ }) ∨
    (s.view.isSome ∧
      s.start a = .ok ({ s with mEglHelper := ⟨true, true, true, false⟩ }.act .createContext)) := by
  rcases s with ⟨fields, locals, helper, view, pc, asleep, client, clientAsleep, acts⟩
  cases hstart : a.start <;> cases view <;> simp only [start, hstart]
  all_goals first
    | exact .inl ⟨_, _, .inl rfl, rfl⟩
    | exact .inl ⟨_, _, .inr rfl, rfl⟩
    | exact .inr ⟨rfl, trivial⟩

theorem acquireContext_spec (h : Sound false s) :
    Ends (Prepares s) (Left s) (s.acquireContext a) := by
  unfold acquireContext
  split
  · exact ⟨Quiet.refl s, h, Heeds.refl s, rfl, rfl⟩
  · rename_i hnone
    have hctx : s.mEglHelper.mEglContext = false := by
      have := h.context
      grind -linarith
    have hsurf : s.fields.mHaveEglSurface = false := by
      have := h.context_of_surface
      grind -linarith
    obtain ⟨hcs, hctx', hcfg, hsurf', hcre, hsc, hsize, hwait, hpaused⟩ := h
    split
    · refine ⟨?_, by constructor <;> grind -linarith, fun h => ⟨h, rfl, rfl, rfl, rfl, id⟩, rfl,
        rfl⟩
      exact ⟨⟨rfl, rfl, rfl, rfl, rfl, rfl, rfl, rfl, fun _ => .same rfl⟩,
        rfl, rfl, rfl, rfl, rfl, rfl, rfl⟩
    · obtain ⟨config, context, hcontext, hstart⟩ | ⟨hview, hstart⟩ := start_cases s a
      · obtain rfl : context = s.mEglHelper.mEglContext := by
          rcases hcontext with rfl | rfl
          · exact hctx.symm
          · rfl
        rw [hstart]
        refine ⟨⟨rfl, rfl, rfl, rfl, rfl, rfl, rfl, rfl, fun _ => .same rfl⟩, ?_, hsurf, rfl⟩
        constructor <;> grind -linarith [notifyAll]
      · rw [hstart]
        refine ⟨⟨⟨rfl, rfl, rfl, rfl, rfl, rfl, rfl, rfl, ?_⟩, rfl, rfl, rfl, rfl, rfl, rfl,
          rfl⟩, by constructor <;> grind -linarith [notifyAll, act], heeds_notifyAll, rfl, rfl⟩
        rintro alive ⟨ph, hph, hsurf, hctx, hsurf', hctx', htold, hsize⟩
        refine ⟨{ ph with context := true, told := false },
          phase_cons hph (if_neg (by grind -linarith)), ?_⟩
        constructor <;> grind -linarith [notifyAll, act]

/-- A surface is taken when the thread may draw: it is not paused and the view has a surface. -/
theorem acquireSurface_spec (h : Sound false s) (hready : s.fields.readyToDraw)
    (hwait : s.fields.mWaitingForSurface = !s.fields.mHasSurface) :
    Prepares s s.acquireSurface := by
  have hpaused : s.fields.mPaused = false := by grind -linarith [Fields.readyToDraw]
  have hhas : s.fields.mHasSurface = true := by grind -linarith [Fields.readyToDraw]
  unfold acquireSurface
  split
  · obtain ⟨hcs, hctx, hcfg, hsurf, hcre, hsc, hsize, hwait', hpaused'⟩ := h
    refine ⟨?_, by constructor <;> grind -linarith, fun h => ⟨h, rfl, rfl, rfl, rfl, ?_⟩, rfl, rfl⟩
    · refine ⟨⟨rfl, rfl, rfl, rfl, rfl, rfl, rfl, rfl, ?_⟩, rfl, rfl, rfl, rfl, rfl, rfl, rfl⟩
      rintro alive ⟨ph, hph, hsurf, hctx, hsurf', hctx', htold, hsize⟩
      exact ⟨ph, hph, by constructor <;> grind -linarith⟩
    · grind -linarith [Fields.ableToDraw, Fields.readyToDraw]
  · exact ⟨Quiet.refl s, h, Heeds.refl s, rfl, rfl⟩

/-- The thread goes to sleep with nothing to draw. -/
structure Sleeps (s t : GLThread Runnable) : Prop extends Quiet s t where
  sound : Sound false t
  heeds : Heeds s t
  mWaitingForSurface : t.fields.mWaitingForSurface = s.fields.mWaitingForSurface
  pc : t.pc = .waiting
  ableToDraw : t.fields.ableToDraw = false

/-- The thread leaves the monitor for a frame. -/
structure Takes (s t : GLThread Runnable) : Prop extends Frame s t where
  sound : Sound false t
  heeds : Heeds s t
  framed : ∀ alive, Rendered alive s → Framed t
  readyToDraw : s.fields.readyToDraw
  pc : t.pc = .createSurface
  mHaveEglSurface : t.fields.mHaveEglSurface
  mSizeChanged : t.fields.mSizeChanged = false
  mRenderComplete : t.fields.mRenderComplete = s.fields.mRenderComplete
  doRenderNotification : t.locals.doRenderNotification = s.locals.doRenderNotification
  wantRenderNotification :
    t.locals.wantRenderNotification = (s.locals.wantRenderNotification ||
      s.fields.mWantRenderNotification || s.fields.mSizeChanged)

theorem sleep_spec (h : Prepares s t) (hable : t.fields.ableToDraw = false) : Sleeps s t.sleep where
  toQuiet := h.toQuiet.trans
    ⟨⟨rfl, rfl, rfl, rfl, rfl, rfl, rfl, rfl, fun _ => .same rfl⟩, rfl, rfl, rfl, rfl, rfl, rfl,
      rfl⟩
  sound := by
    obtain ⟨hcs, hctx, hcfg, hsurf, hcre, hsc, hsize, hwait, hpaused⟩ := h.sound
    constructor <;> grind -linarith [sleep]
  heeds := h.heeds.trans fun h => ⟨h, Waits.refl _⟩
  mWaitingForSurface := h.mWaitingForSurface
  pc := rfl
  ableToDraw := hable

theorem takeFrame_acts :
    s.takeFrame.acts = .take s.fields.mWidth s.fields.mHeight :: s.acts := by
  grind -linarith [takeFrame, noticeSize, notifyAll, act]

theorem takeFrame_phase {alive : Bool} (h : Sound p s) (hsurf : s.fields.mHaveEglSurface)
    (hr : Rendered alive s) :
    ∃ ph, phase s.takeFrame.acts = some ph ∧ Fits alive s.takeFrame ph ∧
      ph.frame = (s.fields.mWidth, s.fields.mHeight) := by
  have hcontext := h.context_of_surface hsurf
  have hhelper := h.context
  obtain ⟨ph, hph, hsurf, hctx, hsurf', hctx', htold, hsize⟩ := hr
  refine ⟨{ ph with frame := (s.fields.mWidth, s.fields.mHeight) }, ?_, ?_, rfl⟩
  · rw [takeFrame_acts]
    exact phase_cons hph (if_pos (by grind -linarith))
  · constructor <;> grind -linarith [takeFrame, noticeSize, notifyAll, act]

theorem takeFrame_spec (h : Prepares s t) (hready : s.fields.readyToDraw)
    (hsurf : t.fields.mHaveEglSurface) : Takes s t.takeFrame := by
  have hdo := h.doRenderNotification
  have hwantR := h.wantRenderNotification
  have hwant := h.mWantRenderNotification
  have hcomplete := h.mRenderComplete
  have hsize := h.mSizeChanged
  have hphase : ∀ alive, Rendered alive t → _ := fun alive => takeFrame_phase h.sound hsurf
  obtain ⟨hcs, hctx, hcfg, hsurf', hcre, hsc, hsize', hwait, hpaused⟩ := h.sound
  have hsound : Sound false t.takeFrame := by
    constructor <;> grind -linarith [takeFrame, noticeSize, notifyAll, act]
  have hframe : Frame t t.takeFrame := by
    refine ⟨?_, ?_, ?_, ?_, ?_, ?_, ?_, ?_, fun alive hr => ?_⟩
    case refine_9 =>
      obtain ⟨ph, hph, hfits, -⟩ := hphase alive hr
      exact ⟨ph, hph, hfits⟩
    all_goals grind -linarith [takeFrame, noticeSize, notifyAll, act, ran, Act.event]
  have hnoticed : t.takeFrame.fields.mSizeChanged = false := by
    grind -linarith [takeFrame, noticeSize, notifyAll, act]
  refine ⟨h.toFrame.trans hframe, hsound, ?_, fun alive hr ph hph => ?_, hready, ?_, ?_, hnoticed,
    ?_, ?_, ?_⟩
  · intro hasleep
    exfalso
    revert hasleep
    grind -linarith [takeFrame, noticeSize, notifyAll, act]
  · obtain ⟨ph', hph', -, hframe'⟩ := hphase alive (h.rendered alive hr)
    obtain rfl := Option.some.inj (hph.symm.trans hph')
    obtain ⟨hw, hh⟩ := hsound.size (by rw [hnoticed]; rfl)
    rw [hframe', hw, hh]
    grind -linarith [takeFrame, noticeSize, notifyAll, act]
  all_goals grind -linarith [takeFrame, noticeSize, notifyAll, act]

theorem draw_spec (h : Sound false s)
    (hwait : s.fields.mWaitingForSurface = !s.fields.mHasSurface) :
    Ends (fun t => Sleeps s t ∨ Takes s t) (Left s) (s.draw a) := by
  have hstay : Prepares s s := ⟨Quiet.refl s, h, Heeds.refl s, rfl, rfl⟩
  unfold draw
  split
  · rename_i hready
    refine (acquireContext_spec h).bind fun t ht => ?_
    have hready' : t.fields.readyToDraw := ht.readyToDraw ▸ hready
    have hwait' : t.fields.mWaitingForSurface = !t.fields.mHasSurface := by
      rw [ht.mWaitingForSurface, ht.mHasSurface, hwait]
    have hu := ht.trans (acquireSurface_spec ht.sound hready' hwait')
    rw [ends_pure]
    split
    · rename_i hsurf
      exact .inr (takeFrame_spec hu hready hsurf)
    · rename_i hsurf
      exact .inl (sleep_spec hu (by grind -linarith [Fields.ableToDraw]))
  · rename_i hready
    exact .inl (sleep_spec hstay (by grind -linarith [Fields.ableToDraw]))

/-! ## The whole turn -/

/-- What a turn comes to. Before it sleeps or draws, it has caught up with the callers. -/
inductive Turned (s : GLThread Runnable) : GLThread Runnable → Prop
  | exit (h : s.fields.mShouldExit) : Turned s { s with pc := .cleanup }
  | event (h : s.fields.mShouldExit = false) (event : Runnable) (rest : List Runnable)
      (hq : s.fields.mEventQueue = event :: rest) :
      Turned s { s with fields.mEventQueue := rest, pc := .event event }
  | sleep {t u : GLThread Runnable} (h : s.fields.mShouldExit = false)
      (hq : s.fields.mEventQueue = []) (ht : Updated s t) (hu : Sleeps t u) : Turned s u
  | take {t u : GLThread Runnable} (h : s.fields.mShouldExit = false)
      (hq : s.fields.mEventQueue = []) (ht : Updated s t) (hu : Takes t u) : Turned s u

theorem turn_spec (h : Sound false s) : Ends (Turned s) (Left s) (s.turn a) := by
  unfold turn
  cases hexit : s.fields.mShouldExit with
  | true => exact .exit hexit
  | false =>
    simp only [Bool.false_eq_true, if_false]
    cases hq : s.fields.mEventQueue with
    | cons event rest => exact .event hexit event rest hq
    | nil =>
      refine (update_spec h).bind fun t ht => ?_
      have hwait : t.fields.mWaitingForSurface = !t.fields.mHasSurface := by
        rw [ht.mWaitingForSurface, ht.mHasSurface]
      refine (draw_spec ht.sound hwait).mono ?_ fun u hu => Left.of_frame ht.toFrame ht.drawn hu
      rintro u (hu | hu)
      · exact .sleep hexit hq ht hu
      · exact .take hexit hq ht hu

end Jagles.RenderThread
