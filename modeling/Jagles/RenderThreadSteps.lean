import Jagles.RenderThreadTurns

set_option autoImplicit false
set_option linter.dupNamespace false

/-!
# What a step of the drawing thread does

The steps with their conditions, in the form in which the invariants use them.
-/
namespace Jagles.RenderThread
open Throwing GLThread

variable {Runnable : Type*} {s t : GLThread Runnable} {a : Answers}

/-- How far the thread has come with a frame; zero when it is not at one. -/
def Pc.stage : Pc Runnable → ℕ
  | .createSurface | .surfaceFailed => 1
  | .surfaceCreated => 2
  | .createGL => 3
  | .onSurfaceChanged => 4
  | .onDrawFrame => 5
  | .swap | .swapFailed => 6
  | _ => 0

/-- The flags at each point of a frame. -/
structure Invariant (s : GLThread Runnable) : Prop where
  sound : Sound false s
  surface : 1 ≤ s.pc.stage → s.fields.mHaveEglSurface
  created : 2 ≤ s.pc.stage → s.mEglHelper.mEglSurface
  createEglSurface : 3 ≤ s.pc.stage → s.locals.createEglSurface = false
  createEglContext : 4 ≤ s.pc.stage → s.locals.createEglContext = false
  sizeChanged : 5 ≤ s.pc.stage → s.locals.sizeChanged = false
  gone : s.pc = .exiting ∨ s.pc = .exited → s.fields.mHaveEglSurface = false
  exited : s.fields.mExited ↔ s.pc = .exited

/-- A callback that is left out when the view is gone. -/
def GLThread.told (call : Act Runnable) (s : GLThread Runnable) : GLThread Runnable :=
  if s.view.isSome then s.act call else s

inductive Advances (a : Answers) (s : GLThread Runnable) : GLThread Runnable → Prop
  | turned {t : GLThread Runnable} (hpc : s.pc = .monitor ∨ s.pc = .waiting) (h : Turned s t) :
      Advances a s t
  | threw {t : GLThread Runnable} (hpc : s.pc = .monitor ∨ s.pc = .waiting) (h : Left s t) :
      Advances a s (t.goTo .cleanup)
  | ran (event : Runnable) (pc : Pc Runnable) (hpc : s.pc = .event event)
      (hto : pc = .monitor ∨ pc = .cleanup) : Advances a s ((s.act (.run event)).goTo pc)
  | surfaceIsOld (hpc : s.pc = .createSurface) (hc : s.locals.createEglSurface = false) :
      Advances a s (s.goTo .createGL)
  | surfaceIsNew (pc : Pc Runnable) (hpc : s.pc = .createSurface) (hc : s.locals.createEglSurface)
      (hview : s.view.isSome) (hto : pc = .surfaceCreated ∨ pc = .surfaceFailed) :
      Advances a s (({ s.destroySurfaceImp with mEglHelper.mEglSurface := true }.act
        .createWindowSurface).goTo pc)
  | surfaceIsNull (hpc : s.pc = .createSurface) (hc : s.locals.createEglSurface) :
      Advances a s (s.destroySurfaceImp.goTo .surfaceFailed)
  | surfaceCreated (hpc : s.pc = .surfaceCreated) :
      Advances a s ({ s with
        fields.mFinishedCreatingEglSurface := true
        locals.createEglSurface := false }.notifyAll.goTo .createGL)
  | surfaceFailed (hpc : s.pc = .surfaceFailed) :
      Advances a s ({ s with
        fields.mFinishedCreatingEglSurface := true
        fields.mSurfaceIsBad := true }.notifyAll.goTo .monitor)
  | contextIsOld (hpc : s.pc = .createGL) (hc : s.locals.createEglContext = false) :
      Advances a s ({ s with locals.createGlInterface := false }.goTo .onSurfaceChanged)
  | contextIsNew (hpc : s.pc = .createGL) (hc : s.locals.createEglContext) :
      Advances a s ({ { s with locals.createGlInterface := false }.told .onSurfaceCreated with
        locals.createEglContext := false }.goTo .onSurfaceChanged)
  | contextThrew (hpc : s.pc = .createGL) (hc : s.locals.createEglContext)
      (hview : s.view.isSome) :
      Advances a s (({ s with locals.createGlInterface := false }.act .onSurfaceCreated).goTo
        .cleanup)
  | sizeIsOld (hpc : s.pc = .onSurfaceChanged) (hc : s.locals.sizeChanged = false) :
      Advances a s (s.goTo .onDrawFrame)
  | sizeIsNew (hpc : s.pc = .onSurfaceChanged) (hc : s.locals.sizeChanged) :
      Advances a s ({ s.told (.onSurfaceChanged s.locals.w s.locals.h) with
        locals.sizeChanged := false }.goTo .onDrawFrame)
  | sizeThrew (hpc : s.pc = .onSurfaceChanged) (hc : s.locals.sizeChanged)
      (hview : s.view.isSome) :
      Advances a s ((s.act (.onSurfaceChanged s.locals.w s.locals.h)).goTo .cleanup)
  | drawn (hpc : s.pc = .onDrawFrame) : Advances a s ((s.told .onDrawFrame).goTo .swap)
  | drawThrew (hpc : s.pc = .onDrawFrame) (hview : s.view.isSome) :
      Advances a s ((s.act .onDrawFrame).goTo .cleanup)
  | swapped (lost : Bool) (hpc : s.pc = .swap) :
      Advances a s ({ s.act .swap with
        locals.lostEglContext := s.locals.lostEglContext || lost }.afterSwap)
  | swapFails (hpc : s.pc = .swap) : Advances a s ((s.act .swap).goTo .swapFailed)
  | swapFailed (hpc : s.pc = .swapFailed) :
      Advances a s { s with fields.mSurfaceIsBad := true }.notifyAll.afterSwap
  | released {t : GLThread Runnable} (hpc : s.pc = .cleanup) (h : Left s t)
      (hctx : a.destroyContext → t.fields.mHaveEglContext = false) :
      Advances a s (t.goTo .exiting)
  | exits (hpc : s.pc = .exiting) :
      Advances a s ({ s with fields.mExited := true }.notifyAll.goTo .exited)

/-- `createSurface` does not throw: display and configuration are there. -/
theorem createSurface_eq (h : Sound false s) (hsurf : s.fields.mHaveEglSurface) :
    s.createSurface a =
      if s.view.isSome && a.createWindowSurface then
        .ok (a.makeCurrent,
          { s.destroySurfaceImp with mEglHelper.mEglSurface := true }.act .createWindowSurface)
      else .ok (false, s.destroySurfaceImp) := by
  have hcfg := h.config (h.context_of_surface hsurf)
  have hview : s.destroySurfaceImp.view = s.view := by grind -linarith [destroySurfaceImp, act]
  simp only [createSurface, hcfg.1, hcfg.2, Bool.and_self, if_true, hview]

theorem callback_eq (call : Act Runnable) : s.callback a call =
    if s.view.isSome && a.throws then .error (s.act call) else .ok (s.told call) := by
  unfold callback told
  cases s.view <;> cases a.throws <;> rfl

theorem turn_advances (h : Sound false s) (hpc : s.pc = .monitor ∨ s.pc = .waiting) :
    Advances a s (orCleanup (s.turn a)) := by
  have hturn := turn_spec (a := a) h
  cases hr : s.turn a with
  | error t =>
    rw [hr] at hturn
    exact .threw hpc hturn
  | ok t =>
    rw [hr] at hturn
    exact .turned hpc hturn

theorem release_advances (h : Sound false s) (hpc : s.pc = .cleanup) :
    Advances a s (s.release a) := by
  have hstop := stop_spec (a := a) h
  unfold release
  cases hr : s.stopEglSurfaceLocked.stopEglContextLocked a with
  | error t =>
    rw [hr, ends_error] at hstop
    refine .released hpc hstop.1 fun hd => ?_
    rw [hstop.2] at hd
    cases hd
  | ok t =>
    rw [hr, ends_ok] at hstop
    obtain ⟨hsound, hrel, -, hsurf, hctx⟩ := hstop
    exact .released hpc ⟨hrel.toFrame, hsound, hsurf, hrel.drawn⟩ fun _ => hctx

theorem Invariant.advances (h : Invariant s) (ha : s.advance a = some t) : Advances a s t := by
  unfold GLThread.advance at ha
  cases hpc : s.pc <;> simp only [hpc, Option.some.injEq, reduceCtorEq] at ha
  case monitor => exact ha ▸ turn_advances h.sound (.inl hpc)
  case waiting =>
    split at ha
    · cases ha
    · exact Option.some.inj ha ▸ turn_advances h.sound (.inr hpc)
  case event event =>
    split at ha
    · exact ha ▸ .ran event .cleanup hpc (.inr rfl)
    · exact ha ▸ .ran event .monitor hpc (.inl rfl)
  case createSurface =>
    have hsurf := h.surface (by rw [hpc]; exact le_rfl)
    rw [GLThread.surfaceIsMissing, createSurface_eq h.sound hsurf] at ha
    subst ha
    cases hc : s.locals.createEglSurface with
    | false => exact .surfaceIsOld hpc hc
    | true =>
      simp only [if_true]
      by_cases hview : s.view.isSome && a.createWindowSurface
      · rw [if_pos hview]
        have hview' : s.view.isSome := by grind -linarith
        cases a.makeCurrent with
        | false => exact .surfaceIsNew .surfaceFailed hpc hc hview' (.inr rfl)
        | true => exact .surfaceIsNew .surfaceCreated hpc hc hview' (.inl rfl)
      · rw [if_neg hview]
        exact .surfaceIsNull hpc hc
  case surfaceCreated => exact ha ▸ .surfaceCreated hpc
  case surfaceFailed => exact ha ▸ .surfaceFailed hpc
  case createGL =>
    subst ha
    unfold GLThread.surfaceIsNew
    dsimp only
    by_cases hc : s.locals.createEglContext
    · rw [if_pos hc, callback_eq]
      split
      · exact .contextThrew hpc hc (by grind -linarith)
      · exact .contextIsNew hpc hc
    · rw [if_neg hc]
      exact .contextIsOld hpc (Bool.eq_false_iff.mpr hc)
  case onSurfaceChanged =>
    subst ha
    unfold GLThread.sizeIsNew
    by_cases hc : s.locals.sizeChanged
    · rw [if_pos hc, callback_eq]
      split
      · exact .sizeThrew hpc hc (by grind -linarith)
      · exact .sizeIsNew hpc hc
    · rw [if_neg hc]
      exact .sizeIsOld hpc (Bool.eq_false_iff.mpr hc)
  case onDrawFrame =>
    subst ha
    rw [callback_eq]
    split
    · exact .drawThrew hpc (by grind -linarith)
    · exact .drawn hpc
  case swap =>
    subst ha
    unfold GLThread.swapIsDone
    cases hswap : a.swap with
    | success =>
      have hdone := Advances.swapped (a := a) false hpc
      rw [Bool.or_false] at hdone
      exact hdone
    | contextLost =>
      have hdone := Advances.swapped (a := a) true hpc
      rw [Bool.or_true] at hdone
      exact hdone
    | other => exact .swapFails hpc
  case swapFailed => exact ha ▸ .swapFailed hpc
  case cleanup => exact ha ▸ release_advances h.sound hpc
  case exiting => exact ha ▸ .exits hpc

/-! ## The steps of the other threads -/

/-- What belongs to the drawing thread stays when another thread takes a step. -/
structure Asks (s t : GLThread Runnable) : Prop where
  pc : t.pc = s.pc
  mEglHelper : t.mEglHelper = s.mEglHelper
  locals : t.locals = s.locals
  acts : t.acts = s.acts
  view : t.view.isSome → s.view.isSome
  mExited : t.fields.mExited = s.fields.mExited
  mPaused : t.fields.mPaused = s.fields.mPaused
  mWaitingForSurface : t.fields.mWaitingForSurface = s.fields.mWaitingForSurface
  mHaveEglContext : t.fields.mHaveEglContext = s.fields.mHaveEglContext
  mHaveEglSurface : t.fields.mHaveEglSurface = s.fields.mHaveEglSurface
  mSurfaceIsBad : t.fields.mSurfaceIsBad = s.fields.mSurfaceIsBad
  mSizeChanged : !t.fields.mSizeChanged →
    !s.fields.mSizeChanged ∧ t.fields.mWidth = s.fields.mWidth ∧
      t.fields.mHeight = s.fields.mHeight

theorem Asks.trans {u : GLThread Runnable} (h : Asks s t) (h' : Asks t u) : Asks s u := by
  constructor <;> grind -linarith [Asks]

theorem loop_asks (c : Call) : Asks s (s.loop c) := by
  constructor <;> grind -linarith [loop]

theorem enter_asks (c : Call) : Asks s (s.enter c) := by
  cases c <;> constructor <;> grind -linarith [enter, notifyAll]

theorem step_asks {l : Label Runnable} (hl : ∀ a, l ≠ .draw a) (h : step s l = some t) :
    Asks s t := by
  cases l with
  | draw a => exact absurd rfl (hl a)
  | call c =>
    have hall := (enter_asks (s := s) c).trans (loop_asks c)
    simp only [step, call] at h
    grind -linarith
  | wake =>
    have hloop := fun c => loop_asks (s := s) c
    simp only [step, wake] at h
    grind -linarith
  | _ =>
    simp only [step] at h
    constructor <;> grind -linarith [notifyAll, setRenderMode, queueEvent, resizeWithin]

theorem Invariant.asks (h : Invariant s) (ha : Asks s t) : Invariant t := by
  obtain ⟨⟨hcs, hctx, hcfg, hsurf, hcre, hsc, hsize, hwait, hpaused⟩, hsurface, hcreated, hces,
    hcec, hsized, hgone, hexited⟩ := h
  refine ⟨?_, ?_, ?_, ?_, ?_, ?_, ?_, ?_⟩
  · constructor <;> grind -linarith [Asks]
  all_goals grind -linarith [Asks]

end Jagles.RenderThread
