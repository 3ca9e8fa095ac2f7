import Jagles.GuardedRuns
import Jagles.Throwing

set_option autoImplicit false
set_option linter.dupNamespace false

/-!
# The rendering thread of a view (`GLSurfaceViewOrg.GLThread`)

All threads meet in the monitor `sGLThreadManager`. The thread that draws goes through its loop in
`guardedRun` and waits there when it has nothing to do; a caller waits inside the call until the
thread has done what the call is about. The calls that wait come one after the other, from the
thread of the user interface; the others may come from any thread at any time.
-/
namespace Jagles.RenderThread
open Throwing

def RENDERMODE_WHEN_DIRTY : ℤ := 0
def RENDERMODE_CONTINUOUSLY : ℤ := 1

/-- The fields that the monitor guards. -/
structure Fields (Runnable : Type*) where
  mShouldExit : Bool := false
  mExited : Bool := false
  mRequestPaused : Bool := false
  mPaused : Bool := false
  mHasSurface : Bool := false
  mSurfaceIsBad : Bool := false
  mWaitingForSurface : Bool := false
  mHaveEglContext : Bool := false
  mHaveEglSurface : Bool := false
  mFinishedCreatingEglSurface : Bool := false
  mShouldReleaseEglContext : Bool := false
  mWidth : ℤ := 0
  mHeight : ℤ := 0
  mRenderMode : ℤ := RENDERMODE_CONTINUOUSLY
  mRequestRender : Bool := true
  mWantRenderNotification : Bool := false
  mRenderComplete : Bool := false
  mEventQueue : List Runnable := []
  mSizeChanged : Bool := true
  deriving DecidableEq

/-- The variables of `guardedRun`. -/
structure Locals where
  createEglContext : Bool := false
  createEglSurface : Bool := false
  createGlInterface : Bool := false
  lostEglContext : Bool := false
  sizeChanged : Bool := false
  wantRenderNotification : Bool := false
  doRenderNotification : Bool := false
  askedToReleaseEglContext : Bool := false
  w : ℤ := 0
  h : ℤ := 0
  deriving DecidableEq

/-- Which references of the helper are not null. -/
structure EglHelper where
  mEglDisplay : Bool := false
  mEglConfig : Bool := false
  mEglContext : Bool := false
  mEglSurface : Bool := false
  deriving DecidableEq

/-- What the drawing thread asks of EGL, of the renderer and of the queued events. `take` marks
where it leaves the monitor to draw a frame, with the size of the view at that time. -/
inductive Act (Runnable : Type*)
  | createContext
  | destroyContext
  | createWindowSurface
  | destroySurface
  | take (w h : ℤ)
  | onSurfaceCreated
  | onSurfaceChanged (w h : ℤ)
  | onDrawFrame
  | swap
  | run (event : Runnable)
  deriving DecidableEq

/-- The calls that wait. -/
inductive Call
  | surfaceCreated
  | surfaceDestroyed
  | onPause
  | onResume
  | onWindowResize (w h : ℤ)
  | requestRenderAndWait
  | requestExitAndWait
  deriving DecidableEq

/-- Where the drawing thread is: at the head of its loop in the monitor, in `wait`, or outside of
the monitor at one of the parts of the loop; in the end at the `finally` of `guardedRun`, at that
of `run`, or gone. -/
inductive Pc (Runnable : Type*)
  | monitor
  | waiting
  | event (event : Runnable)
  | createSurface
  | surfaceCreated
  | surfaceFailed
  | createGL
  | onSurfaceChanged
  | onDrawFrame
  | swap
  | swapFailed
  | cleanup
  | exiting
  | exited
  deriving DecidableEq

/-- `view` is what the weak reference gives: the view's `mPreserveEGLContextOnPause`, or nothing
once the view has been collected. `client` is the call that waits. `acts` has all that was done, the
newest first; nothing looks at it. -/
structure GLThread (Runnable : Type*) where
  fields : Fields Runnable := {}
  locals : Locals := {}
  mEglHelper : EglHelper := {}
  view : Option Bool
  pc : Pc Runnable := .monitor
  asleep : Bool := false
  client : Option Call := none
  clientAsleep : Bool := false
  acts : List (Act Runnable) := []
  deriving DecidableEq

/-- How `eglGetDisplay` and the calls after it end in `EglHelper.start`. -/
inductive Start
  | displayFailed
  | chooserThrew
  | contextFailed
  | started
  deriving DecidableEq

inductive Swap
  | success
  | contextLost
  | other
  deriving DecidableEq

/-- What EGL, the factories and the callbacks answer in one step of the drawing thread. -/
structure Answers where
  start : Start := .started
  destroyContext : Bool := true
  createWindowSurface : Bool := true
  makeCurrent : Bool := true
  swap : Swap := .success
  throws : Bool := false
  deriving DecidableEq

variable {Runnable : Type*}

namespace GLThread

def notifyAll (s : GLThread Runnable) : GLThread Runnable :=
  { s with asleep := false, clientAsleep := false }

def act (a : Act Runnable) (s : GLThread Runnable) : GLThread Runnable :=
  { s with acts := a :: s.acts }

/-! ## `EglHelper` -/

def start (a : Answers) (s : GLThread Runnable) : Except (GLThread Runnable) (GLThread Runnable) :=
  let s := { s with mEglHelper.mEglDisplay := true }
  match a.start, s.view with
  | .displayFailed, _ => .error s
  | _, none => .error { s with mEglHelper.mEglConfig := false, mEglHelper.mEglContext := false }
  | .chooserThrew, some _ => .error s
  | .contextFailed, some _ =>
    .error { s with mEglHelper.mEglConfig := true, mEglHelper.mEglContext := false }
  | .started, some _ =>
    .ok ({ s with mEglHelper := ⟨true, true, true, false⟩ }.act .createContext)

def destroySurfaceImp (s : GLThread Runnable) : GLThread Runnable :=
  if s.mEglHelper.mEglSurface then
    let s := if s.view.isSome then s.act .destroySurface else s
    { s with mEglHelper.mEglSurface := false }
  else s

/-- The boolean is the value that the method returns. -/
def createSurface (a : Answers) (s : GLThread Runnable) :
    Except (GLThread Runnable) (Bool × GLThread Runnable) :=
  if s.mEglHelper.mEglDisplay && s.mEglHelper.mEglConfig then
    let s := s.destroySurfaceImp
    if s.view.isSome && a.createWindowSurface then
      let s := { s with mEglHelper.mEglSurface := true }.act .createWindowSurface
      .ok (a.makeCurrent, s)
    else .ok (false, s)
  else .error s

def finish (a : Answers) (s : GLThread Runnable) :
    Except (GLThread Runnable) (GLThread Runnable) := do
  let s ←
    if s.mEglHelper.mEglContext then
      if s.view.isNone then .ok { s with mEglHelper.mEglContext := false }
      else if a.destroyContext then
        .ok ({ s with mEglHelper.mEglContext := false }.act .destroyContext)
      else .error s
    else .ok s
  pure { s with mEglHelper.mEglDisplay := false }

/-! ## `GLThread` -/

def stopEglSurfaceLocked (s : GLThread Runnable) : GLThread Runnable :=
  if s.fields.mHaveEglSurface then
    { s with fields.mHaveEglSurface := false }.destroySurfaceImp
  else s

def stopEglContextLocked (a : Answers) (s : GLThread Runnable) :
    Except (GLThread Runnable) (GLThread Runnable) :=
  if s.fields.mHaveEglContext then do
    let s ← s.finish a
    pure { s with fields.mHaveEglContext := false }.notifyAll
  else pure s

end GLThread

def Fields.readyToDraw (f : Fields Runnable) : Bool :=
  !f.mPaused && f.mHasSurface && !f.mSurfaceIsBad && decide (0 < f.mWidth) && decide (0 < f.mHeight)
    && (f.mRequestRender || decide (f.mRenderMode = RENDERMODE_CONTINUOUSLY))

def Fields.ableToDraw (f : Fields Runnable) : Bool :=
  f.mHaveEglContext && f.mHaveEglSurface && f.readyToDraw

namespace GLThread

/-! ## One turn of the loop in the monitor

The parts of the turn, in the order of the source. -/

def pausing (s : GLThread Runnable) : Bool :=
  decide (s.fields.mPaused ≠ s.fields.mRequestPaused) && s.fields.mRequestPaused

def updatePauseState (s : GLThread Runnable) : GLThread Runnable :=
  if s.fields.mPaused ≠ s.fields.mRequestPaused then
    { s with fields.mPaused := s.fields.mRequestPaused }.notifyAll
  else s

def releaseWhenAsked (a : Answers) (s : GLThread Runnable) :
    Except (GLThread Runnable) (GLThread Runnable) :=
  if s.fields.mShouldReleaseEglContext then do
    let s ← s.stopEglSurfaceLocked.stopEglContextLocked a
    pure { s with
      fields.mShouldReleaseEglContext := false
      locals.askedToReleaseEglContext := true }
  else pure s

def releaseWhenLost (a : Answers) (s : GLThread Runnable) :
    Except (GLThread Runnable) (GLThread Runnable) :=
  if s.locals.lostEglContext then do
    let s ← s.stopEglSurfaceLocked.stopEglContextLocked a
    pure { s with locals.lostEglContext := false }
  else pure s

def releaseWhenPausing (a : Answers) (pausing : Bool) (s : GLThread Runnable) :
    Except (GLThread Runnable) (GLThread Runnable) :=
  let s := if pausing && s.fields.mHaveEglSurface then s.stopEglSurfaceLocked else s
  if pausing && s.fields.mHaveEglContext then
    if s.view.getD false then pure s else s.stopEglContextLocked a
  else pure s

def surfaceLost (s : GLThread Runnable) : GLThread Runnable :=
  if !s.fields.mHasSurface && !s.fields.mWaitingForSurface then
    { s.stopEglSurfaceLocked with
      fields.mWaitingForSurface := true
      fields.mSurfaceIsBad := false }.notifyAll
  else s

def surfaceAcquired (s : GLThread Runnable) : GLThread Runnable :=
  if s.fields.mHasSurface && s.fields.mWaitingForSurface then
    { s with fields.mWaitingForSurface := false }.notifyAll
  else s

def sendRenderNotification (s : GLThread Runnable) : GLThread Runnable :=
  if s.locals.doRenderNotification then
    { s with
      fields.mWantRenderNotification := false
      fields.mRenderComplete := true
      locals.doRenderNotification := false }.notifyAll
  else s

def acquireContext (a : Answers) (s : GLThread Runnable) :
    Except (GLThread Runnable) (GLThread Runnable) :=
  if s.fields.mHaveEglContext then pure s
  else if s.locals.askedToReleaseEglContext then
    pure { s with locals.askedToReleaseEglContext := false }
  else
    match s.start a with
    | .error s => .error s.notifyAll
    | .ok s =>
      pure { s with fields.mHaveEglContext := true, locals.createEglContext := true }.notifyAll

def acquireSurface (s : GLThread Runnable) : GLThread Runnable :=
  if s.fields.mHaveEglContext && !s.fields.mHaveEglSurface then
    { s with
      fields.mHaveEglSurface := true
      locals.createEglSurface := true
      locals.createGlInterface := true
      locals.sizeChanged := true }
  else s

def noticeSize (s : GLThread Runnable) : GLThread Runnable :=
  if s.fields.mSizeChanged then
    { s with
      locals.sizeChanged := true
      locals.w := s.fields.mWidth
      locals.h := s.fields.mHeight
      fields.mWantRenderNotification := true
      locals.createEglSurface := true
      fields.mSizeChanged := false }
  else s

/-- The thread leaves the monitor to draw a frame. -/
def takeFrame (s : GLThread Runnable) : GLThread Runnable :=
  let s := s.noticeSize
  let s := { s with fields.mRequestRender := false }.notifyAll
  let s :=
    if s.fields.mWantRenderNotification then { s with locals.wantRenderNotification := true } else s
  { s with pc := .createSurface }.act (.take s.fields.mWidth s.fields.mHeight)

def sleep (s : GLThread Runnable) : GLThread Runnable := { s with pc := .waiting, asleep := true }

/-- What the turn does up to the test of `readyToDraw`. -/
def update (a : Answers) (s : GLThread Runnable) :
    Except (GLThread Runnable) (GLThread Runnable) := do
  let pausing := s.pausing
  let s ← s.updatePauseState.releaseWhenAsked a
  let s ← s.releaseWhenLost a
  let s ← s.releaseWhenPausing a pausing
  pure s.surfaceLost.surfaceAcquired.sendRenderNotification

def draw (a : Answers) (s : GLThread Runnable) :
    Except (GLThread Runnable) (GLThread Runnable) :=
  if s.fields.readyToDraw then do
    let s ← s.acquireContext a
    let s := s.acquireSurface
    pure (if s.fields.mHaveEglSurface then s.takeFrame else s.sleep)
  else pure s.sleep

/-- `guardedRun` in the monitor, from the head of the loop to where it leaves it or waits. -/
def turn (a : Answers) (s : GLThread Runnable) :
    Except (GLThread Runnable) (GLThread Runnable) :=
  if s.fields.mShouldExit then pure { s with pc := .cleanup }
  else
    match s.fields.mEventQueue with
    | event :: rest => pure { s with fields.mEventQueue := rest, pc := .event event }
    | [] => s.update a >>= draw a

/-! ## Outside of the monitor -/

def goTo (pc : Pc Runnable) (s : GLThread Runnable) : GLThread Runnable := { s with pc := pc }

/-- An exception goes to the `finally` of `guardedRun`. -/
def orCleanup : Except (GLThread Runnable) (GLThread Runnable) → GLThread Runnable
  | .ok s => s
  | .error s => s.goTo .cleanup

/-- A method of the renderer, which is not called once the view is gone. -/
def callback (a : Answers) (call : Act Runnable) (s : GLThread Runnable) :
    Except (GLThread Runnable) (GLThread Runnable) :=
  if s.view.isSome then
    if a.throws then .error (s.act call) else .ok (s.act call)
  else .ok s

/-- The end of the loop. -/
def afterSwap (s : GLThread Runnable) : GLThread Runnable :=
  if s.locals.wantRenderNotification then
    { s with
      locals.doRenderNotification := true
      locals.wantRenderNotification := false
      pc := .monitor }
  else s.goTo .monitor

/-- `createGL` and `onSurfaceCreated`. -/
def surfaceIsNew (a : Answers) (s : GLThread Runnable) :
    Except (GLThread Runnable) (GLThread Runnable) := do
  let s := { s with locals.createGlInterface := false }
  let s ←
    if s.locals.createEglContext then do
      let s ← s.callback a .onSurfaceCreated
      pure { s with locals.createEglContext := false }
    else pure s
  pure (s.goTo .onSurfaceChanged)

def sizeIsNew (a : Answers) (s : GLThread Runnable) :
    Except (GLThread Runnable) (GLThread Runnable) := do
  let s ←
    if s.locals.sizeChanged then do
      let s ← s.callback a (.onSurfaceChanged s.locals.w s.locals.h)
      pure { s with locals.sizeChanged := false }
    else pure s
  pure (s.goTo .onDrawFrame)

def surfaceIsMissing (a : Answers) (s : GLThread Runnable) :
    Except (GLThread Runnable) (GLThread Runnable) :=
  if s.locals.createEglSurface then
    match s.createSurface a with
    | .error s => .error s
    | .ok (true, s) => .ok (s.goTo .surfaceCreated)
    | .ok (false, s) => .ok (s.goTo .surfaceFailed)
  else .ok (s.goTo .createGL)

def swapIsDone (a : Answers) (s : GLThread Runnable) : GLThread Runnable :=
  let s := s.act .swap
  match a.swap with
  | .success => s.afterSwap
  | .contextLost => { s with locals.lostEglContext := true }.afterSwap
  | .other => s.goTo .swapFailed

/-- The `finally` of `guardedRun`; an exception in it comes to the `finally` of `run` too. -/
def release (a : Answers) (s : GLThread Runnable) : GLThread Runnable :=
  match s.stopEglSurfaceLocked.stopEglContextLocked a with
  | .ok s => s.goTo .exiting
  | .error s => s.goTo .exiting

/-- The next step of the drawing thread; none while it sleeps or when it is gone. -/
def advance (a : Answers) (s : GLThread Runnable) : Option (GLThread Runnable) :=
  match s.pc with
  | .monitor => some (orCleanup (s.turn a))
  | .waiting => if s.asleep then none else some (orCleanup (s.turn a))
  | .event event =>
    some (if a.throws then (s.act (.run event)).goTo .cleanup
      else (s.act (.run event)).goTo .monitor)
  | .createSurface => some (orCleanup (s.surfaceIsMissing a))
  | .surfaceCreated =>
    some ({ s with
      fields.mFinishedCreatingEglSurface := true
      locals.createEglSurface := false }.notifyAll.goTo .createGL)
  | .surfaceFailed =>
    some ({ s with
      fields.mFinishedCreatingEglSurface := true
      fields.mSurfaceIsBad := true }.notifyAll.goTo .monitor)
  | .createGL => some (orCleanup (s.surfaceIsNew a))
  | .onSurfaceChanged => some (orCleanup (s.sizeIsNew a))
  | .onDrawFrame =>
    some (orCleanup do
      let s ← s.callback a .onDrawFrame
      pure (s.goTo .swap))
  | .swap => some (s.swapIsDone a)
  | .swapFailed => some { s with fields.mSurfaceIsBad := true }.notifyAll.afterSwap
  | .cleanup => some (s.release a)
  | .exiting => some ({ s with fields.mExited := true }.notifyAll.goTo .exited)
  | .exited => none

/-! ## The other threads -/

/-- A call up to its loop. -/
def enter (c : Call) (s : GLThread Runnable) : GLThread Runnable :=
  match c with
  | .surfaceCreated =>
    { s with fields.mHasSurface := true, fields.mFinishedCreatingEglSurface := false }.notifyAll
  | .surfaceDestroyed => { s with fields.mHasSurface := false }.notifyAll
  | .onPause => { s with fields.mRequestPaused := true }.notifyAll
  | .onResume =>
    { s with
      fields.mRequestPaused := false
      fields.mRequestRender := true
      fields.mRenderComplete := false }.notifyAll
  | .onWindowResize w h =>
    { s with
      fields.mWidth := w
      fields.mHeight := h
      fields.mSizeChanged := true
      fields.mRequestRender := true
      fields.mRenderComplete := false }.notifyAll
  | .requestRenderAndWait =>
    { s with
      fields.mWantRenderNotification := true
      fields.mRequestRender := true
      fields.mRenderComplete := false }.notifyAll
  | .requestExitAndWait => { s with fields.mShouldExit := true }.notifyAll

end GLThread

/-- The condition of the loop in which a call waits. -/
def Fields.waitsIn (f : Fields Runnable) : Call → Bool
  | .surfaceCreated => f.mWaitingForSurface && !f.mFinishedCreatingEglSurface && !f.mExited
  | .surfaceDestroyed => !f.mWaitingForSurface && !f.mExited
  | .onPause => !f.mExited && !f.mPaused
  | .onResume => !f.mExited && f.mPaused && !f.mRenderComplete
  | .onWindowResize _ _ | .requestRenderAndWait =>
    !f.mExited && !f.mPaused && !f.mRenderComplete && f.ableToDraw
  | .requestExitAndWait => !f.mExited

namespace GLThread

/-- The test of that loop: the call goes to sleep or returns. -/
def loop (c : Call) (s : GLThread Runnable) : GLThread Runnable :=
  if s.fields.waitsIn c then { s with client := some c, clientAsleep := true }
  else { s with client := none }

/-- Only `finalize` calls a method of the view when nothing else refers to it. -/
def call (c : Call) (s : GLThread Runnable) : Option (GLThread Runnable) :=
  if s.client.isNone && (s.view.isSome || decide (c = .requestExitAndWait)) then
    some ((s.enter c).loop c)
  else none

def wake (s : GLThread Runnable) : Option (GLThread Runnable) :=
  match s.client with
  | some c => if s.clientAsleep then none else some (s.loop c)
  | none => none

def setRenderMode (renderMode : ℤ) (s : GLThread Runnable) : Option (GLThread Runnable) :=
  if RENDERMODE_WHEN_DIRTY ≤ renderMode ∧ renderMode ≤ RENDERMODE_CONTINUOUSLY then
    some { s with fields.mRenderMode := renderMode }.notifyAll
  else none

def queueEvent (r : Runnable) (s : GLThread Runnable) : GLThread Runnable :=
  { s with fields.mEventQueue := s.fields.mEventQueue ++ [r] }.notifyAll

/-- A method of the renderer or an event is running, on the drawing thread. -/
def inCallback (s : GLThread Runnable) : Bool :=
  match s.pc with
  | .event _ | .createGL | .onSurfaceChanged | .onDrawFrame => true
  | _ => false

/-- `onWindowResize` when it is called on the drawing thread. -/
def resizeWithin (w h : ℤ) (s : GLThread Runnable) : GLThread Runnable :=
  { s with
    fields.mWidth := w
    fields.mHeight := h
    fields.mSizeChanged := true
    fields.mRequestRender := true
    fields.mRenderComplete := false }

end GLThread

/-- `draw` is a step of the drawing thread, `call` the start of a call that waits and `wake` its
test after a sleep. `spurious` wakes everybody, as `wait` may do by itself. -/
inductive Label (Runnable : Type*)
  | draw (a : Answers)
  | call (c : Call)
  | wake
  | spurious
  | setRenderMode (renderMode : ℤ)
  | requestRender
  | requestReleaseEglContext
  | queueEvent (r : Runnable)
  | resizeWithin (w h : ℤ)
  | setPreserveEGLContextOnPause (preserveOnPause : Bool)
  | collect

open GLThread in
def step (s : GLThread Runnable) : Label Runnable → Option (GLThread Runnable)
  | .draw a => s.advance a
  | .call c => s.call c
  | .wake => s.wake
  | .spurious => some s.notifyAll
  | .setRenderMode renderMode => s.setRenderMode renderMode
  | .requestRender => some { s with fields.mRequestRender := true }.notifyAll
  | .requestReleaseEglContext => some { s with fields.mShouldReleaseEglContext := true }.notifyAll
  | .queueEvent r => some (s.queueEvent r)
  | .resizeWithin w h => if s.inCallback then some (s.resizeWithin w h) else none
  | .setPreserveEGLContextOnPause preserveOnPause =>
    if s.view.isSome then some { s with view := some preserveOnPause } else none
  | .collect => if s.client.isNone then some { s with view := none } else none

/-- `setRenderer`: the thread of a view that keeps its context on a pause or does not. -/
def setRenderer (mPreserveEGLContextOnPause : Bool) : GLThread Runnable :=
  { view := some mPreserveEGLContextOnPause }

/-- A run of the threads from the start. -/
def Reaches (ls : List (Label Runnable)) (t : GLThread Runnable) : Prop :=
  ∃ preserve, GuardedRuns.Run step (fun _ _ => True) (setRenderer preserve) ls t

end Jagles.RenderThread
