import Jagles.GuardedRuns

set_option autoImplicit false
set_option linter.dupNamespace false

/-!
# Textures for motion tracking (`GPUMotionTracking::LoadTexture`, `DoThread`)

Without a framebuffer object a call of `LoadTexture` leaves its picture for the tracking thread,
counts `mHaveTexture` up and waits until it is zero again. The thread looks at its indices in
turn and counts down each picture that it has tracked.
-/
namespace Jagles.MotionTextures

/-- A picture, with the address of its pixels. -/
structure Picture where
  w : ℤ
  h : ℤ
  pixels : ℕ
  deriving DecidableEq

/-- Where a call of `LoadTexture` is: before each of its assignments, before the increment, or
in its loop. -/
inductive CallPc
  | width
  | height
  | pixels
  | increment
  | wait
  deriving DecidableEq

/-- A call in progress. `loaded` tells whether the thread has read its picture since it was
counted; nothing looks at it. -/
structure Call where
  scnindex : Fin 4
  picture : Picture
  pc : CallPc
  loaded : Bool
  deriving DecidableEq

/-- Where the tracking thread is: before its loop, at the test of an index, at the three values
of a picture, at `DetectTracking`, at the decrement, or asleep. -/
inductive Pc
  | start
  | check (i : Fin 3)
  | width (i : Fin 3)
  | height (i : Fin 3)
  | pixels (i : Fin 3)
  | detect (i : Fin 3)
  | decrement (i : Fin 3)
  | sleep
  deriving DecidableEq

inductive Event
  | increment (caller : ℕ)
  | DetectTracking (scrnindex : Fin 4) (picture : Picture)
  deriving DecidableEq

/-- `texture` is what the thread has read of a picture. The history has the newest event
first. -/
structure GPUMotionTracking where
  mMotion : Fin 4 → Bool
  mTexWidth : Fin 4 → ℤ
  mTexHeight : Fin 4 → ℤ
  mPixels : Fin 4 → ℕ
  mHaveTexture : Fin 4 → ℤ
  callers : ℕ → Option Call
  pc : Pc
  texture : Picture
  history : List Event

namespace GPUMotionTracking

/-- The memory of the arrays that the constructor does not clear is arbitrary. -/
def create (widths heights : Fin 4 → ℤ) (pixels : Fin 4 → ℕ) : GPUMotionTracking where
  mMotion _ := false
  mTexWidth := widths
  mTexHeight := heights
  mPixels := pixels
  mHaveTexture _ := 0
  callers _ := none
  pc := .start
  texture := ⟨0, 0, 0⟩
  history := []

/-! ## Callers -/

/-- `LoadTexture` up to its first assignment. It returns at once for another index. -/
def loadTexture (s : GPUMotionTracking) (c : ℕ) (picture : Picture) (scnindex : ℤ) :
    GPUMotionTracking :=
  if h : 0 ≤ scnindex ∧ scnindex ≤ 3 then
    { s with
      callers := Function.update s.callers c
        (some ⟨⟨scnindex.toNat, by omega⟩, picture, .width, false⟩) }
  else s

def goTo (s : GPUMotionTracking) (c : ℕ) (call : Call) (pc : CallPc) : GPUMotionTracking :=
  { s with callers := Function.update s.callers c (some { call with pc := pc }) }

/-- One step of a call. -/
def advance (s : GPUMotionTracking) (c : ℕ) (call : Call) : GPUMotionTracking :=
  match call.pc with
  | .width =>
    { s with mTexWidth := Function.update s.mTexWidth call.scnindex call.picture.w }.goTo
      c call .height
  | .height =>
    { s with mTexHeight := Function.update s.mTexHeight call.scnindex call.picture.h }.goTo
      c call .pixels
  | .pixels =>
    { s with mPixels := Function.update s.mPixels call.scnindex call.picture.pixels }.goTo
      c call .increment
  | .increment =>
    { s with
      mHaveTexture :=
        Function.update s.mHaveTexture call.scnindex (s.mHaveTexture call.scnindex + 1)
      history := .increment c :: s.history }.goTo c call .wait
  | .wait =>
    if s.mHaveTexture call.scnindex ≠ 0 then s
    else { s with callers := Function.update s.callers c none }

/-! ## The thread -/

/-- The loop goes on after an index. -/
def next (i : Fin 3) : Pc := if h : i.val + 1 < 3 then .check ⟨i.val + 1, h⟩ else .sleep

/-- The calls whose picture has been read. -/
def markLoaded (s : GPUMotionTracking) (i : Fin 4) (c : ℕ) : Option Call :=
  (s.callers c).map fun call =>
    if call.scnindex = i ∧ call.pc = .wait then { call with loaded := true } else call

/-- One step of `DoThread`. -/
def doThread (s : GPUMotionTracking) : GPUMotionTracking :=
  match s.pc with
  | .start => { s with mMotion := fun i => decide (i.val < 3), pc := .check 0 }
  | .check i => { s with pc := if s.mHaveTexture i.castSucc ≠ 0 then .width i else next i }
  | .width i =>
    { s with texture := { s.texture with w := s.mTexWidth i.castSucc }, pc := .height i }
  | .height i =>
    { s with texture := { s.texture with h := s.mTexHeight i.castSucc }, pc := .pixels i }
  | .pixels i =>
    { s with
      texture := { s.texture with pixels := s.mPixels i.castSucc }
      callers := s.markLoaded i.castSucc
      pc := .detect i }
  | .detect i =>
    { s with history := .DetectTracking i.castSucc s.texture :: s.history, pc := .decrement i }
  | .decrement i =>
    { s with
      mHaveTexture := Function.update s.mHaveTexture i.castSucc (s.mHaveTexture i.castSucc - 1)
      pc := next i }
  | .sleep => { s with pc := .check 0 }

inductive Label
  /-- A caller that is in no call begins one. -/
  | LoadTexture (c : ℕ) (picture : Picture) (scnindex : ℤ)
  | caller (c : ℕ)
  | thread
  deriving DecidableEq

def step (s : GPUMotionTracking) : Label → Option GPUMotionTracking
  | .LoadTexture c picture scnindex =>
    if s.callers c = none then some (s.loadTexture c picture scnindex) else none
  | .caller c => (s.callers c).map (s.advance c)
  | .thread => some s.doThread

end GPUMotionTracking

end Jagles.MotionTextures
