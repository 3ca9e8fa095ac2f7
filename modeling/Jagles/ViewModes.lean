import Jagles.CriticalSections
import Jagles.GuardedRuns

set_option autoImplicit false
set_option linter.dupNamespace false

/-!
# View modes (`VertexObjectImpl`)

`SwitchMode`, the change thread and `DrawSelf` share the current mode, the mode being
changed to and the animation flag. Each of their accesses is a step of its own. `SwitchMode`
calls come one at a time, under the `_AniLock` of `ParametricManager`.
-/
namespace Jagles.ViewModes

def SCRN_NORMAL : ℤ := 0
def SCRN_HEMISPHERE : ℤ := 1
def SCRN_CYLINDER : ℤ := 2
def SCRN_EXPAND : ℤ := 3
def SCRN_UPDOWN : ℤ := 4
def SCRN_FOUR : ℤ := 5
def SCRN_VR : ℤ := 6
def SCRN_SPHERE : ℤ := 7
def SCRN_THREE : ℤ := 8
def SCRN_SIX : ℤ := 9
def SCRN_PANORAMA : ℤ := 11
def SCRN_STITCH : ℤ := 13
def SCRN_CUP : ℤ := 14
def SCRN_FOUREX : ℤ := 15

/-- `_item` is an array of `_count` items. -/
structure VOMode where
  mode : ℤ
  count : ℕ
  deriving DecidableEq

/-- The address of a mode tells which of the two lists it is in. -/
structure PVOMode extends VOMode where
  list : ℤ
  deriving DecidableEq

def vMode : List VOMode :=
  [⟨SCRN_HEMISPHERE, 1⟩, ⟨SCRN_CYLINDER, 1⟩, ⟨SCRN_EXPAND, 1⟩, ⟨SCRN_UPDOWN, 2⟩, ⟨SCRN_FOUR, 4⟩,
    ⟨SCRN_THREE, 3⟩, ⟨SCRN_SIX, 6⟩, ⟨SCRN_VR, 2⟩, ⟨SCRN_PANORAMA, 1⟩, ⟨SCRN_STITCH, 1⟩,
    ⟨SCRN_CUP, 1⟩, ⟨SCRN_FOUREX, 4⟩]

def dualVMode : List VOMode :=
  [⟨SCRN_HEMISPHERE, 1⟩, ⟨SCRN_CYLINDER, 1⟩, ⟨SCRN_EXPAND, 1⟩, ⟨SCRN_UPDOWN, 2⟩, ⟨SCRN_FOUR, 4⟩,
    ⟨SCRN_THREE, 3⟩, ⟨SCRN_SIX, 6⟩, ⟨SCRN_VR, 2⟩, ⟨SCRN_PANORAMA, 1⟩, ⟨SCRN_STITCH, 1⟩,
    ⟨SCRN_CUP, 1⟩, ⟨SCRN_FOUREX, 4⟩]

def mVertexList (dualMode : ℤ) : List VOMode := if dualMode = 0 then vMode else dualVMode

def getCurrent (dualMode mode : ℤ) : Option PVOMode :=
  ((mVertexList dualMode).find? fun vm => vm.mode = mode).map fun vm => ⟨vm, dualMode⟩

/-! ## State -/

inductive Thread where
  | switch
  | change
  | draw
  deriving DecidableEq

/-- The next statement of `SwitchMode`; `locked` says whether it is in the branch that holds
the lock. -/
inductive SwitchAt where
  | idle
  | enter (mode : ℤ) (ani : Bool)
  | lock (mode : ℤ)
  | first (mode : ℤ)
  | second (mode : ℤ) (vm1 : Option PVOMode)
  | aim (mode : ℤ)
  | start
  | count
  | reset
  | clear (mode : ℤ) (locked : Bool)
  | assign (mode : ℤ) (locked : Bool)
  | unlock
  deriving DecidableEq

def SwitchAt.inside : SwitchAt → Bool
  | .idle | .enter .. | .lock _ => false
  | .clear _ locked | .assign _ locked => locked
  | _ => true

/-- The next statement of `HandleChangeThread`. -/
inductive ChangeAt where
  | check
  | lock
  | increment
  | test
  | clear
  | assign
  | unlock
  deriving DecidableEq

def ChangeAt.inside : ChangeAt → Bool
  | .check | .lock => false
  | _ => true

/-- The next statement of `DrawSelf`, with the mode drawn and the index of the item. -/
inductive DrawAt where
  | idle
  | enter (scnindex : ℤ)
  | pick
  | choose (vm : PVOMode)
  | sphere (vm : PVOMode) (i : ℕ)
  | vertex (vm : PVOMode) (i : ℕ)
  | lock (vm : PVOMode) (i : ℕ)
  | target (vm : PVOMode) (i : ℕ)
  | change (vm : PVOMode) (i : ℕ) (vm1 : Option PVOMode)
  | unlock (vm : PVOMode) (i : ℕ)
  deriving DecidableEq

def DrawAt.inside : DrawAt → Bool
  | .target .. | .change .. | .unlock .. => true
  | _ => false

/-- The mode that is being drawn, where its items may be put beside those of the mode being
changed to. -/
def DrawAt.drawing : DrawAt → Option PVOMode
  | .choose vm | .vertex vm _ | .lock vm _ | .target vm _ | .change vm _ _ | .unlock vm _ =>
    some vm
  | _ => none

/-- `requested` is the mode of the latest `SwitchMode` call; `outside` records the items
taken from no mode or from beyond its `_count`. -/
structure VertexObjectImpl where
  mCurrentMode : ℤ
  mDualMode : ℤ
  mChangeAnimation : Bool
  mChangeMode : ℤ
  mChangeStep : ℤ
  mChangeStepCount : ℤ
  mChangeLock : Option Thread
  switchAt : SwitchAt
  changeAt : ChangeAt
  drawAt : DrawAt
  requested : ℤ
  outside : List (Option PVOMode × ℕ)

namespace VertexObjectImpl

/-- The constructor does not set the animation fields: they are what the memory held. -/
def create (mChangeAnimation : Bool) (mChangeMode mChangeStep mChangeStepCount : ℤ) :
    VertexObjectImpl where
  mCurrentMode := SCRN_HEMISPHERE
  mDualMode := 0
  mChangeAnimation := mChangeAnimation
  mChangeMode := mChangeMode
  mChangeStep := mChangeStep
  mChangeStepCount := mChangeStepCount
  mChangeLock := none
  switchAt := .idle
  changeAt := .check
  drawAt := .idle
  requested := SCRN_HEMISPHERE
  outside := []

variable (s : VertexObjectImpl)

def lock (th : Thread) (t : VertexObjectImpl) : Option VertexObjectImpl :=
  if s.mChangeLock = none then some { t with mChangeLock := some th } else none

def unlock : VertexObjectImpl := { s with mChangeLock := none }

/-! ## `SwitchMode` -/

def startsAnimation : Option PVOMode → Option PVOMode → Bool
  | some vm1, some vm2 => vm1.count = vm2.count ∧ vm1 ≠ vm2
  | _, _ => false

def switchMode : Option VertexObjectImpl :=
  match s.switchAt with
  | .idle => none
  | .enter mode ani =>
    some { s with
      switchAt := if ani = false ∨ s.mDualMode ≠ 0 then .clear mode false else .lock mode }
  | .lock mode => s.lock .switch { s with switchAt := .first mode }
  | .first mode => some { s with switchAt := .second mode (getCurrent s.mDualMode s.mCurrentMode) }
  | .second mode vm1 =>
    some { s with
      switchAt := if startsAnimation vm1 (getCurrent s.mDualMode mode) then .aim mode
        else .clear mode true }
  | .aim mode => some { s with mChangeMode := mode, switchAt := .start }
  | .start => some { s with mChangeAnimation := true, switchAt := .count }
  | .count => some { s with mChangeStepCount := 60, switchAt := .reset }
  | .reset => some { s with mChangeStep := 0, switchAt := .unlock }
  | .clear mode locked =>
    some { s with mChangeAnimation := false, switchAt := .assign mode locked }
  | .assign mode locked =>
    some { s with mCurrentMode := mode, switchAt := if locked then .unlock else .idle }
  | .unlock => some { s.unlock with switchAt := .idle }

/-! ## `HandleChangeThread` -/

def handleChangeThread : Option VertexObjectImpl :=
  match s.changeAt with
  | .check => some { s with changeAt := if s.mChangeAnimation then .lock else .check }
  | .lock => s.lock .change { s with changeAt := .increment }
  | .increment => some { s with mChangeStep := s.mChangeStep + 1, changeAt := .test }
  | .test =>
    some { s with changeAt := if s.mChangeStep ≥ s.mChangeStepCount then .clear else .unlock }
  | .clear => some { s with mChangeAnimation := false, changeAt := .assign }
  | .assign => some { s with mCurrentMode := s.mChangeMode, changeAt := .unlock }
  | .unlock => some { s.unlock with changeAt := .check }

/-! ## `DrawSelf` -/

/-- `vm->_item[i]`. -/
def item (vm : Option PVOMode) (i : ℕ) : VertexObjectImpl :=
  { s with outside := if vm.any (fun vm => i < vm.count) then s.outside else (vm, i) :: s.outside }

def drawSelf : Option VertexObjectImpl :=
  match s.drawAt with
  | .idle => none
  | .enter scnindex =>
    some { s with drawAt := if scnindex ≠ 0 ∧ s.mDualMode = 0 then .idle else .pick }
  | .pick =>
    match getCurrent s.mDualMode s.mCurrentMode with
    | none => some { s with drawAt := .idle }
    | some vm => some { s with drawAt := .choose vm }
  | .choose vm =>
    some { s with
      drawAt := if s.mDualMode ≠ 0 ∧ s.mCurrentMode ≠ SCRN_NORMAL then .sphere vm 0
        else .vertex vm 0 }
  | .sphere vm i =>
    if i < vm.count then some { s.item (some vm) i with drawAt := .sphere vm (i + 1) }
    else some { s with drawAt := .idle }
  | .vertex vm i =>
    if i < vm.count then
      some { s.item (some vm) i with
        drawAt := if s.mChangeAnimation then .lock vm i else .vertex vm (i + 1) }
    else some { s with drawAt := .idle }
  | .lock vm i => s.lock .draw { s with drawAt := .target vm i }
  | .target vm i => some { s with drawAt := .change vm i (getCurrent s.mDualMode s.mChangeMode) }
  | .change vm i vm1 => some { s.item vm1 i with drawAt := .unlock vm i }
  | .unlock vm i => some { s.unlock with drawAt := .vertex vm (i + 1) }

end VertexObjectImpl

/-! ## Steps -/

/-- `switch`, `change` and `draw` are the next statement of a thread. -/
inductive Label where
  | switchMode (mode : ℤ) (ani : Bool)
  | switch
  | change
  | drawSelf (scnindex : ℤ)
  | draw
  | setDualMode (mode : ℤ)

/-- There are two lists of modes; the one call of `SetDualMode` passes 1. -/
def step (s : VertexObjectImpl) : Label → Option VertexObjectImpl
  | .switchMode mode ani =>
    if s.switchAt = .idle then some { s with switchAt := .enter mode ani, requested := mode }
    else none
  | .switch => s.switchMode
  | .change => s.handleChangeThread
  | .drawSelf scnindex =>
    if s.drawAt = .idle then some { s with drawAt := .enter scnindex } else none
  | .draw => s.drawSelf
  | .setDualMode mode =>
    if mode = 0 ∨ mode = 1 then some { s with mDualMode := mode } else none

end Jagles.ViewModes
