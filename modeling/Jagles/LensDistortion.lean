import Jagles.AccessTraces
import Jagles.ByteMemory
import Jagles.GuardedRuns

set_option autoImplicit false
set_option linter.dupNamespace false

/-!
# The lens distortion buffer (`setDistTortion`, `OnRecvFrameEx`, `DoDisconnect`)

A lens frame brings the distortion table of a 720 degree camera, which the connector copies
into a buffer of its own. An allocation is named by its number, which is never used again;
the one that is `mDistTortion` and those that are freed are the heap of the connector.
-/
namespace Jagles.LensDistortion
open AccessTraces Traced ByteMemory GuardedRuns

def P2P_BYPASS_FRAME_TYPE_FISHEYE_PARAM : ℤ := 0
def P2P_BYPASS_FRAME_TYPE_LENS_PARAM : ℤ := 1
def P2P_BYPASS_FRAME_TYPE_GSENSER_PARAM : ℤ := 2

def eP2P_IMAGE_FISHEYE_FIX_MODE_WALL : ℤ := 0
def eP2P_IMAGE_FISHEYE_FIX_MODE_CEIL : ℤ := 1
def eP2P_IMAGE_FISHEYE_FIX_MODE_NONE : ℤ := 3

def DEVICE_TYPE_360 : ℤ := 1
def DEVICE_TYPE_720 : ℤ := 2

/-- `sizeof(ST_FISHEYE_PARAM2)`: 2 times 6 floats, then 3 integers. -/
def sizeofParam2 : ℕ := 60

/-- `mP2p` tells whether there is a link. `overread` and `doubleFreed` record that a frame was
read behind its end, and that an allocation that is not live was freed. -/
structure JAConnect where
  mP2p : Bool
  mAddBuffer : Bool
  mHasSetP720 : ℤ
  mDistTortion : Option ℕ
  mDistLen : ℤ
  live : ℕ → Option (List UInt8)
  allocated : ℕ
  overread : Bool
  doubleFreed : Bool

/-- What a frame makes the connector and its decoder do, with floats as their bits. -/
inductive Call
  | setHowBirate (rate : ℤ)
  | setIsInstallModeCome (mode : ℤ)
  | updateCircleParameter (radius centerX centerY : ℤ)
  | setFishEyeParameter360 (centerX centerY radius : ℤ)
  | setIsP360Dev (value : Bool) (centerX centerY radius : ℤ) (fixed : ℤ)
  | setFishEyeParameter (param : List ℕ) (index : ℕ)
  | doGsensorData (angles : List ℕ)
  | doOnOOBFrameAvailable (installMode scene : ℤ)
  deriving DecidableEq

namespace JAConnect

def create : JAConnect := ⟨false, false, 0, none, 0, fun _ => none, 0, false, false⟩

def free (s : JAConnect) (p : Option ℕ) : JAConnect :=
  match p with
  | none => s
  | some p =>
    match s.live p with
    | some _ => { s with live := Function.update s.live p none }
    | none => { s with doubleFreed := true }

/-- `setDistTortion`, where `pDist` has the `len` bytes that are copied. -/
def setDistTortion (s : JAConnect) (pDist : List UInt8) (len : ℤ) : JAConnect :=
  if len ≥ 8 then
    let s := { s.free s.mDistTortion with mDistTortion := none }
    { s with
      mDistTortion := some s.allocated
      mDistLen := len
      live := Function.update s.live s.allocated (some pDist)
      allocated := s.allocated + 1 }
  else s

def setHasSetP720 (s : JAConnect) (pHasSet : Bool) : JAConnect :=
  { s with mHasSetP720 := if pHasSet then DEVICE_TYPE_720 else 0 }

def setHasSetP360 (s : JAConnect) (pSet : Bool) : JAConnect :=
  { s with mHasSetP720 := if pSet then DEVICE_TYPE_360 else 0 }

/-- `GetHasSetP720`: the screen has taken the parameters, or there are none. -/
def getHasSetP720 (s : JAConnect) : Bool := s.mHasSetP720 == DEVICE_TYPE_720 || s.mDistLen == 0

def doOpenChannel (s : JAConnect) (bOpen : Bool) : JAConnect :=
  if !s.mP2p then s else { s with mAddBuffer := bOpen, mHasSetP720 := 0 }

def doDisconnect (s : JAConnect) : JAConnect :=
  let s := { s with mAddBuffer := false }
  if s.mHasSetP720 ≠ 0 then
    let s := { s with mHasSetP720 := 0 }
    { s.free s.mDistTortion with mDistLen := 0 }
  else s

end JAConnect

/-! ## Reading a frame -/

/-- `n` words of `size` bytes from an offset of a frame on. -/
def readWords (frame : List UInt8) (offset size n : ℕ) : Traced ℕ (List ℕ) :=
  readAll ((List.range (size * n)).map (offset + ·))
    ((List.range n).map fun k => loadLE (fun i => frame.getD i 0) (offset + size * k) size)

def readInt (frame : List UInt8) (offset : ℕ) : Traced ℕ ℤ :=
  (fun v : List ℕ => (v.headD 0 : ℤ).bmod (2 ^ 32)) <$> readWords frame offset 4 1

/-- `memcpy` of `n` bytes of a frame. -/
def readBytes (frame : List UInt8) (offset n : ℕ) : Traced ℕ (List UInt8) :=
  readAll ((List.range n).map (offset + ·)) ((frame.drop offset).take n)

/-- What a frame with the parameters of a 360 degree camera leads to. -/
def fisheyeCalls (version fixMode radius centerX centerY : ℤ) : List Call :=
  let scene := if fixMode = eP2P_IMAGE_FISHEYE_FIX_MODE_WALL then 180
    else if fixMode = eP2P_IMAGE_FISHEYE_FIX_MODE_CEIL then 360 else 0
  let circle := if radius ≠ 0 then
      [.updateCircleParameter radius centerX centerY,
        .setFishEyeParameter360 centerX centerY radius,
        .setIsP360Dev true centerX centerY radius (if fixMode ≠ 0 then 0 else 1)]
    else [.setIsP360Dev false 0 0 0 0]
  (if version = 0x01000003 then [.setHowBirate 3] else []) ++ [.setIsInstallModeCome fixMode] ++
    circle ++ [.doOnOOBFrameAvailable fixMode scene]

/-- The parameters of a 360 degree camera, read in a copy of the frame. -/
def readFisheyeParam (frame : List UInt8) : Traced ℕ (List Call) := do
  let _ ← readBytes frame 0 frame.length
  let version ← readInt frame 60
  let fixMode ← readInt frame 56
  let radius ← readInt frame 16
  let centerX ← readInt frame 8
  let centerY ← readInt frame 12
  return fisheyeCalls version fixMode radius centerX centerY

/-- How many bytes `setDistTortion` copies. -/
def copyLength (len : ℤ) : ℕ := if len ≥ 8 then len.toNat else 0

/-- The parameters of a 720 degree camera and the distortion table, read in a copy of the
frame. -/
def readLensParam (s : JAConnect) (frame : List UInt8) : Traced ℕ (JAConnect × List Call) := do
  let _ ← readBytes frame 0 frame.length
  let fixMode ← readInt frame 56
  let param0 ← readWords frame 8 4 6
  let param1 ← readWords frame 32 4 6
  let len : ℤ := frame.length - 8 - sizeofParam2
  let angleData ← readBytes frame (8 + sizeofParam2) (copyLength len)
  return (s.setDistTortion angleData len,
    [.setHowBirate 3, .setIsInstallModeCome fixMode, .setFishEyeParameter param0 0,
      .setFishEyeParameter param1 1, .doOnOOBFrameAvailable fixMode 720])

/-- The branches of `OnRecvFrameEx` by the type of an OOB frame. -/
def JAConnect.onOOBFrame (s : JAConnect) (frame : List UInt8) (frameType : ℤ) :
    Traced ℕ (JAConnect × List Call) :=
  if frameType = P2P_BYPASS_FRAME_TYPE_FISHEYE_PARAM then do
    let calls ← readFisheyeParam frame
    return (s, calls)
  else if frameType = P2P_BYPASS_FRAME_TYPE_LENS_PARAM then readLensParam s frame
  else if frameType = P2P_BYPASS_FRAME_TYPE_GSENSER_PARAM then do
    let angles ← readWords frame 24 8 3
    return (s, [.doGsensorData angles])
  else return (s, [.doOnOOBFrameAvailable eP2P_IMAGE_FISHEYE_FIX_MODE_NONE 0])

/-- `OnRecvFrameEx` for an OOB frame: the bytes of the frame that it reads, and what it
does. -/
def JAConnect.onRecvFrameEx (s : JAConnect) (frame : List UInt8) :
    Traced ℕ (JAConnect × List Call) :=
  if !s.mAddBuffer then pure (s, [])
  else do
    let frameType ← readInt frame 0
    s.onOOBFrame frame frameType

/-- `link` is a connect that gets a link, or whatever takes the link away. -/
inductive Event
  | frame (frame : List UInt8)
  | setHasSetP720 (pHasSet : Bool)
  | setHasSetP360 (pSet : Bool)
  | openChannel (bOpen : Bool)
  | disconnect
  | link (value : Bool)

def next (s : JAConnect) : Event → JAConnect
  | .frame frame =>
    let t := s.onRecvFrameEx frame
    { t.value.1 with overread := s.overread || t.accesses.any fun i => frame.length ≤ i }
  | .setHasSetP720 pHasSet => s.setHasSetP720 pHasSet
  | .setHasSetP360 pSet => s.setHasSetP360 pSet
  | .openChannel bOpen => s.doOpenChannel bOpen
  | .disconnect => s.doDisconnect
  | .link value => { s with mP2p := value }

def step (s : JAConnect) (e : Event) : Option JAConnect := some (next s e)

abbrev AnyRun : JAConnect → List Event → JAConnect → Prop := Run step fun _ _ => True

/-! ## Frames that are long enough -/

/-- The bytes that a frame of a type must have. -/
def neededLength (frameType : ℤ) : ℕ :=
  if frameType = P2P_BYPASS_FRAME_TYPE_FISHEYE_PARAM then 64
  else if frameType = P2P_BYPASS_FRAME_TYPE_LENS_PARAM then 60
  else if frameType = P2P_BYPASS_FRAME_TYPE_GSENSER_PARAM then 48
  else 4

/-- The frame is as long as its type needs. -/
def LongEnough (frame : List UInt8) : Prop :=
  neededLength (readInt frame 0).value ≤ frame.length

instance (frame : List UInt8) : Decidable (LongEnough frame) := inferInstanceAs (Decidable (_ ≤ _))

section Reads
variable {frame : List UInt8} {offset n length : ℕ}

theorem forall_range_lt (hn : 0 < n) :
    (∀ i ∈ (List.range n).map (offset + ·), i < length) ↔ offset + n ≤ length := by
  simp only [List.forall_mem_map, List.mem_range]
  constructor
  · intro hall
    have := hall (n - 1) (by omega)
    omega
  · intro hle i hi
    omega

theorem within_readWords_iff {size : ℕ} (hsize : 0 < size * n) :
    (readWords frame offset size n).Within (· < length) ↔ offset + size * n ≤ length := by
  rw [readWords, within_readAll_iff, forall_range_lt hsize]

theorem within_readInt_iff :
    (readInt frame offset).Within (· < length) ↔ offset + 4 ≤ length :=
  within_map_iff.trans (within_readWords_iff (by decide))

theorem within_readBytes_iff : (readBytes frame offset n).Within (· < length) ↔
    n = 0 ∨ offset + n ≤ length := by
  rw [readBytes, within_readAll_iff]
  rcases Nat.eq_zero_or_pos n with rfl | hn
  · simp
  · rw [forall_range_lt hn, or_iff_right hn.ne']

theorem within_readFisheyeParam_iff :
    (readFisheyeParam frame).Within (· < frame.length) ↔ 64 ≤ frame.length := by
  simp only [readFisheyeParam, within_bind_iff, within_readInt_iff, within_readBytes_iff,
    within_pure_iff, and_true]
  omega

theorem copyLength_eq {len : ℤ} (h : 8 ≤ len) : (copyLength len : ℤ) = len := by
  rw [copyLength, if_pos h]
  omega

theorem copyLength_eq_zero {len : ℤ} (h : ¬ 8 ≤ len) : copyLength len = 0 := if_neg h

theorem within_readLensParam_iff (s : JAConnect) :
    (readLensParam s frame).Within (· < frame.length) ↔ 60 ≤ frame.length := by
  simp only [readLensParam, within_bind_iff, within_readInt_iff, within_readBytes_iff,
    within_pure_iff, within_readWords_iff (show 0 < 4 * 6 by decide), sizeofParam2, and_true]
  have htable : copyLength (frame.length - 8 - (60 : ℕ)) = 0 ∨
      8 + 60 + copyLength (frame.length - 8 - (60 : ℕ)) ≤ frame.length := by
    by_cases hlen : (8 : ℤ) ≤ frame.length - 8 - (60 : ℕ)
    · have := copyLength_eq hlen
      omega
    · exact .inl (copyLength_eq_zero hlen)
  constructor
  · rintro ⟨_, hmode, _⟩
    exact hmode
  · intro hle
    exact ⟨by omega, hle, by omega, by omega, htable⟩

theorem within_onOOBFrame_iff (s : JAConnect) (frameType : ℤ) :
    4 ≤ frame.length ∧ (s.onOOBFrame frame frameType).Within (· < frame.length) ↔
      neededLength frameType ≤ frame.length := by
  unfold JAConnect.onOOBFrame neededLength
  split_ifs with hfisheye hlens hgsensor
  · simp only [within_bind_iff, within_readFisheyeParam_iff, within_pure_iff, and_true]
    omega
  · rw [within_readLensParam_iff]
    omega
  · simp only [within_bind_iff, within_pure_iff, and_true,
      within_readWords_iff (show 0 < 8 * 3 by decide)]
    omega
  · simp only [within_pure_iff, and_true]

/-- A frame is read inside its bytes exactly when it is as long as its type needs. -/
theorem within_onRecvFrameEx_iff {s : JAConnect} (hadd : s.mAddBuffer = true) :
    (s.onRecvFrameEx frame).Within (· < frame.length) ↔ LongEnough frame := by
  unfold JAConnect.onRecvFrameEx LongEnough
  rw [hadd, if_neg (by decide), within_bind_iff, within_readInt_iff]
  exact within_onOOBFrame_iff s _

end Reads

/-! ## What a step does to the buffer -/

/-- `mDistTortion` is `NULL`, or a live allocation of `mDistLen` bytes. -/
def BufferValid (s : JAConnect) : Prop :=
  ∀ p, s.mDistTortion = some p → ∃ bytes, s.live p = some bytes ∧ (bytes.length : ℤ) = s.mDistLen

/-- The buffer is valid, and no frame was read behind its end and no allocation freed
twice. -/
structure Valid (s : JAConnect) : Prop where
  buffer : BufferValid s
  reads : s.overread = false
  frees : s.doubleFreed = false

/-- Frames are as long as their type needs, and the flag of the parameters is not set when a
disconnect finds a distortion buffer. -/
def Keeps (s : JAConnect) : Event → Prop
  | .frame frame => s.mAddBuffer = true → LongEnough frame
  | .disconnect => s.mHasSetP720 = 0 ∨ s.mDistTortion = none
  | _ => True

instance (s : JAConnect) : (e : Event) → Decidable (Keeps s e)
  | .frame _ => inferInstanceAs (Decidable (s.mAddBuffer = true → _))
  | .disconnect => inferInstanceAs (Decidable (_ ∨ _))
  | .setHasSetP720 _ | .setHasSetP360 _ | .openChannel _ | .link _ => isTrue trivial

section Steps
variable {s : JAConnect}

theorem free_live {p : ℕ} {bytes : List UInt8} (h : s.live p = some bytes) :
    s.free (some p) = { s with live := Function.update s.live p none } := by
  simp only [JAConnect.free, h]

theorem free_doubleFreed (h : Valid s) : (s.free s.mDistTortion).doubleFreed = false := by
  cases hbuf : s.mDistTortion with
  | none => exact h.frees
  | some p =>
    obtain ⟨bytes, hlive, _⟩ := h.buffer p hbuf
    rw [free_live hlive]
    exact h.frees

theorem free_overread (p : Option ℕ) : (s.free p).overread = s.overread := by
  unfold JAConnect.free
  split
  · rfl
  · split <;> rfl

theorem Valid.setDistTortion (h : Valid s) {pDist : List UInt8} {len : ℤ}
    (hlen : 8 ≤ len → (pDist.length : ℤ) = len) : Valid (s.setDistTortion pDist len) := by
  unfold JAConnect.setDistTortion
  split
  · rename_i hle
    refine ⟨?_, (free_overread _).trans h.reads, free_doubleFreed h⟩
    rintro p ⟨⟩
    exact ⟨pDist, Function.update_self .., hlen hle⟩
  · exact h

theorem Valid.disconnect_iff (h : Valid s) : Valid s.doDisconnect ↔ Keeps s .disconnect := by
  unfold JAConnect.doDisconnect Keeps
  by_cases hflag : s.mHasSetP720 = 0
  · refine iff_of_true ?_ (.inl hflag)
    rw [if_neg (not_not.mpr hflag)]
    exact ⟨h.buffer, h.reads, h.frees⟩
  · rw [if_pos hflag, or_iff_right hflag]
    cases hbuf : s.mDistTortion with
    | none =>
      refine iff_of_true ⟨?_, h.reads, h.frees⟩ rfl
      rintro p ⟨⟩
    | some p =>
      -- the buffer is freed and stays `mDistTortion`
      obtain ⟨bytes, hlive, _⟩ := h.buffer p hbuf
      refine iff_of_false (fun hvalid => ?_) (by simp)
      obtain ⟨bytes', hlive', _⟩ := hvalid.buffer p (by simp [JAConnect.free, hlive])
      simp [JAConnect.free, hlive] at hlive'

theorem length_readBytes {frame : List UInt8} {offset n : ℕ} (h : offset + n ≤ frame.length) :
    (readBytes frame offset n).value.length = n := by
  rw [readBytes, value_readAll, List.length_take, List.length_drop]
  omega

theorem readLensParam_valid (h : Valid s) (frame : List UInt8) :
    Valid (readLensParam s frame).value.1 := by
  simp only [readLensParam, value_bind, value_pure]
  refine h.setDistTortion fun hlen => ?_
  have hcopy := copyLength_eq hlen
  rw [length_readBytes, hcopy]
  simp only [sizeofParam2] at hcopy ⊢
  omega

theorem onOOBFrame_valid (h : Valid s) (frame : List UInt8) (frameType : ℤ) :
    Valid (s.onOOBFrame frame frameType).value.1 := by
  unfold JAConnect.onOOBFrame
  split_ifs
  · exact h
  · exact readLensParam_valid h frame
  · exact h
  · exact h

theorem valid_bind {α β : Type} {t : Traced ℕ α} {f : α → Traced ℕ (JAConnect × β)}
    (h : ∀ a, Valid (f a).value.1) : Valid (t >>= f).value.1 := by
  rw [value_bind]
  exact h t.value

theorem onRecvFrameEx_valid (h : Valid s) (frame : List UInt8) :
    Valid (s.onRecvFrameEx frame).value.1 := by
  unfold JAConnect.onRecvFrameEx
  split
  · exact h
  · exact valid_bind fun frameType => onOOBFrame_valid h frame frameType

theorem next_valid_iff (h : Valid s) (e : Event) : Valid (next s e) ↔ Keeps s e := by
  cases e with
  | frame frame =>
    have hnext := onRecvFrameEx_valid h frame
    have hread : (s.onRecvFrameEx frame).Within (· < frame.length) ↔ Keeps s (.frame frame) := by
      by_cases hadd : s.mAddBuffer = true
      · exact (within_onRecvFrameEx_iff hadd).trans ⟨fun hle _ => hle, fun hle => hle hadd⟩
      · rw [JAConnect.onRecvFrameEx, if_pos (by simpa using hadd), within_pure_iff, true_iff]
        exact fun hadd' => absurd hadd' hadd
    have hflag : (next s (.frame frame)).overread = false ↔ Keeps s (.frame frame) := by
      rw [← hread]
      simp only [next, h.reads, Bool.false_or, List.any_eq_false, decide_eq_true_eq, not_le]
      exact Iff.rfl
    exact ⟨fun hvalid => hflag.mp hvalid.reads,
      fun hkeeps => ⟨hnext.buffer, hflag.mpr hkeeps, hnext.frees⟩⟩
  | disconnect => exact h.disconnect_iff
  | setHasSetP720 pHasSet => exact iff_of_true ⟨h.buffer, h.reads, h.frees⟩ trivial
  | setHasSetP360 pSet => exact iff_of_true ⟨h.buffer, h.reads, h.frees⟩ trivial
  | openChannel bOpen =>
    refine iff_of_true ?_ trivial
    change Valid (s.doOpenChannel bOpen)
    unfold JAConnect.doOpenChannel
    split
    · exact h
    · exact ⟨h.buffer, h.reads, h.frees⟩
  | link value => exact iff_of_true ⟨h.buffer, h.reads, h.frees⟩ trivial

end Steps

/-- Along a run frames are read inside their bytes, the distortion buffer is `NULL` or live
with its length, and nothing is freed twice, exactly when the frames are long enough and no
disconnect finds both a buffer and the flag of the parameters. -/
theorem buffer_valid_iff (es : List Event) (s : JAConnect) (h : AnyRun .create es s) :
    Throughout step Valid .create es s ↔ Run step Keeps .create es s := by
  refine h.throughout_iff (I := fun _ => True) (fun _ _ _ _ _ _ => trivial) ?_ trivial
    ⟨fun p hp => (nomatch hp), rfl, rfl⟩
  intro s e t _ hvalid _ he
  obtain rfl := Option.some.inj he
  exact next_valid_iff hvalid e

/-- A lens frame with a table of 8 bytes. -/
def lensFrame : List UInt8 := 1 :: List.replicate 75 0

def watched : List Event :=
  [.link true, .openChannel true, .frame lensFrame, .setHasSetP720 true, .openChannel false,
    .disconnect]

theorem buffer_valid_watched : ∃ s, Throughout step Valid .create watched s := by
  have hrun : ∃ s, Run step Keeps .create watched s ∧ True :=
    exists_run (P := fun _ => True) (by decide +kernel)
  obtain ⟨s, hrun, -⟩ := hrun
  exact ⟨s, (buffer_valid_iff watched s (hrun.weaken fun _ _ _ => trivial)).mpr hrun⟩

/-- A camera that is watched, disconnected and watched again has its buffer freed twice. -/
def watchedTwice : List Event :=
  [.link true, .openChannel true, .frame lensFrame, .setHasSetP720 true, .disconnect,
    .openChannel true, .frame lensFrame]

theorem buffer_freed_twice : ∃ s, AnyRun .create watchedTwice s ∧ s.doubleFreed = true :=
  exists_run (by decide +kernel)

end Jagles.LensDistortion
