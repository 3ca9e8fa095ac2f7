import Jagles.BitPrograms

set_option autoImplicit false
set_option linter.dupNamespace false

/-!
# The H.264 header parser (`h264wh.cpp`)

`GetWidthHeight` hands every NAL behind a start code to `h264_decode_seq_parameter_set`.
The memory behind the stream holds something too, since nothing keeps the parser from
reading there. `heap` is the largest array `new int[n]` can give; a larger or a negative `n`
throws. The scaling matrices themselves are left out, only the size of what is copied from
is kept.
-/
namespace Jagles.H264
open BitPrograms

def ue : Program ℕ := .golomb .done

/-- `ceil(k / 2)` of the code as an `int`, negated when it is even. -/
def seValue (code : ℕ) : ℤ :=
  let ueVal := toInt code
  let nValue := (ueVal + 1) / 2
  if ueVal % 2 = 0 then -nValue else nValue

def se : Program ℤ := do
  let code ← ue
  return seValue code

def u (bitCount : ℕ) : Program ℕ := .bits bitCount .done

/-! ## Scaling lists -/

/-- The arguments of a call of `decode_scaling_list`: the size, and how many bytes there are
in the row `jvt_list` and in the row `fallback_list` points to. -/
structure ScalingCall where
  size : ℕ
  jvtList : ℕ
  fallbackList : ℕ

def copyTable (available size : ℕ) : Program Unit := .copy available size (.done ())

def nextScale (last next : ℤ) : Program ℤ :=
  if next ≠ 0 then do
    let delta ← se
    return (last + delta) % 256
  else pure next

/-- The rounds of the loop that are left; `first` stands for `!i`. -/
def scalingLoop (call : ScalingCall) : ℕ → Bool → ℤ → ℤ → Program Unit
  | 0, _, _, _ => pure ()
  | rounds + 1, first, last, next => do
    let next ← nextScale last next
    if first = true ∧ next = 0 then copyTable call.jvtList call.size
    else scalingLoop call rounds false (if next ≠ 0 then next else last) next

def decodeScalingList (call : ScalingCall) : Program Unit := do
  let written ← u 1
  if written = 0 then copyTable call.fallbackList call.size
  else scalingLoop call call.size true 8 8

/-- The bytes in a row of `default_scaling4` or `scaling_matrix4`. -/
def row4 : ℕ := 16

/-- The bytes in a row of `default_scaling8` or `scaling_matrix8`. -/
def row8 : ℕ := 64

/-- The calls in their order. The fourth falls back to `default_scaling8[1]`, the seventh to
`default_scaling4[0]`, the eighth to `default_scaling8[1]`. -/
def scalingCalls (chroma_format_idc : ℕ) : List ScalingCall :=
  [⟨16, row4, row4⟩, ⟨16, row4, row4⟩, ⟨16, row4, row4⟩,
    ⟨16, row4, row8⟩, ⟨16, row4, row4⟩, ⟨16, row4, row4⟩,
    ⟨64, row8, row4⟩, ⟨64, row8, row8⟩] ++
  if chroma_format_idc = 3 then
    [⟨64, row8, row8⟩, ⟨64, row8, row8⟩, ⟨64, row8, row8⟩, ⟨64, row8, row8⟩]
  else []

def decodeScalingLists : List ScalingCall → Program Unit
  | [] => pure ()
  | call :: calls => do
    decodeScalingList call
    decodeScalingLists calls

/-! ## The sequence parameter set -/

/-- `rejected` stands for `return 0`, `size` for `return 1` with the two values stored. -/
inductive SpsResult where
  | rejected
  | threw
  | size (width height : ℤ)
  deriving DecidableEq

def residualColourTransform (chroma_format_idc : ℕ) : Program ℕ :=
  if chroma_format_idc = 3 then u 1 else pure 0

def scalingMatrix (present chroma_format_idc : ℕ) : Program Unit :=
  if present ≠ 0 then decodeScalingLists (scalingCalls chroma_format_idc) else pure ()

/-- The fields of the high profiles; `false` stands for `return false`. -/
def highProfileFields : Program Bool := do
  let chroma_format_idc ← ue
  if chroma_format_idc > 3 then return false
  let residual_colour_transform_flag ← residualColourTransform chroma_format_idc
  if residual_colour_transform_flag ≠ 0 then return false
  let luma ← ue
  let chroma ← ue
  if (luma + 8) % 2 ^ 32 > 14 ∨ (chroma + 8) % 2 ^ 32 > 14 ∨
    (chroma + 8) % 2 ^ 32 ≠ (luma + 8) % 2 ^ 32 then return false
  let _ ← u 1
  let seq_scaling_matrix_present_flag ← u 1
  scalingMatrix seq_scaling_matrix_present_flag chroma_format_idc
  return true

def profileFields (profile_idc : ℕ) : Program Bool :=
  if profile_idc = 100 ∨ profile_idc = 110 ∨ profile_idc = 122 ∨ profile_idc = 144 then
    highProfileFields
  else pure true

def offsetsForRefFrame : ℕ → Program Unit
  | 0 => pure ()
  | count + 1 => do
    let _ ← se
    offsetsForRefFrame count

/-- `false` stands for the exception of `new int[..]`. -/
def picOrderCnt (heap : ℕ) : Program Bool := do
  let pic_order_cnt_type ← ue
  if pic_order_cnt_type = 0 then
    let _ ← ue
    return true
  if pic_order_cnt_type = 1 then
    let _ ← u 1
    let _ ← se
    let _ ← se
    let num_ref_frames_in_pic_order_cnt_cycle ← ue
    let count := toInt num_ref_frames_in_pic_order_cnt_cycle
    if count < 0 ∨ count > heap then return false
    offsetsForRefFrame count.toNat
    return true
  return true

def constraintFlags : Program Unit := do
  let _ ← u 1
  let _ ← u 1
  let _ ← u 1
  let _ ← u 1
  let _ ← u 1
  let _ ← u 1
  let _ ← u 2
  return ()

def pictureSize : Program SpsResult := do
  let _ ← ue
  let _ ← u 1
  let pic_width_in_mbs_minus1 ← ue
  let pic_height_in_map_units_minus1 ← ue
  return .size (toInt ((pic_width_in_mbs_minus1 + 1) * 16))
    (toInt ((pic_height_in_map_units_minus1 + 1) * 16))

def decodeSps (heap : ℕ) : Program SpsResult := do
  let _ ← u 1
  let _ ← u 2
  let nal_unit_type ← u 5
  if nal_unit_type ≠ 7 then return .rejected
  let profile_idc ← u 8
  constraintFlags
  let _ ← u 8
  let _ ← ue
  let accepted ← profileFields profile_idc
  if accepted = false then return .rejected
  let _ ← ue
  let allocated ← picOrderCnt heap
  if allocated = false then return .threw
  pictureSize

def h264DecodeSeqParameterSet (heap : ℕ) (s : Source) : Outcome SpsResult :=
  (decodeSps heap).exec s 0

/-! ## The scan over the stream -/

/-- The stream with what lies behind it, and the machine it is parsed on. -/
structure Memory where
  stream : List UInt8
  beyond : ℕ → UInt8
  overshift : ℕ → ℕ
  heap : ℕ

namespace Memory

variable (m : Memory)

def byte (i : ℕ) : UInt8 := (m.stream[i]?).getD (m.beyond i)

/-- The buffer from `start` on, with the length of the whole stream. -/
def nal (start : ℕ) : Source where
  byte j := m.byte (start + j)
  length := m.stream.length
  overshift := m.overshift

def decodeAt (start : ℕ) : Outcome SpsResult := h264DecodeSeqParameterSet m.heap (m.nal start)

def startcode4 (i : ℕ) : Bool :=
  m.byte i == 0 && m.byte (i + 1) == 0 && m.byte (i + 2) == 0 && m.byte (i + 3) == 1

def startcode3 (i : ℕ) : Bool := m.byte i == 0 && m.byte (i + 1) == 0 && m.byte (i + 2) == 1

end Memory

/-- What a call does: `ret` is `none` when it ends in an exception, `size` is what `*width`
and `*height` hold afterwards. The offsets of `events` are from the start of the stream. -/
structure Call where
  ret : Option ℤ
  size : ℤ × ℤ
  events : List Event

def Call.after (c : Call) (events : List Event) : Call := { c with events := events ++ c.events }

/-- One call of the parser and the test of its result. -/
def attempt (m : Memory) (start : ℕ) (size : ℤ × ℤ) (next : ℤ × ℤ → Call) : Call :=
  let o := m.decodeAt start
  let events := o.events.map (Event.offset start)
  match o.value with
  | .rejected => ⟨some (-1), size, events⟩
  | .threw => ⟨none, size, events⟩
  | .size width height => (next (width, height)).after events

/-- `if (0 == memcmp(..))` with the `length` bytes it compares at `i`. -/
def onStartcode (m : Memory) (found : Bool) (i length : ℕ) (size : ℤ × ℤ)
    (next : ℤ × ℤ → Call) : Call :=
  (if found then attempt m (i + length) size next else next size).after
    ((List.range length).map fun j => .read (i + j))

/-- `rounds` rounds of the loop from `i` on. -/
def scanLoop (m : Memory) : ℕ → ℕ → ℤ × ℤ → Call
  | 0, _, size => ⟨some 0, size, []⟩
  | rounds + 1, i, size =>
    onStartcode m (m.startcode4 i) i 4 size fun size =>
      onStartcode m (m.startcode3 i) i 3 size fun size =>
        scanLoop m rounds (i + 1) size

/-- `size` is what `*width` and `*height` hold before. -/
def getWidthHeight (m : Memory) (size : ℤ × ℤ) : Call :=
  scanLoop m (m.stream.length - 4) 0 size

end Jagles.H264
