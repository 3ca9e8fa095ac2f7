import Jagles.BitPrograms

set_option autoImplicit false
set_option linter.dupNamespace false

/-!
# The HEVC header parser (`h265wh.cpp`)

`H265GetWidthHeight` looks for the sequence parameter set, takes the emulation prevention
bytes out of the first 256 bytes of it and reads the picture size. Pointers into the stream
are offsets from its start; `buf_end` is the offset of its last byte. The loops run on fuel
and give `none` when it does not last. The offsets read are recorded in `reads`.
-/
namespace Jagles.H265
open BitPrograms

def byteAt (stream : List UInt8) (i : ℤ) : UInt8 := stream.getD i.toNat 0

/-- `int stat = -1` as the search reads it. -/
def initialState : ℕ := 2 ^ 32 - 1

structure Scan where
  pos : ℤ
  reads : List ℤ

def Scan.after (r : Scan) (reads : List ℤ) : Scan := { r with reads := reads ++ r.reads }

/-- The three bytes before the search proper; `true` when the function returns from here. -/
def headBytes (stream : List UInt8) (stop : ℤ) : ℕ → ℤ → ℕ → Bool × Scan
  | 0, p, _ => (false, ⟨p, []⟩)
  | rounds + 1, p, state =>
    let tmp := state * 2 ^ 8 % 2 ^ 32
    if tmp = 0x100 ∨ p + 1 = stop then (true, ⟨p + 1, [p]⟩)
    else
      let r := headBytes stream stop rounds (p + 1) ((tmp + (byteAt stream p).toNat) % 2 ^ 32)
      (r.1, r.2.after [p])

def skipAhead (stream : List UInt8) (stop : ℤ) : ℕ → ℤ → Option Scan
  | 0, p => if p < stop then none else some ⟨p, []⟩
  | fuel + 1, p =>
    if p < stop then
      if byteAt stream (p - 1) > 1 then
        (skipAhead stream stop fuel (p + 3)).map (·.after [p - 1])
      else if byteAt stream (p - 2) ≠ 0 then
        (skipAhead stream stop fuel (p + 2)).map (·.after [p - 1, p - 2])
      else if byteAt stream (p - 3) ≠ 0 ∨ byteAt stream (p - 1) ≠ 1 then
        (skipAhead stream stop fuel (p + 1)).map (·.after [p - 1, p - 2, p - 3])
      else some ⟨p + 1, [p - 1, p - 2, p - 3]⟩
    else some ⟨p, []⟩

def avprivFindStartCode (stream : List UInt8) (fuel : ℕ) (p stop : ℤ) (state : ℕ) :
    Option Scan :=
  if stop ≤ p then some ⟨stop, []⟩
  else
    let head := headBytes stream stop 3 p state
    if head.1 then some head.2
    else (skipAhead stream stop fuel head.2.pos).map fun tail =>
      ⟨min tail.pos stop, head.2.reads ++ tail.reads⟩

def nulUnitType (b : UInt8) : UInt8 := (b >>> 1) &&& 0x3f

/-- The NAL the search ends at, if it finds one, and the offsets read on the way. -/
structure Search where
  nal : Option ℤ
  reads : List ℤ

/-- `while (1)`: each round goes to the next NAL and stops there if it is of type 33. -/
def searchLoop (stream : List UInt8) (stop : ℤ) : ℕ → ℤ → Option Search
  | 0, _ => none
  | fuel + 1, buf => do
    let found ← avprivFindStartCode stream fuel buf stop initialState
    let buf := found.pos - 1
    if stop ≤ buf + 2 then some ⟨none, found.reads⟩
    else
      let reads := found.reads ++ [buf, buf + 1]
      if nulUnitType (byteAt stream buf) = 33 then some ⟨some buf, reads⟩
      else
        let rest ← searchLoop stream stop fuel buf
        some ⟨rest.nal, reads ++ rest.reads⟩

def bufEnd (stream : List UInt8) : ℤ := (stream.length : ℤ) - 1

def findSps (stream : List UInt8) (fuel : ℕ) : Option Search :=
  searchLoop stream (bufEnd stream) fuel 0

/-- `for (i = 2; i < nDSize; i++)`: what is written to `dBuffer` and what is read. -/
def copyWindow (stream : List UInt8) (buf : ℤ) (nDSize : ℕ) : ℕ → ℕ → List UInt8 × List ℤ
  | 0, _ => ([], [])
  | fuel + 1, i =>
    if i < nDSize then
      let b := fun j : ℕ => byteAt stream (buf + (i + j : ℕ))
      if i + 2 < nDSize ∧ b 0 = 0 ∧ b 1 = 0 ∧ b 2 = 3 then
        let rest := copyWindow stream buf nDSize fuel (i + 3)
        (b 0 :: b 1 :: rest.1,
          [buf + (i : ℕ), buf + (i + 1 : ℕ), buf + (i + 2 : ℕ)] ++ rest.2)
      else
        let rest := copyWindow stream buf nDSize fuel (i + 1)
        (b 0 :: rest.1, (if i + 2 < nDSize then
          [buf + (i : ℕ), buf + (i + 1 : ℕ), buf + (i + 2 : ℕ)] else [buf + (i : ℕ)]) ++ rest.2)
    else ([], [])

/-! ## The sequence parameter set -/

def ue265 : Program ℕ := .golomb .done

def u265 (bitCount : ℕ) : Program ℕ := .bits bitCount .done

def skipBits (count : ℕ) : Program Unit := .skip count (.done ())

/-- The presence flags of the sub-layers, profile and level of each. -/
def subLayerFlags : ℕ → Program (List (ℕ × ℕ))
  | 0 => pure []
  | count + 1 => do
    let profile ← u265 1
    let level ← u265 1
    let rest ← subLayerFlags count
    return (profile, level) :: rest

def skipPairs : ℕ → Program Unit
  | 0 => pure ()
  | count + 1 => do
    skipBits 2
    skipPairs count

def skipPresent (flag count : ℕ) : Program Unit :=
  if flag ≠ 0 then skipBits count else pure ()

def skipSubLayers : List (ℕ × ℕ) → Program Unit
  | [] => pure ()
  | (profile, level) :: rest => do
    skipPresent profile 88
    skipPresent level 8
    skipSubLayers rest

def skipReserved (count : ℕ) : Program Unit :=
  if count > 0 then skipPairs (8 - count) else pure ()

/-- The argument is the number of sub-layers, one more than its name says. -/
def profileTierLevel (sps_max_sub_layers_minus1 : ℕ) : Program Unit := do
  skipBits 96
  let flags ← subLayerFlags (sps_max_sub_layers_minus1 - 1)
  skipReserved (sps_max_sub_layers_minus1 - 1)
  skipSubLayers flags

def separateColourPlane (chroma_format_id : ℕ) : Program ℕ :=
  if chroma_format_id = 3 then u265 1 else pure 0

/-- `none` stands for `return 0`, a pair for `*nWidth`, `*nHeight` and `return 1`. -/
def spsD : Program (Option (ℤ × ℤ)) := do
  let sps_video_parameter_set_id ← u265 4
  if sps_video_parameter_set_id ≥ 16 then return none
  let sps_max_sub_layers_minus1 := (← u265 3) + 1
  if sps_max_sub_layers_minus1 > 7 then return none
  let _ ← u265 1
  profileTierLevel sps_max_sub_layers_minus1
  let sps_seq_parameter_set_id ← ue265
  if sps_seq_parameter_set_id ≥ 32 then return none
  let chroma_format_id ← ue265
  if chroma_format_id ≠ 1 then return none
  let _ ← separateColourPlane chroma_format_id
  let nWidth ← ue265
  let nHeight ← ue265
  return some (toInt nWidth, toInt nHeight)

/-- What a call does: `ret` is its result, `size` what it stored in `*width` and `*height`,
`dBuffer` what it wrote there and `events` what `sps_d` did. -/
structure Call where
  ret : ℤ
  size : Option (ℤ × ℤ)
  reads : List ℤ
  dBuffer : List UInt8
  events : List Event

/-- `stack` is what `dBuffer` holds where it has not been written. -/
def dBufferSource (stack : ℕ → UInt8) (overshift : ℕ → ℕ) (written : List UInt8) : Source where
  byte i := (written[i]?).getD (stack i)
  length := written.length
  overshift := overshift

def h265GetWidthHeight (stream : List UInt8) (stack : ℕ → UInt8) (overshift : ℕ → ℕ)
    (fuel : ℕ) : Option Call := do
  let search ← findSps stream fuel
  match search.nal with
  | none => some ⟨-1, none, search.reads, [], []⟩
  | some buf =>
    let srcLength := (bufEnd stream - buf).toNat
    let nDSize := if srcLength > 256 then 256 else srcLength
    let window := copyWindow stream buf nDSize nDSize 2
    let sps := spsD.exec (dBufferSource stack overshift window.1) 0
    some ⟨if sps.value.isSome then 0 else -1, sps.value, search.reads ++ window.2, window.1,
      sps.events⟩

end Jagles.H265
