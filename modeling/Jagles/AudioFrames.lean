import Jagles.AccessTraces

set_option autoImplicit false
set_option linter.dupNamespace false

/-!
# Audio frames (`DoOnAudioData2`)

A frame of the live stream has a header in front of the sound, except for two lengths that
are taken to be without; a frame of a playback has none. Places are offsets from `buf`; the
memory around the frame may hold anything.
-/
namespace Jagles.AudioFrames
open AccessTraces AccessTraces.Traced

abbrev Memory := ℤ → UInt8

/-- The bytes `malloc`ed for the decoded sound. -/
def outputSize : ℤ := 16000

/-- The `n` bytes from `offset` on; none for a negative `n`. -/
def span (offset n : ℤ) : List ℤ := (List.range n.toNat).map fun i : ℕ => offset + (i : ℤ)

/-- `DecodeAudio` hands the packet to the codec library. -/
def decodeAudio (offset insize : ℤ) : Traced ℤ (Option ℤ) := readAll (span offset insize) none

def isAACHeader (byte1 byte2 byte3 : UInt8) : Bool :=
  let sync := byte1.toNat <<< 8 ||| byte2.toNat
  let sampling_frequency_index := (byte3.toNat >>> 2) &&& 0x0f
  sync &&& 0xfff0 == 0xfff0 && (sampling_frequency_index == 0xb || sampling_frequency_index == 0x8)

/-- The reads stay in the frame, and what the A-law decoder makes of the length it gets fits
the output. -/
structure Safe (buflen : ℤ) (t : Traced ℤ (Option ℤ)) : Prop where
  reads : t.Within fun i => 0 ≤ i ∧ i < buflen
  decoded : ∀ n ∈ t.value, 0 ≤ n ∧ 2 * n ≤ outputSize

/-- A live frame has a header, and no more sound behind it than fits; a playback frame that
is not AAC by its own flag has the three bytes that are looked at, and fits or looks like
AAC. -/
def Fits (buf : Memory) (buflen : ℤ) (isAAC isPlayback : Bool) : Prop :=
  if isPlayback = true then
    isAAC = true ∨ 3 ≤ buflen ∧ (isAACHeader (buf 0) (buf 1) (buf 2) = true ∨ buflen ≤ 8000)
  else 36 ≤ buflen ∧ (isAAC = true ∨ buflen ≤ 8036)

section Frames
variable {buf : Memory} {buflen : ℤ} {isAAC haveheader : Bool}

end Frames

end Jagles.AudioFrames
