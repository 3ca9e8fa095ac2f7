import Jagles.HeldResources
import Jagles.GuardedRuns

set_option autoImplicit false
set_option linter.dupNamespace false

/-!
# The file player (`JAPlayer`)

`DoThread` reads the packets of a file, decodes them and frees them. `SeekFile` leaves a
request for it under `mLock`, from any other thread and at any time. The history has the
newest event first.
-/
namespace Jagles.FilePlayer
open HeldResources

inductive CodecType
  | video
  | audio
  | other
  deriving DecidableEq

/-- A codec context: that of a stream, or the one made for an image. -/
inductive Codec
  | stream (i : ℤ)
  | image
  deriving DecidableEq

structure Packet where
  stream_index : ℕ
  /-- `AV_PKT_FLAG_KEY` -/
  key : Bool
  deriving DecidableEq

inductive CodecCall
  | avcodec_flush_buffers
  | avcodec_decode_video2
  | avcodec_decode_audio4
  | avcodec_close
  deriving DecidableEq

inductive Event
  | av_read_frame (result : Option Packet)
  | av_free_packet
  | av_seek_frame (second : ℤ)
  | codec (call : CodecCall) (ctx : Option Codec)
  | OnTextureAvaible (key : Bool)
  | PlayAudioData
  /-- `SeekFile` has left its request. -/
  | SeekFile (mSec : ℤ)
  | exit
  deriving DecidableEq

/-- Where a call of `SeekFile` is, from the moment it has the lock. -/
inductive Stage
  | second
  | flag
  | unlock
  deriving DecidableEq

inductive Holder
  | thread
  | caller (mSec : ℤ) (stage : Stage)
  deriving DecidableEq

inductive Pc
  | head
  | test
  | lock
  | seek
  | flush
  | flushAudio
  | clear
  | unlock
  | read
  | decode
  | decodeAudio
  | free
  | exit
  | ended
  deriving DecidableEq

structure JAPlayer where
  videoindex : ℤ
  audioindex : ℤ
  pCodecCtx : Option Codec
  pAudioCodecCtx : Option Codec
  mRunthread : Bool
  mSeek : Bool
  mSeekSecond : ℤ
  mLock : Option Holder
  packet : Option Packet
  ret : ℤ
  got_picture : Bool
  pc : Pc
  history : List Event
  deriving DecidableEq

/-- The last stream of a type, or `-1`. -/
def lastStream (type : CodecType) (streams : List CodecType) : ℤ :=
  streams.zipIdx.foldl (fun found c => if c.1 = type then (c.2 : ℤ) else found) (-1)

/-- `PlayFile`, for a file with the given streams. `opens` tells whether the decoder of a
stream is found and opened. There is no result where it returns `false`. -/
def playFile (streams : List CodecType) (opens : ℤ → Bool) (isimage : Bool) : Option JAPlayer :=
  let videoindex := lastStream .video streams
  let audioindex := lastStream .audio streams
  if videoindex = -1 then none
  else if !opens videoindex then none
  else if audioindex ≥ 0 ∧ opens audioindex = false then none
  else some {
    videoindex := videoindex
    audioindex := audioindex
    pCodecCtx := some (if isimage then .image else .stream videoindex)
    pAudioCodecCtx := if audioindex ≥ 0 then some (.stream audioindex) else none
    mRunthread := true
    mSeek := false
    mSeekSecond := 0
    mLock := none
    packet := none
    ret := 0
    got_picture := false
    pc := .head
    history := [] }

namespace JAPlayer

def record (s : JAPlayer) (e : Event) : JAPlayer := { s with history := e :: s.history }

section Record
variable (s : JAPlayer) (e : Event)

@[simp] theorem record_mLock : (s.record e).mLock = s.mLock := rfl
@[simp] theorem record_mSeek : (s.record e).mSeek = s.mSeek := rfl
@[simp] theorem record_mSeekSecond : (s.record e).mSeekSecond = s.mSeekSecond := rfl
@[simp] theorem record_pc : (s.record e).pc = s.pc := rfl

end Record

/-- `packet->stream_index == index` -/
def isStream (s : JAPlayer) (index : ℤ) : Bool :=
  s.packet.any fun p => decide ((p.stream_index : ℤ) = index)

/-- What comes after the picture of a packet. -/
def sound (s : JAPlayer) : JAPlayer :=
  { s with pc := if s.isStream s.audioindex then .decodeAudio else .free }

/-- `av_read_frame` and the choice of a decoder. -/
def readFrame (s : JAPlayer) (result : Option Packet) : JAPlayer :=
  let s := s.record (.av_read_frame result)
  match result with
  | none => { s with pc := .head }
  | some p =>
    let s := { s with packet := some p }
    if s.isStream s.videoindex then { s with pc := .decode } else s.sound

/-- The part for the video stream. A decoding error leaves the loop, a packet without a picture
begins the next pass. -/
def decodeVideo (s : JAPlayer) (ret : ℤ) (got_picture : Bool) : JAPlayer :=
  let s := { s with ret := ret, got_picture := got_picture }.record
    (.codec .avcodec_decode_video2 s.pCodecCtx)
  if ret < 0 then { s with pc := .exit }
  else if !got_picture then { s with pc := .head }
  else (s.record (.OnTextureAvaible (s.packet.any Packet.key))).sound

/-- The part for the audio stream. -/
def decodeAudio (s : JAPlayer) (ret : ℤ) (got_picture : Bool) : JAPlayer :=
  let s := { s with ret := ret, got_picture := got_picture, pc := .free }.record
    (.codec .avcodec_decode_audio4 s.pAudioCodecCtx)
  if got_picture then s.record .PlayAudioData else s

/-- What is closed after the loop. -/
def close (s : JAPlayer) : JAPlayer :=
  let s := s.record (.codec .avcodec_close s.pCodecCtx)
  let s := if s.pAudioCodecCtx.isSome then
    s.record (.codec .avcodec_close s.pAudioCodecCtx) else s
  { s with pCodecCtx := none, pAudioCodecCtx := none, pc := .ended }.record .exit

/-- One step of `DoThread` apart from what the library answers. -/
def doThread (s : JAPlayer) : Option JAPlayer :=
  match s.pc with
  | .head => some { s with pc := if s.mRunthread then .test else .exit }
  | .test => some { s with pc := if s.mSeek then .lock else .read }
  | .lock => if s.mLock = none then some { s with mLock := some .thread, pc := .seek } else none
  | .seek => some ({ s with pc := .flush }.record (.av_seek_frame s.mSeekSecond))
  | .flush =>
    some ({ s with pc := .flushAudio }.record (.codec .avcodec_flush_buffers s.pCodecCtx))
  | .flushAudio =>
    some ({ s with pc := .clear }.record (.codec .avcodec_flush_buffers s.pAudioCodecCtx))
  | .clear => some { s with mSeek := false, pc := .unlock }
  | .unlock => some { s with mLock := none, pc := .read }
  | .free => some ({ s with pc := .head }.record .av_free_packet)
  | .exit => some s.close
  | .read | .decode | .decodeAudio | .ended => none

/-- One step of the call of `SeekFile` that has the lock. -/
def seekFile (s : JAPlayer) : Option JAPlayer :=
  match s.mLock with
  | some (.caller mSec .second) =>
    some { s with mSeekSecond := mSec, mLock := some (.caller mSec .flag) }
  | some (.caller mSec .flag) =>
    some ({ s with mSeek := true, mLock := some (.caller mSec .unlock) }.record (.SeekFile mSec))
  | some (.caller _ .unlock) => some { s with mLock := none }
  | _ => none

inductive Label
  /-- A call of `SeekFile` gets the lock. -/
  | SeekFile (mSec : ℤ)
  | caller
  | StopPlay
  | thread
  | read (result : Option Packet)
  | video (ret : ℤ) (got_picture : Bool)
  | audio (ret : ℤ) (got_picture : Bool)
  deriving DecidableEq

def step (s : JAPlayer) : Label → Option JAPlayer
  | .SeekFile mSec =>
    if s.mLock = none then some { s with mLock := some (.caller mSec .second) } else none
  | .caller => s.seekFile
  | .StopPlay => some { s with mRunthread := false }
  | .thread => s.doThread
  | .read result => if s.pc = .read then some (s.readFrame result) else none
  | .video ret got_picture => if s.pc = .decode then some (s.decodeVideo ret got_picture) else none
  | .audio ret got_picture =>
    if s.pc = .decodeAudio then some (s.decodeAudio ret got_picture) else none

/-- What a step can do. -/
inductive Steps (s : JAPlayer) : Label → JAPlayer → Prop
  | request (mSec : ℤ) (h : s.mLock = none) :
    Steps s (.SeekFile mSec) { s with mLock := some (.caller mSec .second) }
  | second {mSec : ℤ} (h : s.mLock = some (.caller mSec .second)) :
    Steps s .caller { s with mSeekSecond := mSec, mLock := some (.caller mSec .flag) }
  | flag {mSec : ℤ} (h : s.mLock = some (.caller mSec .flag)) :
    Steps s .caller
      ({ s with mSeek := true, mLock := some (.caller mSec .unlock) }.record (.SeekFile mSec))
  | leave {mSec : ℤ} (h : s.mLock = some (.caller mSec .unlock)) :
    Steps s .caller { s with mLock := none }
  | stop : Steps s .StopPlay { s with mRunthread := false }
  | head (h : s.pc = .head) :
    Steps s .thread { s with pc := if s.mRunthread then .test else .exit }
  | test (h : s.pc = .test) : Steps s .thread { s with pc := if s.mSeek then .lock else .read }
  | lock (h : s.pc = .lock) (hfree : s.mLock = none) :
    Steps s .thread { s with mLock := some .thread, pc := .seek }
  | seek (h : s.pc = .seek) :
    Steps s .thread ({ s with pc := .flush }.record (.av_seek_frame s.mSeekSecond))
  | flush (h : s.pc = .flush) : Steps s .thread
      ({ s with pc := .flushAudio }.record (.codec .avcodec_flush_buffers s.pCodecCtx))
  | flushAudio (h : s.pc = .flushAudio) : Steps s .thread
      ({ s with pc := .clear }.record (.codec .avcodec_flush_buffers s.pAudioCodecCtx))
  | clear (h : s.pc = .clear) : Steps s .thread { s with mSeek := false, pc := .unlock }
  | unlock (h : s.pc = .unlock) : Steps s .thread { s with mLock := none, pc := .read }
  | free (h : s.pc = .free) : Steps s .thread ({ s with pc := .head }.record .av_free_packet)
  | close (h : s.pc = .exit) : Steps s .thread s.close
  | read (h : s.pc = .read) (result : Option Packet) : Steps s (.read result) (s.readFrame result)
  | video (h : s.pc = .decode) (ret : ℤ) (got_picture : Bool) :
    Steps s (.video ret got_picture) (s.decodeVideo ret got_picture)
  | audio (h : s.pc = .decodeAudio) (ret : ℤ) (got_picture : Bool) :
    Steps s (.audio ret got_picture) (s.decodeAudio ret got_picture)

theorem steps_of_doThread {s t : JAPlayer} (h : s.doThread = some t) : Steps s .thread t := by
  unfold doThread at h
  cases hpc : s.pc with
  | lock =>
    simp only [hpc] at h
    split at h
    · obtain rfl := Option.some.inj h
      exact .lock hpc ‹_›
    · cases h
  | read | decode | decodeAudio | ended =>
    simp only [hpc] at h
    cases h
  | head => simp only [hpc] at h; obtain rfl := Option.some.inj h; exact .head hpc
  | test => simp only [hpc] at h; obtain rfl := Option.some.inj h; exact .test hpc
  | seek => simp only [hpc] at h; obtain rfl := Option.some.inj h; exact .seek hpc
  | flush => simp only [hpc] at h; obtain rfl := Option.some.inj h; exact .flush hpc
  | flushAudio => simp only [hpc] at h; obtain rfl := Option.some.inj h; exact .flushAudio hpc
  | clear => simp only [hpc] at h; obtain rfl := Option.some.inj h; exact .clear hpc
  | unlock => simp only [hpc] at h; obtain rfl := Option.some.inj h; exact .unlock hpc
  | free => simp only [hpc] at h; obtain rfl := Option.some.inj h; exact .free hpc
  | exit => simp only [hpc] at h; obtain rfl := Option.some.inj h; exact .close hpc

theorem steps_of_step {s t : JAPlayer} {l : Label} (h : step s l = some t) : Steps s l t := by
  cases l with
  | SeekFile mSec =>
    simp only [step] at h
    split at h
    · obtain rfl := Option.some.inj h
      exact .request mSec ‹_›
    · cases h
  | caller =>
    simp only [step, seekFile] at h
    split at h
    · obtain rfl := Option.some.inj h
      exact .second ‹_›
    · obtain rfl := Option.some.inj h
      exact .flag ‹_›
    · obtain rfl := Option.some.inj h
      exact .leave ‹_›
    · cases h
  | StopPlay =>
    obtain rfl := Option.some.inj h
    exact .stop
  | thread => exact steps_of_doThread h
  | read result =>
    simp only [step] at h
    split at h
    · obtain rfl := Option.some.inj h
      exact .read ‹_› result
    · cases h
  | video ret got_picture =>
    simp only [step] at h
    split at h
    · obtain rfl := Option.some.inj h
      exact .video ‹_› ret got_picture
    · cases h
  | audio ret got_picture =>
    simp only [step] at h
    split at h
    · obtain rfl := Option.some.inj h
      exact .audio ‹_› ret got_picture
    · cases h

end JAPlayer

end Jagles.FilePlayer
