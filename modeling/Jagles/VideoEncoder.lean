import Jagles.GuardedRuns

set_option autoImplicit false
set_option linter.dupNamespace false

/-!
# Recording with two encoders and a muxer (`VideoEncoderCore`)

Calls come one after the other. A call drains an encoder, which takes the result of one
`dequeueOutputBuffer` after the other until one of them ends the loop. What has happened is
kept in a history, newest first; flags that nothing reads are left out.
-/
namespace Jagles.VideoEncoder

inductive Encoder
  | video
  | audio
  deriving DecidableEq

/-- What `dequeueOutputBuffer` comes to. `available` is whether `getOutputBuffers` succeeds,
`failed` is an exception, and `noData` a buffer that is not among the output buffers. -/
inductive Status
  | tryAgainLater
  | outputBuffersChanged (available : Bool)
  | outputFormatChanged
  | unexpected
  | failed
  | noData
  | buffer (codecConfig endOfStream : Bool) (size : ℕ) (presentationTimeUs : ℤ)

inductive Event
  | addTrack (encoder : Encoder) (index : ℤ)
  | start
  | write (encoder : Encoder) (index : ℤ) (presentationTimeUs : ℤ)
  | finishTrack (encoder : Encoder)
  | release (encoder : Encoder)
  | stop
  | queue (presentationTimeUs : ℤ) (endOfStream : Bool)
  deriving DecidableEq

/-! ## The muxer -/

/-- `android.media.MediaMuxer`: it stops only when it is started, and throws otherwise. -/
structure MediaMuxer where
  tracks : ℕ
  started : Bool

structure MediaMuxerWrapper where
  muxer : Option MediaMuxer
  started : Bool
  numTracksAdded : ℕ
  numTracksFinished : ℕ

namespace MediaMuxerWrapper

def TOTAL_NUM_TRACKS : ℕ := 2

def create : MediaMuxerWrapper := ⟨some ⟨0, false⟩, false, 0, 0⟩

def allTracksAdded (w : MediaMuxerWrapper) : Bool := w.numTracksAdded == TOTAL_NUM_TRACKS

/-- `addTrack`, with the index of the track, which there is when there is a muxer. -/
def addTrack (w : MediaMuxerWrapper) : MediaMuxerWrapper × Option ℤ :=
  let w := { w with numTracksAdded := w.numTracksAdded + 1 }
  match w.muxer with
  | none => (w, none)
  | some m =>
    if w.numTracksAdded = TOTAL_NUM_TRACKS then
      ({ w with muxer := some ⟨m.tracks + 1, true⟩, started := true }, some m.tracks)
    else ({ w with muxer := some ⟨m.tracks + 1, m.started⟩ }, some m.tracks)

/-- `stop`, and whether the muxer has been stopped by it. -/
def stop (w : MediaMuxerWrapper) : MediaMuxerWrapper × Bool :=
  match w.muxer with
  | none => (w, false)
  | some m => if m.started then (⟨none, false, 0, 0⟩, true) else (w, false)

/-- `finishTrack`, and whether the muxer has been stopped by it. -/
def finishTrack (w : MediaMuxerWrapper) : MediaMuxerWrapper × Bool :=
  let w := { w with numTracksFinished := w.numTracksFinished + 1 }
  if w.numTracksFinished = TOTAL_NUM_TRACKS then w.stop else (w, false)

end MediaMuxerWrapper

/-! ## The recorder -/

/-- What a call does when its drain is over: `startVideo` and `stopAudio` go on to the other
encoder. -/
inductive Next
  | returns
  | startVideo
  | stopAudio
  | stopped
  deriving DecidableEq

/-- Where the call is. `sendingLast` is in `stopRecording` between the two encoders, and
`aborted` a `stopRecording` that an exception has ended. -/
inductive Control
  | idle
  | entering (encoder : Encoder) (endOfStream : Bool) (next : Next)
  | draining (encoder : Encoder) (endOfStream encoderOutputBuffers : Bool) (next : Next)
  | sendingLast
  | stopped
  | aborted
  deriving DecidableEq

structure VideoEncoderCore where
  /-- Whether it is not `null`; the audio encoder never is. -/
  mVideoEncoder : Bool
  /-- The `index` of the two `TrackInfo`s. -/
  index : Encoder → ℤ
  mMuxerWrapper : MediaMuxerWrapper
  fullStopReceived : Bool
  firstFrameReady : Bool
  firstRun : Bool
  lastEncodedAudioTimeStamp : ℤ
  startPTS : ℤ
  totalSamplesNum : ℤ
  control : Control
  history : List Event

namespace VideoEncoderCore

def SAMPLE_RATE : ℤ := 8000

def create : VideoEncoderCore where
  mVideoEncoder := true
  index _ := -1
  mMuxerWrapper := .create
  fullStopReceived := false
  firstFrameReady := false
  firstRun := true
  lastEncodedAudioTimeStamp := 0
  startPTS := 0
  totalSamplesNum := 0
  control := .idle
  history := []

def record (s : VideoEncoderCore) (e : Event) : VideoEncoderCore :=
  { s with history := e :: s.history }

/-! ### Sound -/

/-- `getJitterFreePTS` -/
def getJitterFreePTS (s : VideoEncoderCore) (bufferPts bufferSamplesNum : ℤ) :
    VideoEncoderCore × ℤ :=
  let bufferDuration := (1000000 * bufferSamplesNum).tdiv SAMPLE_RATE
  let bufferPts := bufferPts - bufferDuration
  let s := if s.totalSamplesNum = 0 then { s with startPTS := bufferPts } else s
  let correctedPts := s.startPTS + (1000000 * s.totalSamplesNum).tdiv SAMPLE_RATE
  let (s, correctedPts) :=
    if bufferPts - correctedPts ≥ 2 * bufferDuration then
      ({ s with startPTS := bufferPts, totalSamplesNum := 0 }, bufferPts)
    else (s, correctedPts)
  ({ s with totalSamplesNum := s.totalSamplesNum + bufferSamplesNum }, correctedPts)

/-- A time stamp changes the count of samples and where it began. -/
theorem getJitterFreePTS_frame (s : VideoEncoderCore) (bufferPts bufferSamplesNum : ℤ) :
    ∃ start total, (s.getJitterFreePTS bufferPts bufferSamplesNum).1 =
      { s with startPTS := start, totalSamplesNum := total } := by
  unfold getJitterFreePTS
  dsimp only
  split_ifs
  · exact ⟨_, _, rfl⟩
  · exact ⟨_, _, rfl⟩
  · exact ⟨_, _, rfl⟩
  · exact ⟨s.startPTS, _, rfl⟩

/-- `sendAudioToEncoder` at a time of the clock, for a buffer of `length` bytes. The encoder
may have no input buffer. -/
def sendAudioToEncoder (s : VideoEncoderCore) (accepted : Bool) (clock : ℤ) (length : ℕ) :
    VideoEncoderCore :=
  if accepted then
    let (s, pts) := s.getJitterFreePTS clock (length / 2 : ℕ)
    s.record (.queue pts s.fullStopReceived)
  else s

/-! ### The end of a drain -/

def leave (s : VideoEncoderCore) : Next → VideoEncoderCore
  | .returns => { s with control := .idle }
  | .startVideo =>
    { s with
      firstFrameReady := true
      firstRun := false
      control := if s.mVideoEncoder then .entering .video s.fullStopReceived .returns else .idle }
  | .stopAudio => { s with control := .sendingLast }
  | .stopped => { s with control := .stopped }

/-- An exception that the drain does not catch. -/
def throw (s : VideoEncoderCore) : Next → VideoEncoderCore
  | .returns | .startVideo => { s with control := .idle }
  | .stopAudio | .stopped => { s with control := .aborted }

/-- The beginning of `drainEncoder`. -/
def enter (s : VideoEncoderCore) (e : Encoder) (endOfStream : Bool) (next : Next) :
    VideoEncoderCore :=
  if e = .video ∧ s.mVideoEncoder = false then s.leave next
  else { s with control := .entering e endOfStream next }

/-! ### One round of a drain -/

/-- `muxerWrapper.finishTrack()` -/
def finishTrack (s : VideoEncoderCore) (e : Encoder) : VideoEncoderCore :=
  let (w, stopped) := s.mMuxerWrapper.finishTrack
  let s := { s with mMuxerWrapper := w }.record (.finishTrack e)
  if stopped then s.record .stop else s

/-- `stopAndReleaseVideoEncoder` and `stopAndReleaseAudioEncoder`. -/
def stopAndRelease (s : VideoEncoderCore) (e : Encoder) : VideoEncoderCore :=
  match e with
  | .video =>
    if s.mVideoEncoder then { s with mVideoEncoder := false }.record (.release .video) else s
  | .audio => { s with lastEncodedAudioTimeStamp := 0 }.record (.release .audio)

/-- The format of an encoder is added to the muxer, which is started with the last track. -/
def addFormat (s : VideoEncoderCore) (e : Encoder) (next : Next) : VideoEncoderCore :=
  match s.mMuxerWrapper.addTrack with
  | (w, none) => { s with mMuxerWrapper := w }.throw next
  | (w, some index) =>
    let s := { s with mMuxerWrapper := w, index := Function.update s.index e index }.record
      (.addTrack e index)
    if w.allTracksAdded then s.record .start else s.leave next

/-- The time with which a sample is written, and the last time of the sound. -/
def sampleTime (s : VideoEncoderCore) (e : Encoder) (presentationTimeUs : ℤ) : ℤ × ℤ :=
  let (t, last) :=
    match e with
    | .audio =>
      let t := if presentationTimeUs < s.lastEncodedAudioTimeStamp then
        s.lastEncodedAudioTimeStamp + 23219 else presentationTimeUs
      (t, t)
    | .video => (presentationTimeUs, s.lastEncodedAudioTimeStamp)
  (if t < 0 then 0 else t, last)

def writeSample (s : VideoEncoderCore) (e : Encoder) (presentationTimeUs : ℤ) :
    VideoEncoderCore :=
  let (t, last) := s.sampleTime e presentationTimeUs
  { s with lastEncodedAudioTimeStamp := last }.record (.write e (s.index e) t)

/-- An encoder whose end has come is finished and released in `stopRecording`, and not
otherwise. -/
def endStream (s : VideoEncoderCore) (e : Encoder) (endOfStream : Bool) : VideoEncoderCore :=
  if endOfStream && s.fullStopReceived then (s.finishTrack e).stopAndRelease e else s

/-- One round of the loop of `drainEncoder`. The muxer refuses a sample of a track that there
is not. -/
def drain (s : VideoEncoderCore) (e : Encoder) (endOfStream encoderOutputBuffers : Bool)
    (next : Next) : Status → VideoEncoderCore
  | .tryAgainLater =>
    if endOfStream = false then s.leave next
    else if e ≠ .video then s
    else
      let s := s.finishTrack e
      if s.fullStopReceived then (s.stopAndRelease e).leave next else s
  | .outputBuffersChanged available =>
    { s with control := .draining e endOfStream (encoderOutputBuffers || available) next }
  | .outputFormatChanged =>
    if s.mMuxerWrapper.started then s else s.addFormat e next
  | .unexpected => s
  | .failed => s.leave next
  | .noData => if encoderOutputBuffers then s.throw next else s
  | .buffer codecConfig endFlag size presentationTimeUs =>
    if encoderOutputBuffers then
      let size := if codecConfig then 0 else size
      if size ≠ 0 ∧ s.mMuxerWrapper.started = true then
        let t := s.writeSample e presentationTimeUs
        if s.index e = -1 then t.throw next
        else if endFlag then (t.endStream e endOfStream).leave next else t
      else if endFlag then (s.endStream e endOfStream).leave next else s
    else s

/-! ### The calls -/

def startRecording (s : VideoEncoderCore) : VideoEncoderCore :=
  let s := { s with fullStopReceived := false }
  if s.firstRun then s.enter .audio false .startVideo
  else s.enter .video s.fullStopReceived .returns

def pDrainEncoder (s : VideoEncoderCore) (video endstream : Bool) : VideoEncoderCore :=
  if video then s.enter .video endstream .returns
  else if s.firstFrameReady = false then s
  else s.enter .audio s.fullStopReceived .returns

def stopRecording (s : VideoEncoderCore) : VideoEncoderCore :=
  let s := { s with fullStopReceived := true }
  s.enter .video s.fullStopReceived .stopAudio

inductive Label
  | startRecording
  | sendAudioToEncoder (accepted : Bool) (clock : ℤ) (length : ℕ)
  | pDrainEncoder (video endstream : Bool)
  | stopRecording
  | getOutputBuffers (available : Bool)
  | dequeue (status : Status)

/-- `stopRecording` sends a buffer of 2048 bytes between the two drains. -/
def step (s : VideoEncoderCore) : Label → Option VideoEncoderCore
  | .startRecording => if s.control = .idle then some s.startRecording else none
  | .sendAudioToEncoder accepted clock length =>
    if s.control = .idle then some (s.sendAudioToEncoder accepted clock length)
    else if s.control = .sendingLast ∧ length = 2048 then
      let s := s.sendAudioToEncoder accepted clock length
      some (s.enter .audio s.fullStopReceived .stopped)
    else none
  | .pDrainEncoder video endstream =>
    if s.control = .idle then some (s.pDrainEncoder video endstream) else none
  | .stopRecording => if s.control = .idle then some s.stopRecording else none
  | .getOutputBuffers available =>
    match s.control with
    | .entering e endOfStream next =>
      some { s with control := .draining e endOfStream available next }
    | _ => none
  | .dequeue status =>
    match s.control with
    | .draining e endOfStream available next => some (s.drain e endOfStream available next status)
    | _ => none

/-- What a step can do. -/
inductive Steps (s : VideoEncoderCore) : Label → VideoEncoderCore → Prop
  | startRecording (h : s.control = .idle) : Steps s .startRecording s.startRecording
  | send (h : s.control = .idle) (accepted : Bool) (clock : ℤ) (length : ℕ) :
    Steps s (.sendAudioToEncoder accepted clock length)
      (s.sendAudioToEncoder accepted clock length)
  | sendLast (h : s.control = .sendingLast) (accepted : Bool) (clock : ℤ) (t : VideoEncoderCore)
    (ht : t = s.sendAudioToEncoder accepted clock 2048) :
    Steps s (.sendAudioToEncoder accepted clock 2048) (t.enter .audio t.fullStopReceived .stopped)
  | pDrainEncoder (h : s.control = .idle) (video endstream : Bool) :
    Steps s (.pDrainEncoder video endstream) (s.pDrainEncoder video endstream)
  | stopRecording (h : s.control = .idle) : Steps s .stopRecording s.stopRecording
  | getOutputBuffers {e : Encoder} {endOfStream : Bool} {next : Next}
    (h : s.control = .entering e endOfStream next) (available : Bool) :
    Steps s (.getOutputBuffers available)
      { s with control := .draining e endOfStream available next }
  | dequeue {e : Encoder} {endOfStream available : Bool} {next : Next}
    (h : s.control = .draining e endOfStream available next) (status : Status) :
    Steps s (.dequeue status) (s.drain e endOfStream available next status)

theorem steps_of_step {s t : VideoEncoderCore} {l : Label} (h : s.step l = some t) :
    Steps s l t := by
  cases l with
  | startRecording =>
    obtain ⟨hidle, ht⟩ := Option.ite_none_right_eq_some.mp h
    obtain rfl := Option.some.inj ht
    exact .startRecording hidle
  | sendAudioToEncoder accepted clock length =>
    simp only [step] at h
    split_ifs at h with hidle hlast
    · obtain rfl := Option.some.inj h
      exact .send hidle accepted clock length
    · obtain rfl := Option.some.inj h
      obtain ⟨hlast, rfl⟩ := hlast
      exact .sendLast hlast accepted clock _ rfl
  | pDrainEncoder video endstream =>
    obtain ⟨hidle, ht⟩ := Option.ite_none_right_eq_some.mp h
    obtain rfl := Option.some.inj ht
    exact .pDrainEncoder hidle video endstream
  | stopRecording =>
    obtain ⟨hidle, ht⟩ := Option.ite_none_right_eq_some.mp h
    obtain rfl := Option.some.inj ht
    exact .stopRecording hidle
  | getOutputBuffers available =>
    simp only [step] at h
    split at h
    · rename_i hcontrol
      obtain rfl := Option.some.inj h
      exact .getOutputBuffers hcontrol available
    · cases h
  | dequeue status =>
    simp only [step] at h
    split at h
    · rename_i hcontrol
      obtain rfl := Option.some.inj h
      exact .dequeue hcontrol status
    · cases h

end VideoEncoderCore

end Jagles.VideoEncoder
