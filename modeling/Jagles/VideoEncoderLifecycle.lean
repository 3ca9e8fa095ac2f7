import Jagles.VideoEncoder

set_option autoImplicit false
set_option linter.dupNamespace false

/-!
# The life of the muxer (`MediaMuxerWrapper`, `drainEncoder`, `stopRecording`)

The muxer is started with the second track that is added and stopped with the second one that
is finished. The counters do not tell which track it was; under the condition on the steps
that is defined here it is each of the two once.
-/
namespace Jagles.VideoEncoder
open GuardedRuns

/-! ## What the history tells -/

def Event.adds (e : Encoder) : Event → Bool
  | .addTrack e' _ => decide (e' = e)
  | _ => false

/-- How often the track of an encoder has been added. -/
def added (history : List Event) (e : Encoder) : ℕ := history.countP (Event.adds e)

/-- Each sample has been written while the muxer was started, to the track of its encoder. -/
def WritesOwn : List Event → Prop
  | [] => True
  | .write e i _ :: earlier =>
    (.addTrack e i ∈ earlier ∧ (∀ e', .addTrack e' i ∈ earlier → e' = e) ∧ .start ∈ earlier ∧
      .stop ∉ earlier) ∧ WritesOwn earlier
  | _ :: earlier => WritesOwn earlier

/-- The muxer is started at most once, for a track of each encoder, and every sample is written
in order. -/
structure Orderly (history : List Event) : Prop where
  starts : history.count .start ≤ 1
  tracks : .start ∈ history → ∀ e, added history e = 1
  writes : WritesOwn history

/-- The recording has been started and brought to its end. -/
structure Complete (history : List Event) : Prop where
  started : history.count .start = 1
  finished : ∀ e, history.count (.finishTrack e) = 1
  released : ∀ e, history.count (.release e) = 1
  stopped : history.count .stop = 1

def Encoder.other : Encoder → Encoder
  | .video => .audio
  | .audio => .video

namespace VideoEncoderCore

/-- The condition on one step. Before the muxer is started an encoder reports its format once,
and in `stopRecording` only when it is the second one. While the video is drained to its end
there is no time-out before `stopRecording`, and in it none before the track was added. The end
of a stream in `stopRecording` comes after the format, and `dequeueOutputBuffer` does not throw
there. -/
def Regular (s : VideoEncoderCore) : Label → Prop
  | .dequeue status =>
    match s.control with
    | .draining e endOfStream available _ =>
      match status with
      | .tryAgainLater =>
        endOfStream = true → e = .video → s.fullStopReceived = true ∧ s.index .video ≠ -1
      | .outputFormatChanged =>
        s.mMuxerWrapper.started = false →
          s.index e = -1 ∧ (s.fullStopReceived = true → s.index e.other ≠ -1)
      | .failed => s.fullStopReceived = false
      | .buffer _ endFlag _ _ =>
        available = true → endFlag = true → endOfStream = true → s.fullStopReceived = true →
          s.index e ≠ -1
      | _ => True
    | _ => True
  | _ => True

/-! ## The invariant -/

def tracksAdded (s : VideoEncoderCore) : ℕ :=
  (if s.index .video = -1 then 0 else 1) + if s.index .audio = -1 then 0 else 1

/-- What the history and the two indices have in common. -/
structure Facts (s : VideoEncoderCore) : Prop where
  tracks : ∀ e, added s.history e = if s.index e = -1 then 0 else 1
  own : ∀ e i, .addTrack e i ∈ s.history → i = s.index e
  mem : ∀ e, s.index e ≠ -1 → .addTrack e (s.index e) ∈ s.history
  distinct : s.index .video ≠ -1 → s.index .video ≠ s.index .audio
  starts : s.history.count .start = if s.tracksAdded = 2 then 1 else 0
  writes : WritesOwn s.history

/-- The muxer has not been stopped, and `n` tracks are finished: none, or that of the video. -/
structure Live (s : VideoEncoderCore) (n : ℕ) : Prop where
  muxer : s.mMuxerWrapper =
    ⟨some ⟨s.tracksAdded, decide (s.tracksAdded = 2)⟩, decide (s.tracksAdded = 2), s.tracksAdded, n⟩
  index_lt : ∀ e, s.index e < s.tracksAdded
  stops : .stop ∉ s.history
  video : s.history.count (.finishTrack .video) = n ∧ s.history.count (.release .video) = n
  audio : s.history.count (.finishTrack .audio) = 0 ∧ s.history.count (.release .audio) = 0
  encoder : s.mVideoEncoder = decide (n = 0)

/-- Where a drain stands in the recording. -/
inductive Phase (s : VideoEncoderCore) : Encoder → Bool → Next → Prop
  | recording (live : s.Live 0) (h : s.fullStopReceived = false) (e : Encoder)
    (endOfStream : Bool) {next : Next} (hnext : next = .returns ∨ next = .startVideo) :
    Phase s e endOfStream next
  | stoppingVideo (live : s.Live 0) (h : s.fullStopReceived = true) :
    Phase s .video true .stopAudio
  | stoppingAudio (live : s.Live 1) (h : s.fullStopReceived = true) (hv : s.index .video ≠ -1) :
    Phase s .audio true .stopped

/-- What holds at a place of the calls. -/
def At (s : VideoEncoderCore) : Control → Prop
  | .idle => s.Live 0 ∧ s.fullStopReceived = false
  | .entering e endOfStream next => s.Phase e endOfStream next
  | .draining e endOfStream _ next => s.Phase e endOfStream next
  | .sendingLast => s.Live 1 ∧ s.fullStopReceived = true ∧ s.index .video ≠ -1
  | .stopped => Complete s.history
  | .aborted => True

structure Inv (s : VideoEncoderCore) : Prop where
  facts : s.Facts
  control : s.At s.control

/-! ## Records -/

/-- Events that the facts do not depend on. -/
def Neutral : Event → Prop
  | .addTrack _ _ | .start | .write _ _ _ => False
  | _ => True

section Records
variable {s t : VideoEncoderCore}

theorem tracksAdded_congr (h : t.index = s.index) : t.tracksAdded = s.tracksAdded := by
  rw [tracksAdded, tracksAdded, h]

theorem Facts.congr (h : s.Facts) (hindex : t.index = s.index) (hhistory : t.history = s.history) :
    t.Facts := by
  have htracks := tracksAdded_congr hindex
  constructor
  · rw [hindex, hhistory]
    exact h.tracks
  · rw [hindex, hhistory]
    exact h.own
  · rw [hindex, hhistory]
    exact h.mem
  · rw [hindex]
    exact h.distinct
  · rw [htracks, hhistory]
    exact h.starts
  · rw [hhistory]
    exact h.writes

theorem Facts.record (h : s.Facts) {e : Event} (he : Neutral e) : (s.record e).Facts := by
  cases e with
  | addTrack | start | write => exact he.elim
  | finishTrack | release | stop | queue =>
    refine ⟨fun e => ?_, fun e i hmem => ?_, fun e he => ?_, h.distinct, ?_, h.writes⟩
    · exact (List.countP_cons_of_neg (by simp [Event.adds])).trans (h.tracks e)
    · exact h.own e i ((List.mem_cons.mp hmem).resolve_left nofun)
    · exact List.mem_cons_of_mem _ (h.mem e he)
    · change (_ :: s.history).count .start = _
      rw [List.count_cons_of_ne (by simp)]
      exact h.starts

theorem Live.congr {n : ℕ} (h : s.Live n) (hmuxer : t.mMuxerWrapper = s.mMuxerWrapper)
    (hindex : t.index = s.index) (hhistory : t.history = s.history)
    (hencoder : t.mVideoEncoder = s.mVideoEncoder) : t.Live n := by
  have htracks := tracksAdded_congr hindex
  constructor
  · rw [hmuxer, htracks]
    exact h.muxer
  · rw [hindex, htracks]
    exact h.index_lt
  · rw [hhistory]
    exact h.stops
  · rw [hhistory]
    exact h.video
  · rw [hhistory]
    exact h.audio
  · rw [hencoder]
    exact h.encoder

/-- An event that ends nothing leaves the muxer as it is. -/
theorem Live.record {n : ℕ} (h : s.Live n) {e : Event} (hfinish : ∀ x, e ≠ .finishTrack x)
    (hrelease : ∀ x, e ≠ .release x) (hstop : e ≠ .stop) : (s.record e).Live n := by
  refine ⟨h.muxer, h.index_lt, fun hmem => ?_, ?_, ?_, h.encoder⟩
  · exact h.stops ((List.mem_cons.mp hmem).resolve_left hstop.symm)
  · exact ⟨(List.count_cons_of_ne (hfinish _)).trans h.video.1,
      (List.count_cons_of_ne (hrelease _)).trans h.video.2⟩
  · exact ⟨(List.count_cons_of_ne (hfinish _)).trans h.audio.1,
      (List.count_cons_of_ne (hrelease _)).trans h.audio.2⟩

theorem Facts.orderly (h : s.Facts) : Orderly s.history := by
  refine ⟨?_, fun hmem e => ?_, h.writes⟩
  · rw [h.starts]
    split_ifs <;> decide
  · have hboth : s.tracksAdded = 2 := by
      by_contra hne
      have hzero := h.starts
      rw [if_neg hne] at hzero
      exact List.count_eq_zero.mp hzero hmem
    rw [h.tracks e]
    unfold tracksAdded at hboth
    cases e <;> split_ifs at hboth ⊢ <;> first | rfl | omega

end Records

/-! ## One round of a drain -/

section Rounds
variable {s : VideoEncoderCore}

@[simp] theorem leave_index (s : VideoEncoderCore) (next : Next) :
    (s.leave next).index = s.index := by
  cases next <;> rfl

@[simp] theorem leave_history (s : VideoEncoderCore) (next : Next) :
    (s.leave next).history = s.history := by
  cases next <;> rfl

@[simp] theorem leave_muxer (s : VideoEncoderCore) (next : Next) :
    (s.leave next).mMuxerWrapper = s.mMuxerWrapper := by
  cases next <;> rfl

@[simp] theorem leave_encoder (s : VideoEncoderCore) (next : Next) :
    (s.leave next).mVideoEncoder = s.mVideoEncoder := by
  cases next <;> rfl

@[simp] theorem leave_fullStop (s : VideoEncoderCore) (next : Next) :
    (s.leave next).fullStopReceived = s.fullStopReceived := by
  cases next <;> rfl

theorem tracksAdded_eq_two (s : VideoEncoderCore) :
    s.tracksAdded = 2 ↔ s.index .video ≠ -1 ∧ s.index .audio ≠ -1 := by
  unfold tracksAdded
  split_ifs <;> simp_all

theorem Live.started_iff {n : ℕ} (h : s.Live n) :
    s.mMuxerWrapper.started = true ↔ s.index .video ≠ -1 ∧ s.index .audio ≠ -1 := by
  rw [h.muxer, ← tracksAdded_eq_two]
  exact decide_eq_true_iff

/-- A started muxer has the track of each encoder. -/
theorem Live.index_ne {n : ℕ} (h : s.Live n) (hstarted : s.mMuxerWrapper.started = true)
    (e : Encoder) : s.index e ≠ -1 := by
  obtain ⟨hv, ha⟩ := h.started_iff.mp hstarted
  cases e with
  | video => exact hv
  | audio => exact ha

/-- A sample that is written while the muxer is started goes to the track of its encoder. -/
theorem Facts.writeSample (h : s.Facts) {n : ℕ} (hlive : s.Live n)
    (hstarted : s.mMuxerWrapper.started = true) (e : Encoder) (pts : ℤ) :
    (s.writeSample e pts).Facts := by
  have he := hlive.index_ne hstarted e
  have hdistinct := h.distinct (hlive.index_ne hstarted .video)
  refine ⟨fun e' => ?_, fun e' i hmem => ?_, fun e' he' => ?_, h.distinct, ?_, ?_, h.writes⟩
  · exact (List.countP_cons_of_neg (by simp [Event.adds])).trans (h.tracks e')
  · exact h.own e' i ((List.mem_cons.mp hmem).resolve_left nofun)
  · exact List.mem_cons_of_mem _ (h.mem e' he')
  · change (_ :: s.history).count .start = _
    rw [List.count_cons_of_ne (by simp)]
    exact h.starts
  · refine ⟨h.mem e he, fun e' hmem => ?_, ?_, hlive.stops⟩
    · have hsame := h.own e' _ hmem
      cases e with
      | video =>
        cases e' with
        | video => rfl
        | audio => exact absurd hsame hdistinct
      | audio =>
        cases e' with
        | video => exact absurd hsame.symm hdistinct
        | audio => rfl
    · refine List.count_pos_iff.mp ?_
      rw [h.starts, if_pos ((tracksAdded_eq_two s).mpr (hlive.started_iff.mp hstarted))]
      exact one_pos

theorem Live.writeSample {n : ℕ} (h : s.Live n) (e : Encoder) (pts : ℤ) :
    (s.writeSample e pts).Live n := by
  have hlast : ∀ last, ({ s with lastEncodedAudioTimeStamp := last } : VideoEncoderCore).Live n :=
    fun last => h.congr rfl rfl rfl rfl
  exact (hlast _).record nofun nofun nofun

/-- The end of the video finishes its track, and the muxer goes on. -/
theorem endVideo (hfacts : s.Facts) (hlive : s.Live 0) :
    ((s.finishTrack .video).stopAndRelease .video).Facts ∧
    ((s.finishTrack .video).stopAndRelease .video).Live 1 ∧
    ((s.finishTrack .video).stopAndRelease .video).index = s.index ∧
    ((s.finishTrack .video).stopAndRelease .video).fullStopReceived = s.fullStopReceived := by
  have hencoder : s.mVideoEncoder = true := hlive.encoder
  have hfinish : s.finishTrack .video =
      { s with
        mMuxerWrapper := { s.mMuxerWrapper with numTracksFinished := 1 }
        history := .finishTrack .video :: s.history } := by
    simp [finishTrack, MediaMuxerWrapper.finishTrack, MediaMuxerWrapper.TOTAL_NUM_TRACKS,
      hlive.muxer, record]
  have hrelease : (s.finishTrack .video).stopAndRelease .video =
      { s with
        mMuxerWrapper := { s.mMuxerWrapper with numTracksFinished := 1 }
        history := .release .video :: .finishTrack .video :: s.history
        mVideoEncoder := false } := by
    rw [hfinish]
    simp [stopAndRelease, hencoder, record]
  have hw : ({ s with
      mMuxerWrapper := { s.mMuxerWrapper with numTracksFinished := 1 }
      mVideoEncoder := false } : VideoEncoderCore).Facts := hfacts.congr rfl rfl
  rw [hrelease]
  refine ⟨(hw.record (e := .finishTrack .video) trivial).record (e := .release .video) trivial,
    ⟨?_, hlive.index_lt, ?_, ?_, ?_, rfl⟩, rfl, rfl⟩
  · rw [hlive.muxer]
    rfl
  · simpa using hlive.stops
  · simpa using hlive.video
  · simpa using hlive.audio

/-- The end of the sound finishes the second track, and the muxer is stopped. -/
theorem endAudio (hfacts : s.Facts) (hlive : s.Live 1)
    (hboth : s.index .video ≠ -1 ∧ s.index .audio ≠ -1) :
    ((s.finishTrack .audio).stopAndRelease .audio).Facts ∧
    Complete ((s.finishTrack .audio).stopAndRelease .audio).history := by
  have htwo := (tracksAdded_eq_two s).mpr hboth
  have hmuxer := hlive.muxer
  rw [htwo] at hmuxer
  have hrelease : (s.finishTrack .audio).stopAndRelease .audio =
      { s with
        mMuxerWrapper := ⟨none, false, 0, 0⟩
        lastEncodedAudioTimeStamp := 0
        history := .release .audio :: .stop :: .finishTrack .audio :: s.history } := by
    simp [finishTrack, stopAndRelease, MediaMuxerWrapper.finishTrack, MediaMuxerWrapper.stop,
      MediaMuxerWrapper.TOTAL_NUM_TRACKS, hmuxer, record]
  have hw : ({ s with
      mMuxerWrapper := ⟨none, false, 0, 0⟩
      lastEncodedAudioTimeStamp := 0 } : VideoEncoderCore).Facts := hfacts.congr rfl rfl
  have hstop : s.history.count .stop = 0 := List.count_eq_zero.mpr hlive.stops
  have hstart := hfacts.starts
  rw [if_pos htwo] at hstart
  rw [hrelease]
  refine ⟨((hw.record (e := .finishTrack .audio) trivial).record (e := .stop) trivial).record
    (e := .release .audio) trivial, ⟨?_, fun e => ?_, fun e => ?_, ?_⟩⟩
  · simpa using hstart
  · cases e with
    | video => simpa using hlive.video.1
    | audio => simpa using hlive.audio.1
  · cases e with
    | video => simpa using hlive.video.2
    | audio => simpa using hlive.audio.2
  · simpa using hstop

/-- The state after the format of an encoder has been added. -/
def formatAdded (s : VideoEncoderCore) (e : Encoder) : VideoEncoderCore :=
  { s with
    mMuxerWrapper :=
      ⟨some ⟨s.tracksAdded + 1, decide (s.tracksAdded + 1 = 2)⟩, decide (s.tracksAdded + 1 = 2),
        s.tracksAdded + 1, s.mMuxerWrapper.numTracksFinished⟩
    index := Function.update s.index e s.tracksAdded
    history :=
      if s.tracksAdded + 1 = 2 then .start :: .addTrack e s.tracksAdded :: s.history
      else .addTrack e s.tracksAdded :: s.history }

theorem tracksAdded_le_one {e : Encoder} (he : s.index e = -1) : s.tracksAdded ≤ 1 := by
  unfold tracksAdded
  cases e <;> rw [if_pos he] <;> split_ifs <;> omega

theorem formatAdded_tracksAdded {e : Encoder} (he : s.index e = -1) :
    (s.formatAdded e).tracksAdded = s.tracksAdded + 1 := by
  have hne : ((s.tracksAdded : ℕ) : ℤ) ≠ -1 := by omega
  have hindex : (s.formatAdded e).index = Function.update s.index e s.tracksAdded := rfl
  rw [tracksAdded, hindex]
  cases e with
  | video =>
    rw [Function.update_self, if_neg hne, Function.update_of_ne (by decide), tracksAdded, if_pos he,
      zero_add, add_comm]
  | audio =>
    rw [Function.update_self, if_neg hne, Function.update_of_ne (by decide), tracksAdded, if_pos he]

theorem addFormat_eq {n : ℕ} (hlive : s.Live n) {e : Encoder} (he : s.index e = -1)
    (next : Next) :
    s.addFormat e next =
      if s.tracksAdded + 1 = 2 then s.formatAdded e else (s.formatAdded e).leave next := by
  have hle := tracksAdded_le_one he
  have hmuxer := hlive.muxer
  interval_cases htracks : s.tracksAdded
  · simp [addFormat, MediaMuxerWrapper.addTrack, MediaMuxerWrapper.TOTAL_NUM_TRACKS,
      MediaMuxerWrapper.allTracksAdded, hmuxer, formatAdded, htracks, record]
  · simp [addFormat, MediaMuxerWrapper.addTrack, MediaMuxerWrapper.TOTAL_NUM_TRACKS,
      MediaMuxerWrapper.allTracksAdded, hmuxer, formatAdded, htracks, record]

theorem mem_formatAdded (s : VideoEncoderCore) (e : Encoder) {x : Event} (hx : x ≠ .start) :
    x ∈ (s.formatAdded e).history ↔ x = .addTrack e s.tracksAdded ∨ x ∈ s.history := by
  simp only [formatAdded]
  split_ifs
  · rw [List.mem_cons, List.mem_cons]
    exact or_iff_right hx
  · exact List.mem_cons

theorem count_formatAdded (s : VideoEncoderCore) (e : Encoder) {x : Event} (hx : x ≠ .start)
    (hne : x ≠ .addTrack e s.tracksAdded) :
    (s.formatAdded e).history.count x = s.history.count x := by
  simp only [formatAdded]
  split_ifs
  · rw [List.count_cons_of_ne hx.symm, List.count_cons_of_ne hne.symm]
  · rw [List.count_cons_of_ne hne.symm]

theorem Facts.formatAdded (h : s.Facts) {n : ℕ} (hlive : s.Live n) {e : Encoder}
    (he : s.index e = -1) : (s.formatAdded e).Facts := by
  have hnew : ((s.tracksAdded : ℕ) : ℤ) ≠ -1 := by omega
  have hnone : ∀ i, Event.addTrack e i ∉ s.history := by
    intro i hmem
    have hzero := h.tracks e
    rw [if_pos he, added, List.countP_eq_zero] at hzero
    exact hzero _ hmem (by simp [Event.adds])
  have hadded : ∀ e', added (s.formatAdded e).history e' =
      (if e = e' then 1 else 0) + added s.history e' := by
    intro e'
    simp only [VideoEncoderCore.formatAdded, added]
    split_ifs <;> simp_all [Event.adds, Nat.add_comm]
  refine ⟨fun e' => ?_, fun e' i hmem => ?_, fun e' he' => ?_, ?_, ?_, ?_⟩
  · rw [hadded, h.tracks]
    by_cases heq : e = e'
    · subst heq
      simp [VideoEncoderCore.formatAdded, he, hnew]
    · rw [if_neg heq, zero_add]
      simp [VideoEncoderCore.formatAdded, Function.update_of_ne (Ne.symm heq)]
  · rcases (mem_formatAdded s _ (by simp)).mp hmem with heq | hold
    · obtain ⟨rfl, rfl⟩ := Event.addTrack.inj heq
      simp [VideoEncoderCore.formatAdded]
    · have hne : e' ≠ e := by
        rintro rfl
        exact hnone i hold
      simp only [VideoEncoderCore.formatAdded, Function.update_of_ne hne]
      exact h.own e' i hold
  · rw [mem_formatAdded s _ (by simp)]
    by_cases heq : e' = e
    · subst heq
      simp [VideoEncoderCore.formatAdded]
    · simp only [VideoEncoderCore.formatAdded, Function.update_of_ne heq] at he' ⊢
      exact .inr (h.mem e' he')
  · intro _
    have hlt := hlive.index_lt e.other
    cases e with
    | video => simpa [VideoEncoderCore.formatAdded, Encoder.other] using hlt.ne'
    | audio => simpa [VideoEncoderCore.formatAdded, Encoder.other] using hlt.ne
  · have hle := tracksAdded_le_one he
    have hstarts := h.starts
    rw [if_neg (by omega)] at hstarts
    rw [formatAdded_tracksAdded he]
    simp only [VideoEncoderCore.formatAdded]
    split_ifs <;> simpa using hstarts
  · simp only [VideoEncoderCore.formatAdded]
    split_ifs <;> exact h.writes

theorem Live.formatAdded {n : ℕ} (h : s.Live n) {e : Encoder} (he : s.index e = -1) :
    (s.formatAdded e).Live n := by
  have htracks := formatAdded_tracksAdded he
  refine ⟨?_, fun e' => ?_, ?_, ?_, ?_, h.encoder⟩
  · rw [htracks]
    simp only [VideoEncoderCore.formatAdded, h.muxer]
  · rw [htracks]
    by_cases heq : e' = e
    · subst heq
      simp [VideoEncoderCore.formatAdded]
    · simp only [VideoEncoderCore.formatAdded, Function.update_of_ne heq]
      have := h.index_lt e'
      push_cast
      omega
  · rw [mem_formatAdded s _ (by simp)]
    exact fun hmem => hmem.elim nofun h.stops
  · rw [count_formatAdded s _ (by simp) (by simp), count_formatAdded s _ (by simp) (by simp)]
    exact h.video
  · rw [count_formatAdded s _ (by simp) (by simp), count_formatAdded s _ (by simp) (by simp)]
    exact h.audio

end Rounds

/-! ## Phases -/

section Phases
variable {s u : VideoEncoderCore} {e : Encoder} {endOfStream : Bool} {next : Next}

theorem Phase.mono (h : s.Phase e endOfStream next) (hlive : ∀ n, s.Live n → u.Live n)
    (hstop : u.fullStopReceived = s.fullStopReceived)
    (hv : s.index .video ≠ -1 → u.index .video ≠ -1) : u.Phase e endOfStream next := by
  cases h with
  | recording live h _ _ hnext => exact .recording (hlive 0 live) (hstop.trans h) e endOfStream hnext
  | stoppingVideo live h => exact .stoppingVideo (hlive 0 live) (hstop.trans h)
  | stoppingAudio live h hindex => exact .stoppingAudio (hlive 1 live) (hstop.trans h) (hv hindex)

theorem Phase.congr (h : s.Phase e endOfStream next) (hmuxer : u.mMuxerWrapper = s.mMuxerWrapper)
    (hindex : u.index = s.index) (hhistory : u.history = s.history)
    (hencoder : u.mVideoEncoder = s.mVideoEncoder)
    (hstop : u.fullStopReceived = s.fullStopReceived) : u.Phase e endOfStream next :=
  h.mono (fun _ hlive => hlive.congr hmuxer hindex hhistory hencoder) hstop (by rw [hindex]; exact id)

theorem Phase.live (h : s.Phase e endOfStream next) : ∃ n, s.Live n := by
  cases h with
  | recording live _ _ _ _ => exact ⟨0, live⟩
  | stoppingVideo live _ => exact ⟨0, live⟩
  | stoppingAudio live _ _ => exact ⟨1, live⟩

/-- A round that stays in the loop. -/
theorem Phase.stay (h : s.Phase e endOfStream next) (hfacts : s.Facts) {available : Bool}
    (hcontrol : s.control = .draining e endOfStream available next) : s.Inv := by
  refine ⟨hfacts, ?_⟩
  rw [hcontrol]
  exact h

theorem leave_facts (h : s.Facts) (next : Next) : (s.leave next).Facts :=
  h.congr (leave_index s next) (leave_history s next)

theorem leave_live {n : ℕ} (h : s.Live n) (next : Next) : (s.leave next).Live n :=
  h.congr (leave_muxer s next) (leave_index s next) (leave_history s next) (leave_encoder s next)

theorem enter_recording (hfacts : s.Facts) (hlive : s.Live 0) (hstop : s.fullStopReceived = false)
    (e : Encoder) (endOfStream : Bool) (hnext : next = .returns ∨ next = .startVideo) :
    (s.enter e endOfStream next).Inv := by
  have hencoder : s.mVideoEncoder = true := hlive.encoder
  unfold enter
  rw [if_neg (by simp [hencoder])]
  have hphase := Phase.recording hlive hstop e endOfStream hnext
  exact ⟨hfacts.congr rfl rfl, hphase.congr rfl rfl rfl rfl rfl⟩

/-- A drain that ends before `stopRecording` goes on with the call. -/
theorem Phase.leave (h : s.Phase e endOfStream next) (hfacts : s.Facts)
    (hstop : s.fullStopReceived = false) : (s.leave next).Inv := by
  cases h with
  | recording live _ _ _ hnext =>
    have hlive := leave_live live next
    have hleave := (leave_fullStop s next).trans hstop
    refine ⟨leave_facts hfacts next, ?_⟩
    rcases hnext with rfl | rfl
    · exact ⟨hlive, hleave⟩
    · have hencoder : s.mVideoEncoder = true := live.encoder
      have hcontrol : (s.leave .startVideo).control =
          .entering .video s.fullStopReceived .returns := if_pos hencoder
      rw [hcontrol]
      exact .recording hlive hleave .video s.fullStopReceived (.inl rfl)
  | stoppingVideo _ hon => exact Bool.noConfusion (hstop.symm.trans hon)
  | stoppingAudio _ hon _ => exact Bool.noConfusion (hstop.symm.trans hon)

/-- An exception ends the call. -/
theorem Phase.throw (h : s.Phase e endOfStream next) (hfacts : s.Facts) : (s.throw next).Inv := by
  cases h with
  | recording live hoff _ _ hnext =>
    rcases hnext with rfl | rfl
    · exact ⟨hfacts.congr rfl rfl, live.congr rfl rfl rfl rfl, hoff⟩
    · exact ⟨hfacts.congr rfl rfl, live.congr rfl rfl rfl rfl, hoff⟩
  | stoppingVideo | stoppingAudio => exact ⟨hfacts.congr rfl rfl, trivial⟩

/-- The end of a stream ends the drain; in `stopRecording` it finishes the track. -/
theorem Phase.endStream (h : s.Phase e endOfStream next) (hfacts : s.Facts)
    (hadded : endOfStream = true → s.fullStopReceived = true → s.index e ≠ -1) :
    ((s.endStream e endOfStream).leave next).Inv := by
  cases h with
  | recording live hoff _ _ hnext =>
    have hsame : s.endStream e endOfStream = s := by
      rw [VideoEncoderCore.endStream, hoff, Bool.and_false, if_neg Bool.false_ne_true]
    rw [hsame]
    exact (Phase.recording live hoff e endOfStream hnext).leave hfacts hoff
  | stoppingVideo live hon =>
    have hend : s.endStream .video true = (s.finishTrack .video).stopAndRelease .video := by
      rw [VideoEncoderCore.endStream, hon, Bool.and_true, if_pos rfl]
    obtain ⟨hfacts', hlive', hindex, hstop⟩ := endVideo hfacts live
    rw [hend]
    refine ⟨leave_facts hfacts' _, leave_live hlive' _, hstop.trans hon, ?_⟩
    rw [leave_index, hindex]
    exact hadded rfl hon
  | stoppingAudio live hon hv =>
    have hend : s.endStream .audio true = (s.finishTrack .audio).stopAndRelease .audio := by
      rw [VideoEncoderCore.endStream, hon, Bool.and_true, if_pos rfl]
    obtain ⟨hfacts', hcomplete⟩ := endAudio hfacts live ⟨hv, hadded rfl hon⟩
    rw [hend]
    exact ⟨leave_facts hfacts' _, hcomplete⟩

theorem Phase.tryAgainLater (h : s.Phase e endOfStream next) (hfacts : s.Facts)
    {available : Bool} (hcontrol : s.control = .draining e endOfStream available next)
    (hregular : s.Regular (.dequeue .tryAgainLater)) :
    (s.drain e endOfStream available next .tryAgainLater).Inv := by
  simp only [Regular, hcontrol] at hregular
  cases h with
  | recording live hoff _ _ hnext =>
    have hphase := Phase.recording live hoff e endOfStream hnext
    simp only [VideoEncoderCore.drain]
    split_ifs with hend hvideo
    · exact hphase.leave hfacts hoff
    · exact hphase.stay hfacts hcontrol
    · have hon := (hregular (by simpa using hend) (not_not.mp hvideo)).1
      exact Bool.noConfusion (hoff.symm.trans hon)
    · have hon := (hregular (by simpa using hend) (not_not.mp hvideo)).1
      exact Bool.noConfusion (hoff.symm.trans hon)
  | stoppingVideo live hon =>
    obtain ⟨hfacts', hlive', hindex, hstop⟩ := endVideo hfacts live
    have hfull : (s.finishTrack .video).fullStopReceived = true := by
      unfold finishTrack
      dsimp only
      split_ifs <;> exact hon
    simp only [VideoEncoderCore.drain]
    rw [if_neg (by decide), if_neg (by decide), if_pos hfull]
    refine ⟨leave_facts hfacts' _, leave_live hlive' _, hstop.trans hon, ?_⟩
    rw [leave_index, hindex]
    exact (hregular rfl rfl).2
  | stoppingAudio live hon hv =>
    simp only [VideoEncoderCore.drain]
    rw [if_neg (by decide), if_pos (by decide)]
    exact (Phase.stoppingAudio live hon hv).stay hfacts hcontrol

theorem Phase.outputFormatChanged (h : s.Phase e endOfStream next) (hfacts : s.Facts)
    {available : Bool} (hcontrol : s.control = .draining e endOfStream available next)
    (hregular : s.Regular (.dequeue .outputFormatChanged)) :
    (s.drain e endOfStream available next .outputFormatChanged).Inv := by
  obtain ⟨n, hlive⟩ := h.live
  simp only [Regular, hcontrol] at hregular
  simp only [VideoEncoderCore.drain]
  split_ifs with hstarted
  · exact h.stay hfacts hcontrol
  · obtain ⟨hnew, hother⟩ := hregular (by simpa using hstarted)
    have hfacts' := hfacts.formatAdded hlive hnew
    have hkept : s.index .video ≠ -1 → (s.formatAdded e).index .video ≠ -1 := by
      intro hv
      have hne : Encoder.video ≠ e := by
        rintro rfl
        exact hv hnew
      simpa only [formatAdded, Function.update_of_ne hne] using hv
    have hphase : (s.formatAdded e).Phase e endOfStream next :=
      h.mono (fun _ hl => hl.formatAdded hnew) rfl hkept
    rw [addFormat_eq hlive hnew]
    split_ifs with hboth
    · exact hphase.stay hfacts' hcontrol
    · refine hphase.leave hfacts' (Bool.eq_false_iff.mpr fun hon => hboth ?_)
      have hle := tracksAdded_le_one hnew
      have hadded := hother hon
      unfold tracksAdded at hle ⊢
      cases e <;> simp only [Encoder.other] at hadded <;> simp_all

theorem Phase.buffer (h : s.Phase e endOfStream next) (hfacts : s.Facts) {available : Bool}
    (hcontrol : s.control = .draining e endOfStream available next) {codecConfig endFlag : Bool}
    {size : ℕ} {pts : ℤ} (hregular : s.Regular (.dequeue (.buffer codecConfig endFlag size pts))) :
    (s.drain e endOfStream available next (.buffer codecConfig endFlag size pts)).Inv := by
  obtain ⟨n, hlive⟩ := h.live
  simp only [Regular, hcontrol] at hregular
  simp only [VideoEncoderCore.drain]
  generalize (if codecConfig = true then 0 else size) = written
  by_cases havailable : available = true
  · rw [if_pos havailable]
    split_ifs with hsize hindex hend hend
    · exact absurd hindex (hlive.index_ne hsize.2 e)
    · have hphase : (s.writeSample e pts).Phase e endOfStream next :=
        h.mono (fun _ hl => hl.writeSample e pts) rfl id
      exact hphase.endStream (hfacts.writeSample hlive hsize.2 e pts) fun _ _ => hindex
    · have hphase : (s.writeSample e pts).Phase e endOfStream next :=
        h.mono (fun _ hl => hl.writeSample e pts) rfl id
      exact hphase.stay (hfacts.writeSample hlive hsize.2 e pts) hcontrol
    · exact h.endStream hfacts (hregular havailable hend)
    · exact h.stay hfacts hcontrol
  · rw [if_neg havailable]
    exact h.stay hfacts hcontrol

/-- A round of a drain that meets the condition keeps the invariant. -/
theorem Phase.drain (h : s.Phase e endOfStream next) (hfacts : s.Facts) {available : Bool}
    (hcontrol : s.control = .draining e endOfStream available next) {status : Status}
    (hregular : s.Regular (.dequeue status)) :
    (s.drain e endOfStream available next status).Inv := by
  cases status with
  | tryAgainLater => exact h.tryAgainLater hfacts hcontrol hregular
  | outputBuffersChanged available' =>
    exact Phase.stay (h.congr rfl rfl rfl rfl rfl) (hfacts.congr rfl rfl) rfl
  | outputFormatChanged => exact h.outputFormatChanged hfacts hcontrol hregular
  | unexpected => exact h.stay hfacts hcontrol
  | failed =>
    simp only [Regular, hcontrol] at hregular
    exact h.leave hfacts hregular
  | noData =>
    simp only [VideoEncoderCore.drain]
    split_ifs
    · exact h.throw hfacts
    · exact h.stay hfacts hcontrol
  | buffer codecConfig endFlag size pts => exact h.buffer hfacts hcontrol hregular

end Phases

/-! ## Runs -/

/-- Sound for the encoder changes the time stamps and the history only. -/
theorem sendAudioToEncoder_cases (s : VideoEncoderCore) (accepted : Bool) (clock : ℤ)
    (length : ℕ) :
    ∃ u : VideoEncoderCore, u.mMuxerWrapper = s.mMuxerWrapper ∧ u.index = s.index ∧
      u.history = s.history ∧ u.mVideoEncoder = s.mVideoEncoder ∧
      u.fullStopReceived = s.fullStopReceived ∧ u.control = s.control ∧
      (s.sendAudioToEncoder accepted clock length = u ∨
        ∃ pts eos, s.sendAudioToEncoder accepted clock length = u.record (.queue pts eos)) := by
  obtain ⟨start, total, heq⟩ := getJitterFreePTS_frame s clock (length / 2 : ℕ)
  unfold sendAudioToEncoder
  split_ifs
  · refine ⟨{ s with startPTS := start, totalSamplesNum := total }, rfl, rfl, rfl, rfl, rfl, rfl,
      .inr ⟨(s.getJitterFreePTS clock (length / 2 : ℕ)).2, s.fullStopReceived, ?_⟩⟩
    dsimp only
    rw [heq]
  · exact ⟨s, rfl, rfl, rfl, rfl, rfl, rfl, .inl rfl⟩

section Runs
variable {s t : VideoEncoderCore}

theorem send_facts (h : s.Facts) (accepted : Bool) (clock : ℤ) (length : ℕ) :
    (s.sendAudioToEncoder accepted clock length).Facts := by
  obtain ⟨u, -, hindex, hhistory, -, -, -, heq | ⟨pts, eos, heq⟩⟩ :=
    sendAudioToEncoder_cases s accepted clock length
  · rw [heq]
    exact h.congr hindex hhistory
  · rw [heq]
    exact (h.congr hindex hhistory).record trivial

theorem send_live {n : ℕ} (h : s.Live n) (accepted : Bool) (clock : ℤ) (length : ℕ) :
    (s.sendAudioToEncoder accepted clock length).Live n := by
  obtain ⟨u, hmuxer, hindex, hhistory, hencoder, -, -, heq | ⟨pts, eos, heq⟩⟩ :=
    sendAudioToEncoder_cases s accepted clock length
  · rw [heq]
    exact h.congr hmuxer hindex hhistory hencoder
  · rw [heq]
    exact (h.congr hmuxer hindex hhistory hencoder).record nofun nofun nofun

theorem send_frame (s : VideoEncoderCore) (accepted : Bool) (clock : ℤ) (length : ℕ) :
    (s.sendAudioToEncoder accepted clock length).control = s.control ∧
    (s.sendAudioToEncoder accepted clock length).fullStopReceived = s.fullStopReceived ∧
    (s.sendAudioToEncoder accepted clock length).index = s.index := by
  obtain ⟨u, -, hindex, -, -, hstop, hcontrol, heq | ⟨pts, eos, heq⟩⟩ :=
    sendAudioToEncoder_cases s accepted clock length
  · rw [heq]
    exact ⟨hcontrol, hstop, hindex⟩
  · rw [heq]
    exact ⟨hcontrol, hstop, hindex⟩

theorem Inv.step (h : s.Inv) {l : Label} (hregular : s.Regular l) (ht : s.step l = some t) :
    t.Inv := by
  have hat := h.control
  cases steps_of_step ht with
  | startRecording hidle =>
    rw [hidle] at hat
    have hfacts : ({ s with fullStopReceived := false } : VideoEncoderCore).Facts :=
      h.facts.congr rfl rfl
    have hlive : ({ s with fullStopReceived := false } : VideoEncoderCore).Live 0 :=
      hat.1.congr rfl rfl rfl rfl
    unfold VideoEncoderCore.startRecording
    dsimp only
    split_ifs
    · exact enter_recording hfacts hlive rfl _ _ (.inr rfl)
    · exact enter_recording hfacts hlive rfl _ _ (.inl rfl)
  | send hidle accepted clock length =>
    rw [hidle] at hat
    obtain ⟨hcontrol, hstop, -⟩ := send_frame s accepted clock length
    refine ⟨send_facts h.facts accepted clock length, ?_⟩
    rw [hcontrol, hidle]
    exact ⟨send_live hat.1 accepted clock length, hstop.trans hat.2⟩
  | sendLast hlast accepted clock u hu =>
    rw [hlast] at hat
    obtain ⟨hlive, hon, hv⟩ := hat
    obtain ⟨-, hstop, hindex⟩ := send_frame s accepted clock 2048
    rw [← hu] at hstop hindex
    have hfull : u.fullStopReceived = true := hstop.trans hon
    have hphase : u.Phase .audio true .stopped :=
      .stoppingAudio (hu ▸ send_live hlive accepted clock 2048) hfull (by rwa [hindex])
    rw [hfull, enter, if_neg (by simp)]
    exact ⟨(hu ▸ send_facts h.facts accepted clock 2048 : u.Facts).congr rfl rfl,
      hphase.congr rfl rfl rfl rfl rfl⟩
  | pDrainEncoder hidle video endstream =>
    rw [hidle] at hat
    unfold VideoEncoderCore.pDrainEncoder
    split_ifs
    · exact enter_recording h.facts hat.1 hat.2 _ _ (.inl rfl)
    · exact h
    · exact enter_recording h.facts hat.1 hat.2 _ _ (.inl rfl)
  | stopRecording hidle =>
    rw [hidle] at hat
    have hencoder : s.mVideoEncoder = true := hat.1.encoder
    have hlive : ({ s with fullStopReceived := true } : VideoEncoderCore).Live 0 :=
      hat.1.congr rfl rfl rfl rfl
    have hphase := Phase.stoppingVideo hlive rfl
    unfold VideoEncoderCore.stopRecording enter
    dsimp only
    rw [if_neg (by simp [hencoder])]
    exact ⟨h.facts.congr rfl rfl, hphase.congr rfl rfl rfl rfl rfl⟩
  | getOutputBuffers hentering available =>
    rw [hentering] at hat
    have hphase : s.Phase _ _ _ := hat
    exact ⟨h.facts.congr rfl rfl, hphase.congr rfl rfl rfl rfl rfl⟩
  | dequeue hdraining status =>
    rw [hdraining] at hat
    exact Phase.drain hat h.facts hdraining hregular

theorem create_inv : create.Inv := by
  refine ⟨⟨fun e => rfl, fun e i hmem => (nomatch hmem), fun e he => absurd rfl he,
    fun hv => absurd rfl hv, rfl, trivial⟩, ⟨rfl, fun e => ?_, fun hmem => (nomatch hmem), ⟨rfl, rfl⟩,
    ⟨rfl, rfl⟩, rfl⟩, rfl⟩
  change (-1 : ℤ) < 0
  decide

theorem run_inv {ls : List Label} (h : Run step Regular create ls s) : s.Inv :=
  h.invariant Inv (fun _ _ _ hi hc ht => hi.step hc ht) create_inv

/-- Where a drain of `stopRecording` goes on when its stream is at its end. -/
def afterEnd : Encoder → Control
  | .video => .sendingLast
  | .audio => .stopped

/-- In `stopRecording` the end of a stream ends the drain. -/
theorem Inv.endOfStream_leaves (h : s.Inv) (hon : s.fullStopReceived = true) {e : Encoder}
    {endOfStream : Bool} {next : Next} (hcontrol : s.control = .draining e endOfStream true next)
    (codecConfig : Bool) (size : ℕ) (pts : ℤ) :
    ∃ t, s.step (.dequeue (.buffer codecConfig true size pts)) = some t ∧
      t.control = afterEnd e := by
  have hphase : s.Phase e endOfStream next := by
    have hat := h.control
    rw [hcontrol] at hat
    exact hat
  obtain ⟨n, hlive⟩ := hphase.live
  have hnext : ∀ u : VideoEncoderCore, (u.leave next).control = afterEnd e := by
    cases hphase with
    | recording _ hoff _ _ _ => exact Bool.noConfusion (hoff.symm.trans hon)
    | stoppingVideo | stoppingAudio => exact fun u => rfl
  refine ⟨s.drain e endOfStream true next (.buffer codecConfig true size pts), ?_, ?_⟩
  · simp only [VideoEncoderCore.step, hcontrol]
  · simp only [VideoEncoderCore.drain, if_true]
    generalize (if codecConfig = true then 0 else size) = written
    split_ifs with hsize hindex
    · exact absurd hindex (hlive.index_ne hsize.2 e)
    · exact hnext _
    · exact hnext _

end Runs

/-- In a recording whose steps meet the condition the muxer is started at most once, for the
two tracks, and samples are written in order; `stopRecording` leaves each drain at the end of
its stream, and when it returns the recording is complete. -/
theorem regular_run_complete {ls : List Label} {s : VideoEncoderCore}
    (h : Run step Regular create ls s) :
    Orderly s.history ∧ (s.control = .stopped → Complete s.history) ∧
    (s.fullStopReceived = true → ∀ e endOfStream next,
      s.control = .draining e endOfStream true next → ∀ codecConfig size pts,
        ∃ t, s.step (.dequeue (.buffer codecConfig true size pts)) = some t ∧
          t.control = afterEnd e) := by
  have hinv := run_inv h
  refine ⟨hinv.facts.orderly, fun hstopped => ?_, fun hon e endOfStream next hcontrol =>
    hinv.endOfStream_leaves hon hcontrol⟩
  have hat := hinv.control
  rw [hstopped] at hat
  exact hat

/-- Both formats come before `stopRecording`, and a sample of each encoder. -/
theorem regular_run_complete_short :
    ∃ s, Run step Regular create
      [.startRecording, .getOutputBuffers true, .dequeue .outputFormatChanged,
        .getOutputBuffers true, .dequeue .outputFormatChanged,
        .dequeue (.buffer false false 100 7), .dequeue .tryAgainLater, .stopRecording,
        .getOutputBuffers true, .dequeue (.buffer false true 100 8),
        .sendAudioToEncoder true 1000000 2048, .getOutputBuffers true, .dequeue .tryAgainLater,
        .dequeue (.buffer false true 100 9)] s ∧ Orderly s.history ∧ Complete s.history := by
  have h : Run step Regular create
      [.startRecording, .getOutputBuffers true, .dequeue .outputFormatChanged,
        .getOutputBuffers true, .dequeue .outputFormatChanged,
        .dequeue (.buffer false false 100 7), .dequeue .tryAgainLater, .stopRecording,
        .getOutputBuffers true, .dequeue (.buffer false true 100 8),
        .sendAudioToEncoder true 1000000 2048, .getOutputBuffers true, .dequeue .tryAgainLater,
        .dequeue (.buffer false true 100 9)] _ :=
    .cons trivial rfl <| .cons trivial rfl <| .cons (fun _ => ⟨rfl, nofun⟩) rfl <|
      .cons trivial rfl <| .cons (fun _ => ⟨rfl, nofun⟩) rfl <| .cons nofun rfl <|
      .cons nofun rfl <| .cons trivial rfl <| .cons trivial rfl <|
      .cons (fun _ _ _ _ => by decide) rfl <| .cons trivial rfl <| .cons trivial rfl <|
      .cons nofun rfl <| .cons (fun _ _ _ _ => by decide) rfl <| .nil _
  have hall := regular_run_complete h
  exact ⟨_, h, hall.1, hall.2.1 rfl⟩

/-- Both formats come in `stopRecording`: the drain of the video ends with its format, and its
track is never finished. -/
theorem stopRecording_formats_late :
    ∃ s, Run step (fun _ _ => True) create
      [.startRecording, .getOutputBuffers true, .dequeue .tryAgainLater, .getOutputBuffers true,
        .dequeue .tryAgainLater, .stopRecording, .getOutputBuffers true,
        .dequeue .outputFormatChanged, .sendAudioToEncoder true 1000000 2048,
        .getOutputBuffers true, .dequeue .outputFormatChanged,
        .dequeue (.buffer false true 100 9)] s ∧
      s.control = .stopped ∧ .finishTrack .video ∉ s.history ∧ .release .video ∉ s.history ∧
      .stop ∉ s.history :=
  exists_run (by decide)

end VideoEncoderCore

end Jagles.VideoEncoder
