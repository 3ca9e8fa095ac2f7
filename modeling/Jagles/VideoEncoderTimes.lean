import Jagles.VideoEncoder

set_option autoImplicit false
set_option linter.dupNamespace false

/-!
# The times of the sound (`getJitterFreePTS`, `drainEncoder`)

The time of a buffer follows from the samples counted so far, and the count starts again when
the clock is ahead. What the encoder delivers is put in order once more before it is written.
-/
namespace Jagles.VideoEncoder
open GuardedRuns

/-! ## Before the encoder -/

/-- A call of `getJitterFreePTS`, with the time it returns. -/
structure Stamp where
  clock : ℤ
  samples : ℤ
  time : ℤ
  deriving DecidableEq

/-- What a buffer lasts, at 125 microseconds a sample. -/
def Stamp.duration (p : Stamp) : ℤ := 125 * p.samples

namespace VideoEncoderCore

/-- Calls of `getJitterFreePTS`, each with the time of the clock and a number of samples. -/
def stamps : VideoEncoderCore → List (ℤ × ℤ) → List Stamp
  | _, [] => []
  | s, (clock, samples) :: calls =>
    let (t, time) := s.getJitterFreePTS clock samples
    ⟨clock, samples, time⟩ :: t.stamps calls

theorem duration_eq (n : ℤ) : (1000000 * n).tdiv SAMPLE_RATE = 125 * n := by
  rw [show 1000000 * n = SAMPLE_RATE * (125 * n) by rw [SAMPLE_RATE]; ring]
  exact Int.mul_tdiv_cancel_left _ (by decide)

/-- The time that is due next. -/
def due (s : VideoEncoderCore) : ℤ := s.startPTS + 125 * s.totalSamplesNum

theorem getJitterFreePTS_spec {s : VideoEncoderCore} (clock : ℤ) {n : ℤ} (hn : 1 ≤ n)
    (htotal : 0 ≤ s.totalSamplesNum) :
    (s.totalSamplesNum ≠ 0 → s.due ≤ (s.getJitterFreePTS clock n).2) ∧
    clock - (s.getJitterFreePTS clock n).2 < 3 * (125 * n) ∧
    (s.getJitterFreePTS clock n).1.due = (s.getJitterFreePTS clock n).2 + 125 * n ∧
    0 < (s.getJitterFreePTS clock n).1.totalSamplesNum := by
  simp only [getJitterFreePTS, duration_eq, due]
  split_ifs with hzero hahead hahead
  all_goals
    dsimp only at *
    refine ⟨fun h => ?_, ?_, ?_, ?_⟩ <;> first | contradiction | omega

theorem stamps_chain {s : VideoEncoderCore} {calls : List (ℤ × ℤ)}
    (hsamples : ∀ c ∈ calls, 1 ≤ c.2) (htotal : 0 ≤ s.totalSamplesNum) :
    (stamps s calls).IsChain (fun p q => p.time + p.duration ≤ q.time) ∧
    (∀ p ∈ stamps s calls, p.clock - p.time < 3 * p.duration) ∧
    (s.totalSamplesNum ≠ 0 → ∀ p ∈ (stamps s calls).head?, s.due ≤ p.time) := by
  induction calls generalizing s with
  | nil => simp [stamps]
  | cons c calls ih =>
    obtain ⟨clock, n⟩ := c
    obtain ⟨hlater, hclock, hdue, hpos⟩ :=
      getJitterFreePTS_spec clock (hsamples _ (List.mem_cons_self ..)) htotal
    obtain ⟨hchain, hbehind, hhead⟩ :=
      ih (fun c hc => hsamples c (List.mem_cons_of_mem _ hc)) hpos.le
    simp only [stamps]
    refine ⟨List.isChain_cons.mpr ⟨fun q hq => ?_, hchain⟩, ?_, ?_⟩
    · have hq := hhead hpos.ne' q hq
      rw [hdue] at hq
      exact hq
    · intro p hp
      rcases List.mem_cons.mp hp with rfl | hp
      · exact hclock
      · exact hbehind p hp
    · intro hne p hp
      obtain rfl : _ = p := Option.some.inj hp
      exact hlater hne

theorem stamps_samples {s : VideoEncoderCore} {calls : List (ℤ × ℤ)}
    (hsamples : ∀ c ∈ calls, 1 ≤ c.2) : ∀ p ∈ stamps s calls, 1 ≤ p.samples := by
  induction calls generalizing s with
  | nil => simp [stamps]
  | cons c calls ih =>
    obtain ⟨clock, n⟩ := c
    simp only [stamps, List.mem_cons]
    rintro p (rfl | hp)
    · exact hsamples _ (List.mem_cons_self ..)
    · exact ih (fun c hc => hsamples c (List.mem_cons_of_mem _ hc)) p hp

/-! ## Behind the encoder -/

/-- The times of the sound that has been written, newest first. -/
def audioTimes (history : List Event) : List ℤ :=
  history.filterMap fun e =>
    match e with
    | .write .audio _ t => some t
    | _ => none

/-- No time is negative or less than the one before. -/
structure Ordered (history : List Event) : Prop where
  nonneg : ∀ t ∈ audioTimes history, 0 ≤ t
  sorted : (audioTimes history).Pairwise (· ≥ ·)

/-- The times are in order as long as the encoder is not released, and none of them is after
the last time. -/
structure InOrder (s : VideoEncoderCore) : Prop where
  ordered : ∀ later earlier, s.history = later ++ earlier → Event.release .audio ∉ earlier →
    Ordered earlier
  last : Event.release .audio ∉ s.history →
    0 ≤ s.lastEncodedAudioTimeStamp ∧ ∀ t ∈ audioTimes s.history, t ≤ s.lastEncodedAudioTimeStamp

/-- An event that is not a sound written keeps the order. -/
theorem InOrder.record {s : VideoEncoderCore} (h : s.InOrder) {e : Event}
    (he : audioTimes [e] = []) : (s.record e).InOrder := by
  have htimes : ∀ l, audioTimes (e :: l) = audioTimes l := by
    intro l
    change audioTimes ([e] ++ l) = audioTimes l
    rw [audioTimes, List.filterMap_append]
    change audioTimes [e] ++ audioTimes l = audioTimes l
    rw [he, List.nil_append]
  refine ⟨fun later earlier heq hnot => ?_, fun hnot => ?_⟩
  · cases later with
    | nil =>
      obtain rfl : e :: s.history = earlier := heq
      have hold := h.ordered [] s.history rfl fun hmem => hnot (List.mem_cons_of_mem _ hmem)
      exact ⟨by rw [htimes]; exact hold.nonneg, by rw [htimes]; exact hold.sorted⟩
    | cons x later => exact h.ordered later earlier (List.cons.inj heq).2 hnot
  · have hlast := h.last fun hmem => hnot (List.mem_cons_of_mem _ hmem)
    exact ⟨hlast.1, by rw [show (s.record e).history = e :: s.history from rfl, htimes]; exact hlast.2⟩

/-- Only the history and the last time matter. -/
theorem InOrder.congr {s t : VideoEncoderCore} (h : s.InOrder) (hhistory : t.history = s.history)
    (hlast : t.lastEncodedAudioTimeStamp = s.lastEncodedAudioTimeStamp) : t.InOrder := by
  refine ⟨?_, ?_⟩
  · rw [hhistory]
    exact h.ordered
  · rw [hhistory, hlast]
    exact h.last

theorem InOrder.finishTrack {s : VideoEncoderCore} (h : s.InOrder) (e : Encoder) :
    (s.finishTrack e).InOrder := by
  have hw : ∀ w, ({ s with mMuxerWrapper := w } : VideoEncoderCore).InOrder :=
    fun w => h.congr rfl rfl
  unfold VideoEncoderCore.finishTrack
  dsimp only
  split_ifs
  · exact ((hw _).record rfl).record rfl
  · exact (hw _).record rfl

theorem InOrder.stopAndRelease {s : VideoEncoderCore} (h : s.InOrder) (e : Encoder) :
    (s.stopAndRelease e).InOrder := by
  cases e with
  | video =>
    have hnull : ({ s with mVideoEncoder := false } : VideoEncoderCore).InOrder :=
      h.congr rfl rfl
    unfold VideoEncoderCore.stopAndRelease
    dsimp only
    split_ifs
    · exact hnull.record rfl
    · exact h
  | audio =>
    refine ⟨fun later earlier heq hnot => ?_, fun hnot => absurd (List.mem_cons_self ..) hnot⟩
    cases later with
    | nil =>
      obtain rfl : _ = earlier := heq
      exact absurd (List.mem_cons_self ..) hnot
    | cons x later => exact h.ordered later earlier (List.cons.inj heq).2 hnot

theorem InOrder.leave {s : VideoEncoderCore} (h : s.InOrder) (next : Next) :
    (s.leave next).InOrder := by
  cases next <;> exact h.congr rfl rfl

theorem InOrder.throw {s : VideoEncoderCore} (h : s.InOrder) (next : Next) :
    (s.throw next).InOrder := by
  cases next <;> exact h.congr rfl rfl

theorem InOrder.enter {s : VideoEncoderCore} (h : s.InOrder) (e : Encoder) (endOfStream : Bool)
    (next : Next) : (s.enter e endOfStream next).InOrder := by
  unfold VideoEncoderCore.enter
  split_ifs
  · exact h.leave next
  · exact h.congr rfl rfl

theorem InOrder.addFormat {s : VideoEncoderCore} (h : s.InOrder) (e : Encoder) (next : Next) :
    (s.addFormat e next).InOrder := by
  have hw : ∀ w index, ({ s with mMuxerWrapper := w, index := index } : VideoEncoderCore).InOrder :=
    fun w index => h.congr rfl rfl
  unfold VideoEncoderCore.addFormat
  split
  · exact (hw _ s.index).throw next
  · rename_i w index _
    have hadded := (hw w (Function.update s.index e index)).record (e := .addTrack e index) rfl
    dsimp only
    split_ifs
    · exact hadded.record rfl
    · exact hadded.leave next

/-- The time of a sample of the sound is not negative, and not before the last one. -/
theorem sampleTime_audio {s : VideoEncoderCore} (hlast : 0 ≤ s.lastEncodedAudioTimeStamp)
    (pts : ℤ) :
    (s.sampleTime .audio pts).1 = (s.sampleTime .audio pts).2 ∧
      s.lastEncodedAudioTimeStamp ≤ (s.sampleTime .audio pts).2 := by
  simp only [sampleTime]
  split_ifs <;> constructor <;> omega

theorem InOrder.writeSample {s : VideoEncoderCore} (h : s.InOrder) (e : Encoder) (pts : ℤ) :
    (s.writeSample e pts).InOrder := by
  cases e with
  | video => exact InOrder.record (h.congr rfl rfl) rfl
  | audio =>
    have htimes : audioTimes (s.writeSample .audio pts).history =
        (s.sampleTime .audio pts).1 :: audioTimes s.history := rfl
    have hnew : Event.release .audio ∉ s.history → Ordered (s.writeSample .audio pts).history := by
      intro hnot
      obtain ⟨hlast, hle⟩ := h.last hnot
      obtain ⟨heq, hlater⟩ := sampleTime_audio hlast pts
      have hold := h.ordered [] s.history rfl hnot
      refine ⟨?_, ?_⟩
      · rw [htimes]
        intro t ht
        rcases List.mem_cons.mp ht with rfl | ht
        · omega
        · exact hold.nonneg t ht
      · rw [htimes, List.pairwise_cons]
        refine ⟨fun t ht => ?_, hold.sorted⟩
        have := hle t ht
        omega
    refine ⟨fun later earlier heq hnot => ?_, fun hnot => ?_⟩
    · cases later with
      | nil =>
        obtain rfl : _ = earlier := heq
        exact hnew fun hmem => hnot (List.mem_cons_of_mem _ hmem)
      | cons x later => exact h.ordered later earlier (List.cons.inj heq).2 hnot
    · obtain ⟨hlast, hle⟩ := h.last fun hmem => hnot (List.mem_cons_of_mem _ hmem)
      obtain ⟨heq, hlater⟩ := sampleTime_audio hlast pts
      refine ⟨hlast.trans hlater, ?_⟩
      rw [htimes]
      intro t ht
      rcases List.mem_cons.mp ht with rfl | ht
      · exact heq.le
      · exact (hle t ht).trans hlater

theorem InOrder.endStream {s : VideoEncoderCore} (h : s.InOrder) (e : Encoder)
    (endOfStream : Bool) : (s.endStream e endOfStream).InOrder := by
  unfold VideoEncoderCore.endStream
  split_ifs
  · exact (h.finishTrack e).stopAndRelease e
  · exact h

theorem InOrder.drain {s : VideoEncoderCore} (h : s.InOrder) (e : Encoder)
    (endOfStream available : Bool) (next : Next) (status : Status) :
    (s.drain e endOfStream available next status).InOrder := by
  cases status with
  | tryAgainLater =>
    simp only [VideoEncoderCore.drain]
    split_ifs
    · exact h.leave next
    · exact h
    · exact ((h.finishTrack e).stopAndRelease e).leave next
    · exact h.finishTrack e
  | outputBuffersChanged available' => exact h.congr rfl rfl
  | outputFormatChanged =>
    simp only [VideoEncoderCore.drain]
    split_ifs
    · exact h
    · exact h.addFormat e next
  | unexpected => exact h
  | failed => exact h.leave next
  | noData =>
    simp only [VideoEncoderCore.drain]
    split_ifs
    · exact h.throw next
    · exact h
  | buffer codecConfig endFlag size pts =>
    have hwritten := h.writeSample e pts
    simp only [VideoEncoderCore.drain]
    split_ifs
    all_goals
      first
        | exact h
        | exact hwritten
        | exact hwritten.throw next
        | exact (hwritten.endStream e endOfStream).leave next
        | exact (h.endStream e endOfStream).leave next

theorem InOrder.sendAudioToEncoder {s : VideoEncoderCore} (h : s.InOrder) (accepted : Bool)
    (clock : ℤ) (length : ℕ) : (s.sendAudioToEncoder accepted clock length).InOrder := by
  unfold VideoEncoderCore.sendAudioToEncoder
  split_ifs
  · obtain ⟨start, total, heq⟩ := getJitterFreePTS_frame s clock (length / 2 : ℕ)
    dsimp only
    rw [heq]
    have hstamp : ({ s with startPTS := start, totalSamplesNum := total } :
        VideoEncoderCore).InOrder := h.congr rfl rfl
    exact hstamp.record rfl
  · exact h

theorem InOrder.step {s t : VideoEncoderCore} (h : s.InOrder) {l : Label}
    (ht : s.step l = some t) : t.InOrder := by
  have hstop : ∀ b, ({ s with fullStopReceived := b } : VideoEncoderCore).InOrder :=
    fun b => h.congr rfl rfl
  cases steps_of_step ht with
  | startRecording =>
    unfold VideoEncoderCore.startRecording
    dsimp only
    split_ifs
    · exact (hstop false).enter _ _ _
    · exact (hstop false).enter _ _ _
  | send _ accepted clock length => exact h.sendAudioToEncoder accepted clock length
  | sendLast _ accepted clock u hu =>
    rw [hu]
    exact (h.sendAudioToEncoder accepted clock 2048).enter _ _ _
  | pDrainEncoder _ video endstream =>
    unfold VideoEncoderCore.pDrainEncoder
    split_ifs
    · exact h.enter _ _ _
    · exact h
    · exact h.enter _ _ _
  | stopRecording => exact (hstop true).enter _ _ _
  | getOutputBuffers _ available => exact h.congr rfl rfl
  | dequeue _ status => exact h.drain _ _ _ _ status

theorem create_inOrder : create.InOrder := by
  refine ⟨fun later earlier heq _ => ?_, fun _ => ⟨le_rfl, fun t ht => nomatch ht⟩⟩
  obtain ⟨rfl, rfl⟩ := List.append_eq_nil_iff.mp heq.symm
  exact ⟨fun t ht => (nomatch ht), .nil⟩

theorem run_inOrder {ls : List Label} {s : VideoEncoderCore}
    (h : Run step (fun _ _ => True) create ls s) : s.InOrder :=
  h.invariant InOrder (fun _ _ _ hi _ ht => hi.step ht) create_inOrder

/-- The times that `getJitterFreePTS` gives are at least the sound in front of them apart, and
less than three buffers behind the clock; the times that the audio track is written with are
in order until the encoder is released. -/
theorem audio_times_in_order :
    (∀ calls : List (ℤ × ℤ), (∀ c ∈ calls, 1 ≤ c.2) →
      (create.stamps calls).IsChain (fun p q => p.time + p.duration ≤ q.time) ∧
      (create.stamps calls).Pairwise (fun p q => p.time < q.time) ∧
      ∀ p ∈ create.stamps calls, p.clock - p.time < 3 * p.duration) ∧
    ∀ (ls : List Label) (s : VideoEncoderCore), Run step (fun _ _ => True) create ls s →
      ∀ later earlier, s.history = later ++ earlier → Event.release .audio ∉ earlier →
        Ordered earlier := by
  refine ⟨fun calls hsamples => ?_, fun ls s h => (run_inOrder h).ordered⟩
  obtain ⟨hchain, hbehind, -⟩ := stamps_chain (s := create) hsamples le_rfl
  have hstrict : (create.stamps calls).IsChain (fun p q => p.time < q.time) := by
    refine hchain.imp_of_mem_imp fun p q hp _ hle => ?_
    have hpos := stamps_samples hsamples p hp
    unfold Stamp.duration at hle
    omega
  have : IsTrans Stamp (fun p q => p.time < q.time) := ⟨fun _ _ _ => lt_trans⟩
  exact ⟨hchain, List.isChain_iff_pairwise.mp hstrict, hbehind⟩

/-- Both formats are reported, and then comes a sample of sound with a negative time. -/
def negativeSample : List Label :=
  [.startRecording, .getOutputBuffers true, .dequeue .outputFormatChanged, .getOutputBuffers true,
    .dequeue .outputFormatChanged, .dequeue .tryAgainLater, .pDrainEncoder false false,
    .getOutputBuffers true, .dequeue (.buffer false false 10 (-5))]

theorem audio_times_in_order_late :
    (create.stamps [(1000000, 1024), (1128000, 1024), (1900000, 1024)]).Pairwise
      (fun p q => p.time < q.time) ∧
    ∃ s, Run step (fun _ _ => True) create negativeSample s ∧ audioTimes s.history = [23219] ∧
      Ordered s.history := by
  have h : ∃ s, Run step (fun _ _ => True) create negativeSample s ∧
      audioTimes s.history = [23219] ∧ Event.release .audio ∉ s.history :=
    exists_run (by decide)
  obtain ⟨s, hrun, htimes, hnot⟩ := h
  exact ⟨(audio_times_in_order.1 _ (by decide)).2.1, s, hrun, htimes,
    audio_times_in_order.2 _ s hrun [] _ rfl hnot⟩

end VideoEncoderCore

end Jagles.VideoEncoder
