import Jagles.GuardedRuns

set_option autoImplicit false
set_option linter.dupNamespace false

/-!
# Recording (`RecordFile`, `StopRecord`, `WriteFrame`)

The connector keeps a flag that a recording runs, and the decoder counts in `mRecord`
whether it writes one. `packets` are those written to the file since it was opened. The
decoder exists as long as its connector.
-/
namespace Jagles.Recorder
open GuardedRuns

def AV_NOPTS_VALUE : ℤ := -2 ^ 63

/-- `AVERROR(ENOMEM)`. -/
def AVERROR_ENOMEM : ℤ := -12

/-- The value of an `int` that gets the result of an operation. -/
def toInt (v : ℤ) : ℤ := v.bmod (2 ^ 32)

structure AVPacket where
  key : Bool
  stream_index : ℕ
  data : List UInt8
  pts : ℤ
  dts : ℤ
  deriving DecidableEq

/-- The fields of `JAMedia` for the recording. -/
structure JAMedia where
  mRecord : ℤ
  mWriteRecord : Bool
  mPts : ℤ
  packets : List AVPacket
  deriving DecidableEq

/-- What the codec library answers to `StartRecord`: the two calls of `av_guess_format`, the
allocations of the context and its streams, `AVFMT_NOFILE` and `avio_open`. -/
structure Library where
  guessed : Bool
  mp4 : Bool
  context : Bool
  video : Bool
  audio : Bool
  nofile : Bool
  opened : Bool

/-- Every step of `StartRecord` succeeds; the audio stream is not made on Android. -/
def Library.Succeeds (android : Bool) (a : Library) : Prop :=
  (a.guessed || a.mp4) = true ∧ a.context = true ∧ a.video = true ∧
    (android || a.audio) = true ∧ (a.nofile || a.opened) = true

instance (android : Bool) (a : Library) : Decidable (a.Succeeds android) :=
  inferInstanceAs (Decidable (_ ∧ _ ∧ _ ∧ _ ∧ _))

structure Frame where
  buf : List UInt8
  buf_type : ℤ
  duration : ℤ

namespace JAMedia

def startRecord (android : Bool) (s : JAMedia) (a : Library) : ℤ × JAMedia :=
  if s.mRecord ≠ 0 then (0, s)
  else if !(a.guessed || a.mp4) then (0, s)
  else if !a.context then (0, s)
  else if !a.video then (0, s)
  else if !(android || a.audio) then (AVERROR_ENOMEM, s)
  else if !(a.nofile || a.opened) then (0, s)
  else (1, { s with mPts := 0, mRecord := s.mRecord + 1, packets := [] })

def stopRecord (s : JAMedia) : JAMedia :=
  if s.mRecord = 0 then s
  else { s with mWriteRecord := false, mRecord := s.mRecord - 1, mPts := 0 }

def isRecord (s : JAMedia) : Bool := decide (s.mRecord > 0)

/-- The packet of a frame; a frame of type 0 is sound behind a header of 36 bytes. -/
def packet (s : JAMedia) (f : Frame) : AVPacket where
  key := f.buf_type == 1
  stream_index := if f.buf_type ≠ 0 then 0 else 1
  data := if f.buf_type ≠ 0 then f.buf else f.buf.drop 36
  pts := if f.buf_type ≠ 0 then s.mPts else AV_NOPTS_VALUE
  dts := if f.buf_type ≠ 0 then s.mPts else AV_NOPTS_VALUE

def writeFrame (s : JAMedia) (f : Frame) : JAMedia :=
  if s.mRecord = 0 then s
  else
    let mWriteRecord := s.mWriteRecord || f.buf_type == 1
    if mWriteRecord then
      { s with
        mWriteRecord
        mPts := if f.buf_type ≠ 0 then toInt (s.mPts + 900 * f.duration.tdiv 40) else s.mPts
        packets := s.packets ++ [s.packet f] }
    else s

end JAMedia

/-- The fields of `JAConnect` for the recording. For each call of `RecordFile`, `calls` has
what it returned and whether it started a recording. -/
structure JAConnect where
  mAddBuffer : Bool
  mIsRecord : Bool
  mDecoder : JAMedia
  calls : List (Bool × Bool)
  deriving DecidableEq

namespace JAConnect

def create : JAConnect := ⟨false, false, ⟨0, false, 0, []⟩, []⟩

/-- `RecordFile`, where the media buffer has counted `bitrate` and `fps`. -/
def recordFile (android : Bool) (s : JAConnect) (bitrate fps : ℤ) (a : Library) :
    Bool × JAConnect :=
  if !s.mAddBuffer then (false, s)
  else if bitrate = 0 then (false, s)
  else if fps = 0 then (false, s)
  else
    let (ret, mDecoder) := s.mDecoder.startRecord android a
    (ret ≠ 0, { s with mIsRecord := true, mDecoder })

def stopRecord (s : JAConnect) : JAConnect :=
  if !s.mDecoder.isRecord then s
  else { s with mIsRecord := false, mDecoder := s.mDecoder.stopRecord }

def getRecordState (s : JAConnect) : Bool := s.mIsRecord

end JAConnect

/-- `disconnect` is `CMD_DISCONNECT`; `addBuffer` is a connect, an opened channel or a
playback that has begun, or a channel that has been closed. -/
inductive Event where
  | recordFile (bitrate fps : ℤ) (a : Library)
  | stopRecord
  | disconnect
  | addBuffer (value : Bool)
  | writeFrame (f : Frame)

def next (android : Bool) (s : JAConnect) : Event → JAConnect
  | .recordFile bitrate fps a =>
    let (ret, t) := s.recordFile android bitrate fps a
    { t with calls := s.calls ++ [(ret, decide (t.mDecoder.mRecord > s.mDecoder.mRecord))] }
  | .stopRecord => s.stopRecord
  | .disconnect => { s with mAddBuffer := false }
  | .addBuffer value => { s with mAddBuffer := value }
  | .writeFrame f => { s with mDecoder := s.mDecoder.writeFrame f }

def step (android : Bool) (s : JAConnect) (e : Event) : Option JAConnect := some (next android s e)

/-- A run of any events. -/
abbrev AnyRun (android : Bool) : JAConnect → List Event → JAConnect → Prop :=
  Run (step android) fun _ _ => True

/-! ## What every step keeps -/

/-- At most one recording runs, and frames are written only to one that runs. -/
structure Counted (s : JAMedia) : Prop where
  count : s.mRecord = 0 ∨ s.mRecord = 1
  writes : s.mRecord = 0 → s.mWriteRecord = false

section Steps
variable {android : Bool} {s : JAMedia} {a : Library}

theorem startRecord_cases (android : Bool) (s : JAMedia) (a : Library) :
    s.mRecord = 0 ∧ a.Succeeds android ∧ s.startRecord android a =
      (1, { s with mPts := 0, mRecord := s.mRecord + 1, packets := [] }) ∨
    ¬ (s.mRecord = 0 ∧ a.Succeeds android) ∧ (s.startRecord android a).2 = s := by
  unfold JAMedia.startRecord Library.Succeeds
  by_cases hrecord : s.mRecord = 0
  · rw [if_neg (not_not.mpr hrecord)]
    cases a.guessed || a.mp4
    · exact .inr ⟨by simp, rfl⟩
    cases a.context
    · exact .inr ⟨by simp, rfl⟩
    cases a.video
    · exact .inr ⟨by simp, rfl⟩
    cases android || a.audio
    · exact .inr ⟨by simp, rfl⟩
    cases a.nofile || a.opened
    · exact .inr ⟨by simp, rfl⟩
    exact .inl ⟨hrecord, by simp, rfl⟩
  · rw [if_pos hrecord]
    exact .inr ⟨fun h => hrecord h.1, rfl⟩

theorem Counted.startRecord (h : Counted s) : Counted (s.startRecord android a).2 := by
  rcases startRecord_cases android s a with ⟨hrecord, -, he⟩ | ⟨-, he⟩
  · rw [he]
    exact ⟨.inr (by simp [hrecord]), by simp [hrecord]⟩
  · rw [he]
    exact h

theorem Counted.stopRecord (h : Counted s) : Counted s.stopRecord := by
  unfold JAMedia.stopRecord
  split
  · exact h
  · rename_i hrecord
    have hone := h.count.resolve_left hrecord
    exact ⟨.inl (by simp [hone]), fun _ => rfl⟩

theorem writeFrame_mRecord (s : JAMedia) (f : Frame) : (s.writeFrame f).mRecord = s.mRecord := by
  unfold JAMedia.writeFrame
  split
  · rfl
  · dsimp only
    split <;> rfl

theorem Counted.writeFrame (h : Counted s) (f : Frame) : Counted (s.writeFrame f) := by
  refine ⟨writeFrame_mRecord s f ▸ h.count, ?_⟩
  rw [writeFrame_mRecord]
  intro hrecord
  rw [JAMedia.writeFrame, if_pos hrecord]
  exact h.writes hrecord

theorem Counted.next {s : JAConnect} (h : Counted s.mDecoder) (e : Event) :
    Counted (next android s e).mDecoder := by
  cases e with
  | recordFile bitrate fps a =>
    simp only [Recorder.next, JAConnect.recordFile]
    split_ifs
    · exact h
    · exact h
    · exact h
    · exact h.startRecord
  | stopRecord =>
    simp only [Recorder.next, JAConnect.stopRecord]
    split
    · exact h
    · exact h.stopRecord
  | disconnect => exact h
  | addBuffer value => exact h
  | writeFrame f => exact h.writeFrame f

theorem AnyRun.counted {s : JAConnect} {es : List Event} (h : AnyRun android .create es s) :
    Counted s.mDecoder := by
  refine h.invariant (fun s => Counted s.mDecoder) ?_ ⟨.inl rfl, fun _ => rfl⟩
  intro s e t hs _ he
  obtain rfl := Option.some.inj he
  exact hs.next e

end Steps

/-! ## The two flags -/

/-- The state of the connector is that of the decoder, and every call of `RecordFile` has
said whether it started a recording. -/
structure Agrees (s : JAConnect) : Prop where
  state : s.getRecordState = s.mDecoder.isRecord
  calls : ∀ c ∈ s.calls, c.1 = c.2

/-- A call of `RecordFile` that gets past its own tests finds a recording or starts one. -/
def Starts (android : Bool) (s : JAConnect) : Event → Prop
  | .recordFile bitrate fps a =>
    s.mAddBuffer = true → bitrate ≠ 0 → fps ≠ 0 → s.mDecoder.isRecord = true ∨ a.Succeeds android
  | _ => True

instance (android : Bool) (s : JAConnect) : (e : Event) → Decidable (Starts android s e)
  | .recordFile bitrate fps a => inferInstanceAs (Decidable
      (s.mAddBuffer = true → bitrate ≠ 0 → fps ≠ 0 →
        s.mDecoder.isRecord = true ∨ a.Succeeds android))
  | .stopRecord | .disconnect | .addBuffer _ | .writeFrame _ => isTrue trivial

section Flags
variable {android : Bool} {s : JAConnect}

theorem Counted.isRecord {m : JAMedia} (h : Counted m) : m.isRecord = true ↔ m.mRecord = 1 := by
  rw [JAMedia.isRecord, decide_eq_true_eq]
  have := h.count
  omega

theorem calls_append {calls : List (Bool × Bool)} {c : Bool × Bool}
    (h : ∀ d ∈ calls, d.1 = d.2) (hc : c.1 = c.2) : ∀ d ∈ calls ++ [c], d.1 = d.2 :=
  List.forall_mem_append.mpr ⟨h, List.forall_mem_singleton.mpr hc⟩

/-- A call that passes the checks of `recordFile` asks the decoder. -/
theorem next_recordFile {bitrate fps : ℤ} (hadd : s.mAddBuffer = true) (hbit : bitrate ≠ 0)
    (hfps : fps ≠ 0) (a : Library) : next android s (.recordFile bitrate fps a) =
      { s with
        mIsRecord := true
        mDecoder := (s.mDecoder.startRecord android a).2
        calls := s.calls ++ [(decide ((s.mDecoder.startRecord android a).1 ≠ 0),
          decide ((s.mDecoder.startRecord android a).2.mRecord > s.mDecoder.mRecord))] } := by
  simp [Recorder.next, JAConnect.recordFile, hadd, hbit, hfps]

theorem next_recordFile_refused {bitrate fps : ℤ}
    (hpass : ¬ (s.mAddBuffer = true ∧ bitrate ≠ 0 ∧ fps ≠ 0)) (a : Library) :
    next android s (.recordFile bitrate fps a) =
      { s with calls := s.calls ++ [(false, false)] } := by
  simp only [Recorder.next, JAConnect.recordFile]
  split_ifs with hadd hbit hfps
  · simp
  · simp
  · simp
  · exact absurd ⟨by simpa using hadd, hbit, hfps⟩ hpass

theorem recordFile_agrees_iff (hc : Counted s.mDecoder) (h : Agrees s) (bitrate fps : ℤ)
    (a : Library) : Agrees (next android s (.recordFile bitrate fps a)) ↔
      Starts android s (.recordFile bitrate fps a) := by
  by_cases hpass : s.mAddBuffer = true ∧ bitrate ≠ 0 ∧ fps ≠ 0
  · obtain ⟨hadd, hbit, hfps⟩ := hpass
    rw [next_recordFile hadd hbit hfps]
    have hrunning := hc.isRecord
    rcases startRecord_cases android s.mDecoder a with ⟨hrecord, hok, he⟩ | ⟨hnot, he⟩
    · rw [he]
      refine iff_of_true ⟨?_, calls_append h.calls (by simp)⟩ fun _ _ _ => .inr hok
      simp [JAConnect.getRecordState, JAMedia.isRecord, hrecord]
    · constructor
      · intro hagree _ _ _
        have hstate := hagree.state
        rw [he] at hstate
        exact .inl hstate.symm
      · intro hstarts
        have hone : s.mDecoder.isRecord = true := by
          rcases hstarts hadd hbit hfps with hrec | hok
          · exact hrec
          · by_contra hrec
            rw [hrunning] at hrec
            exact hnot ⟨hc.count.resolve_right hrec, hok⟩
        have hzero : s.mDecoder.mRecord ≠ 0 := by
          have := hrunning.mp hone
          omega
        rw [JAMedia.startRecord, if_pos hzero]
        exact ⟨hone.symm, calls_append h.calls (by simp)⟩
  · rw [next_recordFile_refused hpass]
    exact iff_of_true ⟨h.state, calls_append h.calls rfl⟩
      fun hadd hbit hfps => absurd ⟨hadd, hbit, hfps⟩ hpass

theorem next_agrees_iff (hc : Counted s.mDecoder) (h : Agrees s) (e : Event) :
    Agrees (next android s e) ↔ Starts android s e := by
  cases e with
  | recordFile bitrate fps a => exact recordFile_agrees_iff hc h bitrate fps a
  | stopRecord =>
    refine iff_of_true ?_ trivial
    simp only [Recorder.next, JAConnect.stopRecord]
    split
    · exact h
    · rename_i hrec
      have hone := hc.isRecord.mp (by simpa using hrec)
      refine ⟨?_, h.calls⟩
      simp [JAConnect.getRecordState, JAMedia.stopRecord, JAMedia.isRecord, hone]
  | disconnect => exact iff_of_true ⟨h.state, h.calls⟩ trivial
  | addBuffer value => exact iff_of_true ⟨h.state, h.calls⟩ trivial
  | writeFrame f =>
    refine iff_of_true ⟨?_, h.calls⟩ trivial
    have hstate := h.state
    simp only [JAConnect.getRecordState, JAMedia.isRecord, Recorder.next, writeFrame_mRecord]
      at hstate ⊢
    exact hstate

end Flags

/-- Along a run the two flags agree and `RecordFile` tells what it has done, exactly when
each call that gets as far as `StartRecord` finds a recording or starts one. -/
theorem record_state_agrees_iff (android : Bool) (es : List Event) (s : JAConnect)
    (h : AnyRun android .create es s) :
    Throughout (step android) Agrees .create es s ↔
      Run (step android) (Starts android) .create es s := by
  refine h.throughout_iff (I := fun s => Counted s.mDecoder) ?_ ?_ ⟨.inl rfl, fun _ => rfl⟩
    ⟨rfl, fun c hc => by cases hc⟩
  · intro s e t hs _ he
    obtain rfl := Option.some.inj he
    exact hs.next e
  · intro s e t hs hp _ he
    obtain rfl := Option.some.inj he
    exact next_agrees_iff hs hp e

def answers (opened : Bool) : Library := ⟨true, true, true, true, true, false, opened⟩

def recordedOnce : List Event :=
  [.addBuffer true, .recordFile 4096 25 (answers true), .disconnect, .stopRecord]

theorem record_state_agrees_recordedOnce : ∃ s,
    Throughout (step true) Agrees .create recordedOnce s := by
  have hrun : ∃ s, Run (step true) (Starts true) .create recordedOnce s ∧ True :=
    exists_run (P := fun _ => True) (by decide +kernel)
  obtain ⟨s, hrun, -⟩ := hrun
  exact ⟨s, (record_state_agrees_iff true recordedOnce s
    (hrun.weaken fun _ _ _ => trivial)).mpr hrun⟩

/-- A file that cannot be opened leaves the connector recording for good. -/
theorem record_state_disagrees : ¬ ∀ (es : List Event) (s : JAConnect),
    AnyRun true .create es s → Throughout (step true) Agrees .create es s := by
  intro hall
  have hrun : AnyRun true .create [.addBuffer true, .recordFile 4096 25 (answers false)]
      (next true (next true .create (.addBuffer true)) (.recordFile 4096 25 (answers false))) :=
    .cons trivial rfl (.cons trivial rfl (.nil _))
  have h := hall _ _ hrun
  cases h with
  | cons h1 he tail =>
    obtain rfl := Option.some.inj he
    cases tail with
    | cons h2 he' _ => exact absurd (h2 _ he').state (by cases Option.some.inj he'; decide +kernel)

end Jagles.Recorder
