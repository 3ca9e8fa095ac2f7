import Jagles.FilePlayer

set_option autoImplicit false
set_option linter.dupNamespace false

/-!
# The loop of the file player

What a step of `DoThread`, `SeekFile` or `StopPlay` keeps, whatever the library answers: a
request is pending or performed, and only a skipped packet has still to be freed.
-/
namespace Jagles.FilePlayer
open HeldResources GuardedRuns
namespace JAPlayer

/-- A packet is taken by a successful read. The next read and the exit need it freed. -/
def move : Event → Move
  | .av_read_frame (some _) => .take
  | .av_read_frame none => .need
  | .av_free_packet => .give
  | .exit => .need
  | _ => .other

def seekTarget : Event → Option ℤ
  | .av_seek_frame second => some second
  | _ => none

def requestTarget : Event → Option ℤ
  | .SeekFile mSec => some mSec
  | _ => none

def lastSeek (s : JAPlayer) : Option ℤ := s.history.findSome? seekTarget

def lastRequest (s : JAPlayer) : Option ℤ := s.history.findSome? requestTarget

/-- Whether there is a packet to be freed, as long as each one has been freed in time. -/
def holding (history : List Event) : Option Bool := held (history.map move)

/-- Every packet is freed exactly once before the next read or the exit. -/
def PacketsFreed (history : List Event) : Prop := holding history ≠ none

instance (history : List Event) : Decidable (PacketsFreed history) :=
  inferInstanceAs (Decidable (_ ≠ _))

theorem count_give (events : List Event) :
    (events.map move).count .give = events.count .av_free_packet := by
  rw [List.count, List.countP_map, List.count]
  congr 1
  funext e
  cases e with
  | av_read_frame result => cases result <;> rfl
  | _ => rfl

/-- From a packet to the next read or the exit there is one call of `av_free_packet`. -/
theorem PacketsFreed.once {late events early : List Event} {e : Event} {p : Packet}
    (h : PacketsFreed (late ++ e :: events ++ .av_read_frame (some p) :: early))
    (he : move e = .take ∨ move e = .need) (hnone : ∀ e' ∈ events, move e' ≠ .take) :
    events.count .av_free_packet = 1 := by
  unfold PacketsFreed holding at h
  simp only [List.map_append, List.map_cons] at h
  rw [← count_give]
  refine given_once h he fun htake => ?_
  obtain ⟨e', he', hmove⟩ := List.mem_map.mp htake
  exact hnone e' he' hmove

/-- No codec function is called with `NULL`. -/
def CodecsGiven (history : List Event) : Prop := ∀ call, Event.codec call none ∉ history

/-- A request is pending, or it is the last one that has been performed. -/
def SeeksKept (s : JAPlayer) : Prop := s.mSeek = false → s.lastSeek = s.lastRequest

structure Orderly (s : JAPlayer) : Prop where
  packets : PacketsFreed s.history
  codecs : CodecsGiven s.history
  seeks : s.SeeksKept

/-- The last packet is one of the video that was not decoded or gave no picture. -/
def Skipped (s : JAPlayer) : Prop :=
  s.isStream s.videoindex = true ∧ (s.ret < 0 ∨ s.got_picture = false)

instance (s : JAPlayer) : Decidable s.Skipped := inferInstanceAs (Decidable (_ ∧ _))

/-- The condition on a step: the loop does not read on or end after a skipped packet, and the
buffers of the sound are flushed only if there is a stream for it. -/
def Allowed (s : JAPlayer) : Label → Prop
  | .read _ => ¬ s.Skipped
  | .thread => (s.pc = .exit → ¬ s.Skipped) ∧ (s.pc = .flushAudio → 0 ≤ s.audioindex)
  | _ => True

instance (s : JAPlayer) (l : Label) : Decidable (s.Allowed l) := by
  cases l <;> simp only [Allowed] <;> infer_instance

/-! ## Requests -/

/-- Where the thread is on its way through a seek. -/
def seeking : Pc → Bool
  | .lock | .seek | .flush | .flushAudio | .clear | .unlock => true
  | _ => false

/-- Between `av_seek_frame` and the end of the request. -/
def sought : Pc → Bool
  | .flush | .flushAudio | .clear => true
  | _ => false

/-- A request and the lock around it. -/
structure Requests (s : JAPlayer) : Prop where
  holds : s.mLock = some .thread ↔ seeking s.pc = true ∧ s.pc ≠ .lock
  pending : seeking s.pc = true → s.pc ≠ .unlock → s.mSeek = true
  flagged : ∀ mSec, s.mLock = some (.caller mSec .flag) → s.mSeekSecond = mSec
  target : s.mSeek = true → (∀ mSec, s.mLock ≠ some (.caller mSec .flag)) →
    s.lastRequest = some s.mSeekSecond
  found : sought s.pc = true → s.lastSeek = some s.mSeekSecond
  kept : s.SeeksKept

/-- A step that has nothing to do with seeking. -/
structure Quiet (s t : JAPlayer) : Prop where
  lock : t.mLock = s.mLock
  flag : t.mSeek = s.mSeek
  second : t.mSeekSecond = s.mSeekSecond
  seek : t.lastSeek = s.lastSeek
  request : t.lastRequest = s.lastRequest
  before : seeking s.pc = false
  after : seeking t.pc = false

section Steps
variable {s t : JAPlayer}

theorem sought_seeking {pc : Pc} (h : sought pc = true) : seeking pc = true := by
  cases pc <;> first | rfl | cases h

theorem Requests.quiet (h : Requests s) (hq : Quiet s t) : Requests t where
  holds := by
    rw [hq.lock, h.holds, hq.before, hq.after]
    exact ⟨fun hs => absurd hs.1 Bool.false_ne_true, fun hs => absurd hs.1 Bool.false_ne_true⟩
  pending := by
    rw [hq.after]
    exact fun hs => absurd hs Bool.false_ne_true
  flagged := by
    rw [hq.lock, hq.second]
    exact h.flagged
  target := by
    rw [hq.flag, hq.lock, hq.request, hq.second]
    exact h.target
  found hs := by
    have hafter := sought_seeking hs
    rw [hq.after] at hafter
    cases hafter
  kept := by
    rw [SeeksKept, hq.flag, hq.seek, hq.request]
    exact h.kept

theorem readFrame_quiet (h : s.pc = .read) (result : Option Packet) :
    Quiet s (s.readFrame result) := by
  have hbefore : seeking s.pc = false := by rw [h]; rfl
  cases result with
  | none => exact ⟨rfl, rfl, rfl, rfl, rfl, hbefore, rfl⟩
  | some p =>
    simp only [readFrame, sound]
    split_ifs <;> exact ⟨rfl, rfl, rfl, rfl, rfl, hbefore, rfl⟩

theorem decodeVideo_quiet (h : s.pc = .decode) (ret : ℤ) (got_picture : Bool) :
    Quiet s (s.decodeVideo ret got_picture) := by
  have hbefore : seeking s.pc = false := by rw [h]; rfl
  simp only [decodeVideo, sound]
  split_ifs <;> exact ⟨rfl, rfl, rfl, rfl, rfl, hbefore, rfl⟩

theorem decodeAudio_quiet (h : s.pc = .decodeAudio) (ret : ℤ) (got_picture : Bool) :
    Quiet s (s.decodeAudio ret got_picture) := by
  have hbefore : seeking s.pc = false := by rw [h]; rfl
  simp only [decodeAudio]
  split_ifs <;> exact ⟨rfl, rfl, rfl, rfl, rfl, hbefore, rfl⟩

theorem close_quiet (h : s.pc = .exit) : Quiet s s.close := by
  have hbefore : seeking s.pc = false := by rw [h]; rfl
  simp only [close]
  split_ifs <;> exact ⟨rfl, rfl, rfl, rfl, rfl, hbefore, rfl⟩

/-- Between taking and leaving the lock the thread has it, and until the flag is cleared there is
a request. -/
theorem Requests.inside (h : Requests s) (hseeking : seeking s.pc = true) (hlock : s.pc ≠ .lock)
    (hunlock : s.pc ≠ .unlock) : s.mSeek = true ∧ s.mLock = some .thread :=
  ⟨h.pending hseeking hunlock, h.holds.mpr ⟨hseeking, hlock⟩⟩

/-- While another thread has the lock, the thread is not at a seek. -/
theorem Requests.outside (h : Requests s) (hlock : s.mLock ≠ some .thread) :
    ¬ (seeking s.pc = true ∧ s.pc ≠ .lock) ∧ sought s.pc ≠ true := by
  have hout : ¬ (seeking s.pc = true ∧ s.pc ≠ .lock) := fun hin => hlock (h.holds.mpr hin)
  refine ⟨hout, fun hsought => hout ⟨sought_seeking hsought, ?_⟩⟩
  intro hl
  rw [hl] at hsought
  cases hsought

theorem Requests.step {l : Label} (h : Requests s) (hs : Steps s l t) : Requests t := by
  cases hs with
  | request mSec hfree =>
    exact ⟨by simp [← h.holds, hfree], h.pending, by simp, fun hp _ => h.target hp (by simp [hfree]),
      h.found, h.kept⟩
  | second hlock =>
    obtain ⟨hout, hsought⟩ := h.outside (by simp [hlock])
    exact ⟨by simpa using hout, h.pending, by simp, by simp, fun hs => absurd hs hsought, h.kept⟩
  | flag hlock =>
    obtain ⟨hout, hsought⟩ := h.outside (by simp [hlock])
    refine ⟨by simpa using hout, fun _ _ => rfl, by simp, ?_, fun hs => absurd hs hsought, nofun⟩
    intro _ _
    rw [record_mSeekSecond, h.flagged _ hlock]
    rfl
  | leave hlock =>
    have hout := (h.outside (by simp [hlock])).1
    exact ⟨by simpa using hout, h.pending, by simp, fun hp _ => h.target hp (by simp [hlock]),
      h.found, h.kept⟩
  | stop => exact ⟨h.holds, h.pending, h.flagged, h.target, h.found, h.kept⟩
  | head hpc =>
    refine h.quiet ⟨rfl, rfl, rfl, rfl, rfl, by rw [hpc]; rfl, ?_⟩
    dsimp only
    split <;> rfl
  | test hpc =>
    have hout : s.mLock ≠ some .thread := by simp [h.holds, hpc, seeking]
    cases hseek : s.mSeek with
    | false => exact h.quiet ⟨rfl, hseek.symm ▸ rfl, rfl, rfl, rfl, by rw [hpc]; rfl, rfl⟩
    | true =>
      exact ⟨by simpa using hout, fun _ _ => rfl, h.flagged, fun _ => h.target hseek, nofun, nofun⟩
  | lock hpc hfree =>
    have hseek := h.pending (by rw [hpc]; rfl) (by simp [hpc])
    exact ⟨by simp [seeking], fun _ _ => hseek, by simp,
      fun _ _ => h.target hseek (by simp [hfree]), nofun, h.kept⟩
  | seek hpc =>
    obtain ⟨hseek, hlock⟩ := h.inside (by rw [hpc]; rfl) (by simp [hpc]) (by simp [hpc])
    exact ⟨by simp [hlock, seeking], fun _ _ => hseek, h.flagged, h.target, fun _ => rfl,
      fun hno => absurd (hseek.symm.trans hno) (by simp)⟩
  | flush hpc =>
    obtain ⟨hseek, hlock⟩ := h.inside (by rw [hpc]; rfl) (by simp [hpc]) (by simp [hpc])
    exact ⟨by simp [hlock, seeking], fun _ _ => hseek, h.flagged, h.target,
      fun _ => h.found (by rw [hpc]; rfl), h.kept⟩
  | flushAudio hpc =>
    obtain ⟨hseek, hlock⟩ := h.inside (by rw [hpc]; rfl) (by simp [hpc]) (by simp [hpc])
    exact ⟨by simp [hlock, seeking], fun _ _ => hseek, h.flagged, h.target,
      fun _ => h.found (by rw [hpc]; rfl), h.kept⟩
  | clear hpc =>
    obtain ⟨hseek, hlock⟩ := h.inside (by rw [hpc]; rfl) (by simp [hpc]) (by simp [hpc])
    have hfound := h.found (by rw [hpc]; rfl)
    have htarget := h.target hseek (by simp [hlock])
    exact ⟨by simp [hlock, seeking], fun _ hno => absurd rfl hno, h.flagged, nofun, nofun,
      fun _ => hfound.trans htarget.symm⟩
  | unlock hpc =>
    have hlock := h.holds.mpr ⟨by rw [hpc]; rfl, by simp [hpc]⟩
    exact ⟨by simp [seeking], nofun, by simp, fun hp _ => h.target hp (by simp [hlock]), nofun,
      h.kept⟩
  | free hpc => exact h.quiet ⟨rfl, rfl, rfl, rfl, rfl, by rw [hpc]; rfl, rfl⟩
  | close hpc => exact h.quiet (close_quiet hpc)
  | read hpc result => exact h.quiet (readFrame_quiet hpc result)
  | video hpc ret got_picture => exact h.quiet (decodeVideo_quiet hpc ret got_picture)
  | audio hpc ret got_picture => exact h.quiet (decodeAudio_quiet hpc ret got_picture)

end Steps

/-! ## Packets and codecs -/

/-- Whether the packet that was read last has still to be freed. -/
def Outstanding (s : JAPlayer) : Prop :=
  match s.pc with
  | .decode | .decodeAudio | .free => True
  | .ended => False
  | _ => s.Skipped

/-- Where `Outstanding` asks for the last packet. -/
def between : Pc → Bool
  | .decode | .decodeAudio | .free | .ended => false
  | _ => true

structure Loop (s : JAPlayer) : Prop where
  streams : s.videoindex ≠ s.audioindex
  video : s.pc ≠ .ended → s.pCodecCtx ≠ none
  audio : s.pc ≠ .ended → (s.pAudioCodecCtx ≠ none ↔ 0 ≤ s.audioindex)
  decode : s.pc = .decode → s.isStream s.videoindex = true
  decodeAudio : s.pc = .decodeAudio → s.isStream s.audioindex = true
  free : s.pc = .free → ¬ s.Skipped
  held : ∀ b, holding s.history = some b → (b = true ↔ s.Outstanding)

section Loops
variable {s t : JAPlayer} {p : Packet}

theorem outstanding_between (h : between s.pc = true) : s.Outstanding ↔ s.Skipped := by
  unfold Outstanding
  cases hpc : s.pc <;> first | exact Iff.rfl | (rw [hpc] at h; cases h)

@[simp] theorem holding_cons (e : Event) (history : List Event) :
    holding (e :: history) = follow (move e) (holding history) := rfl

theorem codecsGiven_cons {e : Event} {history : List Event} :
    CodecsGiven (e :: history) ↔ CodecsGiven history ∧ ∀ call, e ≠ .codec call none := by
  unfold CodecsGiven
  constructor
  · intro h
    exact ⟨fun call hc => h call (List.mem_cons_of_mem _ hc),
      fun call he => h call (he ▸ List.mem_cons_self)⟩
  · rintro ⟨hrest, hone⟩ call hc
    rcases List.mem_cons.mp hc with he | hc
    · exact hone call he.symm
    · exact hrest call hc

/-- The part of the state that `Loop` is about is as before, and so is the place in the loop, or
it is between two packets before and after. -/
structure Untouched (s t : JAPlayer) : Prop where
  videoindex : t.videoindex = s.videoindex
  audioindex : t.audioindex = s.audioindex
  pCodecCtx : t.pCodecCtx = s.pCodecCtx
  pAudioCodecCtx : t.pAudioCodecCtx = s.pAudioCodecCtx
  packet : t.packet = s.packet
  ret : t.ret = s.ret
  got_picture : t.got_picture = s.got_picture
  holding : JAPlayer.holding t.history = JAPlayer.holding s.history
  pc : t.pc = s.pc ∨ between s.pc = true ∧ between t.pc = true

theorem Untouched.isStream (h : Untouched s t) (index : ℤ) :
    t.isStream index = s.isStream index := by
  rw [JAPlayer.isStream, h.packet]
  rfl

theorem Untouched.skipped (h : Untouched s t) : t.Skipped ↔ s.Skipped := by
  rw [Skipped, h.isStream, h.videoindex, h.ret, h.got_picture]
  exact Iff.rfl

theorem Untouched.outstanding (h : Untouched s t) : t.Outstanding ↔ s.Outstanding := by
  rcases h.pc with hpc | ⟨hs, ht⟩
  · unfold Outstanding
    rw [hpc, h.skipped]
  · rw [outstanding_between hs, outstanding_between ht, h.skipped]

/-- A place of the loop at which there is a packet, or the end. -/
theorem Untouched.pc_eq (h : Untouched s t) {pc : Pc} (hbetween : between pc = false)
    (hpc : t.pc = pc) : s.pc = pc := by
  rcases h.pc with he | ⟨-, ht⟩
  · rw [← he, hpc]
  · rw [hpc, hbetween] at ht
    cases ht

theorem Untouched.not_ended (h : Untouched s t) (ht : t.pc ≠ .ended) : s.pc ≠ .ended := by
  rcases h.pc with he | ⟨hs, -⟩
  · rwa [← he]
  · intro hpc
    rw [hpc] at hs
    cases hs

theorem Loop.untouched (h : Loop s) (hu : Untouched s t) : Loop t where
  streams := by
    rw [hu.videoindex, hu.audioindex]
    exact h.streams
  video hpc := by
    rw [hu.pCodecCtx]
    exact h.video (hu.not_ended hpc)
  audio hpc := by
    rw [hu.pAudioCodecCtx, hu.audioindex]
    exact h.audio (hu.not_ended hpc)
  decode hpc := by
    rw [hu.isStream, hu.videoindex]
    exact h.decode (hu.pc_eq rfl hpc)
  decodeAudio hpc := by
    rw [hu.isStream, hu.audioindex]
    exact h.decodeAudio (hu.pc_eq rfl hpc)
  free hpc := by
    rw [hu.skipped]
    exact h.free (hu.pc_eq rfl hpc)
  held := by
    rw [hu.holding]
    intro b hb
    rw [hu.outstanding]
    exact h.held b hb

theorem follow_take {b : Bool} {held : Option Bool} (h : follow .take held = some b) :
    held = some false ∧ b = true := by
  cases held with
  | none => cases h
  | some c => cases c <;> cases h; exact ⟨rfl, rfl⟩

theorem follow_give {b : Bool} {held : Option Bool} (h : follow .give held = some b) :
    held = some true ∧ b = false := by
  cases held with
  | none => cases h
  | some c => cases c <;> cases h; exact ⟨rfl, rfl⟩

theorem follow_need {b : Bool} {held : Option Bool} (h : follow .need held = some b) :
    held = some false ∧ b = false := by
  cases held with
  | none => cases h
  | some c => cases c <;> cases h; exact ⟨rfl, rfl⟩

/-- The way on from a packet, when it has been read and is no skipped one. -/
theorem loop_sound (hstreams : s.videoindex ≠ s.audioindex) (hvideo : s.pCodecCtx ≠ none)
    (haudio : s.pAudioCodecCtx ≠ none ↔ 0 ≤ s.audioindex) (hskipped : ¬ s.Skipped)
    (hheld : ∀ b, holding s.history = some b → b = true) : Loop s.sound := by
  cases hstream : s.isStream s.audioindex with
  | true =>
    rw [show s.sound = { s with pc := .decodeAudio } by simp [sound, hstream]]
    exact ⟨hstreams, fun _ => hvideo, fun _ => haudio, nofun, fun _ => hstream, nofun,
      fun b hb => iff_of_true (hheld b hb) trivial⟩
  | false =>
    rw [show s.sound = { s with pc := .free } by simp [sound, hstream]]
    exact ⟨hstreams, fun _ => hvideo, fun _ => haudio, nofun, nofun, fun _ => hskipped,
      fun b hb => iff_of_true (hheld b hb) trivial⟩

theorem Loop.readFrame (h : Loop s) (hpc : s.pc = .read) (result : Option Packet) :
    Loop (s.readFrame result) := by
  have hvideo := h.video (by simp [hpc])
  have haudio := h.audio (by simp [hpc])
  cases result with
  | none =>
    refine ⟨h.streams, fun _ => hvideo, fun _ => haudio, nofun, nofun, nofun, fun b hb => ?_⟩
    obtain ⟨hs, rfl⟩ := follow_need hb
    have hskipped := (h.held false hs).trans (outstanding_between (by rw [hpc]; rfl))
    exact hskipped
  | some p =>
    have htaken : ∀ b, holding (.av_read_frame (some p) :: s.history) = some b → b = true :=
      fun b hb => (follow_take hb).2
    unfold JAPlayer.readFrame
    dsimp only
    split
    · rename_i hstream
      exact ⟨h.streams, fun _ => hvideo, fun _ => haudio, fun _ => hstream, nofun, nofun,
        fun b hb => iff_of_true (htaken b hb) trivial⟩
    · rename_i hstream
      exact loop_sound h.streams hvideo haudio (fun hskipped => hstream hskipped.1) htaken

theorem Loop.decodeVideo (h : Loop s) (hpc : s.pc = .decode) (ret : ℤ) (got_picture : Bool) :
    Loop (s.decodeVideo ret got_picture) := by
  have hvideo := h.video (by simp [hpc])
  have haudio := h.audio (by simp [hpc])
  have hstream := h.decode hpc
  have hheld : ∀ b, holding s.history = some b → b = true :=
    fun b hb => (h.held b hb).mpr (by rw [Outstanding, hpc]; trivial)
  unfold JAPlayer.decodeVideo
  dsimp only
  split_ifs with hret hgot
  · exact ⟨h.streams, fun _ => hvideo, fun _ => haudio, nofun, nofun, nofun,
      fun b hb => iff_of_true (hheld b hb) ⟨hstream, .inl hret⟩⟩
  · exact ⟨h.streams, fun _ => hvideo, fun _ => haudio, nofun, nofun, nofun,
      fun b hb => iff_of_true (hheld b hb)
        ⟨hstream, .inr (show got_picture = false by simpa using hgot)⟩⟩
  · refine loop_sound h.streams hvideo haudio ?_ hheld
    rintro ⟨-, hlow | hno⟩
    · exact hret hlow
    · have hpicture : got_picture = false := hno
      exact hgot (by simpa using hpicture)

theorem not_isStream {index index' : ℤ} (h : s.isStream index = true) (hne : index' ≠ index) :
    s.isStream index' = false := by
  unfold JAPlayer.isStream at h ⊢
  cases hp : s.packet with
  | none => rfl
  | some p =>
    simp only [hp, Option.any_some, decide_eq_true_eq] at h
    simp only [Option.any_some, decide_eq_false_iff_not]
    omega

theorem Loop.decodeAudio_step (h : Loop s) (hpc : s.pc = .decodeAudio) (ret : ℤ)
    (got_picture : Bool) : Loop (s.decodeAudio ret got_picture) := by
  have hvideo := h.video (by simp [hpc])
  have haudio := h.audio (by simp [hpc])
  have hstream := not_isStream (h.decodeAudio hpc) h.streams
  have hheld : ∀ b, holding s.history = some b → b = true :=
    fun b hb => (h.held b hb).mpr (by rw [Outstanding, hpc]; trivial)
  unfold JAPlayer.decodeAudio
  dsimp only
  split <;> exact ⟨h.streams, fun _ => hvideo, fun _ => haudio, nofun, nofun,
    fun _ hskipped => absurd (hstream.symm.trans hskipped.1) (by simp),
    fun b hb => iff_of_true (hheld b hb) trivial⟩

theorem holding_close (s : JAPlayer) :
    holding s.close.history = follow .need (holding s.history) := by
  unfold JAPlayer.close
  dsimp only
  split <;> rfl

theorem Loop.close (h : Loop s) : Loop s.close := by
  refine ⟨?_, ?_, ?_, ?_, ?_, ?_, ?_⟩
  · unfold JAPlayer.close
    dsimp only
    split <;> exact h.streams
  · exact fun hpc => absurd rfl hpc
  · exact fun hpc => absurd rfl hpc
  · exact nofun
  · exact nofun
  · exact nofun
  · intro b hb
    rw [holding_close] at hb
    rw [(follow_need hb).2]
    exact iff_of_false (by simp) id

theorem Loop.step {l : Label} (h : Loop s) (hs : Steps s l t) : Loop t := by
  cases hs with
  | request _ _ | second _ | flag _ | leave _ | stop =>
    exact h.untouched ⟨rfl, rfl, rfl, rfl, rfl, rfl, rfl, rfl, .inl rfl⟩
  | head hpc =>
    refine h.untouched ⟨rfl, rfl, rfl, rfl, rfl, rfl, rfl, rfl, .inr ⟨by rw [hpc]; rfl, ?_⟩⟩
    dsimp only
    split <;> rfl
  | test hpc =>
    refine h.untouched ⟨rfl, rfl, rfl, rfl, rfl, rfl, rfl, rfl, .inr ⟨by rw [hpc]; rfl, ?_⟩⟩
    dsimp only
    split <;> rfl
  | lock hpc _ | seek hpc | flush hpc | flushAudio hpc | clear hpc | unlock hpc =>
    exact h.untouched
      ⟨rfl, rfl, rfl, rfl, rfl, rfl, rfl, rfl, .inr ⟨by rw [hpc]; rfl, rfl⟩⟩
  | free hpc =>
    refine ⟨h.streams, fun _ => h.video (by simp [hpc]), fun _ => h.audio (by simp [hpc]), nofun,
      nofun, nofun, fun b hb => ?_⟩
    rw [(follow_give hb).2]
    exact iff_of_false (by simp) (h.free hpc)
  | close _ => exact h.close
  | read hpc result => exact h.readFrame hpc result
  | video hpc ret got_picture => exact h.decodeVideo hpc ret got_picture
  | audio hpc ret got_picture => exact h.decodeAudio_step hpc ret got_picture

end Loops

end JAPlayer

end Jagles.FilePlayer
