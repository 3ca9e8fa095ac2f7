import Jagles.FilePlayerLoop

set_option autoImplicit false
set_option linter.dupNamespace false

/-!
# Packets, codecs and seeks of the file player

Which steps break the order in a run of `DoThread` with calls of `SeekFile` and `StopPlay` in
between: a packet without a picture, a decoding error, and a seek in a file without sound.
-/
namespace Jagles.FilePlayer
open HeldResources GuardedRuns
namespace JAPlayer

/-! ## Which steps break the order -/

section Exact
variable {s t : JAPlayer}

/-- An event that is neither about a packet nor a call with `NULL`. -/
def Harmless (e : Event) : Prop := move e = .other ∧ ∀ call, e ≠ .codec call none

theorem Orderly.extend (ho : Orderly s) (es : List Event) (h : t.history = es ++ s.history)
    (hes : ∀ e ∈ es, Harmless e) (hk : t.SeeksKept) : Orderly t := by
  have hboth : PacketsFreed (es ++ s.history) ∧ CodecsGiven (es ++ s.history) := by
    clear h
    induction es with
    | nil => exact ⟨ho.packets, ho.codecs⟩
    | cons e es ih =>
      obtain ⟨hother, hgiven⟩ := hes e List.mem_cons_self
      obtain ⟨hpackets, hcodecs⟩ := ih fun e' he' => hes e' (List.mem_cons_of_mem _ he')
      refine ⟨?_, codecsGiven_cons.mpr ⟨hcodecs, hgiven⟩⟩
      rw [PacketsFreed, List.cons_append, holding_cons, hother]
      exact hpackets
  rw [← h] at hboth
  exact ⟨hboth.1, hboth.2, hk⟩

theorem Orderly.same (ho : Orderly s) (h : t.history = s.history) (hk : t.SeeksKept) :
    Orderly t := ho.extend [] h (fun _ he => nomatch he) hk

theorem Orderly.cons {e : Event} (ho : Orderly s) (h : t.history = e :: s.history)
    (he : Harmless e) (hk : t.SeeksKept) : Orderly t :=
  ho.extend [e] h (fun _ he' => List.mem_singleton.mp he' ▸ he) hk

theorem harmless_codec {call : CodecCall} {ctx : Option Codec} (h : ctx ≠ none) :
    Harmless (.codec call ctx) := by
  refine ⟨rfl, fun call' he => ?_⟩
  cases he
  exact h rfl

/-- With empty hands, and only then, can the next packet be read or the loop be left. -/
theorem follow_need_iff (hl : Loop s) (ho : PacketsFreed s.history) (hpc : between s.pc = true)
    {m : Move} (hm : m = .take ∨ m = .need) :
    follow m (holding s.history) ≠ none ↔ ¬ s.Skipped := by
  cases hh : holding s.history with
  | none => exact absurd hh ho
  | some b =>
    have hb := (hl.held b hh).trans (outstanding_between hpc)
    rw [← hb]
    rcases hm with rfl | rfl <;> cases b <;> simp [follow]

theorem readFrame_history (result : Option Packet) :
    (s.readFrame result).history = .av_read_frame result :: s.history := by
  cases result with
  | none => rfl
  | some p =>
    simp only [readFrame, sound]
    split <;> rfl

theorem decodeVideo_history (ret : ℤ) (got_picture : Bool) :
    ∃ es, (s.decodeVideo ret got_picture).history =
        es ++ .codec .avcodec_decode_video2 s.pCodecCtx :: s.history ∧ ∀ e ∈ es, Harmless e := by
  unfold decodeVideo
  dsimp only
  split
  · exact ⟨[], rfl, fun _ he => nomatch he⟩
  · split
    · exact ⟨[], rfl, fun _ he => nomatch he⟩
    · exact ⟨[.OnTextureAvaible _], rfl, fun _ he => List.mem_singleton.mp he ▸ ⟨rfl, nofun⟩⟩

theorem decodeAudio_history (ret : ℤ) (got_picture : Bool) :
    ∃ es, (s.decodeAudio ret got_picture).history =
        es ++ .codec .avcodec_decode_audio4 s.pAudioCodecCtx :: s.history ∧
      ∀ e ∈ es, Harmless e := by
  unfold decodeAudio
  dsimp only
  split
  · exact ⟨[.PlayAudioData], rfl, fun _ he => List.mem_singleton.mp he ▸ ⟨rfl, nofun⟩⟩
  · exact ⟨[], rfl, fun _ he => nomatch he⟩

/-- A decoder that is called with its context. -/
theorem Orderly.call {es : List Event} {call : CodecCall} {ctx : Option Codec} (ho : Orderly s)
    (h : t.history = es ++ .codec call ctx :: s.history) (hes : ∀ e ∈ es, Harmless e)
    (hctx : ctx ≠ none) (hk : t.SeeksKept) : Orderly t := by
  refine ho.extend (es ++ [.codec call ctx]) (by rw [h, List.append_assoc]; rfl) ?_ hk
  intro e he
  rcases List.mem_append.mp he with he | he
  · exact hes e he
  · exact List.mem_singleton.mp he ▸ harmless_codec hctx

theorem close_codecs (h : CodecsGiven s.history) (hvideo : s.pCodecCtx ≠ none) :
    CodecsGiven s.close.history := by
  have hone : CodecsGiven (.codec .avcodec_close s.pCodecCtx :: s.history) :=
    codecsGiven_cons.mpr ⟨h, (harmless_codec hvideo).2⟩
  unfold close
  dsimp only
  split
  · rename_i haudio
    have hctx : s.pAudioCodecCtx ≠ none := Option.isSome_iff_ne_none.mp haudio
    have htwo : CodecsGiven (.codec .avcodec_close s.pAudioCodecCtx ::
        .codec .avcodec_close s.pCodecCtx :: s.history) :=
      codecsGiven_cons.mpr ⟨hone, (harmless_codec hctx).2⟩
    exact codecsGiven_cons.mpr ⟨htwo, nofun⟩
  · exact codecsGiven_cons.mpr ⟨hone, nofun⟩

theorem step_orderly_iff {l : Label} (hr : Requests s) (hl : Loop s) (ho : Orderly s)
    (hs : Steps s l t) : Orderly t ↔ Allowed s l := by
  have hk := (hr.step hs).kept
  cases hs with
  | request _ _ | second _ | leave _ | stop => exact iff_of_true (ho.same rfl hk) trivial
  | flag _ => exact iff_of_true (ho.cons rfl ⟨rfl, by simp⟩ hk) trivial
  | head hpc | test hpc | lock hpc _ | clear hpc | unlock hpc =>
    exact iff_of_true (ho.same rfl hk) ⟨by simp [hpc], by simp [hpc]⟩
  | seek hpc => exact iff_of_true (ho.cons rfl ⟨rfl, by simp⟩ hk) ⟨by simp [hpc], by simp [hpc]⟩
  | flush hpc =>
    exact iff_of_true (ho.cons rfl (harmless_codec (hl.video (by simp [hpc]))) hk)
      ⟨by simp [hpc], by simp [hpc]⟩
  | flushAudio hpc =>
    have haudio := hl.audio (by simp [hpc])
    have hallowed : Allowed s .thread ↔ 0 ≤ s.audioindex := by simp [Allowed, hpc]
    rw [hallowed, ← haudio]
    constructor
    · intro ht hnull
      refine ht.codecs .avcodec_flush_buffers (List.mem_cons.mpr (.inl ?_))
      rw [← hnull]
    · exact fun hctx => ho.cons rfl (harmless_codec hctx) hk
  | free hpc =>
    refine iff_of_true ⟨?_, codecsGiven_cons.mpr ⟨ho.codecs, by simp⟩, hk⟩
      ⟨by simp [hpc], by simp [hpc]⟩
    -- the packet that was read last is still there
    have hheld := hl.held
    rw [PacketsFreed]
    change follow .give (holding s.history) ≠ none
    cases hh : holding s.history with
    | none => exact absurd hh ho.packets
    | some b =>
      obtain rfl : b = true := (hheld b hh).mpr (by rw [Outstanding, hpc]; trivial)
      simp [follow]
  | close hpc =>
    have hallowed : Allowed s .thread ↔ ¬ s.Skipped := by simp [Allowed, hpc]
    rw [hallowed, ← follow_need_iff hl ho.packets (by rw [hpc]; rfl) (.inr rfl), ← holding_close]
    exact ⟨fun ht => ht.packets,
      fun hpackets => ⟨hpackets, close_codecs ho.codecs (hl.video (by simp [hpc])), hk⟩⟩
  | read hpc result =>
    have hmove : move (.av_read_frame result) = .take ∨ move (.av_read_frame result) = .need := by
      cases result with
      | none => exact .inr rfl
      | some p => exact .inl rfl
    have hallowed := follow_need_iff hl ho.packets (by rw [hpc]; rfl) hmove
    refine Iff.trans ?_ hallowed
    constructor
    · intro ht
      have hpackets := ht.packets
      rwa [PacketsFreed, readFrame_history] at hpackets
    · intro hpackets
      refine ⟨?_, ?_, hk⟩
      · rwa [PacketsFreed, readFrame_history]
      · rw [readFrame_history]
        exact codecsGiven_cons.mpr ⟨ho.codecs, by simp⟩
  | video hpc ret got_picture =>
    obtain ⟨es, hhistory, hes⟩ := decodeVideo_history (s := s) ret got_picture
    exact iff_of_true (ho.call hhistory hes (hl.video (by simp [hpc])) hk) trivial
  | audio hpc ret got_picture =>
    obtain ⟨es, hhistory, hes⟩ := decodeAudio_history (s := s) ret got_picture
    have hstream := hl.decodeAudio hpc
    have hctx : s.pAudioCodecCtx ≠ none := by
      refine (hl.audio (by simp [hpc])).mpr ?_
      obtain ⟨p, -, hp⟩ := (Option.any_eq_true _ _).mp hstream
      have hindex : (p.stream_index : ℤ) = s.audioindex := of_decide_eq_true hp
      omega
    exact iff_of_true (ho.call hhistory hes hctx hk) trivial

end Exact

/-! ## The start -/

section Start
variable {streams : List CodecType} {opens : ℤ → Bool} {isimage : Bool} {s : JAPlayer}

theorem lastStream_cases (type : CodecType) (streams : List CodecType) :
    lastStream type streams = -1 ∨
      ∃ i : ℕ, streams[i]? = some type ∧ lastStream type streams = i := by
  have hfold : ∀ (found : ℤ) (l : List (CodecType × ℕ)),
      l.foldl (fun found c => if c.1 = type then (c.2 : ℤ) else found) found = found ∨
        ∃ i : ℕ, (type, i) ∈ l ∧
          l.foldl (fun found c => if c.1 = type then (c.2 : ℤ) else found) found = i := by
    intro found l
    induction l generalizing found with
    | nil => exact .inl rfl
    | cons c l ih =>
      rw [List.foldl_cons]
      rcases ih (if c.1 = type then (c.2 : ℤ) else found) with h | ⟨i, hi, h⟩
      · rw [h]
        by_cases hc : c.1 = type
        · rw [if_pos hc]
          exact .inr ⟨c.2, List.mem_cons.mpr (.inl (Prod.ext hc.symm rfl)), rfl⟩
        · exact .inl (if_neg hc)
      · exact .inr ⟨i, List.mem_cons_of_mem _ hi, h⟩
  rcases hfold (-1) streams.zipIdx with h | ⟨i, hi, h⟩
  · exact .inl h
  · exact .inr ⟨i, List.mk_mem_zipIdx_iff_getElem?.mp hi, h⟩

theorem lastStream_ne (h : lastStream .video streams ≠ -1) :
    lastStream .video streams ≠ lastStream .audio streams := by
  rcases lastStream_cases .video streams with hv | ⟨i, hi, hv⟩
  · exact absurd hv h
  · rcases lastStream_cases .audio streams with ha | ⟨j, hj, ha⟩
    · omega
    · intro he
      have hij : i = j := by omega
      rw [hij, hj] at hi
      cases hi

theorem playFile_start (h : playFile streams opens isimage = some s) :
    Requests s ∧ Loop s ∧ Orderly s := by
  unfold playFile at h
  dsimp only at h
  split at h
  · cases h
  rename_i hvideo
  split at h
  · cases h
  split at h
  · cases h
  obtain rfl := Option.some.inj h
  have hne := lastStream_ne hvideo
  refine ⟨⟨by simp [seeking], by simp [seeking], by simp, by simp, by simp [sought], fun _ => rfl⟩,
    ⟨hne, by simp, fun _ => ?_, by simp, by simp, by simp, fun b hb => ?_⟩,
    ⟨by simp [PacketsFreed, holding], by simp [CodecsGiven], fun _ => rfl⟩⟩
  · dsimp only
    split
    · exact iff_of_true (by simp) ‹_›
    · exact iff_of_false (fun hno => hno rfl) ‹_›
  · obtain rfl : false = b := Option.some.inj hb
    refine iff_of_false (by simp) ?_
    rintro ⟨hstream, -⟩
    cases hstream

end Start

/-! ## Runs -/

/-- The loop goes on. -/
def Running (s : JAPlayer) : Prop := s.mRunthread = true ∧ s.pc ≠ .exit ∧ s.pc ≠ .ended

/-- The steps of the player thread. -/
def byThread : Label → Bool
  | .SeekFile _ | .caller | .StopPlay => false
  | _ => true

/-- How many steps of the thread there are at most before a pending request is done. -/
def rank : Pc → ℕ
  | .clear => 1
  | .flushAudio => 2
  | .flush => 3
  | .seek => 4
  | .lock => 5
  | .test => 6
  | .head => 7
  | .free => 8
  | .decodeAudio => 9
  | .decode => 10
  | .read => 11
  | .unlock => 12
  | .exit | .ended => 0

section Runs
variable {s t : JAPlayer}

theorem sound_rank (s : JAPlayer) : rank s.sound.pc ≤ 9 := by
  unfold sound
  dsimp only
  split <;> decide

theorem readFrame_rank (s : JAPlayer) (result : Option Packet) :
    (s.readFrame result).mRunthread = s.mRunthread ∧ rank (s.readFrame result).pc ≤ 10 := by
  cases result with
  | none => exact ⟨rfl, (by decide : rank .head ≤ 10)⟩
  | some p =>
    simp only [readFrame]
    split
    · exact ⟨rfl, le_rfl⟩
    · exact ⟨rfl, (sound_rank _).trans (by omega)⟩

theorem decodeVideo_rank (s : JAPlayer) (ret : ℤ) (got_picture : Bool) :
    (s.decodeVideo ret got_picture).mRunthread = s.mRunthread ∧
      rank (s.decodeVideo ret got_picture).pc ≤ 9 := by
  unfold decodeVideo
  dsimp only
  split
  · exact ⟨rfl, Nat.zero_le _⟩
  · split
    · exact ⟨rfl, (by decide : rank .head ≤ 9)⟩
    · exact ⟨rfl, sound_rank _⟩

theorem decodeAudio_rank (s : JAPlayer) (ret : ℤ) (got_picture : Bool) :
    (s.decodeAudio ret got_picture).mRunthread = s.mRunthread ∧
      (s.decodeAudio ret got_picture).pc = .free := by
  unfold decodeAudio
  dsimp only
  split <;> exact ⟨rfl, rfl⟩

/-- While a request is pending, each step of the thread brings it nearer. -/
theorem thread_step {l : Label} (hs : Steps s l t) (hl : byThread l = true)
    (hseek : t.mSeek = true) (ht : t.Running) :
    s.mSeek = true ∧ s.Running ∧ rank t.pc < rank s.pc := by
  cases hs with
  | request _ _ | second _ | flag _ | leave _ | stop => cases hl
  | head hpc =>
    obtain ⟨hrun, -, -⟩ := ht
    refine ⟨hseek, ⟨hrun, by simp [hpc], by simp [hpc]⟩, ?_⟩
    rw [hpc]
    dsimp only
    rw [if_pos hrun]
    decide
  | test hpc =>
    refine ⟨hseek, ⟨ht.1, by simp [hpc], by simp [hpc]⟩, ?_⟩
    rw [hpc]
    dsimp only
    rw [if_pos hseek]
    decide
  | clear hpc => cases hseek
  | lock hpc _ | seek hpc | flush hpc | flushAudio hpc | unlock hpc | free hpc =>
    refine ⟨hseek, ⟨ht.1, by simp [hpc], by simp [hpc]⟩, ?_⟩
    rw [hpc]
    dsimp only [record_pc]
    decide
  | close hpc => exact absurd rfl ht.2.2
  | read hpc result =>
    obtain ⟨hrun, hrank⟩ := readFrame_rank s result
    refine ⟨(readFrame_quiet hpc result).flag ▸ hseek, ⟨hrun ▸ ht.1, by simp [hpc], by simp [hpc]⟩, ?_⟩
    rw [hpc]
    exact hrank.trans_lt (by decide)
  | video hpc ret got_picture =>
    obtain ⟨hrun, hrank⟩ := decodeVideo_rank s ret got_picture
    refine ⟨(decodeVideo_quiet hpc ret got_picture).flag ▸ hseek,
      ⟨hrun ▸ ht.1, by simp [hpc], by simp [hpc]⟩, ?_⟩
    rw [hpc]
    exact hrank.trans_lt (by decide)
  | audio hpc ret got_picture =>
    obtain ⟨hrun, hfree⟩ := decodeAudio_rank s ret got_picture
    refine ⟨(decodeAudio_quiet hpc ret got_picture).flag ▸ hseek,
      ⟨hrun ▸ ht.1, by simp [hpc], by simp [hpc]⟩, ?_⟩
    rw [hpc, hfree]
    decide

/-- A run of the thread alone that leaves a request pending is a short one. -/
theorem pending_short {ls : List Label} (h : Run step (fun _ l => byThread l = true) s ls t)
    (hseek : t.mSeek = true) (ht : t.Running) : rank t.pc + ls.length ≤ rank s.pc := by
  refine (h.rank_le (fun s => s.mSeek = true ∧ s.Running) (fun s => rank s.pc) ?_
    ⟨hseek, ht⟩).2
  intro s l t hl he ht
  obtain ⟨hs, hrunning, hlt⟩ := thread_step (steps_of_step he) hl ht.1 ht.2
  exact ⟨⟨hs, hrunning⟩, hlt⟩

theorem rank_pos (h : s.Running) : 0 < rank s.pc := by
  obtain ⟨-, hexit, hended⟩ := h
  cases hpc : s.pc <;> first | decide | contradiction

theorem rank_le (pc : Pc) : rank pc ≤ 12 := by cases pc <;> decide

/-- Unless a call of `SeekFile` has the lock, the thread can go on. -/
theorem thread_goes_on (hend : s.pc ≠ .ended)
    (hlock : ∀ mSec stage, s.mLock ≠ some (.caller mSec stage)) (hr : Requests s) :
    ∃ l t, byThread l = true ∧ step s l = some t := by
  cases hpc : s.pc with
  | ended => exact absurd hpc hend
  | read => exact ⟨.read none, _, rfl, if_pos hpc⟩
  | decode => exact ⟨.video 0 true, _, rfl, if_pos hpc⟩
  | decodeAudio => exact ⟨.audio 0 true, _, rfl, if_pos hpc⟩
  | lock =>
    have hfree : s.mLock = none := by
      cases hl : s.mLock with
      | none => rfl
      | some holder =>
        cases holder with
        | thread => exact absurd hpc (hr.holds.mp hl).2
        | caller mSec stage => exact absurd hl (hlock mSec stage)
    exact ⟨.thread, { s with mLock := some .thread, pc := .seek }, rfl, by
      simp only [step, doThread, hpc, hfree, if_true]⟩
  | _ => exact ⟨.thread, _, rfl, by simp only [step, doThread, hpc]; rfl⟩

/-- In every run the packets are freed in time, no codec is called with `NULL` and no request is
lost, just when no packet of the video is skipped before a read or the end, and no seek is
made in a file without sound. A request is performed within twelve steps of the thread. -/
theorem orderly_iff {streams : List CodecType} {opens : ℤ → Bool} {isimage : Bool}
    {ls : List Label} (hplay : playFile streams opens isimage = some s)
    (h : Run step (fun _ _ => True) s ls t) :
    (Throughout step Orderly s ls t ↔ Run step Allowed s ls t) ∧
      ∀ (ks : List Label) (u : JAPlayer), Run step (fun _ l => byThread l = true) t ks u →
        12 ≤ ks.length → u.Running → u.lastSeek = u.lastRequest := by
  obtain ⟨hr, hl, ho⟩ := playFile_start hplay
  have keep : ∀ (s : JAPlayer) (l : Label) (t : JAPlayer), Requests s ∧ Loop s → True →
      step s l = some t → Requests t ∧ Loop t :=
    fun _ _ _ hi _ he => ⟨hi.1.step (steps_of_step he), hi.2.step (steps_of_step he)⟩
  refine ⟨h.throughout_iff keep ?_ ⟨hr, hl⟩ ho, ?_⟩
  · exact fun _ _ _ hi ho _ he => step_orderly_iff hi.1 hi.2 ho (steps_of_step he)
  · intro ks u hks hlong hrunning
    have hu := (h.append (hks.weaken fun _ _ _ => trivial)).invariant _ keep ⟨hr, hl⟩
    refine hu.1.kept ?_
    by_contra hseek
    have hshort := pending_short hks (Bool.eq_true_of_not_eq_false hseek) hrunning
    have hpos := rank_pos hrunning
    have hle := rank_le t.pc
    omega

end Runs

/-! ## Two runs -/

theorem exists_played {streams : List CodecType} {ls : List Label}
    {cond : JAPlayer → Label → Prop} [∀ s l, Decidable (cond s l)] {P : JAPlayer → Prop}
    [DecidablePred P]
    (h : ((playFile streams (fun _ => true) false).bind fun s =>
      final step cond s ls).any (fun t => decide (P t)) = true) :
    ∃ s t, playFile streams (fun _ => true) false = some s ∧ Run step cond s ls t ∧ P t := by
  obtain ⟨t, ht, hp⟩ := (Option.any_eq_true _ _).mp h
  obtain ⟨s, hs, hrun⟩ := Option.bind_eq_some_iff.mp ht
  exact ⟨s, t, hs, run_of_final hrun, of_decide_eq_true hp⟩

/-- A packet of the video that gives a picture, and a request. -/
def watched : List Label :=
  [.thread, .thread, .read (some ⟨0, true⟩), .video 0 true, .SeekFile 30, .caller, .thread,
    .caller, .caller, .thread, .thread, .thread, .thread, .thread, .thread]

theorem orderly_iff_watched : ∃ s t, playFile [.video, .audio] (fun _ => true) false = some s ∧
    Run step (fun _ _ => True) s watched t ∧ Throughout step Orderly s watched t := by
  obtain ⟨s, t, hs, hrun, -⟩ :=
    @exists_played [.video, .audio] watched Allowed _ (fun _ => True) _ (by decide)
  have hany := hrun.weaken fun _ _ _ => trivial
  exact ⟨s, t, hs, hany, (orderly_iff hs hany).1.mpr hrun⟩

/-- A packet without a picture and the next one. -/
def noPicture : List Label :=
  [.thread, .thread, .read (some ⟨0, false⟩), .video 0 false, .thread, .thread,
    .read (some ⟨0, true⟩)]

/-- A decoding error and the exit. -/
def noDecoding : List Label :=
  [.thread, .thread, .read (some ⟨0, true⟩), .video (-1) false, .thread]

/-- A seek before the first packet. -/
def firstSeek : List Label :=
  [.SeekFile 30, .caller, .caller, .caller, .thread, .thread, .thread, .thread, .thread, .thread]

/-- The ways out of the order in a file without sound. -/
theorem disorderly_played :
    (∃ s t, playFile [.video] (fun _ => true) false = some s ∧
      Run step (fun _ _ => True) s noPicture t ∧ ¬ PacketsFreed t.history) ∧
    (∃ s t, playFile [.video] (fun _ => true) false = some s ∧
      Run step (fun _ _ => True) s noDecoding t ∧ ¬ PacketsFreed t.history) ∧
    ∃ s t, playFile [.video] (fun _ => true) false = some s ∧
      Run step (fun _ _ => True) s firstSeek t ∧ ¬ CodecsGiven t.history := by
  refine ⟨exists_played (by decide), exists_played (by decide), ?_⟩
  obtain ⟨s, t, hs, hrun, hnull⟩ := @exists_played [.video] firstSeek (fun _ _ => True) _
    (fun t => Event.codec .avcodec_flush_buffers none ∈ t.history) _ (by decide)
  exact ⟨s, t, hs, hrun, fun hgiven => hgiven _ hnull⟩

end JAPlayer

end Jagles.FilePlayer
