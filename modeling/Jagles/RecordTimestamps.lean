import Jagles.Recorder

set_option autoImplicit false
set_option linter.dupNamespace false

/-!
# The timestamps of a recording

The decode thread gives each frame the time it is to be shown, and `WriteFrame` counts the
timestamps up by it, in steps of 40 ms.
-/
namespace Jagles.Recorder
open GuardedRuns

inductive NetPlay where
  | NET_PLAY_NONE
  | NET_PLAY_REAL
  | NET_PLAY_RECORD
  deriving DecidableEq

/-- `perFrametime` of `HandleDecodeThread`. -/
def perFrametime (mRealStatus : NetPlay) (fps : ℤ) (ptimestamp mLastTimestamp : UInt64) : ℤ :=
  match mRealStatus with
  | .NET_PLAY_NONE => 40
  | .NET_PLAY_REAL => if fps = 0 then 40 else (1000 : ℤ).tdiv fps
  | .NET_PLAY_RECORD =>
    let perFrametime := toInt (ptimestamp - mLastTimestamp).toNat
    if perFrametime > 5000 ∨ perFrametime < 0 then 40 else perFrametime

/-- A frame that `ReadBuffer` gives the decode thread, with the values that are read with it.
Sound is not written. -/
structure Decoded where
  buf : List UInt8
  ptype : ℤ
  mRealStatus : NetPlay
  fps : ℤ
  ptimestamp : UInt64
  mLastTimestamp : UInt64
  video : ptype ≠ 0

namespace Decoded

def duration (f : Decoded) : ℤ :=
  perFrametime f.mRealStatus f.fps f.ptimestamp f.mLastTimestamp

def frame (f : Decoded) : Frame := ⟨f.buf, f.ptype, f.duration⟩

def isKey (f : Decoded) : Bool := f.ptype == 1

end Decoded

/-- The recording after the frames. -/
def recorded (s : JAMedia) (frames : List Decoded) : JAMedia :=
  (frames.map Decoded.frame).foldl JAMedia.writeFrame s

/-- The first packet is a key frame, and the stamps of the video packets increase. -/
structure Ordered (s : JAMedia) : Prop where
  first : ∀ p ∈ s.packets.head?, p.key = true
  increasing : (s.packets.filter fun p => p.stream_index == 0).Pairwise fun p q =>
    p.pts < q.pts ∧ p.dts < q.dts

/-- The frames that are written. -/
def kept (frames : List Decoded) : List Decoded := frames.dropWhile fun f => !f.isKey

/-- What the stamp of the last frame is counted from. -/
def durations (frames : List Decoded) : List ℤ := ((kept frames).map Decoded.duration).dropLast

/-- Each frame written before the last one lasts 40 ms at least, and the stamps stay in an
`int`. -/
def Spaced (frames : List Decoded) : Prop :=
  (∀ d ∈ durations frames, 40 ≤ d) ∧ 900 * ((durations frames).map fun d => d / 40).sum < 2 ^ 31

instance (frames : List Decoded) : Decidable (Spaced frames) := inferInstanceAs (Decidable (_ ∧ _))

theorem toInt_of_lt {v : ℤ} (h : -2 ^ 31 ≤ v) (h' : v < 2 ^ 31) : toInt v = v := by
  rw [toInt, Int.bmod_def]
  norm_num at h h' ⊢
  split <;> omega

theorem toInt_of_le {v : ℤ} (h : 2 ^ 31 ≤ v) (h' : v < 2 ^ 32) : toInt v = v - 2 ^ 32 := by
  rw [toInt, Int.bmod_def]
  norm_num at h h' ⊢
  split <;> omega

theorem Decoded.duration_bounds (f : Decoded) : -1000 ≤ f.duration ∧ f.duration ≤ 5000 := by
  unfold Decoded.duration perFrametime
  split
  · omega
  · split
    · omega
    · have habs := Int.natAbs_tdiv_le_natAbs 1000 f.fps
      omega
  · dsimp only
    split <;> omega

section Stamps

/-- The stamps of frames that are all written, from the first one on. -/
def stamps (p : ℤ) : List Decoded → List ℤ
  | [] => []
  | f :: fs => p :: stamps (toInt (p + 900 * f.duration.tdiv 40)) fs

theorem tdiv_40 {d : ℤ} (h : -1000 ≤ d) (h' : d ≤ 5000) :
    -25 ≤ d.tdiv 40 ∧ d.tdiv 40 ≤ 125 ∧ (0 < d.tdiv 40 ↔ 40 ≤ d) ∧
      (40 ≤ d → d.tdiv 40 = d / 40) := by
  rcases le_or_gt 0 d with hpos | hneg
  · rw [Int.tdiv_eq_ediv_of_nonneg hpos]
    omega
  · have hle : d.tdiv 40 = -(-d / 40) := by
      rw [← Int.tdiv_eq_ediv_of_nonneg (by omega), Int.neg_tdiv, neg_neg]
    rw [hle]
    omega

/-- The next stamp is larger exactly when the frame lasts 40 ms and nothing wraps. -/
theorem stamp_lt_iff {p : ℤ} (h0 : 0 ≤ p) (hp : p < 2 ^ 31) (f : Decoded) :
    p < toInt (p + 900 * f.duration.tdiv 40) ↔
      40 ≤ f.duration ∧ p + 900 * (f.duration / 40) < 2 ^ 31 := by
  obtain ⟨hlow, hhigh⟩ := f.duration_bounds
  obtain ⟨hq, hq', hpos, heq⟩ := tdiv_40 hlow hhigh
  norm_num at hp ⊢
  rcases lt_or_ge (p + 900 * f.duration.tdiv 40) 2147483648 with hfit | hwrap
  · rw [toInt_of_lt (by norm_num; omega) (by norm_num; omega)]
    constructor
    · intro hlt
      have hlong := hpos.mp (by omega)
      exact ⟨hlong, heq hlong ▸ hfit⟩
    · rintro ⟨hlong, -⟩
      have := hpos.mpr hlong
      omega
  · rw [toInt_of_le (by norm_num; omega) (by norm_num; omega)]
    constructor
    · intro hlt
      norm_num at hlt
      omega
    · rintro ⟨hlong, hfit⟩
      rw [← heq hlong] at hfit
      omega

theorem sum_nonneg_of_long {ds : List ℤ} (h : ∀ d ∈ ds, 40 ≤ d) :
    0 ≤ (ds.map fun d => d / 40).sum := by
  apply List.sum_nonneg
  intro q hq
  obtain ⟨d, hd, rfl⟩ := List.mem_map.mp hq
  have := h d hd
  omega

theorem next_stamp_eq {p : ℤ} (h0 : 0 ≤ p) {f : Decoded} (hlong : 40 ≤ f.duration)
    (hfit : p + 900 * (f.duration / 40) < 2 ^ 31) :
    toInt (p + 900 * f.duration.tdiv 40) = p + 900 * (f.duration / 40) := by
  obtain ⟨hlow, hhigh⟩ := f.duration_bounds
  obtain ⟨-, -, -, heq⟩ := tdiv_40 hlow hhigh
  rw [heq hlong]
  exact toInt_of_lt (by omega) hfit

theorem cons_stamps_pairwise_iff {p q : ℤ} {g : Decoded} {rest : List Decoded} :
    (p :: stamps q (g :: rest)).Pairwise (· < ·) ↔
      p < q ∧ (stamps q (g :: rest)).Pairwise (· < ·) := by
  rw [stamps, ← List.isChain_iff_pairwise, List.isChain_cons_cons, List.isChain_iff_pairwise]

theorem stamps_pairwise_iff {p : ℤ} (h0 : 0 ≤ p) (hp : p < 2 ^ 31) (fs : List Decoded) :
    (stamps p fs).Pairwise (· < ·) ↔
      (∀ d ∈ (fs.map Decoded.duration).dropLast, 40 ≤ d) ∧
        p + 900 * (((fs.map Decoded.duration).dropLast).map fun d => d / 40).sum < 2 ^ 31 := by
  induction fs generalizing p with
  | nil => simpa [stamps] using hp
  | cons f fs ih =>
    cases fs with
    | nil => simpa [stamps] using hp
    | cons g rest =>
      have hstep := stamp_lt_iff h0 hp f
      rw [stamps, cons_stamps_pairwise_iff]
      simp only [List.map_cons, List.dropLast_cons_cons, List.forall_mem_cons, List.sum_cons]
      constructor
      · rintro ⟨hlt, htail⟩
        obtain ⟨hlong, hfit⟩ := hstep.mp hlt
        rw [next_stamp_eq h0 hlong hfit] at htail
        obtain ⟨hrest, hsum⟩ := (ih (by omega) hfit).mp htail
        exact ⟨⟨hlong, hrest⟩, by rw [List.map_cons] at hsum; omega⟩
      · rintro ⟨⟨hlong, hrest⟩, hsum⟩
        have hpos := sum_nonneg_of_long hrest
        have hfit : p + 900 * (f.duration / 40) < 2 ^ 31 := by omega
        refine ⟨hstep.mpr ⟨hlong, hfit⟩, ?_⟩
        rw [next_stamp_eq h0 hlong hfit]
        exact (ih (by omega) hfit).mpr ⟨hrest, by rw [List.map_cons]; omega⟩

end Stamps

section Packets

/-- The packet of a frame that gets the stamp `p`. -/
def packetAt (p : ℤ) (f : Decoded) : AVPacket := JAMedia.packet ⟨0, false, p, []⟩ f.frame

/-- The packets of frames that are all written. -/
def packetsFrom (p : ℤ) : List Decoded → List AVPacket
  | [] => []
  | f :: fs => packetAt p f :: packetsFrom (toInt (p + 900 * f.duration.tdiv 40)) fs

theorem packetAt_video (p : ℤ) (f : Decoded) :
    (packetAt p f).stream_index = 0 ∧ (packetAt p f).pts = p ∧ (packetAt p f).dts = p := by
  have hvideo : f.frame.buf_type ≠ 0 := f.video
  simp [packetAt, JAMedia.packet, hvideo]

theorem packetsFrom_video (p : ℤ) (fs : List Decoded) :
    ∀ k ∈ packetsFrom p fs, k.stream_index = 0 ∧ k.dts = k.pts := by
  induction fs generalizing p with
  | nil => simp [packetsFrom]
  | cons f fs ih =>
    rw [packetsFrom, List.forall_mem_cons]
    obtain ⟨hstream, hpts, hdts⟩ := packetAt_video p f
    exact ⟨⟨hstream, hdts.trans hpts.symm⟩, ih _⟩

theorem packetsFrom_pts (p : ℤ) (fs : List Decoded) :
    (packetsFrom p fs).map AVPacket.pts = stamps p fs := by
  induction fs generalizing p with
  | nil => rfl
  | cons f fs ih => rw [packetsFrom, List.map_cons, ih, (packetAt_video p f).2.1, stamps]

/-- A frame is written once a key frame has come. -/
theorem writeFrame_written {s : JAMedia} (hrec : s.mRecord ≠ 0) {f : Decoded}
    (hw : s.mWriteRecord = true ∨ f.isKey = true) : s.writeFrame f.frame =
      { s with
        mWriteRecord := true
        mPts := toInt (s.mPts + 900 * f.duration.tdiv 40)
        packets := s.packets ++ [packetAt s.mPts f] } := by
  have hvideo : f.frame.buf_type ≠ 0 := f.video
  have hwrite : (s.mWriteRecord || f.frame.buf_type == 1) = true := Bool.or_eq_true_iff.mpr hw
  rw [JAMedia.writeFrame, if_neg hrec]
  simp only [hwrite, if_true, hvideo, ne_eq, not_false_eq_true]
  rfl

theorem writeFrame_skipped {s : JAMedia} {f : Decoded} (hw : s.mWriteRecord = false)
    (hf : f.isKey = false) : s.writeFrame f.frame = s := by
  have hwrite : (s.mWriteRecord || f.frame.buf_type == 1) = false := by
    rw [hw, Bool.false_or]
    exact hf
  unfold JAMedia.writeFrame
  split
  · rfl
  · simp [hwrite]

theorem recorded_cons (s : JAMedia) (f : Decoded) (fs : List Decoded) :
    recorded s (f :: fs) = recorded (s.writeFrame f.frame) fs := rfl

/-- From a key frame on, or once one has come, all frames are written. -/
theorem recorded_written (s : JAMedia) (hrec : s.mRecord ≠ 0) (fs : List Decoded)
    (hw : s.mWriteRecord = true ∨ ∀ f ∈ fs.head?, f.isKey = true) :
    (recorded s fs).packets = s.packets ++ packetsFrom s.mPts fs := by
  induction fs generalizing s with
  | nil => simp [recorded, packetsFrom]
  | cons f fs ih =>
    have hf : s.mWriteRecord = true ∨ f.isKey = true := hw.imp_right fun h => h f rfl
    have hrest := ih (s.writeFrame f.frame) (writeFrame_mRecord s f.frame ▸ hrec)
    rw [writeFrame_written hrec hf] at hrest
    rw [recorded_cons, writeFrame_written hrec hf, hrest (.inl rfl), packetsFrom,
      List.append_assoc]
    rfl

/-- What stands in front of the first key frame leaves no trace. -/
theorem recorded_kept {s : JAMedia} (hw : s.mWriteRecord = false) (frames : List Decoded) :
    recorded s frames = recorded s (kept frames) := by
  induction frames with
  | nil => rfl
  | cons f fs ih =>
    unfold kept
    rw [List.dropWhile_cons]
    split
    · rename_i hskip
      rw [recorded_cons, writeFrame_skipped hw (by simpa using hskip)]
      exact ih
    · rfl

theorem kept_head (frames : List Decoded) : ∀ f ∈ (kept frames).head?, f.isKey = true := by
  intro f hf
  have hnot := List.head?_dropWhile_not (fun f : Decoded => !f.isKey) frames
  rw [kept, Option.mem_def] at hf
  rw [hf] at hnot
  simpa using hnot

theorem recorded_fresh {s : JAMedia} (hrec : s.mRecord ≠ 0) (hw : s.mWriteRecord = false)
    (hp : s.packets = []) (frames : List Decoded) :
    (recorded s frames).packets = packetsFrom s.mPts (kept frames) := by
  rw [recorded_kept hw, recorded_written s hrec _ (.inr (kept_head frames)), hp, List.nil_append]

theorem recorded_ordered_iff {s : JAMedia} (hrec : s.mRecord ≠ 0) (hw : s.mWriteRecord = false)
    (hp : s.packets = []) (hpts : s.mPts = 0) (frames : List Decoded) :
    Ordered (recorded s frames) ↔ Spaced frames := by
  have hpackets := recorded_fresh hrec hw hp frames
  rw [hpts] at hpackets
  have hvideo := packetsFrom_video 0 (kept frames)
  have hall : ((packetsFrom 0 (kept frames)).filter fun p => p.stream_index == 0) =
      packetsFrom 0 (kept frames) := by
    apply List.filter_eq_self.mpr
    intro k hk
    simp [(hvideo k hk).1]
  have hstamps : (packetsFrom 0 (kept frames)).Pairwise (fun p q => p.pts < q.pts ∧ p.dts < q.dts) ↔
      (stamps 0 (kept frames)).Pairwise (· < ·) := by
    rw [← packetsFrom_pts, List.pairwise_map]
    apply List.Pairwise.iff_of_mem
    intro p q hp hq
    rw [(hvideo p hp).2, (hvideo q hq).2, and_self]
  have hspaced := stamps_pairwise_iff le_rfl (by norm_num) (kept frames)
  rw [zero_add] at hspaced
  constructor
  · intro h
    have hinc := h.increasing
    rw [hpackets, hall, hstamps] at hinc
    exact hspaced.mp hinc
  · intro h
    refine ⟨?_, ?_⟩
    · rw [hpackets]
      cases hk : kept frames with
      | nil => simp [packetsFrom]
      | cons f fs =>
        intro p hp
        obtain rfl := Option.some.inj hp
        exact kept_head frames f (by rw [hk]; rfl)
    · rw [hpackets, hall, hstamps]
      exact hspaced.mpr h

end Packets

/-- In every recording, whatever came before it, the first packet is a key frame and the
stamps increase exactly when the frames are spaced. -/
theorem recording_ordered_iff (android : Bool) (es : List Event) (s : JAConnect)
    (h : AnyRun android .create es s) (bitrate fps : ℤ) (a : Library)
    (hstart : s.mDecoder.mRecord < (next android s (.recordFile bitrate fps a)).mDecoder.mRecord)
    (frames : List Decoded) :
    Ordered (recorded (next android s (.recordFile bitrate fps a)).mDecoder frames) ↔
      Spaced frames := by
  have hc := h.counted
  have hstarted : (next android s (.recordFile bitrate fps a)).mDecoder =
      { s.mDecoder with mPts := 0, mRecord := s.mDecoder.mRecord + 1, packets := [] } ∧
        s.mDecoder.mRecord = 0 := by
    simp only [next, JAConnect.recordFile] at hstart ⊢
    split_ifs at hstart ⊢
    · exact absurd hstart (lt_irrefl _)
    · exact absurd hstart (lt_irrefl _)
    · exact absurd hstart (lt_irrefl _)
    · rcases startRecord_cases android s.mDecoder a with ⟨hzero, -, he⟩ | ⟨-, he⟩
      · exact ⟨by rw [he], hzero⟩
      · dsimp only at hstart
        rw [he] at hstart
        omega
  obtain ⟨hnew, hzero⟩ := hstarted
  rw [hnew]
  have hrunning : s.mDecoder.mRecord + 1 ≠ 0 := by omega
  exact recorded_ordered_iff
    (s := { s.mDecoder with mPts := 0, mRecord := s.mDecoder.mRecord + 1, packets := [] })
    hrunning (hc.writes hzero) rfl rfl frames

/-- Frames of a live stream of `fps` pictures a second. -/
def live (fps : ℤ) (ptype : ℤ) (h : ptype ≠ 0) : Decoded :=
  ⟨[0, 0, 0, 1], ptype, .NET_PLAY_REAL, fps, 0, 0, h⟩

theorem recording_ordered_25_fps : Ordered (recorded
    (next true (next true .create (.addBuffer true)) (.recordFile 4096 25 (answers true))).mDecoder
    [live 25 2 (by decide), live 25 1 (by decide), live 25 2 (by decide)]) :=
  (recording_ordered_iff true [.addBuffer true] (next true .create (.addBuffer true))
    (.cons trivial rfl (.nil _)) 4096 25 (answers true) (by decide +kernel) _).mpr
    (by decide +kernel)

/-- At 30 pictures a second all frames get the same stamp. -/
theorem recording_not_ordered_30_fps : ¬ ∀ (es : List Event) (s : JAConnect),
    AnyRun true .create es s → ∀ (bitrate fps : ℤ) (a : Library),
      s.mDecoder.mRecord < (next true s (.recordFile bitrate fps a)).mDecoder.mRecord →
        ∀ frames, Ordered (recorded (next true s (.recordFile bitrate fps a)).mDecoder frames) := by
  intro hall
  have h := hall [.addBuffer true] (next true .create (.addBuffer true))
    (.cons trivial rfl (.nil _)) 4096 30 (answers true) (by decide +kernel)
    [live 30 1 (by decide), live 30 2 (by decide)]
  have hinc := h.increasing
  have hpackets : ((recorded (next true (next true .create (.addBuffer true))
      (.recordFile 4096 30 (answers true))).mDecoder
        [live 30 1 (by decide), live 30 2 (by decide)]).packets.filter
          fun p => p.stream_index == 0) =
      [packetAt 0 (live 30 1 (by decide)), packetAt 0 (live 30 2 (by decide))] := by
    decide +kernel
  rw [hpackets] at hinc
  have hlt := (List.pairwise_cons.mp hinc).1 _ (List.mem_singleton_self _)
  exact absurd hlt.1 (by decide +kernel)

end Jagles.Recorder
