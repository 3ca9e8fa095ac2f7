import Mathlib.Tactic

set_option autoImplicit false
set_option linter.dupNamespace false

/-!
# The video decoder (`JAMedia`)

Opening and closing the codec context for the key frames of a stream. The size that a
header is parsed to and the answers of the codec library come with the call.
-/
namespace Jagles

inductive AVCodecID where
  | H264
  | HEVC
  | other
  deriving DecidableEq

inductive AVPixelFormat where
  | BGR32
  | YUV420P
  deriving DecidableEq

structure AVCodecContext where
  codec : AVCodecID
  width : ℤ
  height : ℤ
  thread_count : ℕ
  opened : Bool
  deriving DecidableEq

/-- A frame or a converter, with the format and the size it was made for. -/
structure Picture where
  fmt : AVPixelFormat
  width : ℤ
  height : ℤ
  deriving DecidableEq

structure Crop where
  mCropWidth : ℤ
  mCropHeight : ℤ
  mCropLeft : ℤ
  mCropTop : ℤ
  mCropRight : ℤ
  mCropBottom : ℤ
  deriving DecidableEq

def Crop.zero : Crop := ⟨0, 0, 0, 0, 0, 0⟩

structure JAMedia where
  isVideoDecoderActive : Bool
  mVideoWidth : ℤ
  mVideoHeight : ℤ
  mCropFishEye : Bool
  crop : Crop
  mRadius : ℤ
  mCenterX : ℤ
  mCenterY : ℤ
  mIsP360ev : Bool
  mISP720Dev : Bool
  mExtraData : List UInt8
  mExtraSize : ℤ
  mContext : Option AVCodecContext
  mPicture : Bool
  mOutpic : Option Picture
  mVideoBuffer : Option ℤ
  mVideoBufferSize : ℤ
  mDecoderFmt : AVPixelFormat
  img_convert_ctx : Option Picture
  deriving DecidableEq

/-- The arguments of `InitVideoDecoder`, with what the code outside makes of them: the
size from the header's parser, whether the codec is found and whether it opens. -/
structure KeyFrame where
  codec : AVCodecID
  header : List UInt8
  fmt : AVPixelFormat
  size : Option (ℤ × ℤ)
  found : Bool
  opens : Bool

/-- The size by which a key frame counts as analysed. -/
def KeyFrame.analysed (k : KeyFrame) : Option (ℤ × ℤ) :=
  match k.codec with
  | .H264 | .HEVC => k.size
  | .other => none

namespace JAMedia

def create : JAMedia where
  isVideoDecoderActive := false
  mVideoWidth := 0
  mVideoHeight := 0
  mCropFishEye := false
  crop := .zero
  mRadius := 0
  mCenterX := 0
  mCenterY := 0
  mIsP360ev := false
  mISP720Dev := false
  mExtraData := List.replicate 1024 0
  mExtraSize := 0
  mContext := none
  mPicture := false
  mOutpic := none
  mVideoBuffer := none
  mVideoBufferSize := 0
  mDecoderFmt := .BGR32
  img_convert_ctx := none

def closeVideoDecoder (s : JAMedia) : JAMedia :=
  if s.isVideoDecoderActive then
    { s with
      img_convert_ctx := none
      mContext := none
      mPicture := false
      mOutpic := none
      mVideoBuffer := none
      isVideoDecoderActive := false }
  else s

/-- The tests of the two loops that look for the first slice of the key frame. -/
def sliceAt (codec : AVCodecID) (header : List UInt8) (i : ℕ) : Bool :=
  let b := fun j => header.getD (i + j) 0
  match codec with
  | .H264 => b 0 == 0 && b 1 == 0 && b 2 == 0 && b 3 == 1 && b 4 &&& 0x1F == 5 ||
      b 0 == 0 && b 1 == 0 && b 2 == 0 && b 3 &&& 0x1F == 5
  | .HEVC => b 0 == 0 && b 1 == 0 && b 2 == 1 && (b 3 >>> 1) &&& 0x3f == 0x13
  | .other => false

/-- The parameter sets in front of the first slice, kept for recording. -/
def setExtra (s : JAMedia) (k : KeyFrame) : JAMedia :=
  let size : ℤ := if k.header.length > 1024 then 1019 else k.header.length - 5
  { s with
    mExtraData := k.header.take 1024 ++ s.mExtraData.drop (min 1024 k.header.length)
    mExtraSize :=
      match (List.range size.toNat).find? (sliceAt k.codec k.header) with
      | some i => i
      | none => size }

/-- `AnalystHeader` between its lock and its unlock. -/
def analystLocked (s : JAMedia) (k : KeyFrame) (lw lh : ℤ) : JAMedia :=
  if s.isVideoDecoderActive then
    if lw ≠ s.mVideoWidth ∨ lh ≠ s.mVideoHeight then
      setExtra { s.closeVideoDecoder with
        mVideoWidth := lw
        mVideoHeight := lh
        isVideoDecoderActive := false
        crop := if s.mCropFishEye then .zero else s.crop } k
    else s
  else setExtra { s with mVideoWidth := lw, mVideoHeight := lh } k

def analystHeader (s : JAMedia) (k : KeyFrame) : ℤ × JAMedia :=
  match k.analysed with
  | none => (-3, s)
  | some (lw, lh) => (0, s.analystLocked k lw lh)

section Library
variable (avpicture_get_size : AVPixelFormat → ℤ → ℤ → ℤ)

/-- `InitVideoDecoder` from the allocation of the context to `avcodec_open2`. -/
def allocate (s : JAMedia) (k : KeyFrame) : JAMedia :=
  { s with
    mContext := some ⟨k.codec, s.mVideoWidth, s.mVideoHeight, 4, false⟩
    mPicture := true
    mOutpic := some ⟨k.fmt, s.mVideoWidth, s.mVideoHeight⟩
    mVideoBufferSize := avpicture_get_size k.fmt s.mVideoWidth s.mVideoHeight
    mVideoBuffer := some (avpicture_get_size k.fmt s.mVideoWidth s.mVideoHeight) }

/-- `InitVideoDecoder` after `avcodec_open2`. -/
def activate (s : JAMedia) (k : KeyFrame) : JAMedia :=
  { s with
    mContext := s.mContext.map fun c => { c with opened := true }
    mDecoderFmt := k.fmt
    img_convert_ctx := s.mContext.map fun c => ⟨k.fmt, c.width, c.height⟩
    isVideoDecoderActive := true }

/-- `InitVideoDecoder` past its test of `isVideoDecoderActive`. -/
def openDecoder (s : JAMedia) (k : KeyFrame) : ℤ × JAMedia :=
  if !k.found then (-1, s)
  else
    let s := allocate avpicture_get_size s k
    if !k.opens then (-2, s) else (0, s.activate k)

def initVideoDecoder (s : JAMedia) (k : KeyFrame) : ℤ × JAMedia :=
  let (ret, s) := s.analystHeader k
  if ret ≠ 0 then (ret, s)
  else if s.isVideoDecoderActive then (-3, s)
  else openDecoder avpicture_get_size s k

end Library

def resetData (s : JAMedia) : JAMedia :=
  { s with
    mVideoHeight := 0
    mVideoWidth := 0
    crop := .zero
    mRadius := 0
    mCenterX := 0
    mCenterY := 0
    mIsP360ev := false
    mISP720Dev := false }

end JAMedia

/-- The decoder with the codec and the size of the last key frame that was analysed. -/
structure Decoding where
  media : JAMedia
  last : Option (AVCodecID × ℤ × ℤ)

namespace Decoding

def create : Decoding := ⟨.create, none⟩

/-- A video frame of `HandleDecodeThread`, a key frame or not, with a `ResetData` of
another thread before `DecodeVideo` or without; or a `ResetData` between two frames. -/
inductive Event where
  | frame (key : Option KeyFrame) (reset : Bool)
  | reset

section Library
variable (avpicture_get_size : AVPixelFormat → ℤ → ℤ → ℤ)

def init (s : Decoding) (k : KeyFrame) : Decoding where
  media := (s.media.initVideoDecoder avpicture_get_size k).2
  last :=
    match k.analysed with
    | none => s.last
    | some (lw, lh) => some (k.codec, lw, lh)

def reset (s : Decoding) : Decoding := { s with media := s.media.resetData }

/-- The state in which `DecodeVideo` is called for a frame. -/
def atDecode (s : Decoding) (key : Option KeyFrame) (reset : Bool) : Decoding :=
  let s := match key with
    | none => s
    | some k => s.init avpicture_get_size k
  if reset then s.reset else s

/-- The states in which `DecodeVideo` goes past its test of `isVideoDecoderActive`. -/
def decodes : Decoding → List Event → List Decoding
  | _, [] => []
  | s, .reset :: es => decodes s.reset es
  | s, .frame key reset :: es =>
    let t := s.atDecode avpicture_get_size key reset
    if t.media.isVideoDecoderActive then t :: decodes t es else decodes t es

/-- The open context is the one for the last key frame, and so is the buffer. -/
def Matches (s : Decoding) : Prop :=
  ∃ codec w h, s.last = some (codec, w, h) ∧ s.media.mContext = some ⟨codec, w, h, 4, true⟩ ∧
    s.media.mVideoBufferSize = avpicture_get_size s.media.mDecoderFmt w h

/-- The condition on a key frame: a decoder that is kept because the size of the frame is
the stored one has its context for the codec and the size of the frame. -/
def Fits (s : JAMedia) (k : KeyFrame) : Prop :=
  s.isVideoDecoderActive = true → k.analysed = some (s.mVideoWidth, s.mVideoHeight) →
    s.mContext.map (fun c => (c.codec, c.width, c.height)) =
      some (k.codec, s.mVideoWidth, s.mVideoHeight)

def AllFit : Decoding → List Event → Prop
  | _, [] => True
  | s, .reset :: es => AllFit s.reset es
  | s, .frame key reset :: es =>
    (∀ k, key = some k → Fits s.media k) ∧ AllFit (s.atDecode avpicture_get_size key reset) es

variable {avpicture_get_size} {s : Decoding}

/-- What `DecodeVideo` relies on when it goes past its test. -/
def Sound (avpicture_get_size : AVPixelFormat → ℤ → ℤ → ℤ) (s : Decoding) : Prop :=
  s.media.isVideoDecoderActive = true → Matches avpicture_get_size s

theorem analystLocked_active (s : JAMedia) (k : KeyFrame) (lw lh : ℤ) :
    (s.analystLocked k lw lh).isVideoDecoderActive = true ↔
      s.isVideoDecoderActive = true ∧ lw = s.mVideoWidth ∧ lh = s.mVideoHeight := by
  unfold JAMedia.analystLocked
  split
  · rename_i ha
    split
    · rename_i hne
      refine iff_of_false (by simp [JAMedia.setExtra]) ?_
      rintro ⟨-, rfl, rfl⟩
      simp at hne
    · rename_i heq
      have hs : lw = s.mVideoWidth ∧ lh = s.mVideoHeight := by
        simpa only [not_or, not_not] using heq
      exact iff_of_true ha ⟨ha, hs⟩
  · rename_i ha
    exact iff_of_false ha (fun h => ha h.1)

theorem analystLocked_kept {s : JAMedia} (k : KeyFrame) (ha : s.isVideoDecoderActive = true) :
    s.analystLocked k s.mVideoWidth s.mVideoHeight = s := by
  simp [JAMedia.analystLocked, ha]

theorem analystLocked_size {s : JAMedia} {k : KeyFrame} {lw lh : ℤ}
    (h : (s.analystLocked k lw lh).isVideoDecoderActive = false) :
    (s.analystLocked k lw lh).mVideoWidth = lw ∧ (s.analystLocked k lw lh).mVideoHeight = lh := by
  unfold JAMedia.analystLocked at h ⊢
  split
  · rename_i ha
    rw [if_pos ha] at h
    split
    · exact ⟨rfl, rfl⟩
    · rename_i hne
      rw [if_neg hne, ha] at h
      cases h
  · exact ⟨rfl, rfl⟩

theorem openDecoder_spec {s : JAMedia} {k : KeyFrame} (h : s.isVideoDecoderActive = false)
    (hopen : (s.openDecoder avpicture_get_size k).2.isVideoDecoderActive = true) :
    (s.openDecoder avpicture_get_size k).2.mContext =
        some ⟨k.codec, s.mVideoWidth, s.mVideoHeight, 4, true⟩ ∧
      (s.openDecoder avpicture_get_size k).2.mDecoderFmt = k.fmt ∧
      (s.openDecoder avpicture_get_size k).2.mVideoBufferSize =
        avpicture_get_size k.fmt s.mVideoWidth s.mVideoHeight := by
  unfold JAMedia.openDecoder at hopen ⊢
  cases hf : k.found <;> cases ho : k.opens <;>
    simp_all [JAMedia.allocate, JAMedia.activate]

/-- A key frame that is not analysed changes nothing, one that finds the decoder active with
its size changes nothing but the last key frame, and any other one leaves the decoder closed
or open for its codec and size. -/
theorem init_cases (avpicture_get_size : AVPixelFormat → ℤ → ℤ → ℤ) (s : Decoding) (k : KeyFrame) :
    k.analysed = none ∧ s.init avpicture_get_size k = s ∨
    s.media.isVideoDecoderActive = true ∧
      k.analysed = some (s.media.mVideoWidth, s.media.mVideoHeight) ∧
      s.init avpicture_get_size k =
        { s with last := some (k.codec, s.media.mVideoWidth, s.media.mVideoHeight) } ∨
    ¬ (s.media.isVideoDecoderActive = true ∧
        k.analysed = some (s.media.mVideoWidth, s.media.mVideoHeight)) ∧
      Sound avpicture_get_size (s.init avpicture_get_size k) := by
  cases hk : k.analysed with
  | none => exact .inl ⟨rfl, by simp [init, JAMedia.initVideoDecoder, JAMedia.analystHeader, hk]⟩
  | some size =>
    obtain ⟨lw, lh⟩ := size
    by_cases hact : (s.media.analystLocked k lw lh).isVideoDecoderActive = true
    · obtain ⟨ha, rfl, rfl⟩ := (analystLocked_active s.media k lw lh).mp hact
      refine .inr (.inl ⟨ha, rfl, ?_⟩)
      simp [init, JAMedia.initVideoDecoder, JAMedia.analystHeader, hk, analystLocked_kept k ha, ha]
    · refine .inr (.inr ⟨?_, ?_⟩)
      · rintro ⟨ha, heq⟩
        obtain ⟨rfl, rfl⟩ := Prod.mk.inj (Option.some.inj heq)
        exact hact ((analystLocked_active _ _ _ _).mpr ⟨ha, rfl, rfl⟩)
      · have hclosed := Bool.eq_false_iff.mpr hact
        obtain ⟨hw, hh⟩ := analystLocked_size hclosed
        have hinit : s.init avpicture_get_size k =
            ⟨((s.media.analystLocked k lw lh).openDecoder avpicture_get_size k).2,
              some (k.codec, lw, lh)⟩ := by
          simp [init, JAMedia.initVideoDecoder, JAMedia.analystHeader, hk, hclosed]
        rw [hinit]
        intro hopen
        obtain ⟨hctx, hfmt, hsize⟩ := openDecoder_spec hclosed hopen
        rw [hw, hh] at hctx hsize
        exact ⟨k.codec, lw, lh, rfl, hctx, by rw [hsize, hfmt]⟩

theorem init_sound_iff (h : Sound avpicture_get_size s) (k : KeyFrame) :
    Sound avpicture_get_size (s.init avpicture_get_size k) ↔ Fits s.media k := by
  rcases init_cases avpicture_get_size s k with ⟨hk, hs⟩ | ⟨ha, hk, hs⟩ | ⟨hno, hs⟩
  · rw [hs]
    refine iff_of_true h ?_
    intro _ hk'
    rw [hk] at hk'
    cases hk'
  · obtain ⟨codec, w, h', hlast, hctx, hsize⟩ := h ha
    rw [hs]
    constructor
    · intro hsound _ _
      obtain ⟨codec', w', h'', hlast', hctx', -⟩ := hsound ha
      cases hlast'
      exact congrArg (Option.map fun c => (c.codec, c.width, c.height)) hctx'
    · intro hfits _
      have hkept := hfits ha hk
      rw [hctx] at hkept
      simp only [Option.map_some, Option.some.injEq, Prod.mk.injEq] at hkept
      obtain ⟨rfl, rfl, rfl⟩ := hkept
      exact ⟨_, _, _, rfl, hctx, hsize⟩
  · refine iff_of_true hs ?_
    intro ha hk
    exact absurd ⟨ha, hk⟩ hno

theorem reset_sound_iff :
    Sound avpicture_get_size s.reset ↔ Sound avpicture_get_size s := Iff.rfl

theorem atDecode_sound_iff (h : Sound avpicture_get_size s) (key : Option KeyFrame)
    (reset : Bool) : Sound avpicture_get_size (s.atDecode avpicture_get_size key reset) ↔
      ∀ k, key = some k → Fits s.media k := by
  have hkey : Sound avpicture_get_size (s.atDecode avpicture_get_size key reset) ↔
      Sound avpicture_get_size (s.atDecode avpicture_get_size key false) := by
    cases reset with
    | false => rfl
    | true => exact reset_sound_iff
  rw [hkey]
  cases key with
  | none => exact iff_of_true h (by intro k hk; cases hk)
  | some k =>
    refine (init_sound_iff h k).trans ⟨?_, fun hall => hall k rfl⟩
    intro hfits k' hk'
    cases hk'
    exact hfits

theorem decodes_match_iff (h : Sound avpicture_get_size s) (es : List Event) :
    (∀ d ∈ decodes avpicture_get_size s es, Matches avpicture_get_size d) ↔
      AllFit avpicture_get_size s es := by
  induction es generalizing s with
  | nil => exact iff_of_true (by intro d hd; cases hd) trivial
  | cons e es ih =>
    cases e with
    | reset => exact ih (s := s.reset) (reset_sound_iff.mpr h)
    | frame key reset =>
      have hone := atDecode_sound_iff h key reset
      simp only [decodes, AllFit, ← hone]
      constructor
      · intro hall
        have hsound : Sound avpicture_get_size (s.atDecode avpicture_get_size key reset) := by
          intro ha
          rw [if_pos ha] at hall
          exact hall _ List.mem_cons_self
        refine ⟨hsound, (ih hsound).mp ?_⟩
        intro d hd
        apply hall
        split
        · exact List.mem_cons_of_mem _ hd
        · exact hd
      · rintro ⟨hsound, hrest⟩ d hd
        split at hd
        · rename_i ha
          rcases List.mem_cons.mp hd with rfl | hd
          · exact hsound ha
          · exact (ih hsound).mpr hrest d hd
        · exact (ih hsound).mpr hrest d hd

end Library

/-- `DecodeVideo` finds the context and the buffer of the last key frame in every state it
runs in exactly when every key frame fits. -/
theorem active_decoder_matches_iff (avpicture_get_size : AVPixelFormat → ℤ → ℤ → ℤ)
    (es : List Event) :
    (∀ d ∈ decodes avpicture_get_size create es, Matches avpicture_get_size d) ↔
      AllFit avpicture_get_size create es :=
  decodes_match_iff (by intro h; cases h) es

/-- A picture of four bytes or one and a half for each pixel. -/
def pictureSize : AVPixelFormat → ℤ → ℤ → ℤ
  | .BGR32, w, h => w * h * 4
  | .YUV420P, w, h => w * h * 3 / 2

/-- A key frame whose codec is found and opens. -/
def keyFrame (codec : AVCodecID) (w h : ℤ) : KeyFrame :=
  ⟨codec, [], .BGR32, some (w, h), true, true⟩

/-- An HEVC key frame of the size of the H.264 stream before it keeps the H.264 context. -/
theorem codec_change_keeps_context : ¬ ∀ avpicture_get_size es,
    ∀ d ∈ decodes avpicture_get_size create es, Matches avpicture_get_size d := by
  intro hall
  have hsecond := hall pictureSize
    [.frame (some (keyFrame .H264 640 360)) false, .frame (some (keyFrame .HEVC 640 360)) false]
  obtain ⟨codec, w, h, hlast, hctx, -⟩ :=
    hsecond _ (List.mem_cons_of_mem _ List.mem_cons_self)
  have hcodec : some (AVCodecID.HEVC, (640 : ℤ), (360 : ℤ)) = some (codec, w, h) := hlast
  have hopen : some (⟨.H264, 640, 360, 4, true⟩ : AVCodecContext) =
    some ⟨codec, w, h, 4, true⟩ := hctx
  cases hcodec
  cases hopen

end Decoding
end Jagles
