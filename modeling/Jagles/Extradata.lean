import Jagles.Decoder
import Jagles.NalUnits

set_option autoImplicit false
set_option linter.dupNamespace false

/-!
# The parameter sets of a recording

`AnalystHeader` keeps the first bytes of a key frame and looks for its first slice in
them; `StartRecord` takes what is in front of the slice for the extradata of the file.
-/
namespace Jagles.Extradata
open NalUnits

/-- `StartRecord`. -/
def extradata (s : JAMedia) : List UInt8 :=
  if s.mExtraSize ≠ 0 then s.mExtraData.take s.mExtraSize.toNat else []

def isIdr (codec : AVCodecID) (header : UInt8) : Bool :=
  match codec with
  | .H264 => header &&& 0x1F == 5
  | .HEVC => (header >>> 1) &&& 0x3f == 19 || (header >>> 1) &&& 0x3f == 20
  | .other => false

/-- A key frame as its units. The first IDR slice starts in the first 1019 bytes and
before the last five. -/
structure Coded (codec : AVCodecID) where
  before : List EscapedUnit
  slice : EscapedUnit
  after : List EscapedUnit
  first : ∀ u ∈ before, isIdr codec u.header = false
  idr : isIdr codec slice.header = true
  near : (escapedStream before).length < 1019
  whole : (escapedStream before).length + 5 < (escapedStream (before ++ slice :: after)).length

namespace Coded
variable {codec : AVCodecID} (f : Coded codec)

def stream : List UInt8 := escapedStream (f.before ++ f.slice :: f.after)

/-- Where the start code of the slice begins. -/
def offset : ℕ := (escapedStream f.before).length

/-- In H.264 the start code of the slice has four bytes; in HEVC it has three, and the
slice is of type 19. -/
def Recognised : Prop :=
  match codec with
  | .H264 => f.slice.zeros = 1
  | .HEVC => f.slice.zeros = 0 ∧ (f.slice.header >>> 1) &&& 0x3f = 19
  | .other => False

/-- The extradata are the bytes in front of the slice. -/
structure Kept (s : JAMedia) : Prop where
  size : s.mExtraSize = f.offset
  data : extradata s = escapedStream f.before

end Coded

/-- `AnalystHeader` comes to its scan: the size is parsed, and the decoder does not run
with that size already. -/
def Scans (s : JAMedia) (k : KeyFrame) : Prop :=
  k.analysed ≠ none ∧
    ¬ (s.isVideoDecoderActive = true ∧ k.analysed = some (s.mVideoWidth, s.mVideoHeight))

instance (s : JAMedia) (k : KeyFrame) : Decidable (Scans s k) := inferInstanceAs (Decidable (_ ∧ _))

section Bytes
variable {xs : List UInt8} {i : ℕ}

theorem getD_iff (h : i < xs.length) (b : UInt8) : xs.getD i 0 = b ↔ xs[i]? = some b := by
  rw [List.getD_eq_getElem?_getD, List.getElem?_eq_getElem h, Option.getD_some, Option.some_inj]

/-- The first test takes a slice behind `00 00 00 01`, the second one any `05` behind
`00 00 00`. -/
theorem sliceAt_H264 (h : i + 4 < xs.length) : JAMedia.sliceAt .H264 xs i = true ↔
    ZeroRun xs i ∧ (xs[i + 3]? = some 1 ∧ xs.getD (i + 4) 0 &&& 0x1F = 5 ∨
      xs.getD (i + 3) 0 &&& 0x1F = 5) := by
  simp only [JAMedia.sliceAt, Bool.or_eq_true, Bool.and_eq_true, beq_iff_eq, Nat.add_zero]
  rw [getD_iff (by omega), getD_iff (by omega), getD_iff (by omega), getD_iff (by omega)]
  constructor
  · rintro (⟨⟨⟨⟨h0, h1⟩, h2⟩, h3⟩, h4⟩ | ⟨⟨⟨h0, h1⟩, h2⟩, h3⟩)
    · exact ⟨⟨h0, h1, h2⟩, .inl ⟨h3, h4⟩⟩
    · exact ⟨⟨h0, h1, h2⟩, .inr h3⟩
  · rintro ⟨⟨h0, h1, h2⟩, ⟨h3, h4⟩ | h3⟩
    · exact .inl ⟨⟨⟨⟨h0, h1⟩, h2⟩, h3⟩, h4⟩
    · exact .inr ⟨⟨⟨h0, h1⟩, h2⟩, h3⟩

theorem sliceAt_HEVC (h : i + 4 < xs.length) : JAMedia.sliceAt .HEVC xs i = true ↔
    StartCode xs (i + 3) ∧ (xs.getD (i + 3) 0 >>> 1) &&& 0x3f = 19 := by
  simp only [JAMedia.sliceAt, Bool.and_eq_true, beq_iff_eq, Nat.add_zero]
  rw [getD_iff (by omega), getD_iff (by omega), getD_iff (by omega)]
  constructor
  · rintro ⟨⟨⟨h0, h1⟩, h2⟩, h3⟩
    exact ⟨⟨by omega, h0, h1, h2⟩, h3⟩
  · rintro ⟨⟨-, h0, h1, h2⟩, h3⟩
    exact ⟨⟨⟨h0, h1⟩, h2⟩, h3⟩

end Bytes

namespace Coded
variable {codec : AVCodecID} (f : Coded codec)

theorem stream_eq : f.stream =
    escapedStream f.before ++ (f.slice.bytes ++ escapedStream f.after) := by
  rw [stream, escapedStream_append, escapedStream_cons]

theorem stream_slice (k : ℕ) : f.stream[f.offset + k]? =
    (f.slice.bytes ++ escapedStream f.after)[k]? := by
  rw [f.stream_eq, offset, List.getElem?_append_right (Nat.le_add_right _ _),
    Nat.add_sub_cancel_left]

theorem stream_whole : f.offset + 5 < f.stream.length := f.whole

theorem stream_take : f.stream.take f.offset = escapedStream f.before := by
  rw [f.stream_eq]
  exact List.take_left' rfl

theorem stream_header : f.stream[f.offset + (f.slice.zeros + 3)]? = some f.slice.header := by
  rw [f.stream_slice]
  exact f.slice.bytes_header _

theorem getD_header : f.stream.getD (f.offset + (f.slice.zeros + 3)) 0 = f.slice.header := by
  rw [List.getD_eq_getElem?_getD, f.stream_header, Option.getD_some]

/-- The slice is found at its start code exactly when it is one that is recognised. -/
theorem sliceAt_offset : JAMedia.sliceAt codec f.stream f.offset = true ↔ f.Recognised := by
  have hwhole := f.stream_whole
  have hidr := f.idr
  have hshort := f.slice.short
  have hone := f.slice.bytes_one (escapedStream f.after)
  have hheader := f.getD_header
  rw [← f.stream_slice] at hone
  cases codec with
  | H264 =>
    rw [sliceAt_H264 (by omega)]
    have htype : f.slice.header &&& 0x1F = 5 := by simpa [isIdr] using hidr
    unfold Recognised
    constructor
    · rintro ⟨hrun, -⟩
      by_contra hzeros
      have hzero : f.slice.zeros = 0 := by omega
      rw [hzero] at hone
      have hthird := hrun.third
      rw [hone] at hthird
      exact absurd hthird (by decide)
    · intro hzeros
      simp only at hzeros
      rw [hzeros] at hone hheader
      have hzero : ∀ i < 3, f.stream[f.offset + i]? = some 0 := by
        intro i hi
        rw [f.stream_slice]
        exact f.slice.bytes_zero _ (by omega)
      refine ⟨⟨hzero 0 (by omega), hzero 1 (by omega), hzero 2 (by omega)⟩, .inl ⟨hone, ?_⟩⟩
      rw [hheader]
      exact htype
  | HEVC =>
    rw [sliceAt_HEVC (by omega)]
    unfold Recognised
    constructor
    · rintro ⟨hcode, htype⟩
      have hzeros : f.slice.zeros = 0 := by
        by_contra hzeros
        have hone' := hcode.one
        rw [show f.offset + 3 - 1 = f.offset + 2 by omega, f.stream_slice,
          f.slice.bytes_zero _ (by omega)] at hone'
        exact absurd hone' (by decide)
      rw [hzeros] at hheader
      rw [hheader] at htype
      exact ⟨hzeros, htype⟩
    · rintro ⟨hzeros, htype⟩
      rw [hzeros] at hone hheader
      have hzero : ∀ i < 2, f.stream[f.offset + i]? = some 0 := by
        intro i hi
        rw [f.stream_slice]
        exact f.slice.bytes_zero _ (by omega)
      refine ⟨⟨by omega, hzero 0 (by omega), hzero 1 (by omega), hone⟩, ?_⟩
      rw [hheader]
      exact htype
  | other => cases hidr

/-- Nothing in front of the slice is taken for it. -/
theorem sliceAt_before {i : ℕ} (hi : i < f.offset) :
    JAMedia.sliceAt codec f.stream i = false := by
  have hwhole := f.stream_whole
  have hidr := f.idr
  rw [Bool.eq_false_iff]
  intro hslice
  cases codec with
  | H264 =>
    rw [sliceAt_H264 (by omega)] at hslice
    obtain ⟨hrun, htest⟩ := hslice
    rw [f.stream_eq] at hrun
    obtain ⟨u, hu, hone, hheader⟩ := escapedStream_zeroRun f.before hrun hi
    rw [← f.stream_eq] at hone hheader
    rw [List.getD_eq_getElem?_getD, List.getD_eq_getElem?_getD, hone, hheader] at htest
    rcases htest with ⟨-, htype⟩ | hone'
    · have hfirst := f.first u hu
      simp only [Option.getD_some] at htype
      simp [isIdr, htype] at hfirst
    · exact absurd hone' (by decide)
  | HEVC =>
    rw [sliceAt_HEVC (by omega)] at hslice
    obtain ⟨hcode, htype⟩ := hslice
    rw [f.stream_eq] at hcode
    obtain ⟨u, hu, hheader⟩ := byteStream_startCode (f.before.map EscapedUnit.toNalUnit)
      (f.slice.zerosFirst _) hcode (by exact Nat.add_lt_add_right hi 3)
    obtain ⟨v, hv, rfl⟩ := List.mem_map.mp hu
    have hat : f.stream[i + 3]? = some v.header := by
      rw [f.stream_eq]
      exact hheader
    rw [List.getD_eq_getElem?_getD, hat, Option.getD_some] at htype
    have hfirst := f.first v hv
    simp [isIdr, htype] at hfirst
  | other => cases hidr

theorem find_slice {n : ℕ} (hn : f.offset < n) :
    (List.range n).find? (JAMedia.sliceAt codec f.stream) = some f.offset ↔ f.Recognised := by
  rw [List.find?_range_eq_some, f.sliceAt_offset]
  constructor
  · exact fun h => h.1
  · intro h
    refine ⟨h, List.mem_range.mpr hn, fun j hj => ?_⟩
    rw [f.sliceAt_before hj]
    rfl

theorem scanned_iff {size : ℤ} (h : f.offset < size) :
    (match (List.range size.toNat).find? (JAMedia.sliceAt codec f.stream) with
      | some i => i
      | none => size : ℤ) = f.offset ↔ f.Recognised := by
  rw [← f.find_slice (n := size.toNat) (by omega)]
  split
  · rename_i i hi
    rw [hi, Option.some_inj]
    exact Int.natCast_inj
  · rename_i hnone
    rw [hnone]
    exact iff_of_false (fun h => absurd h (by omega)) (fun h => nomatch h)

/-- The whole frame with what the code outside answers. -/
def keyFrame (fmt : AVPixelFormat) (size : Option (ℤ × ℤ)) (found opens : Bool) : KeyFrame :=
  ⟨codec, f.stream, fmt, size, found, opens⟩

section Scan
variable (s : JAMedia) (fmt : AVPixelFormat) (size : Option (ℤ × ℤ)) (found opens : Bool)

theorem setExtra_size : (s.setExtra (f.keyFrame fmt size found opens)).mExtraSize = f.offset ↔
    f.Recognised := by
  have hnear : f.offset < 1019 := f.near
  have hwhole := f.stream_whole
  have hscan : (f.offset : ℤ) <
      if f.stream.length > 1024 then (1019 : ℤ) else f.stream.length - 5 := by
    split <;> omega
  exact f.scanned_iff hscan

theorem setExtra_data : (s.setExtra (f.keyFrame fmt size found opens)).mExtraData.take f.offset =
    escapedStream f.before := by
  have hnear : f.offset < 1019 := f.near
  have hwhole := f.stream_whole
  simp only [JAMedia.setExtra, keyFrame]
  rw [List.take_append_of_le_length (by rw [List.length_take]; omega), List.take_take,
    Nat.min_eq_left (by omega), f.stream_take]

end Scan

theorem kept_of_data {s : JAMedia} (h : s.mExtraData.take f.offset = escapedStream f.before) :
    f.Kept s ↔ s.mExtraSize = f.offset := by
  refine ⟨fun hk => hk.size, fun hsize => ⟨hsize, ?_⟩⟩
  unfold extradata
  rw [hsize, Int.toNat_natCast]
  split
  · exact h
  · rename_i hzero
    have hzero : f.offset = 0 := by simpa using hzero
    have hempty : escapedStream f.before = [] := List.length_eq_zero_iff.mp hzero
    exact hempty.symm

end Coded

theorem closeVideoDecoder_data (s : JAMedia) : s.closeVideoDecoder.mExtraData = s.mExtraData := by
  unfold JAMedia.closeVideoDecoder
  split <;> rfl

/-- Without a scan nothing changes. -/
theorem analystHeader_cases (s : JAMedia) (k : KeyFrame) :
    ¬ Scans s k ∧ (s.analystHeader k).2 = s ∨
    Scans s k ∧ (s.analystHeader k).2.mExtraSize = (s.setExtra k).mExtraSize ∧
      (s.analystHeader k).2.mExtraData = (s.setExtra k).mExtraData := by
  unfold Scans JAMedia.analystHeader
  cases hk : k.analysed with
  | none => exact .inl ⟨fun h => h.1 rfl, rfl⟩
  | some size =>
    simp only [JAMedia.analystLocked]
    split
    · split
      · rename_i hother
        refine .inr ⟨⟨Option.some_ne_none _, fun h => ?_⟩, rfl, ?_⟩
        · obtain rfl := Option.some.inj h.2
          simp at hother
        · simp only [JAMedia.setExtra, closeVideoDecoder_data]
      · rename_i hactive hsame
        have hsame : size = (s.mVideoWidth, s.mVideoHeight) := by
          simp only [not_or, not_not] at hsame
          exact Prod.ext hsame.1 hsame.2
        exact .inl ⟨fun h => h.2 ⟨hactive, congrArg some hsame⟩, rfl⟩
    · rename_i hactive
      exact .inr ⟨⟨Option.some_ne_none _, fun h => hactive h.1⟩, rfl, rfl⟩

/-- For every decoder and every key frame of units: after a scan the extradata are the
bytes in front of the first slice exactly when that slice is one that is recognised. -/
theorem extradata_kept_iff (s : JAMedia) {codec : AVCodecID} (f : Coded codec) (fmt : AVPixelFormat)
    (size : Option (ℤ × ℤ)) (found opens : Bool) :
    f.Kept (s.analystHeader (f.keyFrame fmt size found opens)).2 ↔
      if Scans s (f.keyFrame fmt size found opens) then f.Recognised else f.Kept s := by
  rcases analystHeader_cases s (f.keyFrame fmt size found opens) with
    ⟨hno, hsame⟩ | ⟨hscans, hsize, hdata⟩
  · rw [if_neg hno, hsame]
  · rw [if_pos hscans, f.kept_of_data (by rw [hdata]; exact f.setExtra_data s fmt size found opens),
      hsize]
    exact f.setExtra_size s fmt size found opens

/-- A parameter set, and an IDR slice behind a start code of three bytes. -/
def shortCode : Coded .H264 where
  before := [.zeroFree 1 0x67 [0x42, 0x80] (by decide) (by decide)]
  slice := .zeroFree 0 0x65 [0x88, 0x84, 0x21, 0xA0, 0x80] (by decide) (by decide)
  after := []
  first := by decide
  idr := by decide
  near := by decide
  whole := by decide

/-- The second test wants three zero bytes where a start code of three bytes has two. -/
theorem extradata_not_kept : ¬ ∀ (s : JAMedia) (codec : AVCodecID) (f : Coded codec)
    (fmt : AVPixelFormat) (size : Option (ℤ × ℤ)) (found opens : Bool),
    f.Kept (s.analystHeader (f.keyFrame fmt size found opens)).2 := by
  intro claim
  have hsize := (claim .create .H264 shortCode .BGR32 (some (16, 16)) true true).size
  exact absurd hsize (by decide +kernel)

end Jagles.Extradata
