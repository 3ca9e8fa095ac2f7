import Jagles.H264
import Jagles.NalUnits

set_option autoImplicit false
set_option linter.dupNamespace false

/-!
# A sequence parameter set read back by `h264_decode_seq_parameter_set`

The set is written field by field as the standard lays it out: fixed-width fields, unsigned
and signed Exp-Golomb codes, the fields of the high profiles with their scaling lists, and
the three kinds of picture order count.
-/
namespace Jagles.H264
open BitPrograms NalUnits

/-- The unsigned number a signed one is coded as. -/
def seCode (v : ℤ) : ℕ := if 0 < v then (2 * v - 1).toNat else (-2 * v).toNat

def seBits (v : ℤ) : List Bool := golombBits (seCode v)

/-- The numbers a signed code of at most 31 leading zeros can stand for. -/
def InSe (v : ℤ) : Prop := -2 ^ 31 < v ∧ v < 2 ^ 31

theorem seCode_lt {v : ℤ} (h : InSe v) : seCode v + 1 < 2 ^ 32 := by
  obtain ⟨hlow, hhigh⟩ := h
  unfold seCode
  split <;> omega

theorem seValue_seCode {v : ℤ} (hlow : -128 ≤ v) (hhigh : v ≤ 127) :
    seValue (seCode v) = v := by
  have hcode : seCode v < 2 ^ 31 := by
    unfold seCode
    split <;> omega
  simp only [seValue, toInt_of_lt hcode]
  unfold seCode
  split <;> split_ifs <;> omega

/-- The differences of a scaling list of `size` entries: one for each entry until an entry
comes out zero. -/
def ValidDeltas : ℕ → ℤ → List ℤ → Prop
  | 0, _, deltas => deltas = []
  | _ + 1, _, [] => False
  | size + 1, last, d :: deltas => (-128 ≤ d ∧ d ≤ 127) ∧
    if (last + d) % 256 = 0 then deltas = [] else ValidDeltas size ((last + d) % 256) deltas

/-- A scaling list, `none` when it is not present. -/
def scalingListBits : Option (List ℤ) → List Bool
  | none => [false]
  | some deltas => true :: deltas.flatMap seBits

/-- The fields only the high profiles have. -/
structure HighFields where
  chroma : ℕ
  depth : ℕ
  bypass : Bool
  lists : Option (List (Option (List ℤ)))
  chroma_le : chroma ≤ 3
  depth_le : depth + 8 ≤ 14
  lists_valid : ∀ ls ∈ lists, List.Forall₂
    (fun call list => ∀ deltas ∈ list, ValidDeltas call.size 8 deltas) (scalingCalls chroma) ls

def HighFields.matrixBits (f : HighFields) : List Bool :=
  match f.lists with
  | none => [false]
  | some ls => true :: ls.flatMap scalingListBits

def HighFields.bits (f : HighFields) : List Bool :=
  golombBits f.chroma ++ ((if f.chroma = 3 then [false] else []) ++ (golombBits f.depth ++
    (golombBits f.depth ++ ([f.bypass] ++ f.matrixBits))))

inductive PicOrderCnt where
  | zero (log2MaxLsb : ℕ) (h : log2MaxLsb + 1 < 2 ^ 32)
  | one (alwaysZero : Bool) (nonRef topToBottom : ℤ) (offsets : List ℤ) (h : InSe nonRef)
      (h' : InSe topToBottom) (hs : ∀ v ∈ offsets, InSe v) (hn : offsets.length < 2 ^ 31)
  | other (type : ℕ) (h : 2 ≤ type) (h' : type + 1 < 2 ^ 32)

def PicOrderCnt.bits : PicOrderCnt → List Bool
  | .zero log2MaxLsb _ => golombBits 0 ++ golombBits log2MaxLsb
  | .one alwaysZero nonRef topToBottom offsets _ _ _ _ =>
    golombBits 1 ++ ([alwaysZero] ++ (seBits nonRef ++ (seBits topToBottom ++
      (golombBits offsets.length ++ offsets.flatMap seBits))))
  | .other type _ _ => golombBits type

/-- How many `int`s the parser allocates for it. -/
def PicOrderCnt.count : PicOrderCnt → ℕ
  | .one _ _ _ offsets _ _ _ _ => offsets.length
  | _ => 0

/-- A sequence parameter set; `rest` is what follows the size. -/
structure SeqParameterSet where
  profile : ℕ
  constraints : List Bool
  level : ℕ
  id : ℕ
  high : Option HighFields
  log2MaxFrameNum : ℕ
  poc : PicOrderCnt
  numRefFrames : ℕ
  gaps : Bool
  width : ℕ
  height : ℕ
  rest : List Bool
  profile_mem : profile ∈ [66, 77, 88, 100, 110, 122]
  constraints_length : constraints.length = 8
  level_lt : level < 256
  id_lt : id + 1 < 2 ^ 32
  high_iff : high.isSome ↔ profile ∈ [100, 110, 122]
  log2MaxFrameNum_lt : log2MaxFrameNum + 1 < 2 ^ 32
  numRefFrames_lt : numRefFrames + 1 < 2 ^ 32
  width_lt : width + 1 < 2 ^ 32
  height_lt : height + 1 < 2 ^ 32

namespace SeqParameterSet

variable (p : SeqParameterSet)

def highBits : List Bool := (p.high.map HighFields.bits).getD []

def pictureBits : List Bool :=
  golombBits p.numRefFrames ++ ([p.gaps] ++ (golombBits p.width ++ golombBits p.height))

/-- The fields of the payload up to the size. -/
def sizeBits : List Bool :=
  toBits 8 p.profile ++ (p.constraints ++ (toBits 8 p.level ++ (golombBits p.id ++
    (p.highBits ++ (golombBits p.log2MaxFrameNum ++ (p.poc.bits ++ p.pictureBits))))))

def payload : List UInt8 := rbsp (p.sizeBits ++ p.rest)

/-- The forbidden zero bit, `nal_ref_idc` and the type 7. -/
def headerBits (refIdc : ℕ) : List Bool := [false] ++ (toBits 2 refIdc ++ toBits 5 7)

/-- The bytes of the unit in a stream. -/
def nalBytes (refIdc : ℕ) : List UInt8 :=
  UInt8.ofNat (ofBits (headerBits refIdc)) :: escape 0 p.payload

end SeqParameterSet

/-! ## Field by field -/

section decodes

variable {s : Source}

theorem decodes_se {v : ℤ} (h : InSe v) : Decodes s se (seBits v) (seValue (seCode v)) :=
  (Decodes.golomb (seCode_lt h)).map seValue

theorem decodes_scalingRest (call : ScalingCall) (rounds : ℕ) (last : ℤ) :
    Decodes s (scalingLoop call rounds false last 0) [] () := by
  induction rounds generalizing last with
  | zero => exact Decodes.done ()
  | succ rounds ih => exact Decodes.bind (Decodes.done 0) (ih last)

/-- The loop takes the differences one by one and stops reading at a zero entry. -/
theorem decodes_scalingLoop (call : ScalingCall) (rounds : ℕ) (first : Bool) {last next : ℤ}
    {deltas : List ℤ} (hnext : next ≠ 0) (h : ValidDeltas rounds last deltas) :
    Decodes s (scalingLoop call rounds first last next) (deltas.flatMap seBits) () := by
  induction rounds generalizing first last next deltas with
  | zero =>
    obtain rfl : deltas = [] := h
    exact Decodes.done ()
  | succ rounds ih =>
    cases deltas with
    | nil => exact absurd h id
    | cons d deltas =>
      obtain ⟨⟨hlow, hhigh⟩, hrest⟩ := h
      have hdelta : Decodes s (nextScale last next) (seBits d) ((last + d) % 256) := by
        rw [nextScale, if_pos hnext]
        have hin : InSe d := by constructor <;> omega
        have hse : Decodes s _ (seBits d) _ :=
          (decodes_se hin).map fun delta => (last + delta) % 256
        rwa [seValue_seCode hlow hhigh] at hse
      rw [List.flatMap_cons]
      refine hdelta.bind ?_
      by_cases hz : (last + d) % 256 = 0
      · rw [if_pos hz] at hrest
        subst hrest
        cases first with
        | true =>
          rw [if_pos ⟨rfl, hz⟩]
          exact Decodes.copy _ _
        | false =>
          rw [if_neg (by simp), hz]
          exact decodes_scalingRest call rounds _
      · rw [if_neg hz] at hrest
        rw [if_neg (fun hc => hz hc.2), if_pos hz]
        exact ih false hz hrest

theorem decodes_scalingList {call : ScalingCall} {list : Option (List ℤ)}
    (h : ∀ deltas ∈ list, ValidDeltas call.size 8 deltas) :
    Decodes s (decodeScalingList call) (scalingListBits list) () := by
  cases list with
  | none => exact (Decodes.flag false).bind (Decodes.copy _ _)
  | some deltas =>
    exact (Decodes.flag true).bind
      (decodes_scalingLoop call call.size true (by norm_num) (h deltas rfl))

theorem decodes_scalingLists {calls : List ScalingCall} {lists : List (Option (List ℤ))}
    (h : List.Forall₂ (fun call list => ∀ deltas ∈ list, ValidDeltas call.size 8 deltas)
      calls lists) :
    Decodes s (decodeScalingLists calls) (lists.flatMap scalingListBits) () := by
  induction h with
  | nil => exact Decodes.done ()
  | cons hlist _ ih => exact (decodes_scalingList hlist).bind ih

theorem decodes_matrix (f : HighFields) :
    Decodes s (do
      let present ← u 1
      scalingMatrix present f.chroma
      return true) f.matrixBits true := by
  have hvalid := f.lists_valid
  unfold HighFields.matrixBits
  cases hl : f.lists with
  | none =>
    refine Decodes.bind (Decodes.flag false) ?_
    exact (Decodes.done ()).map fun _ => true
  | some ls =>
    rw [hl] at hvalid
    change Decodes s _ ([true] ++ ls.flatMap scalingListBits) true
    refine Decodes.bind (Decodes.flag true) ?_
    exact (decodes_scalingLists (hvalid ls rfl)).map fun _ => true

theorem decodes_residual {chroma : ℕ} :
    Decodes s (residualColourTransform chroma) (if chroma = 3 then [false] else []) 0 := by
  unfold residualColourTransform
  split
  · exact Decodes.flag false
  · exact Decodes.done 0

theorem decodes_highProfileFields (f : HighFields) :
    Decodes s highProfileFields f.bits true := by
  have hchroma := f.chroma_le
  have hdepth := f.depth_le
  refine Decodes.bind (Decodes.golomb (by omega)) ?_
  rw [if_neg (by omega)]
  refine Decodes.bind decodes_residual ?_
  rw [if_neg (by simp)]
  refine Decodes.bind (Decodes.golomb (by omega)) ?_
  refine Decodes.bind (Decodes.golomb (by omega)) ?_
  rw [if_neg (by omega)]
  refine Decodes.bind (Decodes.flag f.bypass) ?_
  exact decodes_matrix f

theorem decodes_offsets {offsets : List ℤ} (h : ∀ v ∈ offsets, InSe v) :
    Decodes s (offsetsForRefFrame offsets.length) (offsets.flatMap seBits) () := by
  induction offsets with
  | nil => exact Decodes.done ()
  | cons v offsets ih =>
    exact (decodes_se (h v (by simp))).bind (ih fun w hw => h w (by simp [hw]))

theorem decodes_picOrderCnt (poc : PicOrderCnt) {heap : ℕ} (h : poc.count ≤ heap) :
    Decodes s (picOrderCnt heap) poc.bits true := by
  cases poc with
  | zero log2MaxLsb hlog =>
    refine Decodes.bind (Decodes.golomb (by norm_num)) ?_
    rw [if_pos rfl]
    exact (Decodes.golomb hlog).map fun _ => true
  | one alwaysZero nonRef topToBottom offsets h1 h2 hs hn =>
    refine Decodes.bind (Decodes.golomb (by norm_num)) ?_
    rw [if_neg (by norm_num), if_pos rfl]
    refine Decodes.bind (Decodes.flag alwaysZero) ?_
    refine Decodes.bind (decodes_se h1) ?_
    refine Decodes.bind (decodes_se h2) ?_
    refine Decodes.bind (Decodes.golomb (by omega)) ?_
    have hcount : toInt offsets.length = offsets.length := toInt_of_lt hn
    have hheap : offsets.length ≤ heap := h
    rw [hcount, if_neg (by omega), Int.toNat_natCast]
    exact (decodes_offsets hs).map fun _ => true
  | other type h1 h2 =>
    change Decodes s _ (golombBits type) true
    rw [← List.append_nil (golombBits type)]
    refine Decodes.bind (Decodes.golomb h2) ?_
    rw [if_neg (by omega), if_neg (by omega)]
    exact Decodes.done true

theorem decodes_constraintFlags : ∀ {bs : List Bool}, bs.length = 8 →
    Decodes s constraintFlags bs ()
  | [c0, c1, c2, c3, c4, c5, c6, c7], _ => by
    change Decodes s _ ([c0] ++ ([c1] ++ ([c2] ++ ([c3] ++ ([c4] ++ ([c5] ++ [c6, c7])))))) _
    refine Decodes.bind (Decodes.flag c0) ?_
    refine Decodes.bind (Decodes.flag c1) ?_
    refine Decodes.bind (Decodes.flag c2) ?_
    refine Decodes.bind (Decodes.flag c3) ?_
    refine Decodes.bind (Decodes.flag c4) ?_
    refine Decodes.bind (Decodes.flag c5) ?_
    exact (Decodes.word (show [c6, c7].length ≤ 32 by simp)).map fun _ => ()

theorem decodes_profileFields (p : SeqParameterSet) :
    Decodes s (profileFields p.profile) p.highBits true := by
  have hmem := p.profile_mem
  have hiff := p.high_iff
  simp only [List.mem_cons, List.not_mem_nil, or_false] at hmem hiff
  unfold profileFields SeqParameterSet.highBits
  cases hh : p.high with
  | none =>
    rw [hh] at hiff
    have hlow : ¬ (p.profile = 100 ∨ p.profile = 110 ∨ p.profile = 122) := by simpa using hiff
    rw [if_neg (by omega)]
    exact Decodes.done true
  | some f =>
    rw [hh] at hiff
    have hhigh : p.profile = 100 ∨ p.profile = 110 ∨ p.profile = 122 := by simpa using hiff
    rw [if_pos (by omega)]
    exact decodes_highProfileFields f

theorem decodes_pictureSize (p : SeqParameterSet) :
    Decodes s pictureSize p.pictureBits
      (.size (toInt ((p.width + 1) * 16)) (toInt ((p.height + 1) * 16))) := by
  refine Decodes.bind (Decodes.golomb p.numRefFrames_lt) ?_
  refine Decodes.bind (Decodes.flag p.gaps) ?_
  refine Decodes.bind (Decodes.golomb p.width_lt) ?_
  exact (Decodes.golomb p.height_lt).map fun h =>
    SpsResult.size (toInt ((p.width + 1) * 16)) (toInt ((h + 1) * 16))

theorem decodes_decodeSps (p : SeqParameterSet) {refIdc heap : ℕ} (href : refIdc < 4)
    (hheap : p.poc.count ≤ heap) :
    Decodes s (decodeSps heap) (SeqParameterSet.headerBits refIdc ++ p.sizeBits)
      (.size (toInt ((p.width + 1) * 16)) (toInt ((p.height + 1) * 16))) := by
  have hprofile : p.profile < 2 ^ 8 := by
    have := p.profile_mem
    simp only [List.mem_cons, List.not_mem_nil, or_false] at this
    omega
  rw [SeqParameterSet.headerBits, List.append_assoc, List.append_assoc]
  refine Decodes.bind (Decodes.flag false) ?_
  refine Decodes.bind (Decodes.bits (by norm_num) href) ?_
  refine Decodes.bind (Decodes.bits (by norm_num) (by norm_num)) ?_
  rw [if_neg (by simp)]
  refine Decodes.bind (Decodes.bits (by norm_num) hprofile) ?_
  refine Decodes.bind (decodes_constraintFlags p.constraints_length) ?_
  refine Decodes.bind (Decodes.bits (by norm_num) p.level_lt) ?_
  refine Decodes.bind (Decodes.golomb p.id_lt) ?_
  refine Decodes.bind (decodes_profileFields p) ?_
  rw [if_neg (by simp)]
  refine Decodes.bind (Decodes.golomb p.log2MaxFrameNum_lt) ?_
  refine Decodes.bind (decodes_picOrderCnt p.poc hheap) ?_
  rw [if_neg (by simp)]
  exact decodes_pictureSize p

end decodes

/-! ## The whole unit -/

theorem headerBits_length (refIdc : ℕ) : (SeqParameterSet.headerBits refIdc).length = 8 := by
  simp [SeqParameterSet.headerBits]

theorem nalBytes_eq (p : SeqParameterSet) (refIdc : ℕ) (h : escape 0 p.payload = p.payload) :
    p.nalBytes refIdc = packBytes ((SeqParameterSet.headerBits refIdc ++ p.sizeBits) ++
      (p.rest ++ trailing (p.sizeBits ++ p.rest))) := by
  have hbits : (SeqParameterSet.headerBits refIdc ++ p.sizeBits) ++
      (p.rest ++ trailing (p.sizeBits ++ p.rest)) = SeqParameterSet.headerBits refIdc ++
      ((p.sizeBits ++ p.rest) ++ trailing (p.sizeBits ++ p.rest)) := by
    simp only [List.append_assoc]
  rw [hbits, packBytes_cons (headerBits_length refIdc), SeqParameterSet.nalBytes, h]
  rfl

/-- A set that needs no emulation prevention is accepted from the bytes of its unit, whatever
lies behind them, and its size is stored. -/
theorem sps_size_read_back (p : SeqParameterSet) (refIdc heap : ℕ) (href : refIdc < 4)
    (hheap : p.poc.count ≤ heap) (hplain : escape 0 p.payload = p.payload) {s : Source}
    (hbytes : ∀ j < (p.nalBytes refIdc).length, s.byte j = (p.nalBytes refIdc).getD j 0)
    (hlength : (p.nalBytes refIdc).length ≤ s.length) (hlimit : s.length * 8 < 2 ^ 32) :
    (h264DecodeSeqParameterSet heap s).value =
      .size (toInt (16 * (p.width + 1))) (toInt (16 * (p.height + 1))) ∧
    (16 * (p.width + 1) < 2 ^ 31 → toInt (16 * (p.width + 1)) = 16 * (p.width + 1)) ∧
    (16 * (p.height + 1) < 2 ^ 31 → toInt (16 * (p.height + 1)) = 16 * (p.height + 1)) := by
  have hnal := nalBytes_eq p refIdc hplain
  have hsize := (rbsp_bits_length (p.sizeBits ++ p.rest)).2
  have hheader := headerBits_length refIdc
  rw [hnal] at hbytes hlength
  simp only [List.length_append] at hsize
  have hholds : Holds s 0 (SeqParameterSet.headerBits refIdc ++ p.sizeBits) := by
    refine holds_of_packed hbytes ?_ (by simp) ?_
    · simp only [packBytes_length, List.length_append]
      omega
    · rw [Source.limit, Nat.mod_eq_of_lt hlimit]
      omega
  obtain ⟨events, hexec⟩ := decodes_decodeSps p href hheap 0 hholds
  refine ⟨?_, fun h => ?_, fun h => ?_⟩
  · rw [h264DecodeSeqParameterSet, hexec, Nat.mul_comm, Nat.mul_comm 16 (p.height + 1)]
  · rw [toInt_of_lt h]
    push_cast
    ring
  · rw [toInt_of_lt h]
    push_cast
    ring

def highFields : HighFields where
  chroma := 1
  depth := 0
  bypass := false
  lists := some [none, none, none, none, none, none, some [-8], some [-8]]
  chroma_le := by norm_num
  depth_le := by norm_num
  lists_valid := by
    rintro ls ⟨rfl⟩
    simp [scalingCalls, ValidDeltas]

/-- A 1920x1088 set of the high profile with two scaling lists and three offsets. -/
def highSps : SeqParameterSet where
  profile := 100
  constraints := List.replicate 8 false
  level := 40
  id := 0
  high := some highFields
  log2MaxFrameNum := 0
  poc := .one true (-1) 2 [4, -3, 5] (by unfold InSe; norm_num) (by unfold InSe; norm_num)
    (by unfold InSe; decide) (by norm_num)
  numRefFrames := 4
  gaps := false
  width := 119
  height := 67
  rest := [true, true, false, false]
  profile_mem := by simp
  constraints_length := by simp
  level_lt := by norm_num
  id_lt := by norm_num
  high_iff := by simp
  log2MaxFrameNum_lt := by norm_num
  numRefFrames_lt := by norm_num
  width_lt := by norm_num
  height_lt := by norm_num

def highSource : Source where
  byte j := (highSps.nalBytes 3).getD j 0
  length := (highSps.nalBytes 3).length
  overshift _ := 0

theorem highSps_size_read_back :
    (h264DecodeSeqParameterSet 3 highSource).value = .size 1920 1088 := by
  obtain ⟨hvalue, hwidth, hheight⟩ := sps_size_read_back highSps 3 3 (by norm_num) (by decide)
    (by decide +kernel) (s := highSource) (fun _ _ => rfl) (le_refl _) (by decide +kernel)
  have hw : toInt (16 * (highSps.width + 1)) = 1920 := hwidth (by decide +kernel)
  have hh : toInt (16 * (highSps.height + 1)) = 1088 := hheight (by decide +kernel)
  rw [hvalue, hw, hh]

end Jagles.H264
