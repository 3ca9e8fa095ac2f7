import Jagles.H265Scan
import Jagles.NalUnits

set_option autoImplicit false
set_option linter.dupNamespace false

/-!
# A sequence parameter set read back by `H265GetWidthHeight`

The set is written field by field as the standard lays it out, closed and padded, guarded
against start codes and put behind other units into a byte stream.
-/
namespace Jagles.H265
open BitPrograms NalUnits

/-- The profile and the level of a sub-layer, where they are present. -/
structure SubLayer where
  profile : Option (List Bool)
  level : Option (List Bool)
  profile_length : ∀ bs ∈ profile, bs.length = 88
  level_length : ∀ bs ∈ level, bs.length = 8

def SubLayer.flags (l : SubLayer) : List Bool := [l.profile.isSome, l.level.isSome]

def SubLayer.data (l : SubLayer) : List Bool := l.profile.getD [] ++ l.level.getD []

/-- A sequence parameter set with `chroma_format_idc` 1; `general` is the profile, tier and
level of the whole and `rest` what follows the size. -/
structure SeqParameterSet where
  vpsId : ℕ
  nesting : Bool
  general : List Bool
  subLayers : List SubLayer
  spsId : ℕ
  width : ℕ
  height : ℕ
  rest : List Bool
  vpsId_lt : vpsId < 16
  general_length : general.length = 96
  subLayers_le : subLayers.length ≤ 6
  spsId_lt : spsId < 16
  width_lt : width + 1 < 2 ^ 32
  height_lt : height + 1 < 2 ^ 32

namespace SeqParameterSet

variable (p : SeqParameterSet)

/-- Two reserved bits for each sub-layer that could still be there. -/
def reserved : List Bool :=
  if p.subLayers.length > 0 then List.replicate (2 * (8 - p.subLayers.length)) false else []

def profileBits : List Bool :=
  p.general ++ (p.subLayers.flatMap SubLayer.flags ++
    (p.reserved ++ p.subLayers.flatMap SubLayer.data))

/-- The fields up to the size. -/
def sizeBits : List Bool :=
  toBits 4 p.vpsId ++ (toBits 3 p.subLayers.length ++ ([p.nesting] ++ (p.profileBits ++
    (golombBits p.spsId ++ (golombBits 1 ++ (golombBits p.width ++ golombBits p.height))))))

def payload : List UInt8 := rbsp (p.sizeBits ++ p.rest)

end SeqParameterSet

section decodes

variable {s : Source}

theorem decodes_skipBits {bs : List Bool} {count : ℕ} (h : bs.length = count) :
    Decodes s (skipBits count) bs () := by
  subst h
  exact Decodes.skip bs

theorem decodes_skipPresent {data : Option (List Bool)} {count : ℕ}
    (h : ∀ bs ∈ data, bs.length = count) :
    Decodes s (skipPresent data.isSome.toNat count) (data.getD []) () := by
  cases data with
  | none => exact Decodes.done ()
  | some bs => exact decodes_skipBits (h bs rfl)

theorem decodes_subLayerFlags (layers : List SubLayer) :
    Decodes s (subLayerFlags layers.length) (layers.flatMap SubLayer.flags)
      (layers.map fun l => (l.profile.isSome.toNat, l.level.isSome.toNat)) := by
  induction layers with
  | nil => exact Decodes.done []
  | cons l layers ih =>
    change Decodes s _ ([l.profile.isSome] ++
      ([l.level.isSome] ++ layers.flatMap SubLayer.flags)) _
    refine Decodes.bind (Decodes.flag l.profile.isSome) ?_
    refine Decodes.bind (Decodes.flag l.level.isSome) ?_
    exact ih.map fun rest => (l.profile.isSome.toNat, l.level.isSome.toNat) :: rest

theorem decodes_skipPairs (count : ℕ) {bs : List Bool} (h : bs.length = 2 * count) :
    Decodes s (skipPairs count) bs () := by
  induction count generalizing bs with
  | zero =>
    obtain rfl := List.eq_nil_of_length_eq_zero h
    exact Decodes.done ()
  | succ count ih =>
    rw [← List.take_append_drop 2 bs]
    exact Decodes.bind (decodes_skipBits (by simp; omega)) (ih (by simp; omega))

theorem decodes_skipReserved (p : SeqParameterSet) :
    Decodes s (skipReserved p.subLayers.length) p.reserved () := by
  unfold skipReserved SeqParameterSet.reserved
  split
  · exact decodes_skipPairs _ (by simp)
  · exact Decodes.done ()

theorem decodes_skipSubLayers (layers : List SubLayer) :
    Decodes s (skipSubLayers (layers.map fun l =>
      (l.profile.isSome.toNat, l.level.isSome.toNat))) (layers.flatMap SubLayer.data) () := by
  induction layers with
  | nil => exact Decodes.done ()
  | cons l layers ih =>
    rw [List.flatMap_cons, SubLayer.data, List.append_assoc]
    refine Decodes.bind (decodes_skipPresent l.profile_length) ?_
    exact Decodes.bind (decodes_skipPresent l.level_length) ih

theorem decodes_profileTierLevel (p : SeqParameterSet) :
    Decodes s (profileTierLevel (p.subLayers.length + 1)) p.profileBits () :=
  (decodes_skipBits p.general_length).bind ((decodes_subLayerFlags p.subLayers).bind
    ((decodes_skipReserved p).bind (decodes_skipSubLayers p.subLayers)))

/-- The parser reads every field where it was written and stores the size. -/
theorem decodes_spsD (p : SeqParameterSet) :
    Decodes s spsD p.sizeBits (some (toInt p.width, toInt p.height)) := by
  have hvps := p.vpsId_lt
  have hsub := p.subLayers_le
  have hsps := p.spsId_lt
  refine Decodes.bind (Decodes.bits (by norm_num) p.vpsId_lt) ?_
  rw [if_neg (by omega)]
  refine Decodes.bind (Decodes.bits (by norm_num) (show p.subLayers.length < 2 ^ 3 by omega)) ?_
  rw [if_neg (by omega)]
  refine Decodes.bind (Decodes.flag p.nesting) ?_
  refine Decodes.bind (decodes_profileTierLevel p) ?_
  refine Decodes.bind (Decodes.golomb (by omega)) ?_
  rw [if_neg (by omega)]
  refine Decodes.bind (Decodes.golomb (by norm_num)) ?_
  rw [if_neg (by norm_num)]
  rw [← List.nil_append (golombBits p.width ++ golombBits p.height)]
  refine Decodes.bind (Decodes.done 0) ?_
  refine Decodes.bind (Decodes.golomb p.width_lt) ?_
  exact (Decodes.golomb p.height_lt).map fun h => some (toInt p.width, toInt h)

end decodes

/-! ## The window -/

theorem data_length_le (layers : List SubLayer) :
    (layers.flatMap SubLayer.data).length ≤ 96 * layers.length := by
  induction layers with
  | nil => simp
  | cons l layers ih =>
    have hp : (l.profile.getD []).length ≤ 88 := by
      cases hl : l.profile with
      | none => simp
      | some bs => exact (l.profile_length bs hl).le
    have hv : (l.level.getD []).length ≤ 8 := by
      cases hl : l.level with
      | none => simp
      | some bs => exact (l.level_length bs hl).le
    simp only [List.flatMap_cons, List.length_append, SubLayer.data, List.length_cons]
    omega

/-- The fields up to the size take up at most 105 bytes. -/
theorem sizeBits_length_le (p : SeqParameterSet) : p.sizeBits.length ≤ 840 := by
  have hsub := p.subLayers_le
  have hflags : (p.subLayers.flatMap SubLayer.flags).length = 2 * p.subLayers.length := by
    simp [SubLayer.flags, List.length_flatMap, Nat.mul_comm]
  have hreserved : p.reserved.length + 2 * p.subLayers.length ≤ 16 := by
    unfold SeqParameterSet.reserved
    split
    · simp only [List.length_replicate]
      omega
    · simp only [List.length_nil]
      omega
  have hdata := data_length_le p.subLayers
  have hgeneral := p.general_length
  have hsps := golombBits_length_lt (show p.spsId + 1 < 2 ^ 5 by have := p.spsId_lt; omega)
  have hone := golombBits_length_lt (show 1 + 1 < 2 ^ 2 by norm_num)
  have hwidth := golombBits_length_lt p.width_lt
  have hheight := golombBits_length_lt p.height_lt
  simp only [SeqParameterSet.sizeBits, SeqParameterSet.profileBits, List.length_append,
    toBits_length, List.length_singleton, hflags]
  omega

/-- Of a guarded payload in the window, the loop writes at least the bytes it has room for. -/
theorem copyWindow_escape {stream : List UInt8} {buf : ℤ} {nDSize : ℕ} {bs post : List UInt8}
    (hlast : bs.getLast? ≠ some 0) {m fuel i : ℕ} (hm : m ≤ bs.length) (hfuel : m ≤ fuel)
    (hroom : i + 2 * m + 2 ≤ nDSize)
    (hbytes : ∀ j, i + j < nDSize →
      byteAt stream (buf + (i + j : ℕ)) = (escape 0 bs ++ post).getD j 0) :
    bs.take m <+: (copyWindow stream buf nDSize fuel i).1 := by
  induction fuel generalizing m i bs with
  | zero =>
    obtain rfl : m = 0 := by omega
    simp
  | succ fuel ih =>
    cases m with
    | zero => simp
    | succ m =>
      cases bs with
      | nil => simp at hm
      | cons b rest =>
        rw [copyWindow, if_pos (by omega)]
        by_cases hg : Guarded (b :: rest)
        · obtain ⟨c, rest, rfl, rfl, hc⟩ :
              ∃ c rest', b = 0 ∧ rest = 0 :: c :: rest' ∧ c ≤ 3 := by
            unfold Guarded at hg
            split at hg
            · rename_i c rest' heq
              obtain ⟨rfl, rfl⟩ := List.cons.inj heq
              exact ⟨c, rest', rfl, rfl, hg⟩
            · exact absurd hg id
          rw [escape_guarded hc] at hbytes
          have h0 : byteAt stream (buf + (i + 0 : ℕ)) = 0 := by rw [hbytes 0 (by omega)]; rfl
          have h1 : byteAt stream (buf + (i + 1 : ℕ)) = 0 := by rw [hbytes 1 (by omega)]; rfl
          have h2 : byteAt stream (buf + (i + 2 : ℕ)) = 3 := by rw [hbytes 2 (by omega)]; rfl
          rw [if_pos ⟨by omega, h0, h1, h2⟩]
          simp only [h0, h1]
          cases m with
          | zero => simp
          | succ m =>
            have hnext := ih (getLast?_tail (getLast?_tail hlast))
              (show m ≤ (c :: rest).length by simpa using hm) (by omega)
              (show i + 3 + 2 * m + 2 ≤ nDSize by omega) (by
                intro j hj
                rw [show i + 3 + j = i + (j + 3) by ring, hbytes (j + 3) (by omega)]
                rfl)
            obtain ⟨tail, heq⟩ := hnext
            exact ⟨tail, by simp [← heq]⟩
        · rw [escape_plain hg] at hbytes
          have h0 : byteAt stream (buf + (i + 0 : ℕ)) = b := by rw [hbytes 0 (by omega)]; rfl
          have htriple : ¬ (i + 2 < nDSize ∧ byteAt stream (buf + (i + 0 : ℕ)) = 0 ∧
              byteAt stream (buf + (i + 1 : ℕ)) = 0 ∧ byteAt stream (buf + (i + 2 : ℕ)) = 3) := by
            rintro ⟨-, hz, hz', hthree⟩
            rw [hbytes 1 (by omega)] at hz'
            rw [hbytes 2 (by omega)] at hthree
            exact escape_triple hlast hg ⟨h0.symm.trans hz, hz', hthree⟩
          rw [if_neg htriple]
          simp only [h0]
          have hnext := ih (getLast?_tail hlast) (show m ≤ rest.length by simpa using hm)
            (by omega) (show i + 1 + 2 * m + 2 ≤ nDSize by omega) (by
              intro j hj
              rw [show i + 1 + j = i + (j + 1) by ring, hbytes (j + 1) (by omega)]
              rfl)
          obtain ⟨tail, heq⟩ := hnext
          exact ⟨tail, by simp [← heq]⟩

theorem copyWindow_length (stream : List UInt8) (buf : ℤ) (nDSize fuel i : ℕ) :
    (copyWindow stream buf nDSize fuel i).1.length ≤ nDSize - i := by
  induction fuel generalizing i with
  | zero => simp [copyWindow]
  | succ fuel ih =>
    have h1 := ih (i + 1)
    have h3 := ih (i + 3)
    rw [copyWindow]
    by_cases hin : i < nDSize
    · rw [if_pos hin]
      dsimp only
      split
      · rename_i htriple
        have hroom := htriple.1
        simp only [List.length_cons]
        omega
      · simp only [List.length_cons]
        omega
    · simp [hin]

/-! ## The whole stream -/

/-- A stream with the set behind other units: zero bytes, the start code, the two bytes of
the header, the guarded payload and whatever comes after it. -/
structure SpsStream where
  units : List NalUnit
  zeros : ℕ
  header : UInt8
  header' : UInt8
  sps : SeqParameterSet
  post : List UInt8
  others : ∀ u ∈ units, nulUnitType u.header ≠ 33
  type : nulUnitType header = 33
  room : 256 ≤ (escape 0 sps.payload ++ post).length

namespace SpsStream

variable (t : SpsStream)

def tail : List UInt8 := escape 0 t.sps.payload ++ t.post

def rest : List UInt8 :=
  List.replicate (t.zeros + 2) 0 ++ [1] ++ t.header :: t.header' :: t.tail

def stream : List UInt8 := byteStream t.units ++ t.rest

/-- The offset of the header of the set. -/
def start : ℕ := (byteStream t.units).length + (t.zeros + 3)

theorem stream_length : t.stream.length = t.start + 2 + t.tail.length := by
  simp only [stream, rest, start, List.length_append, List.length_replicate, List.length_cons,
    List.length_nil]
  omega

theorem getElem?_start (j : ℕ) : t.stream[t.start + j]? = (t.header :: t.header' :: t.tail)[j]? := by
  rw [stream, List.getElem?_append_right (by unfold start; omega), rest,
    List.getElem?_append_right (by simp [start]; omega)]
  congr 1
  simp only [start, List.length_append, List.length_replicate, List.length_cons, List.length_nil]
  omega

theorem byteAt_natCast (xs : List UInt8) (j : ℕ) : byteAt xs j = (xs[j]?).getD 0 := by
  simp [byteAt, List.getD_eq_getElem?_getD]

theorem startsAt_start : StartsAt t.stream t.start := by
  have hget : ∀ j < t.zeros + 3, t.stream[(byteStream t.units).length + j]? =
      some (if j = t.zeros + 2 then 1 else 0) := by
    intro j hj
    rw [stream, List.getElem?_append_right (by omega), Nat.add_sub_cancel_left, rest,
      List.getElem?_append_left (by simp; omega)]
    by_cases hlast : j = t.zeros + 2
    · rw [List.getElem?_append_right (by simp; omega)]
      simp [hlast]
    · rw [List.getElem?_append_left (by simp; omega), List.getElem?_replicate,
        if_pos (by omega), if_neg hlast]
  have hbyte : ∀ j < t.zeros + 3, ∀ i : ℤ, i = ((byteStream t.units).length + j : ℕ) →
      byteAt t.stream i = if j = t.zeros + 2 then 1 else 0 := by
    rintro j hj _ rfl
    rw [byteAt_natCast, hget j hj]
    rfl
  refine ⟨by simp only [start]; omega, ?_, ?_, ?_⟩
  · rw [hbyte t.zeros (by omega) _ (by simp only [start]; omega), if_neg (by omega)]
  · rw [hbyte (t.zeros + 1) (by omega) _ (by simp only [start]; omega), if_neg (by omega)]
  · rw [hbyte (t.zeros + 2) (by omega) _ (by simp only [start]; omega), if_pos rfl]

theorem spsAt_start : SpsAt t.stream t.start where
  toStartsAt := t.startsAt_start
  type := by
    have hget := t.getElem?_start 0
    rw [Nat.add_zero] at hget
    rw [byteAt_natCast, hget]
    exact t.type
  room := by
    have hroom : 256 ≤ t.tail.length := t.room
    have hlen := t.stream_length
    unfold bufEnd
    omega

/-- A start code of the stream, as the units have it. -/
theorem startCode_of_startsAt {xs : List UInt8} {j : ℕ} (h : StartsAt xs j) (hj : j ≤ xs.length) :
    StartCode xs j := by
  have hle := h.le
  have hget : ∀ i : ℕ, 0 < i → i ≤ 3 → xs[j - i]? = some (byteAt xs ((j : ℤ) - i)) := by
    intro i hpos hi
    rw [show ((j : ℤ) - i) = ((j - i : ℕ) : ℤ) by omega, byteAt_natCast,
      List.getElem?_eq_getElem (show j - i < xs.length by omega)]
    rfl
  refine ⟨by omega, ?_, ?_, ?_⟩
  · rw [hget 3 (by norm_num) (by norm_num), ← h.zero]; rfl
  · rw [hget 2 (by norm_num) (by norm_num), ← h.zero']; rfl
  · rw [hget 1 (by norm_num) (by norm_num), ← h.one]; rfl

/-- Every unit before the set is of another type. -/
theorem isLeast_start : IsLeast {k | SpsAt t.stream k} (t.start : ℤ) := by
  refine ⟨t.spsAt_start, fun k hk => ?_⟩
  have hle := hk.le
  obtain ⟨j, rfl⟩ : ∃ j : ℕ, k = j := ⟨k.toNat, by omega⟩
  by_contra hlt
  have hlen := t.stream_length
  have hcode := startCode_of_startsAt hk.toStartsAt (by omega)
  by_cases hin : j < (byteStream t.units).length + 3
  · have hzeros : ZerosFirst t.rest := by
      unfold rest
      rw [List.append_assoc]
      exact zerosFirst_replicate _ _
    obtain ⟨u, hu, hget⟩ := byteStream_startCode t.units hzeros hcode hin
    have htype := hk.type
    rw [byteAt_natCast, stream, hget] at htype
    exact t.others u hu htype
  · have hright := startCode_lead (StartCode.right hcode (by omega))
    simp only [start] at hlt
    omega

theorem findSps_stream {fuel : ℕ} (hfuel : t.stream.length < fuel) :
    ∃ reads, findSps t.stream fuel = some ⟨some t.start, reads⟩ := by
  obtain ⟨⟨nal, reads⟩, heq, hsome, hnone, -⟩ := findSps_spec t.stream hfuel
  cases nal with
  | none => exact absurd t.spsAt_start (hnone rfl t.start)
  | some k =>
    rw [(hsome k rfl).unique t.isLeast_start] at heq
    exact ⟨reads, heq⟩

/-- What is written to `dBuffer` begins with the bytes the parser needs. -/
theorem holds_dBuffer (stack : ℕ → UInt8) (overshift : ℕ → ℕ) :
    Holds (dBufferSource stack overshift (copyWindow t.stream t.start 256 256 2).1) 0
      t.sps.sizeBits := by
  have hsize := sizeBits_length_le t.sps
  have hroom : 256 ≤ t.tail.length := t.room
  set m := (t.sps.sizeBits.length + 7) / 8 with hm
  have hpayload : t.sps.payload.length = (t.sps.sizeBits.length + t.sps.rest.length) / 8 + 1 := by
    rw [SeqParameterSet.payload, rbsp, packBytes_length, (rbsp_bits_length _).1,
      List.length_append]
  have hwindow : ∀ j, 2 + j < 256 → byteAt t.stream ((t.start : ℤ) + ((2 + j : ℕ) : ℤ)) =
      (escape 0 t.sps.payload ++ t.post).getD j 0 := by
    intro j hj
    have hget := t.getElem?_start (2 + j)
    rw [show (t.start : ℤ) + ((2 + j : ℕ) : ℤ) = ((t.start + (2 + j) : ℕ) : ℤ) by push_cast; ring,
      byteAt_natCast, hget, List.getD_eq_getElem?_getD, show 2 + j = j + 2 by ring]
    rfl
  have hlast : t.sps.payload.getLast? ≠ some 0 := rbsp_last _
  have hprefix : t.sps.payload.take m <+: (copyWindow t.stream t.start 256 256 2).1 :=
    copyWindow_escape hlast (by omega) (by omega) (by omega) hwindow
  obtain ⟨more, hmore⟩ := hprefix
  have hlength := copyWindow_length t.stream t.start 256 256 2
  have hlower : m ≤ (copyWindow t.stream t.start 256 256 2).1.length := by
    rw [← hmore, List.length_append, List.length_take]
    omega
  have hbytes : ∀ j < m,
      (dBufferSource stack overshift (copyWindow t.stream t.start 256 256 2).1).byte j =
      (packBytes (t.sps.sizeBits ++
        (t.sps.rest ++ trailing (t.sps.sizeBits ++ t.sps.rest)))).getD j 0 := by
    intro j hj
    rw [← List.append_assoc]
    change ((copyWindow t.stream t.start 256 256 2).1[j]?).getD (stack j) =
      t.sps.payload.getD j 0
    rw [← hmore, List.getElem?_append_left (by rw [List.length_take]; omega),
      List.getElem?_take_of_lt hj, List.getD_eq_getElem?_getD,
      List.getElem?_eq_getElem (show j < t.sps.payload.length by omega)]
    rfl
  refine holds_of_packed hbytes (by omega) ?_ ?_
  · rw [← List.append_assoc, (rbsp_bits_length _).1, List.length_append]
    omega
  · simp only [Source.limit, dBufferSource]
    omega

end SpsStream

/-- A set behind units of other types, with 256 bytes or more behind its header, is found
and its size is stored. -/
theorem sps_round_trip (t : SpsStream) (stack : ℕ → UInt8) (overshift : ℕ → ℕ) {fuel : ℕ}
    (hfuel : t.stream.length < fuel) :
    ∃ call, h265GetWidthHeight t.stream stack overshift fuel = some call ∧ call.ret = 0 ∧
      call.size = some (toInt t.sps.width, toInt t.sps.height) ∧
      (t.sps.width < 2 ^ 31 → toInt t.sps.width = t.sps.width) ∧
      (t.sps.height < 2 ^ 31 → toInt t.sps.height = t.sps.height) := by
  obtain ⟨reads, hfind⟩ := t.findSps_stream hfuel
  obtain ⟨events, hexec⟩ := decodes_spsD t.sps 0 (t.holds_dBuffer stack overshift)
  have hroom : 256 ≤ t.tail.length := t.room
  have hlen := t.stream_length
  have hsrc : (bufEnd t.stream - t.start).toNat > 256 := by
    unfold bufEnd
    omega
  refine ⟨⟨0, some (toInt t.sps.width, toInt t.sps.height),
    reads ++ (copyWindow t.stream t.start 256 256 2).2,
    (copyWindow t.stream t.start 256 256 2).1, events⟩, ?_, rfl, rfl, toInt_of_lt, toInt_of_lt⟩
  simp only [h265GetWidthHeight, hfind, Option.bind_eq_bind, Option.bind_some, if_pos hsrc, hexec]
  rfl

def vpsUnit : NalUnit where
  zeros := 1
  header := 0x40
  body := [1, 12]
  plain := by
    intro j h
    have hlt := (List.getElem?_eq_some_iff.mp h.one).1
    have hle := h.le
    simp only [List.length_cons, List.length_nil] at hlt
    obtain rfl : j = 3 := by omega
    exact absurd h.zero (by decide)

def fullHdSps : SeqParameterSet where
  vpsId := 0
  nesting := true
  general := List.replicate 96 false
  subLayers := [⟨some (List.replicate 88 true), none, by simp, by simp⟩]
  spsId := 0
  width := 1920
  height := 1080
  rest := []
  vpsId_lt := by norm_num
  general_length := by simp
  subLayers_le := by simp
  spsId_lt := by norm_num
  width_lt := by norm_num
  height_lt := by norm_num

/-- A video parameter set and a 1920x1080 sequence parameter set with one sub-layer. -/
def fullHd : SpsStream where
  units := [vpsUnit]
  zeros := 1
  header := 0x42
  header' := 1
  sps := fullHdSps
  post := List.replicate 256 0
  others := by decide
  type := by decide
  room := by
    rw [List.length_append, List.length_replicate]
    exact Nat.le_add_left _ _

theorem sps_round_trip_fullHd : ∃ call, h265GetWidthHeight fullHd.stream (fun _ => 0) (fun _ => 0)
    (fullHd.stream.length + 1) = some call ∧ call.ret = 0 ∧ call.size = some (1920, 1080) := by
  obtain ⟨call, heq, hret, hsize, hwidth, hheight⟩ :=
    sps_round_trip fullHd (fun _ => 0) (fun _ => 0) (Nat.lt_add_one fullHd.stream.length)
  have hw : toInt fullHd.sps.width = 1920 := hwidth (show 1920 < 2 ^ 31 by norm_num)
  have hh : toInt fullHd.sps.height = 1080 := hheight (show 1080 < 2 ^ 31 by norm_num)
  rw [hw, hh] at hsize
  exact ⟨call, heq, hret, hsize⟩

end Jagles.H265
