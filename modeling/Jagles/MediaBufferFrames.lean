import Jagles.MediaBuffer

set_option autoImplicit false
set_option linter.dupNamespace false

/-!
# Frames in the byte array

`Stored m a prevpos f` says that the frame `f` lies at offset `a` of `m` as
`WrtieBuffer` left it. A store establishes it at its own offset and keeps it
everywhere it does not reach.
-/
namespace Jagles.MediaBuffer
open ByteMemory

def span (f : Frame) : ℕ := hdrSize + padded f.pSize

def isKey (f : Frame) : Prop := f.pType = MB_FT_IFRAME

instance (f : Frame) : Decidable (isKey f) := inferInstanceAs (Decidable (f.pType = MB_FT_IFRAME))

def hdrOf (a prevpos : ℕ) (f : Frame) : BufHdr where
  flag := hdrFlag
  buftype := f.pType.toUInt32.toNat
  buflen := padded f.pSize
  timestamp := f.pTimestamp.toNat
  reallen := f.pSize
  playtime := f.pPlaytime.toNat
  enc := encField f.enc
  prevpos := prevpos
  nextpos := u32 (a + span f)

structure Stored (m : Memory) (a prevpos : ℕ) (f : Frame) : Prop where
  hdr : hdrAt m a = hdrOf a prevpos f
  payload : loadBytes m (a + hdrSize) f.pSize = f.pBuf

theorem encField_length (enc : Option (List UInt8)) : (encField enc).length = 8 := by
  have h : ((enc.getD []).take 5).length ≤ 5 := by simp
  simp only [encField, List.length_append, List.length_replicate]
  omega

theorem padded_bounds (n : ℕ) (h : n + 4 ≤ 2 ^ 32) :
    n ≤ padded n ∧ padded n ≤ n + 3 ∧ padded n % 4 = 0 := by
  unfold padded u32
  split <;> omega

theorem padded_lt (n : ℕ) (h : n < 2 ^ 32) : padded n < 256 ^ 4 := by
  unfold padded u32
  split <;> omega

theorem loadLE_storeLE_ne (m : Memory) {a n v b k : ℕ} (h : b + k ≤ a ∨ a + n ≤ b) :
    loadLE (storeLE m a n v) b k = loadLE m b k := loadLE_congr (storeLE_agree m h)

theorem loadLE_storeBytes_ne (m : Memory) {a b k : ℕ} {bs : List UInt8}
    (h : b + k ≤ a ∨ a + bs.length ≤ b) : loadLE (storeBytes m a bs) b k = loadLE m b k :=
  loadLE_congr (storeBytes_agree m h)

theorem loadBytes_storeLE_ne (m : Memory) {a n v b k : ℕ} (h : b + k ≤ a ∨ a + n ≤ b) :
    loadBytes (storeLE m a n v) b k = loadBytes m b k := loadBytes_congr (storeLE_agree m h)

theorem loadBytes_storeBytes_ne (m : Memory) {a b k : ℕ} {bs : List UInt8}
    (h : b + k ≤ a ∨ a + bs.length ≤ b) : loadBytes (storeBytes m a bs) b k = loadBytes m b k :=
  loadBytes_congr (storeBytes_agree m h)

theorem hdrAt_congr {m m' : Memory} {a : ℕ} (h : Agree m m' a hdrSize) :
    hdrAt m a = hdrAt m' a := by
  unfold hdrSize at h
  simp only [hdrAt, BufHdr.mk.injEq]
  refine ⟨?_, ?_, ?_, ?_, ?_, ?_, ?_, ?_, ?_⟩ <;>
    first
    | exact loadLE_congr (h.sub (by omega) (by omega))
    | exact loadBytes_congr (h.sub (by omega) (by omega))

theorem Stored.congr {m m' : Memory} {a prevpos : ℕ} {f : Frame} (h : Stored m a prevpos f)
    (same : Agree m' m a (hdrSize + f.pSize)) : Stored m' a prevpos f := by
  refine ⟨?_, ?_⟩
  · rw [hdrAt_congr (same.sub (by omega) (by omega)), h.hdr]
  · rw [loadBytes_congr (same.sub (by omega) (by omega)), h.payload]

/-- The stores of one call stay inside the header and the unpadded payload. -/
theorem storeFrame_agree (m : Memory) {a prevpos b k : ℕ} {f : Frame}
    (h : b + k ≤ a ∨ a + hdrSize + f.pSize ≤ b) : Agree (storeFrame m a prevpos f) m b k := by
  have he := encField_length f.enc
  unfold Frame.pSize hdrSize at h
  simp only [storeFrame, hdrSize]
  iterate 3 refine (storeLE_agree _ (by omega)).trans ?_
  iterate 2 refine (storeBytes_agree _ (by omega)).trans ?_
  iterate 5 refine (storeLE_agree _ (by omega)).trans ?_
  exact .refl _ _ _

theorem storeFrame_payload (m : Memory) {a prevpos b k : ℕ} {f : Frame}
    (h : a + hdrSize ≤ b) :
    Agree (storeFrame m a prevpos f) (storeBytes m (a + hdrSize) f.pBuf) b k := by
  have he := encField_length f.enc
  unfold hdrSize at h
  simp only [storeFrame, hdrSize]
  iterate 3 refine (storeLE_agree _ (by omega)).trans ?_
  refine Agree.storeBytes ?_ _ _
  refine (storeBytes_agree _ (by omega)).trans ?_
  iterate 5 refine (storeLE_agree _ (by omega)).trans ?_
  exact .refl _ _ _

theorem storeFrame_hdr (m : Memory) (a prevpos : ℕ) (f : Frame) (hp : prevpos < 256 ^ 4) :
    hdrAt (storeFrame m a prevpos f) a = hdrOf a prevpos f := by
  have he := encField_length f.enc
  have hn : u32 (a + span f) < 256 ^ 4 := Nat.mod_lt _ (by omega)
  have hb : padded f.pSize < 256 ^ 4 := padded_lt _ f.size_lt
  have hs : f.pSize < 256 ^ 4 := f.size_lt
  have ht : f.pType.toUInt32.toNat < 256 ^ 4 := UInt32.toNat_lt _
  have hy : f.pPlaytime.toNat < 256 ^ 4 := UInt32.toNat_lt _
  have hc : f.pTimestamp.toNat < 256 ^ 8 := UInt64.toNat_lt _
  have hf : hdrFlag < 256 ^ 4 := by decide
  simp only [hdrAt, hdrOf, storeFrame, hdrSize, span, BufHdr.mk.injEq, ← Nat.add_assoc]
  simp only [span, hdrSize, ← Nat.add_assoc] at hn
  refine ⟨?_, ?_, ?_, ?_, ?_, ?_, ?_, ?_, ?_⟩
  all_goals simp (disch := omega) only [loadLE_storeLE, loadLE_storeLE_ne, loadLE_storeBytes_ne,
    loadBytes_storeLE_ne, loadBytes_storeBytes_ne, loadBytes_storeBytes]

theorem storeFrame_stored (m : Memory) (a prevpos : ℕ) (f : Frame) (hp : prevpos < 256 ^ 4) :
    Stored (storeFrame m a prevpos f) a prevpos f := by
  refine ⟨storeFrame_hdr m a prevpos f hp, ?_⟩
  have he := encField_length f.enc
  simp only [storeFrame, hdrSize]
  simp (disch := omega) only [loadBytes_storeLE_ne]
  exact loadBytes_storeBytes _ _ rfl

/-- An encoding name of at most five characters survives `strncpy` and `strcpy`. -/
theorem encField_takeWhile {f : Frame} (h : (f.enc.getD []).length ≤ 5) :
    (encField f.enc).takeWhile (· ≠ 0) = f.enc.getD [] := by
  have nonzero : ∀ b ∈ f.enc.getD [], decide (b ≠ 0) = true := by
    intro b hb
    cases he : f.enc with
    | none => simp [he] at hb
    | some e =>
      simp only [he, Option.getD_some] at hb
      simpa using f.enc_nonzero e (by simp [he]) b hb
  unfold encField
  rw [List.take_of_length_le h, List.takeWhile_append_of_pos nonzero]
  have tail : (List.replicate (8 - (f.enc.getD []).length) (0 : UInt8)).takeWhile (· ≠ 0) = [] := by
    cases 8 - (f.enc.getD []).length with
    | zero => rfl
    | succ n => simp [List.replicate_succ]
  rw [tail, List.append_nil]

end Jagles.MediaBuffer
