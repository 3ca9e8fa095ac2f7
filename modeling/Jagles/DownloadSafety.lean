import Jagles.DownloadStream

set_option autoImplicit false
set_option linter.dupNamespace false

/-!
# What a download touches in its pool

The sizes in the messages come from the device, and the callback appends what it is
given. Every access stays inside the pool and inside the message exactly when each
chunk fits what is left of the pool and each message holds what its sizes announce.
-/
namespace Jagles.Download
open ByteMemory GuardedRuns

/-- An `int` keeps 32 bits of a sum. -/
def wrapInt (z : ℤ) : ℤ := (z + 2 ^ 31) % 2 ^ 32 - 2 ^ 31

/-- `size` bytes from `offset` on. -/
structure Range where
  offset : ℤ
  size : ℤ

def Range.Inside (n : ℤ) (r : Range) : Prop := 0 ≤ r.offset ∧ r.offset + r.size ≤ n

namespace ConnectManager
variable (s : ConnectManager)

def lfileType : ℕ := ntohl s.mDownloadDataPool 0

def lDataSize : ℤ := asInt (ntohl s.mDownloadDataPool 4)

def mixLen : ℤ := wrapInt (minLen + s.lDataSize)

def ffFileSize : ℕ := ntohl s.mDownloadDataPool (minLen + 4)

/-- `mDownloadDataPoolSize = (int) moveSize` -/
def moveSize : ℤ := wrapInt (s.mDownloadDataPoolSize - s.mixLen)

def isFrame : Prop :=
  s.lfileType = JA_DEV_FILE_TYPE_IMAGE_JPG ∨ s.lfileType = JA_DEV_FILE_TYPE_IMAGE_PNG ∨
    s.lfileType = JA_DEV_FILE_TYPE_VIDEO_MOV ∨ s.lfileType = JA_DEV_FILE_TYPE_VIDEO_MP4

instance : Decidable s.isFrame := inferInstanceAs (Decidable (_ ∨ _))

/-- What the thread reads of a message behind its header: the items of a list, or the
header of a frame and the bytes given to `fwrite`. -/
def bodyRanges : List Range :=
  if s.lfileType = JA_DEV_FILE_TYPE_LIST then
    (List.range ((s.lDataSize % 2 ^ 32).toNat / itemSize)).map fun i : ℕ =>
      ⟨minLen + itemSize * i, itemSize⟩
  else if s.isFrame then [⟨minLen, 16⟩, ⟨minLen + 16, s.ffFileSize⟩]
  else []

/-- The header, the body of a message that counts as whole, and the move of what is
behind it stay inside the pool, and the pool shrinks by the message. -/
structure SafeMessage : Prop where
  header : Range.Inside s.mDownloadDataPoolSize ⟨0, minLen⟩
  body : s.mixLen ≤ s.mDownloadDataPoolSize → ∀ r ∈ s.bodyRanges,
    r.Inside s.mDownloadDataPoolSize ∧ r.Inside (minLen + s.lDataSize)
  moved : s.mixLen ≤ s.mDownloadDataPoolSize →
    Range.Inside s.mDownloadDataPoolSize ⟨s.mixLen, s.mDownloadDataPoolSize - s.mixLen⟩
  shrinks : s.mixLen ≤ s.mDownloadDataPoolSize →
    s.moveSize = s.mDownloadDataPoolSize - (minLen + s.lDataSize) ∧
      (minLen : ℤ) ≤ minLen + s.lDataSize

/-- The chunk is copied into the pool; the thread stays inside it; and the size does
not leave the pool. -/
def Safe : Act → Prop
  | .deliver data => s.mIsDownloading = true → s.mDownloadDataPoolSize + data.length ≤ poolSize
  | .thread short => (s.pc = .locked → s.SafeMessage) ∧
      ∀ t, s.doDownloadThread short = some t → t.mDownloadDataPoolSize ≤ poolSize

/-- A chunk fits what is left of the pool. The size of a message is not negative and
leaves room for the header in an `int`, and a whole frame is as long as its own size says. -/
def Meets : Act → Prop
  | .deliver data => s.mIsDownloading = true → s.mDownloadDataPoolSize + data.length ≤ poolSize
  | .thread _ => s.pc = .locked → 0 ≤ s.lDataSize ∧ s.lDataSize + minLen < 2 ^ 31 ∧
      (minLen + s.lDataSize ≤ s.mDownloadDataPoolSize → s.isFrame → 16 + s.ffFileSize ≤ s.lDataSize)

/-- The size is that of a pool, and the thread takes the lock only for a whole header. -/
structure Sized : Prop where
  size : s.mDownloadDataPoolSize ≤ poolSize
  header : s.pc = .locked → minLen ≤ s.mDownloadDataPoolSize

theorem isFrame_not_list {s : ConnectManager} (h : s.isFrame) :
    s.lfileType ≠ JA_DEV_FILE_TYPE_LIST := by
  unfold isFrame at h
  unfold JA_DEV_FILE_TYPE_IMAGE_JPG JA_DEV_FILE_TYPE_IMAGE_PNG JA_DEV_FILE_TYPE_VIDEO_MOV
    JA_DEV_FILE_TYPE_VIDEO_MP4 at h
  unfold JA_DEV_FILE_TYPE_LIST
  omega

theorem lDataSize_bounds : -2 ^ 31 ≤ s.lDataSize ∧ s.lDataSize < 2 ^ 31 := by
  unfold lDataSize asInt
  omega

variable {s}

theorem SafeMessage.meets (h : s.SafeMessage) : 0 ≤ s.lDataSize ∧ s.lDataSize + minLen < 2 ^ 31 ∧
    (minLen + s.lDataSize ≤ s.mDownloadDataPoolSize → s.isFrame →
      16 + s.ffFileSize ≤ s.lDataSize) := by
  have hd := s.lDataSize_bounds
  have h8 : minLen = 8 := rfl
  have hmix : s.mixLen = wrapInt (minLen + s.lDataSize) := rfl
  unfold wrapInt at hmix
  obtain ⟨-, hhead⟩ := h.header
  simp only at hhead
  have hneg : 0 ≤ s.lDataSize := by
    by_contra hneg
    obtain ⟨-, hge⟩ := h.shrinks (by omega)
    omega
  have hroom : s.lDataSize + minLen < 2 ^ 31 := by
    by_contra hroom
    obtain ⟨hlow, -⟩ := h.moved (by omega)
    simp only at hlow
    omega
  refine ⟨hneg, hroom, fun hwhole hframe => ?_⟩
  have hranges : s.bodyRanges = [⟨minLen, 16⟩, ⟨minLen + 16, s.ffFileSize⟩] := by
    unfold bodyRanges
    rw [if_neg (isFrame_not_list hframe), if_pos hframe]
  obtain ⟨-, -, hin⟩ := h.body (by omega) ⟨minLen + 16, s.ffFileSize⟩ (by simp [hranges])
  simp only at hin
  omega

/-- The items of a list lie in it, and so does a frame that is as long as it says. -/
theorem bodyRanges_inside (hneg : 0 ≤ s.lDataSize)
    (hframe : s.isFrame → 16 + s.ffFileSize ≤ s.lDataSize) {r : Range} (hr : r ∈ s.bodyRanges) :
    r.Inside (minLen + s.lDataSize) := by
  have hd := s.lDataSize_bounds
  have h8 : minLen = 8 := rfl
  have hitem : itemSize = 284 := rfl
  unfold bodyRanges at hr
  unfold Range.Inside
  split at hr
  · obtain ⟨i, hi, rfl⟩ := List.mem_map.mp hr
    have hlt := List.mem_range.mp hi
    rw [hitem] at hlt ⊢
    simp only
    omega
  · split at hr
    · rename_i hf
      have hlong := hframe hf
      simp only [List.mem_cons, List.not_mem_nil, or_false] at hr
      rcases hr with rfl | rfl
      · simp only
        omega
      · simp only
        omega
    · cases hr

theorem safeMessage_of_meets (hs : s.Sized) (hpc : s.pc = .locked) (hneg : 0 ≤ s.lDataSize)
    (hroom : s.lDataSize + minLen < 2 ^ 31)
    (hframe : minLen + s.lDataSize ≤ s.mDownloadDataPoolSize → s.isFrame →
      16 + s.ffFileSize ≤ s.lDataSize) : s.SafeMessage := by
  have hhead := hs.header hpc
  have hsize := hs.size
  have h8 : minLen = 8 := rfl
  have hpool : poolSize = 2097152 := rfl
  have hmix : s.mixLen = minLen + s.lDataSize := by
    unfold mixLen wrapInt
    omega
  have hmove : s.moveSize = wrapInt (s.mDownloadDataPoolSize - s.mixLen) := rfl
  unfold wrapInt at hmove
  refine ⟨⟨le_refl _, ?_⟩, fun hwhole r hr => ?_, fun hwhole => ⟨?_, ?_⟩, fun hwhole => ⟨?_, ?_⟩⟩
  · simp only
    omega
  · have hin := bodyRanges_inside hneg (hframe (by omega)) hr
    exact ⟨⟨hin.1, by have := hin.2; omega⟩, hin⟩
  · simp only
    omega
  · simp only
    omega
  · omega
  · omega

theorem list_size (d : ℤ) : (s.list d).mDownloadDataPoolSize = s.mDownloadDataPoolSize := rfl

theorem frame_size {short : Option ℕ} {t : ConnectManager} (h : s.frame short = some t) :
    t.mDownloadDataPoolSize = s.mDownloadDataPoolSize := by
  obtain ⟨written, -, rfl⟩ := Option.map_eq_some_iff.mp h
  split <;> rfl

theorem message_size {n : ℕ} {d : ℤ} {short : Option ℕ} {t : ConnectManager}
    (h : s.message n d short = some t) : t.mDownloadDataPoolSize = s.mDownloadDataPoolSize := by
  unfold message at h
  split at h
  · obtain rfl := Option.some.inj h
    exact list_size d
  · split at h
    · exact frame_size h
    · obtain rfl := Option.some.inj h
      rfl

/-- A step of the thread leaves a pool that is no larger, and only with the lock does
it look at a message. -/
theorem doDownloadThread_size {short : Option ℕ} {t : ConnectManager}
    (hmeets : s.Meets (.thread short)) (h : s.doDownloadThread short = some t) :
    t.mDownloadDataPoolSize ≤ s.mDownloadDataPoolSize ∧
      (t.pc = .locked → minLen ≤ t.mDownloadDataPoolSize) := by
  unfold doDownloadThread at h
  split at h
  · obtain rfl := Option.some.inj h
    refine ⟨le_refl _, fun hpc => ?_⟩
    simp only at hpc ⊢
    split at hpc
    · cases hpc
    · omega
  · rename_i hpc
    obtain ⟨hneg, -, -⟩ := hmeets hpc
    unfold locked at h
    simp only at h
    split at h
    · obtain rfl := Option.some.inj h
      exact ⟨le_refl _, (fun hl => nomatch hl)⟩
    · obtain ⟨u, hu, rfl⟩ := Option.map_eq_some_iff.mp h
      have hsame := message_size hu
      refine ⟨?_, (fun hl => nomatch hl)⟩
      have hd : s.lDataSize = asInt (ntohl s.mDownloadDataPool 4) := rfl
      rw [hd] at hneg
      simp only [shift, hsame]
      omega
  · split at h
    · obtain rfl := Option.some.inj h
      exact ⟨le_refl _, (fun hl => nomatch hl)⟩
    · obtain rfl := Option.some.inj h
      exact ⟨Nat.zero_le _, (fun hl => nomatch hl)⟩
  · rename_i hpc
    obtain rfl := Option.some.inj h
    refine ⟨le_refl _, fun hl => ?_⟩
    rw [hpc] at hl
    cases hl

theorem Sized.step (hs : s.Sized) {a : Act} (hmeets : s.Meets a) {t : ConnectManager}
    (h : s.step a = some t) : t.Sized := by
  cases a with
  | deliver data =>
    obtain rfl := Option.some.inj h
    unfold doOnFileDownloadCallback
    split
    · rename_i hon
      exact ⟨hmeets hon, fun hpc => (hs.header hpc).trans (Nat.le_add_right _ _)⟩
    · exact hs
  | thread short =>
    obtain ⟨hle, hhead⟩ := doDownloadThread_size hmeets h
    exact ⟨hle.trans hs.size, hhead⟩

theorem Sized.safe_iff (hs : s.Sized) (a : Act) : s.Safe a ↔ s.Meets a := by
  cases a with
  | deliver data => exact Iff.rfl
  | thread short =>
    refine ⟨fun h hpc => (h.1 hpc).meets, fun h => ⟨fun hpc => ?_, fun t ht => ?_⟩⟩
    · obtain ⟨hneg, hroom, hframe⟩ := h hpc
      exact safeMessage_of_meets hs hpc hneg hroom hframe
    · exact (doDownloadThread_size h ht).1.trans hs.size

theorem Sized.start (f : Option (List UInt8)) : (ConnectManager.start f).Sized :=
  ⟨Nat.zero_le _, (fun hpc => nomatch hpc)⟩

end ConnectManager

/-- For every byte stream and every way to cut it and to interleave it with the thread:
every step of a run is safe exactly when every step meets the condition. -/
theorem pool_accesses_safe_iff (f : Option (List UInt8)) (ls : List Act) (s : ConnectManager) :
    Run ConnectManager.step ConnectManager.Safe (.start f) ls s ↔
      Run ConnectManager.step ConnectManager.Meets (.start f) ls s :=
  Run.guarded_iff ConnectManager.Sized
    (fun _ a _ hs h hstep => hs.step ((hs.safe_iff a).mp h) hstep)
    (fun _ a _ hs _ => hs.safe_iff a) (.start f)

/-- A frame of 100 bytes announced in a message of 16. -/
def shortFrame : List UInt8 :=
  bytesBE 4 JA_DEV_FILE_TYPE_VIDEO_MP4 ++ bytesBE 4 16 ++ bytesBE 4 0 ++ bytesBE 4 100 ++
    bytesBE 4 0 ++ bytesBE 4 0

/-- The device chooses how many bytes behind its message go to the file. -/
theorem pool_accesses_not_safe : ¬ ∀ (f : Option (List UInt8)) (ls : List Act) (s : ConnectManager)
    (a : Act), Run ConnectManager.step (fun _ _ => True) (.start f) ls s → s.Safe a := by
  intro claim
  obtain ⟨s, run, hpc, hwhole, hframe, hshort⟩ : ∃ s : ConnectManager,
      Run ConnectManager.step (fun _ _ => True) (.start (some [])) [.deliver shortFrame, .thread none] s ∧
      (s.pc = .locked ∧ minLen + s.lDataSize ≤ s.mDownloadDataPoolSize ∧ s.isFrame ∧
        ¬ 16 + s.ffFileSize ≤ s.lDataSize) :=
    exists_run (by decide +kernel)
  obtain ⟨-, -, hfits⟩ := ((claim _ _ s (.thread none) run).1 hpc).meets
  exact hshort (hfits hwhole hframe)

end Jagles.Download
