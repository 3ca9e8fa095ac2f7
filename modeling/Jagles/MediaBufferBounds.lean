import Jagles.MediaBufferKeyFrames

set_option autoImplicit false
set_option linter.dupNamespace false

/-!
# Accesses outside the buffer

A write stays inside the buffer exactly when its frame fits. A read dereferences
headers where the links and the stored offsets take it: inside the buffer as
long as it is at a whole header, or the links lead from frame to frame.
-/
namespace Jagles.MediaBuffer
open ByteMemory GuardedRuns LinkChains

/-- The stores of one `WrtieBuffer` call into the byte array, in its order. -/
def frameStores (a prevpos : ℕ) (f : Frame) : List (ℕ × List UInt8) :=
  [(a, bytesLE 4 hdrFlag), (a + 4, bytesLE 4 f.pType.toUInt32.toNat),
    (a + 16, bytesLE 8 f.pTimestamp.toNat), (a + 28, bytesLE 4 f.pPlaytime.toNat),
    (a + 40, bytesLE 4 prevpos), (a + 32, encField f.enc), (a + hdrSize, f.pBuf),
    (a + 24, bytesLE 4 f.pSize), (a + 8, bytesLE 4 (padded f.pSize)),
    (a + 44, bytesLE 4 (u32 (a + hdrSize + padded f.pSize)))]

theorem storeFrame_eq (m : Memory) (a prevpos : ℕ) (f : Frame) :
    storeFrame m a prevpos f = storeAll m (frameStores a prevpos f) := by
  simp only [storeFrame, storeAll, frameStores, storeLE_eq, List.foldl_cons, List.foldl_nil]

/-- The offsets of the headers that one `ReadBuffer` call dereferences. -/
inductive Dereferenced (p : Ring) (i : Fin 16) : ℕ → Prop where
  | next (hne : p.readpos i ≠ p.writepos) (hm : p.overwriteread i = false) :
      Dereferenced p i (p.readpos i)
  | zero (hne : p.readpos i ≠ p.writepos) (hm : p.overwriteread i = false)
      (hf : (hdrAt p.buf (p.readpos i)).flag ≠ hdrFlag) : Dereferenced p i 0
  | search {a : ℕ} (hne : p.readpos i ≠ p.writepos) (hm : p.overwriteread i = true)
      (hlow : a < 2 ^ 31) (hv : Visits (link p.buf) (searchStart p) a) : Dereferenced p i a

/-- Every byte stored and every header dereferenced lies in the buffer. -/
def InBounds (w : World) : Op → Prop
  | .write f _ => ∀ s ∈ frameStores (place w.ring f.pSize) w.ring.lastwritepos f,
      s.1 + s.2.length ≤ w.ring.bufsize
  | .read i _ => ∀ a, Dereferenced w.ring i a → a + hdrSize ≤ w.ring.bufsize
  | _ => True

/-- The backward search stops at a key frame, or the link of each standing
header leads to a standing header. -/
def LinksStand (w : World) : Prop :=
  KeyStands w ∨ ∀ k, w.standing k → ∃ j, w.standing j ∧ posAt w.hist.log j = prevposAt w.hist.log k

/-- A frame fits the buffer. A reader with something to read has a whole header
in front of it, or is overwritten and the links stand. -/
def Stays (w : World) : Op → Prop
  | .write f _ => hdrSize + f.pSize ≤ w.ring.bufsize
  | .read i _ => w.ring.readpos i ≠ w.ring.writepos →
      (w.ring.overwriteread i = false → w.ring.readpos i + hdrSize ≤ w.ring.bufsize) ∧
      (w.ring.overwriteread i = true → LinksStand w)
  | _ => True

theorem Stays.fits {w : World} {op : Op} (h : Stays w op) : Fits w op := by
  cases op with
  | write f t => exact h
  | read i size => trivial
  | unlock i => trivial
  | reset => trivial
  | getIndex => trivial
  | release i => trivial
  | outside m => trivial

@[simp] theorem bytesLE_length (n v : ℕ) : (bytesLE n v).length = n := by simp [bytesLE]

theorem frameStores_within {a prevpos n : ℕ} {f : Frame} :
    (∀ s ∈ frameStores a prevpos f, s.1 + s.2.length ≤ n) ↔ a + hdrSize + f.pSize ≤ n := by
  have he := encField_length f.enc
  simp only [frameStores, List.forall_mem_cons, bytesLE_length, he, Frame.pSize, hdrSize,
    List.not_mem_nil, false_implies, implies_true, and_true]
  omega

namespace Layout
variable {w : World} (L : Layout w)
include L

theorem write_inBounds_iff (f : Frame) (t : Tick) :
    InBounds w (.write f t) ↔ hdrSize + f.pSize ≤ w.ring.bufsize := by
  refine frameStores_within.trans ⟨fun h => by omega, fun h => ?_⟩
  exact (L.place_bounds h).2

/-- A search along links that stand visits standing frames only. -/
theorem visits_linksStand (hn : 0 < w.hist.log.length) (h : LinksStand w) {a : ℕ}
    (hv : Visits (link w.ring.buf) (searchStart w.ring) a) :
    ∃ k, w.standing k ∧ a = posAt w.hist.log k := by
  rcases h with hkey | hlinks
  · obtain ⟨k, ⟨hk, hkey⟩, last⟩ := exists_newest
      (P := fun k => w.standing k ∧ keyAt w.hist.log k) (fun k h => L.standing_lt h.1) hkey
    obtain ⟨j, hkj, hj, rfl⟩ := L.visits_standing hk
      (fun i hi hlen h => last i hi ⟨L.standing_mono hk (by omega) hlen, h⟩) (L.link_key hk hkey) hv
    exact ⟨j, L.standing_mono hk hkj hj, rfl⟩
  · refine hv.closed (S := fun a => ∃ k, w.standing k ∧ a = posAt w.hist.log k) ?_
      ⟨w.hist.log.length - 1, ?_, L.searchStart_eq hn⟩
    · rintro b c ⟨k, hk, rfl⟩ hs
      obtain ⟨j, hj, hjk⟩ := hlinks k hk
      refine ⟨j, hj, ?_⟩
      rw [hjk, ← L.prevpos_standing hk]
      unfold link at hs
      split at hs
      · cases hs
      · exact (Option.some.inj hs).symm
    · exact L.standing_mono (L.lap_standing hn) (by have := L.lap_lt hn; omega) (by omega)

end Layout

theorem Sound.inBounds {w : World} (s : Sound w) {op : Op} (h : Stays w op) : InBounds w op := by
  have L := s.layout
  cases op with
  | write f t => exact (L.write_inBounds_iff f t).mpr h
  | read i size =>
    intro a ha
    cases ha with
    | next hne hm => exact (h hne).1 hm
    | zero hne hm _ =>
      have := (h hne).1 hm
      omega
    | search hne hm _ hv =>
      obtain ⟨k, hk, rfl⟩ := L.visits_linksStand (s.waiting hne) ((h hne).2 hm) hv
      obtain ⟨x, -, hp, -, -, -, hf, -⟩ := L.get (L.standing_lt hk)
      omega
  | unlock i => trivial
  | reset => trivial
  | getIndex => trivial
  | release i => trivial
  | outside m => trivial

/-- A step that makes no backward search is in bounds only if it meets the condition. -/
theorem Sound.stays {w : World} (s : Sound w) {op : Op}
    (nosearch : ∀ i size, op = .read i size → w.ring.readpos i ≠ w.ring.writepos →
      w.ring.overwriteread i = false) (h : InBounds w op) : Stays w op := by
  cases op with
  | write f t => exact (s.layout.write_inBounds_iff f t).mp h
  | read i size =>
    intro hne
    have hm := nosearch i size rfl hne
    refine ⟨fun _ => h _ (.next hne hm), fun hmark => ?_⟩
    rw [hm] at hmark
    cases hmark
  | unlock i => trivial
  | reset => trivial
  | getIndex => trivial
  | release i => trivial
  | outside m => trivial

/-- In every run whose steps meet the condition every access is in bounds; a next
step without a backward search stays in bounds only if it meets the condition too. -/
theorem accesses_in_bounds {fuel size : ℕ} (hsize : size < 2 ^ 31) {m : Memory} {ops : List Op}
    {w : World} (run : Run (World.step fuel) Stays (World.start size m) ops w) :
    (∀ op, Stays w op → InBounds w op) ∧
    (∀ op, (∀ i n, op = .read i n → w.ring.readpos i ≠ w.ring.writepos →
      w.ring.overwriteread i = false) → InBounds w op → Stays w op) := by
  have s : Sound w := sound_of_run hsize (run.weaken fun _ _ h => h.fits)
  exact ⟨fun op h => s.inBounds h, fun op nosearch h => s.stays nosearch h⟩

theorem accesses_in_bounds_second_lap :
    InBounds pFrameWritten (.write (filled 0 MB_FT_PFRAME 2) still) ∧
      InBounds pFrameWritten (.read 0 200) := by
  have run : Run (World.step 4) Stays (World.start 400 fun _ => 0)
      [.getIndex, .write (filled 0 MB_FT_IFRAME 0) still, .read 0 200,
        .write (filled 0 MB_FT_PFRAME 1) still] pFrameWritten := by
    refine .cons trivial rfl (.cons ?_ rfl (.cons ?_ (t := keyRead) ?_ (.cons ?_ rfl (.nil _))))
    · change _ ≤ 400
      decide +kernel
    · exact fun _ => ⟨fun hm => absurd hm (by decide +kernel),
        fun _ => .inl ⟨0, by decide +kernel, by decide +kernel⟩⟩
    · have hsome : (keyWritten.step 4 (.read 0 200)).isSome = true := by decide +kernel
      obtain ⟨v, hv⟩ := Option.isSome_iff_exists.mp hsome
      rw [keyRead, hv, Option.getD_some]
      exact hv
    · change _ ≤ keyRead.ring.bufsize
      decide +kernel
  obtain ⟨inside, -⟩ := accesses_in_bounds (by omega) run
  refine ⟨inside _ ?_, inside _ ?_⟩
  · change _ ≤ pFrameWritten.ring.bufsize
    decide +kernel
  · exact fun _ => ⟨fun _ => by decide +kernel, fun hm => absurd hm (by decide +kernel)⟩

/-- A frame larger than the buffer is stored past its end, and a reader at the
end of a lap dereferences a header that is cut by the end of the buffer. -/
theorem accesses_not_in_bounds :
    (¬ ∀ (fuel size : ℕ) (m : Memory) (ops : List Op) (w : World) (f : Frame) (t : Tick),
      size < 2 ^ 31 → Run (World.step fuel) (fun _ _ => True) (World.start size m) ops w →
      InBounds w (.write f t)) ∧
    ¬ ∀ (fuel size : ℕ) (m : Memory) (ops : List Op) (w : World) (i : Fin 16) (pReadsize : ℕ),
      size < 2 ^ 31 → Run (World.step fuel) Fits (World.start size m) ops w →
      w.ring.isuse i = true → InBounds w (.read i pReadsize) := by
  refine ⟨fun claim => ?_, fun claim => ?_⟩
  · have inside := claim 0 100 (fun _ => 0) [] _ (filled 0 MB_FT_IFRAME 0) still (by omega) (.nil _)
    rw [(Sound.start (by omega) _).layout.write_inBounds_iff] at inside
    exact absurd inside (by decide +kernel)
  · obtain ⟨w, run, hi, hne, hm, hpos, hsize⟩ :
        ∃ w, Run (World.step 4) Fits (World.start 400 fun _ => 0)
          [.getIndex, .write (filled 0 MB_FT_IFRAME 0) still, .read 0 200,
            .write (filled 0 MB_FT_PFRAME 1) still, .read 0 200,
            .write (filled 0 MB_FT_PFRAME 2) still] w ∧
          (w.ring.isuse 0 = true ∧ w.ring.readpos 0 ≠ w.ring.writepos ∧
            w.ring.overwriteread 0 = false ∧ w.ring.readpos 0 = 392 ∧ w.ring.bufsize = 400) :=
      exists_run (by decide +kernel)
    have inside := claim 4 400 _ _ w 0 200 (by omega) run hi _ (.next hne hm)
    unfold hdrSize at inside
    omega

end Jagles.MediaBuffer
