import Jagles.FloatSigns
import Jagles.MediaBufferReads
import Jagles.MediaBufferHistory

set_option autoImplicit false
set_option linter.dupNamespace false

/-!
# The traffic counters of the media buffer

`_writecount` is an `unsigned int` and `_bitwritecount` an `int`. Both start over with
`ResetMediaBuffer` only: the line that cleared the byte counter after each measurement is
commented out. The bit rate is a float quotient of the byte counter.
-/
namespace Jagles.MediaBuffer
open ByteMemory GuardedRuns FloatSigns Float.Model

/-- What the payload of a frame takes up, filled to whole words. -/
def paddedSize (f : Frame) : ℕ := (f.pSize + 3) / 4 * 4

def bytesWritten (log : List Placed) : ℕ := (log.map fun x => paddedSize x.frame).sum

/-- `(int)(count / ((float)durationtime / 1000.0f))`. -/
def rate (count : ℤ) (durationtime : ℕ) : ℤ :=
  (UnpackedFloat.div Format.binary32 (UnpackedFloat.ofInt Format.binary32 count)
    (UnpackedFloat.div Format.binary32 (UnpackedFloat.ofInt Format.binary32 durationtime)
      (UnpackedFloat.ofScientific Format.binary32 10000 (-1)))).toInt32.toInt

def durationtime (p : Ring) (t : Tick) : ℕ := u32 (t.now + 2 ^ 64 - p.starttime)

/-- The call brings the two quotients of the counters it leaves. -/
def Measures (p : Ring) (t : Tick) : Prop :=
  t.fps = rate p.writecount (durationtime p t) ∧
    t.bitrate = rate p.bitwritecount (durationtime p t)

def Metered (w : World) : Op → Prop
  | .write f t => Measures (storeLocked w.ring f t) t
  | _ => True

/-- The counters say what was written since the last reset, and the bit rate is no less
than zero. -/
structure CountersRight (w : World) : Prop where
  writecount : w.ring.writecount = w.hist.log.length
  bitwritecount : w.ring.bitwritecount = bytesWritten w.hist.log
  bitrate : 0 ≤ w.ring.bitrate

/-- What the counters hold after any number of frames. -/
structure Wrapped (w : World) : Prop where
  writecount : w.ring.writecount = u32 w.hist.log.length
  bitwritecount : w.ring.bitwritecount = i32 (bytesWritten w.hist.log)
  bitrate : bytesWritten w.hist.log < 2 ^ 31 → 0 ≤ w.ring.bitrate

theorem rate_nonneg {count : ℤ} (h : 0 ≤ count) (d : ℕ) : 0 ≤ rate count d :=
  toInt32_unsigned (div_unsigned (ofInt_unsigned h)
    (div_unsigned (ofInt_unsigned (Int.natCast_nonneg d))
      (ofScientific_signed 10000 (by decide)).unsigned))

theorem i32_of_lt {n : ℕ} (h : n < 2 ^ 31) : i32 n = n := by
  unfold i32
  omega

theorem i32_lt (z : ℤ) : i32 z < 2 ^ 31 := by
  unfold i32
  omega

/-- Adding up modulo `2^32` at each frame is adding up modulo `2^32` once. -/
theorem i32_add_padded (n : ℕ) (f : Frame) :
    i32 (i32 n + padded f.pSize) = i32 ((n + paddedSize f : ℕ) : ℤ) := by
  have hlt : f.pSize < 2 ^ 32 := f.size_lt
  have hpad : padded f.pSize = paddedSize f % 2 ^ 32 := by
    unfold padded paddedSize u32
    split <;> omega
  rw [hpad]
  unfold i32
  push_cast
  omega

theorem bytesWritten_append (log : List Placed) (x : Placed) :
    bytesWritten (log ++ [x]) = bytesWritten log + paddedSize x.frame := by
  simp [bytesWritten]

/-- The fields a measurement is made from, and its result. -/
def Ring.traffic (p : Ring) : ℕ × ℤ × ℤ := (p.writecount, p.bitwritecount, p.bitrate)

theorem deliver_traffic (p : Ring) (i : Fin 16) (pos size : ℕ) :
    (deliver p i pos size).1.traffic = p.traffic := by
  simp only [deliver]
  split <;> rfl

theorem readLocked_traffic {fuel size : ℕ} {p p' : Ring} {i : Fin 16} {r : ReadResult}
    (h : readLocked fuel p i size = some (p', r)) : p'.traffic = p.traffic := by
  rcases readLocked_cases h with ⟨-, hd⟩ | ⟨-, n, e, -, -, ⟨-, -, hd⟩ | ⟨-, -, rfl⟩⟩
  · exact (congrArg (fun q => q.1.traffic) hd).symm.trans (deliver_traffic _ _ _ _)
  · exact (congrArg (fun q => q.1.traffic) hd).symm.trans (deliver_traffic _ _ _ _)
  · rfl

theorem ReadBuffer_traffic {fuel size : ℕ} {p p' : Ring} {i : Fin 16} {r : ReadResult}
    (h : ReadBuffer fuel p i size = some (p', r)) : p'.traffic = p.traffic := by
  rcases ReadBuffer_cases h with ⟨-, rfl, -⟩ | ⟨-, hl⟩
  · rfl
  · exact readLocked_traffic hl

theorem GetReadIndex_traffic (p : Ring) : (GetReadIndex p).1.traffic = p.traffic := by
  unfold GetReadIndex
  split <;> rfl

theorem World.getIndex_traffic (w : World) : w.getIndex.ring.traffic = w.ring.traffic := by
  have h := GetReadIndex_traffic w.ring
  unfold World.getIndex
  generalize GetReadIndex w.ring = r at h
  obtain ⟨p, i | i⟩ := r <;> exact h

theorem World.getIndex_log (w : World) : w.getIndex.hist.log = w.hist.log := by
  unfold World.getIndex
  split <;> rfl

theorem History.returned_log (h : History) (i : Fin 16) (r : ReadResult) :
    (h.returned i r).log = h.log := by
  cases r <;> rfl

@[simp] theorem meter_writecount (p : Ring) (t : Tick) : (meter p t).writecount = p.writecount := by
  unfold meter
  split_ifs <;> rfl

@[simp] theorem meter_bitwritecount (p : Ring) (t : Tick) :
    (meter p t).bitwritecount = p.bitwritecount := by
  unfold meter
  split_ifs <;> rfl

theorem meter_bitrate (p : Ring) (t : Tick) :
    (meter p t).bitrate = p.bitrate ∨ (meter p t).bitrate = t.bitrate := by
  unfold meter
  split_ifs
  · exact .inl rfl
  · exact .inr rfl
  · exact .inl rfl

namespace Wrapped
variable {w : World}

theorem zeroed {buf : Memory} {bufsize : ℕ} {isuse : Fin 16 → Bool}
    (hring : w.ring = MediaBuffer.zeroed buf bufsize isuse) (hlog : w.hist.log = []) :
    Wrapped w := by
  refine ⟨?_, ?_, fun _ => ?_⟩ <;> rw [hring]
  · rw [hlog]
    rfl
  · have hbytes : bytesWritten w.hist.log = 0 := by rw [hlog]; rfl
    rw [hbytes, i32_of_lt (by decide)]
    rfl
  · exact le_rfl

theorem start (size : ℕ) (m : Memory) : Wrapped (World.start size m) := .zeroed rfl rfl

theorem reset (w : World) : Wrapped w.reset := .zeroed rfl rfl

theorem same (c : Wrapped w) {w' : World} (hlog : w'.hist.log = w.hist.log)
    (h : w'.ring.traffic = w.ring.traffic) : Wrapped w' := by
  obtain ⟨hcount, hbytes, hrate⟩ : _ ∧ _ ∧ _ := by simpa [Ring.traffic] using h
  exact ⟨by rw [hcount, hlog, c.writecount], by rw [hbytes, hlog, c.bitwritecount],
    by rw [hlog, hrate]; exact c.bitrate⟩

theorem write (c : Wrapped w) {f : Frame} {t : Tick} (h : Measures (storeLocked w.ring f t) t) :
    Wrapped (w.write f t) := by
  have hlog : (w.write f t).hist.log = w.hist.log ++ [⟨place w.ring f.pSize, f⟩] := rfl
  have hring : (w.write f t).ring = meter (storeLocked w.ring f t) t := rfl
  have hbytes : (storeLocked w.ring f t).bitwritecount =
      i32 (bytesWritten (w.write f t).hist.log) := by
    change i32 (w.ring.bitwritecount + padded f.pSize) = _
    rw [c.bitwritecount, i32_add_padded, hlog, bytesWritten_append]
  refine ⟨?_, ?_, fun hlt => ?_⟩
  · rw [hring, meter_writecount, hlog, List.length_append, List.length_singleton]
    change u32 (w.ring.writecount + 1) = _
    rw [c.writecount]
    unfold u32
    omega
  · rw [hring, meter_bitwritecount, hbytes]
  · rw [hring]
    rcases meter_bitrate (storeLocked w.ring f t) t with hold | hnew
    · rw [hold]
      rw [hlog, bytesWritten_append] at hlt
      exact c.bitrate (by omega)
    · rw [hnew, h.2, hbytes, i32_of_lt hlt]
      exact rate_nonneg (Int.natCast_nonneg _) _

theorem step (c : Wrapped w) {fuel : ℕ} {w' : World} {op : Op} (hop : Metered w op)
    (h : w.step fuel op = some w') : Wrapped w' := by
  cases op with
  | write f t =>
    obtain rfl := Option.some.inj h
    exact c.write hop
  | read i size =>
    obtain ⟨⟨p', r⟩, hr, rfl⟩ := Option.map_eq_some_iff.mp h
    exact c.same (History.returned_log _ _ _) (ReadBuffer_traffic hr)
  | reset =>
    obtain rfl := Option.some.inj h
    exact .reset w
  | getIndex =>
    obtain rfl := Option.some.inj h
    exact c.same w.getIndex_log w.getIndex_traffic
  | unlock i =>
    obtain rfl := Option.some.inj h
    exact c.same rfl rfl
  | release i =>
    obtain rfl := Option.some.inj h
    exact c.same rfl rfl
  | outside m =>
    obtain rfl := Option.some.inj h
    exact c.same rfl rfl

theorem run {fuel size : ℕ} {m : Memory} {ops : List Op}
    (h : Run (World.step fuel) Metered (World.start size m) ops w) : Wrapped w :=
  h.invariant Wrapped (fun _ _ _ c hop hs => c.step hop hs) (.start size m)

theorem right_iff (c : Wrapped w) :
    CountersRight w ↔ w.hist.log.length < 2 ^ 32 ∧ bytesWritten w.hist.log < 2 ^ 31 := by
  constructor
  · intro h
    have hcount := c.writecount.symm.trans h.writecount
    have hbytes := c.bitwritecount.symm.trans h.bitwritecount
    have hlt := i32_lt (bytesWritten w.hist.log)
    unfold u32 at hcount
    omega
  · rintro ⟨hcount, hbytes⟩
    exact ⟨c.writecount.trans (Nat.mod_eq_of_lt hcount),
      c.bitwritecount.trans (i32_of_lt hbytes), c.bitrate hbytes⟩

end Wrapped

def packet : Frame where
  pBuf := List.replicate 65536 0
  pType := MB_FT_PFRAME
  pTimestamp := 0
  pPlaytime := 0
  enc := none
  size_lt := by rw [List.length_replicate]; norm_num
  enc_nonzero := fun _ he => by cases he

theorem paddedSize_packet : paddedSize packet = 65536 := by
  have hsize : packet.pSize = 65536 := List.length_replicate
  rw [paddedSize, hsize]

/-- Every frame can be written with a measurement of the counters it leaves. -/
theorem measures_exists (p : Ring) (f : Frame) : ∃ t, Measures (storeLocked p f t) t := by
  let t : Tick := ⟨1, 1, 1, 0, 0⟩
  let d := durationtime (storeLocked p f t) t
  exact ⟨{ t with
    fps := rate (storeLocked p f t).writecount d
    bitrate := rate (storeLocked p f t).bitwritecount d }, rfl, rfl⟩

theorem exists_packets (fuel size : ℕ) (m : Memory) (n : ℕ) :
    ∃ ops w, Run (World.step fuel) Metered (World.start size m) ops w ∧
      w.hist.log.length = n ∧ bytesWritten w.hist.log = n * 65536 := by
  induction n with
  | zero => exact ⟨[], _, .nil _, rfl, rfl⟩
  | succ n ih =>
    obtain ⟨ops, w, run, hlen, hbytes⟩ := ih
    obtain ⟨t, ht⟩ := measures_exists w.ring packet
    have hrun : Run (World.step fuel) Metered (World.start size m) (ops ++ [.write packet t])
        (w.write packet t) := run.snoc ht rfl
    refine ⟨_, _, hrun, ?_, ?_⟩
    · change (w.hist.log ++ [_]).length = _
      rw [List.length_append, hlen, List.length_singleton]
    · change bytesWritten (w.hist.log ++ [_]) = _
      rw [bytesWritten_append, hbytes, paddedSize_packet]
      ring

/-- The counters are right until the number of frames, or the sum of their sizes, no
longer fits. -/
theorem counters_right_iff {fuel size : ℕ} {m : Memory} {ops : List Op} {w : World}
    (h : Run (World.step fuel) Metered (World.start size m) ops w) :
    CountersRight w ↔ w.hist.log.length < 2 ^ 32 ∧ bytesWritten w.hist.log < 2 ^ 31 :=
  (Wrapped.run h).right_iff

theorem counters_right_one_packet : ∃ ops w,
    Run (World.step 0) Metered (World.start 100000 fun _ => 0) ops w ∧
      w.hist.log.length = 1 ∧ CountersRight w := by
  obtain ⟨ops, w, run, hlen, hbytes⟩ := exists_packets 0 100000 (fun _ => 0) 1
  exact ⟨ops, w, run, hlen, (counters_right_iff run).mpr ⟨by omega, by omega⟩⟩

/-- After two gigabytes of frames the byte counter is negative. -/
theorem counters_not_right : ¬ ∀ (fuel size : ℕ) (m : Memory) (ops : List Op) (w : World),
    Run (World.step fuel) Metered (World.start size m) ops w → CountersRight w := by
  intro claim
  obtain ⟨ops, w, run, -, hbytes⟩ := exists_packets 0 4194304 (fun _ => 0) 32768
  have hright := (claim _ _ _ _ _ run).bitwritecount
  have hlt := i32_lt (bytesWritten w.hist.log)
  rw [(Wrapped.run run).bitwritecount] at hright
  omega

end Jagles.MediaBuffer
