import Jagles.MediaBufferHistory

set_option autoImplicit false
set_option linter.dupNamespace false

/-!
# Layout of the laps

The frames of a lap lie back to back from offset zero. The layout survives every
step of a run whose frames fit the buffer, whatever the readers do.
-/
namespace Jagles.MediaBuffer
open ByteMemory

section Fields
variable (p : Ring) (f : Frame) (t : Tick)

theorem meter_eq (p : Ring) (t : Tick) : ∃ a b c d,
    meter p t = { p with lasttime := a, fps := b, lastwritecount := c, bitrate := d } := by
  unfold meter
  split
  · exact ⟨_, p.fps, _, p.bitrate, rfl⟩
  · split
    · exact ⟨_, _, _, _, rfl⟩
    · exact ⟨p.lasttime, p.fps, p.lastwritecount, p.bitrate, rfl⟩

theorem WrtieBuffer_eq : ∃ a b c d,
    WrtieBuffer p f t =
      { storeLocked p f t with lasttime := a, fps := b, lastwritecount := c, bitrate := d } :=
  meter_eq _ _

@[simp] theorem WrtieBuffer_buf :
    (WrtieBuffer p f t).buf = storeFrame p.buf (place p f.pSize) p.lastwritepos f := by
  obtain ⟨_, _, _, _, h⟩ := WrtieBuffer_eq p f t
  rw [h]; rfl

@[simp] theorem WrtieBuffer_writepos :
    (WrtieBuffer p f t).writepos = u32 (place p f.pSize + hdrSize + padded f.pSize) := by
  obtain ⟨_, _, _, _, h⟩ := WrtieBuffer_eq p f t
  rw [h]; rfl

@[simp] theorem WrtieBuffer_lastwritepos :
    (WrtieBuffer p f t).lastwritepos = place p f.pSize := by
  obtain ⟨_, _, _, _, h⟩ := WrtieBuffer_eq p f t
  rw [h]; rfl

@[simp] theorem WrtieBuffer_bufsize : (WrtieBuffer p f t).bufsize = p.bufsize := by
  obtain ⟨_, _, _, _, h⟩ := WrtieBuffer_eq p f t
  rw [h]; rfl

@[simp] theorem WrtieBuffer_readpos : (WrtieBuffer p f t).readpos = p.readpos := by
  obtain ⟨_, _, _, _, h⟩ := WrtieBuffer_eq p f t
  rw [h]; rfl

@[simp] theorem WrtieBuffer_isuse : (WrtieBuffer p f t).isuse = p.isuse := by
  obtain ⟨_, _, _, _, h⟩ := WrtieBuffer_eq p f t
  rw [h]; rfl

@[simp] theorem WrtieBuffer_overwriteread (i : Fin 16) :
    (WrtieBuffer p f t).overwriteread i =
      if overwrites p f.pSize i then true else p.overwriteread i := by
  obtain ⟨_, _, _, _, h⟩ := WrtieBuffer_eq p f t
  rw [h]; rfl

end Fields

structure Layout (w : World) : Prop where
  size : w.ring.bufsize < 2 ^ 31
  lap_le : w.hist.prevLap ≤ w.hist.lap
  lap_pos : w.hist.lap = 0 ∨ w.hist.prevLap < w.hist.lap
  lap_nil : w.hist.log.length = 0 → w.hist.lap = 0
  lap_lt : 0 < w.hist.log.length → w.hist.lap < w.hist.log.length
  first : posAt w.hist.log w.hist.prevLap = 0
  next : ∀ k, w.hist.prevLap ≤ k → k + 1 < w.hist.log.length →
    posAt w.hist.log (k + 1) = if k + 1 = w.hist.lap then 0 else endAt w.hist.log k
  fits : ∀ (k : ℕ) (x : Placed), w.hist.log[k]? = some x →
    x.pos % 4 = 0 ∧ x.pos + hdrSize + x.frame.pSize ≤ w.ring.bufsize
  writepos : w.ring.writepos =
    if w.hist.log.length = 0 then 0 else endAt w.hist.log (w.hist.log.length - 1)
  lastwritepos : w.ring.lastwritepos =
    if w.hist.log.length = 0 then 0 else posAt w.hist.log (w.hist.log.length - 1)
  stored : ∀ (k : ℕ) (x : Placed), w.hist.log[k]? = some x → w.standing k →
    Stored w.ring.buf x.pos (prevposAt w.hist.log k) x.frame

theorem span_bounds {f : Frame} {n : ℕ} (h : hdrSize + f.pSize ≤ n) (hn : n < 2 ^ 31) :
    hdrSize + f.pSize ≤ span f ∧ span f ≤ hdrSize + f.pSize + 3 ∧ span f % 4 = 0 := by
  have hp := padded_bounds f.pSize (by unfold hdrSize at h; omega)
  unfold span hdrSize at *
  omega

/-- The two shapes a write gives the laps. -/
theorem World.write_laps (w : World) (f : Frame) (t : Tick) :
    (wraps w.ring f.pSize = true ∧ (w.write f t).hist.lap = w.hist.log.length ∧
      (w.write f t).hist.prevLap = w.hist.lap ∧ place w.ring f.pSize = 0) ∨
    (wraps w.ring f.pSize = false ∧ (w.write f t).hist.lap = w.hist.lap ∧
      (w.write f t).hist.prevLap = w.hist.prevLap ∧ place w.ring f.pSize = w.ring.writepos) := by
  cases hw : wraps w.ring f.pSize with
  | true => exact .inl ⟨rfl, by simp [World.write, hw], by simp [World.write, hw],
      by simp [place, hw]⟩
  | false => exact .inr ⟨rfl, by simp [World.write, hw], by simp [World.write, hw],
      by simp [place, hw]⟩

namespace Layout
variable {w : World} (L : Layout w)
include L

theorem get {k : ℕ} (h : k < w.hist.log.length) : ∃ x, w.hist.log[k]? = some x ∧
    posAt w.hist.log k = x.pos ∧ endAt w.hist.log k = x.pos + span x.frame ∧
    sizeAt w.hist.log k = x.frame.pSize ∧ x.pos % 4 = 0 ∧
    x.pos + hdrSize + x.frame.pSize ≤ w.ring.bufsize ∧ hdrSize + x.frame.pSize ≤ span x.frame ∧
    span x.frame ≤ hdrSize + x.frame.pSize + 3 ∧ span x.frame % 4 = 0 := by
  obtain ⟨x, hx⟩ : ∃ x, w.hist.log[k]? = some x := ⟨_, List.getElem?_eq_getElem h⟩
  obtain ⟨hm, hf⟩ := L.fits k x hx
  have hs := span_bounds (show hdrSize + x.frame.pSize ≤ w.ring.bufsize by omega) L.size
  exact ⟨x, hx, posAt_some hx, endAt_some hx, sizeAt_some hx, hm, hf, hs⟩

theorem posAt_lap : posAt w.hist.log w.hist.lap = 0 := by
  rcases L.lap_pos with h | h
  · have := L.lap_le
    rw [show w.hist.lap = w.hist.prevLap by omega]
    exact L.first
  · by_cases hn : w.hist.log.length = 0
    · have := L.lap_nil hn
      omega
    · have step := L.next (w.hist.lap - 1) (by omega) (by have := L.lap_lt (by omega); omega)
      rw [show w.hist.lap - 1 + 1 = w.hist.lap by omega, if_pos rfl] at step
      exact step

theorem ascending {j k : ℕ} (hj : w.hist.prevLap ≤ j) (hjk : j < k)
    (hk : k < w.hist.log.length) (same : k < w.hist.lap ∨ w.hist.lap ≤ j) :
    endAt w.hist.log j ≤ posAt w.hist.log k := by
  induction k with
  | zero => omega
  | succ k ih =>
    have step := L.next k (by omega) hk
    rw [if_neg (by omega)] at step
    rw [step]
    by_cases h : j = k
    · rw [h]
    · have old := ih (by omega) (by omega) (by omega)
      obtain ⟨x, -, hp, he, -⟩ := L.get (show k < w.hist.log.length by omega)
      omega

theorem end_le_writepos {k : ℕ} (hl : w.hist.lap ≤ k) (hk : k < w.hist.log.length) :
    endAt w.hist.log k ≤ w.ring.writepos := by
  have hlap := L.lap_le
  rw [L.writepos, if_neg (by omega)]
  by_cases h : k = w.hist.log.length - 1
  · rw [← h]
  · have up := L.ascending (show w.hist.prevLap ≤ k by omega)
      (show k < w.hist.log.length - 1 by omega) (by omega) (by omega)
    obtain ⟨x, -, hp, he, -⟩ := L.get (show w.hist.log.length - 1 < w.hist.log.length by omega)
    omega

theorem end_le_lapEnd {k : ℕ} (hp : w.hist.prevLap ≤ k) (hk : k < w.hist.lap) :
    endAt w.hist.log k ≤ w.lapEnd := by
  unfold World.lapEnd
  by_cases h : k = w.hist.lap - 1
  · rw [h]
  · have hn := L.lap_nil
    have hl := L.lap_lt
    have up := L.ascending hp (show k < w.hist.lap - 1 by omega) (by omega) (by omega)
    obtain ⟨x, -, hp, he, -⟩ := L.get (show w.hist.lap - 1 < w.hist.log.length by omega)
    omega

theorem writepos_bounds : w.ring.writepos ≤ 2 ^ 31 ∧ w.ring.writepos % 4 = 0 ∧
    w.ring.writepos ≤ w.ring.bufsize + 3 := by
  rw [L.writepos]
  split
  · omega
  · have hs := L.size
    obtain ⟨x, -, -, he, -, hm, hf, hl, hu, h4⟩ :=
      L.get (show w.hist.log.length - 1 < w.hist.log.length by omega)
    omega

theorem writepos_pos (h : 0 < w.hist.log.length) : hdrSize ≤ w.ring.writepos := by
  rw [L.writepos, if_neg (by omega)]
  obtain ⟨x, -, -, he, -⟩ := L.get (show w.hist.log.length - 1 < w.hist.log.length by omega)
  unfold span at he
  omega

theorem lapEnd_mod (h : 0 < w.hist.lap) : w.lapEnd % 4 = 0 ∧ hdrSize ≤ w.lapEnd := by
  have hn := L.lap_nil
  have hl := L.lap_lt
  obtain ⟨x, -, -, he, -, hm, -, -, -, h4⟩ :=
    L.get (show w.hist.lap - 1 < w.hist.log.length by omega)
  unfold World.lapEnd
  rw [he]
  refine ⟨by omega, ?_⟩
  unfold span
  omega

theorem standing_lt {k : ℕ} (h : w.standing k) : k < w.hist.log.length := by
  have hn := L.lap_nil
  have hl := L.lap_lt
  rcases h with h | h <;> omega

theorem standing_ge {k : ℕ} (h : w.standing k) : w.hist.prevLap ≤ k := by
  have := L.lap_le
  rcases h with h | h <;> omega

theorem standing_mono {j k : ℕ} (h : w.standing j) (hjk : j ≤ k) (hk : k < w.hist.log.length) :
    w.standing k := by
  by_cases hl : w.hist.lap ≤ k
  · exact .inl ⟨hl, hk⟩
  · obtain ⟨hj, hlj⟩ | ⟨hp, hj, hw⟩ := h
    · omega
    · refine .inr ⟨by omega, by omega, ?_⟩
      by_cases he : j = k
      · rwa [← he]
      · have up := L.ascending hp (show j < k by omega) hk (by omega)
        obtain ⟨x, -, hpx, hex, -⟩ := L.get (show j < w.hist.log.length by omega)
        omega

theorem u32_sum {n : ℕ} (h : hdrSize + n ≤ w.ring.bufsize) :
    u32 (w.ring.writepos + hdrSize + n) = w.ring.writepos + hdrSize + n ∧
    u32 (w.ring.writepos + hdrSize) = w.ring.writepos + hdrSize := by
  have hb := L.writepos_bounds
  have hs := L.size
  unfold u32
  rw [Nat.mod_eq_of_lt (by omega), Nat.mod_eq_of_lt (by omega)]
  exact ⟨rfl, rfl⟩

theorem wraps_iff {n : ℕ} (h : hdrSize + n ≤ w.ring.bufsize) :
    wraps w.ring n = true ↔ w.ring.bufsize < w.ring.writepos + hdrSize + n := by
  obtain ⟨h1, h2⟩ := L.u32_sum h
  simp only [wraps, h1, h2, Bool.or_eq_true, decide_eq_true_eq]
  omega

theorem overwrites_iff {n : ℕ} (h : hdrSize + n ≤ w.ring.bufsize) (i : Fin 16) :
    overwrites w.ring n i = true ↔
      w.ring.writepos < w.ring.readpos i ∧ w.ring.readpos i < w.ring.writepos + hdrSize + n := by
  simp only [overwrites, (L.u32_sum h).1, Bool.and_eq_true, decide_eq_true_eq]

theorem wraps_nonempty {n : ℕ} (h : hdrSize + n ≤ w.ring.bufsize)
    (hw : wraps w.ring n = true) : 0 < w.hist.log.length := by
  have hb := (L.wraps_iff h).mp hw
  by_contra hn
  have hz := L.writepos
  rw [if_pos (by omega)] at hz
  omega

theorem place_bounds {n : ℕ} (h : hdrSize + n ≤ w.ring.bufsize) :
    place w.ring n % 4 = 0 ∧ place w.ring n + hdrSize + n ≤ w.ring.bufsize := by
  have hb := L.writepos_bounds
  have hi := L.wraps_iff h
  unfold place
  split
  · omega
  · rename_i hw
    rw [hi] at hw
    omega

section Write
variable {f : Frame} (t : Tick) (h : hdrSize + f.pSize ≤ w.ring.bufsize)
include h

theorem write_writepos :
    (w.write f t).ring.writepos = place w.ring f.pSize + span f := by
  have hs := L.size
  have hb := L.place_bounds h
  have hp := span_bounds h hs
  change (WrtieBuffer w.ring f t).writepos = _
  rw [WrtieBuffer_writepos, Nat.add_assoc]
  exact Nat.mod_eq_of_lt (by unfold span at hp; omega)

/-- What still stands after a write stood before it, clear of the bytes stored. -/
theorem standing_of_write {k : ℕ} (hk : k < w.hist.log.length)
    (hs : (w.write f t).standing k) : w.standing k ∧
      (endAt w.hist.log k ≤ place w.ring f.pSize ∨
        place w.ring f.pSize + span f ≤ posAt w.hist.log k) := by
  have hw := L.write_writepos t h
  have hp := posAt_snoc_lt w.hist.log ⟨place w.ring f.pSize, f⟩ hk
  have hle := L.lap_le
  have hin := L.end_le_writepos (k := k)
  simp only [World.standing, hw] at hs
  simp only [World.write, hp, length_snoc] at hs
  unfold place at hs ⊢
  split at hs
  · rename_i hwr
    rw [if_pos hwr]
    rcases hs with hs | hs
    · omega
    · exact ⟨.inl ⟨hs.1, hk⟩, .inr hs.2.2⟩
  · rename_i hwr
    rw [if_neg hwr]
    rcases hs with hs | hs
    · exact ⟨.inl ⟨hs.1, hk⟩, .inl (hin hs.1 hk)⟩
    · exact ⟨.inr ⟨hs.1, hs.2.1, by omega⟩, .inr hs.2.2⟩

theorem write_stored (k : ℕ) (x : Placed) (hx : (w.write f t).hist.log[k]? = some x)
    (hs : (w.write f t).standing k) :
    Stored (w.write f t).ring.buf x.pos (prevposAt (w.write f t).hist.log k) x.frame := by
  let y : Placed := ⟨place w.ring f.pSize, f⟩
  change (w.hist.log ++ [y])[k]? = some x at hx
  change Stored (WrtieBuffer w.ring f t).buf _ (prevposAt (w.hist.log ++ [y]) k) _
  rw [WrtieBuffer_buf]
  have hlen : k < w.hist.log.length + 1 := by
    rw [← length_snoc w.hist.log y]
    exact (List.getElem?_eq_some_iff.mp hx).1
  have hlast := L.lastwritepos
  by_cases hk : k < w.hist.log.length
  · rw [getElem?_snoc_lt _ _ hk] at hx
    rw [prevposAt_snoc_le _ _ (by omega)]
    obtain ⟨hold, hclear⟩ := L.standing_of_write t h hk hs
    obtain ⟨x', hx', hpos, hend, -, -, -, hlow, -⟩ := L.get hk
    obtain rfl : x' = x := by simpa [hx] using hx'.symm
    have hf := span_bounds h L.size
    exact (L.stored k x' hx hold).congr (storeFrame_agree _ (by omega))
  · obtain rfl : k = w.hist.log.length := by omega
    obtain rfl : y = x := by simpa using hx
    rw [prevposAt_snoc_le _ _ (le_refl _)]
    have hprev : w.ring.lastwritepos = prevposAt w.hist.log w.hist.log.length := by
      rw [hlast]
      rfl
    rw [← hprev]
    apply storeFrame_stored
    rw [hlast]
    split
    · omega
    · obtain ⟨z, -, hp, -, -, -, hz, -⟩ :=
        L.get (show w.hist.log.length - 1 < w.hist.log.length by omega)
      have := L.size
      omega

theorem write : Layout (w.write f t) := by
  have hsize := L.size
  have hle := L.lap_le
  have hlt := L.lap_lt
  have hnil := L.lap_nil
  have hne := L.wraps_nonempty h
  have hpl := L.place_bounds h
  have hwp := L.writepos
  have hzero := L.posAt_lap
  let y : Placed := ⟨place w.ring f.pSize, f⟩
  have hlog : (w.write f t).hist.log = w.hist.log ++ [y] := rfl
  have hlen : (w.write f t).hist.log.length = w.hist.log.length + 1 := length_snoc _ _
  have hbuf : (w.write f t).ring.bufsize = w.ring.bufsize := WrtieBuffer_bufsize _ _ _
  have hlaps := w.write_laps f t
  have hyp : y.pos = place w.ring f.pSize := rfl
  refine ⟨by omega, ?_, ?_, ?_, ?_, ?_, ?_, ?_, ?_, ?_, L.write_stored t h⟩
  · rcases hlaps with ⟨hw, h1, h2, -⟩ | ⟨-, h1, h2, -⟩
    · have := hne hw
      have := hlt this
      omega
    · omega
  · rcases hlaps with ⟨hw, h1, h2, -⟩ | ⟨-, h1, h2, -⟩
    · have := hlt (hne hw)
      omega
    · have := L.lap_pos
      omega
  · omega
  · intro _
    rcases hlaps with ⟨hw, h1, h2, -⟩ | ⟨-, h1, h2, -⟩ <;> omega
  · rw [hlog]
    rcases hlaps with ⟨hw, h1, h2, -⟩ | ⟨-, h1, h2, hy⟩
    · rw [h2, posAt_snoc_lt _ _ (hlt (hne hw))]
      exact hzero
    · rw [h2]
      by_cases hn : w.hist.log.length = 0
      · rw [if_pos hn] at hwp
        have hz : w.hist.prevLap = w.hist.log.length := by have := hnil hn; omega
        rw [hz, posAt_snoc_last, hyp, hy, hwp]
      · rw [posAt_snoc_lt _ _ (by have := hlt (by omega); omega)]
        exact L.first
  · intro k hk hk1
    rw [hlog]
    by_cases hl : k + 1 = w.hist.log.length
    · rw [hl, posAt_snoc_last, endAt_snoc_lt _ _ (by omega)]
      rcases hlaps with ⟨hw, h1, h2, hy⟩ | ⟨-, h1, h2, hy⟩
      · rw [h1, if_pos rfl, hyp, hy]
      · have := hlt (by omega)
        rw [if_neg (by omega)] at hwp
        rw [h1, if_neg (by omega), hyp, hy, hwp, ← hl, Nat.add_sub_cancel]
    · have hk2 : k + 1 < w.hist.log.length := by omega
      rw [posAt_snoc_lt _ _ hk2, endAt_snoc_lt _ _ (by omega)]
      rcases hlaps with ⟨hw, h1, h2, hy⟩ | ⟨-, h1, h2, hy⟩
      · rw [h1, if_neg hl]
        have step := L.next k (by omega) hk2
        rwa [if_neg (by omega)] at step
      · rw [h1]
        exact L.next k (by omega) hk2
  · intro k x hx
    rw [hbuf]
    rw [hlog] at hx
    by_cases hk : k < w.hist.log.length
    · rw [getElem?_snoc_lt _ _ hk] at hx
      exact L.fits k x hx
    · have hb := (List.getElem?_eq_some_iff.mp hx).1
      rw [length_snoc] at hb
      obtain rfl : k = w.hist.log.length := by omega
      obtain rfl : y = x := by simpa using hx
      exact hpl
  · rw [if_neg (by omega), hlen, hlog, Nat.add_sub_cancel, endAt_snoc_last]
    exact L.write_writepos t h
  · rw [if_neg (by omega), hlen, hlog, Nat.add_sub_cancel, posAt_snoc_last]
    exact WrtieBuffer_lastwritepos _ _ _

end Write
end Layout
end Jagles.MediaBuffer
