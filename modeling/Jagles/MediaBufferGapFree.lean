import Jagles.MediaBufferDelivery

set_option autoImplicit false
set_option linter.dupNamespace false

/-!
# The readers over whole runs

Every step that spares the readers keeps each of them either marked, with only
unseen frames standing, or at a cursor into the log.
-/
namespace Jagles.MediaBuffer
open ByteMemory GuardedRuns

theorem ReaderOk.same {w w' : World} {i : Fin 16} (ok : ReaderOk w i) (s : SameLaps w w')
    (hpos : w'.ring.readpos i = w.ring.readpos i)
    (hflag : w'.ring.overwriteread i = w.ring.overwriteread i)
    (hlast : w'.hist.last i = w.hist.last i) : ReaderOk w' i := by
  have hdue : w'.due i = w.due i := by simp only [World.due, hlast, s.before]
  have hfol (k : ℕ) : w'.follows i k ↔ w.follows i k := by
    simp only [World.follows, hlast, s.before]
  refine ⟨?_, ?_, ?_⟩
  · rw [hlast, s.before, s.log]
    exact ok.seen
  · intro hm k hk j hj
    rw [hflag] at hm
    rw [hlast] at hj
    rw [s.before]
    exact ok.marked hm k ((s.standing k).mp hk) j hj
  · intro hm
    rw [hflag] at hm
    have c := ok.cursor hm
    refine ⟨?_, ?_, ?_, ?_, ?_⟩
    · rw [hdue, s.log]
      exact c.le
    · rw [hpos, hdue, s.log, s.writepos, s.lap, s.lapEnd]
      exact c.pos
    · rw [hdue, s.log, s.standing]
      exact c.stands
    · rw [hdue, s.lap]
      exact fun hle h0 => s.lapEndClear (c.clear hle h0)
    · rw [hdue, s.log, hfol]
      exact c.first

theorem SameLaps.of_onlyReader {w : World} {i : Fin 16} {p' : Ring} {h : History}
    (ho : OnlyReader i w.ring p') (hlog : h.log = w.hist.log) (hbefore : h.before = w.hist.before)
    (hlap : h.lap = w.hist.lap) (hprev : h.prevLap = w.hist.prevLap) : SameLaps w ⟨p', h⟩ where
  log := hlog
  before := hbefore
  lap := hlap
  prevLap := hprev
  bufsize := ho.bufsize
  writepos := ho.writepos
  lastwritepos := ho.lastwritepos
  buf := by rw [ho.buf]; exact .refl _ _ _

theorem SameLaps.of_read {w : World} {fuel size : ℕ} {i : Fin 16} {p' : Ring} {r : ReadResult}
    (h : ReadBuffer fuel w.ring i size = some (p', r)) :
    SameLaps w ⟨p', w.hist.returned i r⟩ := by
  cases r <;> exact .of_onlyReader (ReadBuffer_onlyReader h) rfl rfl rfl rfl

namespace Layout
variable {w : World} (L : Layout w) {f : Frame} (t : Tick)
  (h : hdrSize + f.pSize ≤ w.ring.bufsize) {i : Fin 16} (c : Cursor w i)
include L h c

theorem write_marks (ho : overwrites w.ring f.pSize i = true) {k : ℕ}
    (hk : k < w.hist.log.length) (hs : (w.write f t).standing k) : w.due i ≤ k := by
  by_contra hlt
  obtain ⟨hlo, hhi⟩ := (L.overwrites_iff h i).mp ho
  have hpend := c.pending (by omega)
  have hstands := c.stands hpend
  have hspan := span_bounds h L.size
  obtain ⟨hold, hclear⟩ := L.standing_of_write t h hk hs
  have hge := L.standing_ge hold
  have hpos := c.pos
  rw [if_neg (by omega)] at hpos
  -- the reader's frame is of the lap before, so the write does not wrap
  have hin := L.end_le_writepos (k := w.due i)
  obtain ⟨x, -, hxp, hxe, -, -, -, hxl, -⟩ := L.get hpend
  obtain ⟨y, -, hyp, hye, -, -, -, hyl, -⟩ := L.get hk
  unfold hdrSize at *
  have hback : k < w.hist.lap := by
    by_cases hl : w.due i = w.hist.lap ∧ 0 < w.hist.lap
    · omega
    · rw [if_neg hl] at hpos
      rcases hstands with hin' | hin'
      · have := hin hin'.1 hpend
        omega
      · omega
  have hplace : place w.ring f.pSize = w.ring.writepos := by
    rcases w.write_laps f t with ⟨-, -, hp, -⟩ | ⟨-, -, -, hp⟩
    · have hL := (L.write t h).standing_ge hs
      omega
    · exact hp
  have hpast : endAt w.hist.log k ≤ w.ring.readpos i := by
    by_cases hl : w.due i = w.hist.lap ∧ 0 < w.hist.lap
    · rw [hpos, if_pos hl]
      exact L.end_le_lapEnd hge hback
    · rw [hpos, if_neg hl]
      refine L.ascending hge (by omega) hpend ?_
      rcases hstands with hin' | hin'
      · have := hin hin'.1 hpend
        rw [if_neg hl] at hpos
        omega
      · omega
  have hwp : w.ring.writepos ≤ posAt w.hist.log k := by
    rcases hold with h' | h' <;> omega
  omega

section Unmarked
variable (ho : overwrites w.ring f.pSize i = false) (hw : WriteSpares w f i)
include ho hw

theorem write_stands (hd : w.due i < w.hist.log.length) : (w.write f t).standing (w.due i) := by
  have hnew := L.write_writepos t h
  have hlog : (w.write f t).hist.log = w.hist.log ++ [⟨place w.ring f.pSize, f⟩] := rfl
  have hspan := span_bounds h L.size
  obtain ⟨x, -, hxp, -, hxs, hx4, hxf, -⟩ := L.get hd
  obtain hend | ⟨hne, hspare⟩ := hw.next
  · omega
  rw [hxp, hxs] at hspare
  have hov := L.overwrites_iff h i
  have hb := L.writepos_bounds
  have hpos := c.pos
  rw [if_neg (by omega)] at hpos
  unfold World.standing
  rw [hlog, length_snoc, posAt_snoc_lt _ _ hd, hnew, hxp]
  unfold hdrSize at *
  rcases w.write_laps f t with ⟨hwt, h1, h2, h3⟩ | ⟨hwf, h1, h2, h3⟩
  · rw [h1, h2]
    have hwr := (L.wraps_iff h).mp hwt
    unfold hdrSize at hwr
    rcases c.stands hd with hs | hs
    · exact .inr ⟨hs.1, hd, by omega⟩
    · -- a reader one lap behind at the wrap is marked by the code's own test
      rw [if_neg (by omega), hxp] at hpos
      have hmarked : overwrites w.ring f.pSize i = true := hov.mpr (by omega)
      rw [ho] at hmarked
      cases hmarked
  · rw [h1, h2]
    rcases c.stands hd with hs | hs
    · exact .inl ⟨hs.1, by omega⟩
    · exact .inr ⟨hs.1, hs.2.1, by omega⟩

theorem write_clear (hle : w.due i ≤ (w.write f t).hist.lap) (h0 : 0 < (w.write f t).hist.lap) :
    (w.write f t).lapEndClear := by
  have hlt := L.lap_lt
  have hnil := L.lap_nil
  have hsize := L.size
  have hov := L.overwrites_iff h i
  have hlog : (w.write f t).hist.log = w.hist.log ++ [⟨place w.ring f.pSize, f⟩] := rfl
  have hbuf : (w.write f t).ring.buf =
      storeFrame w.ring.buf (place w.ring f.pSize) w.ring.lastwritepos f := WrtieBuffer_buf _ _ _
  have hbs : (w.write f t).ring.bufsize = w.ring.bufsize := WrtieBuffer_bufsize _ _ _
  unfold World.lapEndClear World.lapEnd
  rw [hbuf, hbs, hlog]
  rcases w.write_laps f t with ⟨hwt, h1, h2, h3⟩ | ⟨hwf, h1, h2, h3⟩
  · have hn := L.wraps_nonempty h hwt
    have hwp := L.writepos
    have hw48 := L.writepos_pos hn
    rw [if_neg (by omega)] at hwp
    rw [h1, endAt_snoc_lt _ _ (by omega), ← hwp, h3]
    obtain ⟨hin, hflag⟩ := hw.lapEnd hwt
    refine ⟨hin, ?_⟩
    rwa [loadLE_congr (storeFrame_payload _ (by omega))]
  · rw [h1] at h0 hle
    have hd : w.due i < w.hist.log.length := by omega
    have hclear := c.clear hle h0
    rw [h1, endAt_snoc_lt _ _ (by omega), h3]
    change w.lapEnd + 4 ≤ _ ∧ loadLE _ w.lapEnd 4 ≠ _
    refine ⟨hclear.1, ?_⟩
    have hend := L.lapEnd_mod h0
    have hb := L.writepos_bounds
    have hfar : w.lapEnd + 4 ≤ w.ring.writepos ∨
        w.ring.writepos + hdrSize + f.pSize ≤ w.lapEnd := by
      obtain hlen | ⟨hne, -⟩ := hw.next
      · omega
      have hpos := c.pos
      rw [if_neg (by omega)] at hpos
      by_cases hl : w.due i = w.hist.lap
      · rw [if_pos (by omega)] at hpos
        rw [ho] at hov
        simp only [Bool.false_eq_true, false_iff] at hov
        omega
      · have hs := L.write_stands t h c ho hw hd
        obtain ⟨-, hclr⟩ := L.standing_of_write t h hd hs
        have hge := L.standing_ge (c.stands hd)
        have hpast := L.end_le_lapEnd hge (by omega)
        have hspan := span_bounds h hsize
        obtain ⟨x, -, hxp, hxe, -⟩ := L.get hd
        have hold : w.ring.writepos ≤ posAt w.hist.log (w.due i) := by
          rcases c.stands hd with h' | h' <;> omega
        unfold span hdrSize at *
        omega
    rw [loadLE_congr (storeFrame_agree _ hfar)]
    exact hclear.2

theorem write_cursor : Cursor (w.write f t) i := by
  have hdue : (w.write f t).due i = w.due i := rfl
  have hlog : (w.write f t).hist.log = w.hist.log ++ [⟨place w.ring f.pSize, f⟩] := rfl
  have hlen : (w.write f t).hist.log.length = w.hist.log.length + 1 := length_snoc _ _
  have hle := c.le
  have hlt := L.lap_lt
  have hnil := L.lap_nil
  refine ⟨by omega, ?_, ?_, ?_, ?_⟩
  · have hread : (w.write f t).ring.readpos i = w.ring.readpos i := by
      change (WrtieBuffer w.ring f t).readpos i = _
      rw [WrtieBuffer_readpos]
    have hpos := c.pos
    rw [hread, hdue, if_neg (by omega), hlog]
    by_cases hd : w.due i = w.hist.log.length
    · rw [if_pos hd] at hpos
      rcases w.write_laps f t with ⟨hwt, h1, h2, h3⟩ | ⟨hwf, h1, h2, h3⟩
      · have hn := L.wraps_nonempty h hwt
        have hwp := L.writepos
        rw [if_neg (by omega)] at hwp
        rw [h1, if_pos (by omega), World.lapEnd, h1, hlog, endAt_snoc_lt _ _ (by omega), hpos, hwp]
      · rw [h1, if_neg (by omega), hd, posAt_snoc_last, hpos, h3]
    · have hd' : w.due i < w.hist.log.length := by omega
      rw [if_neg hd] at hpos
      rw [posAt_snoc_lt _ _ hd']
      rcases w.write_laps f t with ⟨hwt, h1, h2, h3⟩ | ⟨hwf, h1, h2, h3⟩
      · rw [h1, if_neg (by omega), hpos, if_neg]
        rintro ⟨hl, -⟩
        have hzero := L.posAt_lap
        obtain hend | ⟨-, hspare⟩ := hw.next
        · omega
        rw [hl, hzero, h3] at hspare
        unfold hdrSize at hspare
        omega
      · rw [h1, hpos]
        by_cases hl : w.due i = w.hist.lap ∧ 0 < w.hist.lap
        · rw [if_pos hl, if_pos hl, World.lapEnd, World.lapEnd, h1, hlog,
            endAt_snoc_lt _ _ (by omega)]
        · rw [if_neg hl, if_neg hl]
  · intro _
    by_cases hd : w.due i = w.hist.log.length
    · refine .inl ⟨?_, by omega⟩
      rcases w.write_laps f t with ⟨hwt, h1, h2, h3⟩ | ⟨hwf, h1, h2, h3⟩ <;> omega
    · exact L.write_stands t h c ho hw (by omega)
  · exact L.write_clear t h c ho hw
  · intro hd _
    rw [hdue] at hd
    by_cases hn : w.hist.log.length = 0
    · rcases hw.fresh hn with hkey | hfol
      · refine .inl ⟨⟨place w.ring f.pSize, f⟩, ?_, hkey⟩
        rw [hlog, ← hn]
        simp
      · exact .inr hfol
    · rcases c.first hd (by omega) with hkey | hfol
      · rw [hlog, keyAt_snoc_lt _ _ (by omega)]
        exact .inl hkey
      · exact .inr hfol

end Unmarked

end Layout

namespace Inv
variable {w : World} (inv : Inv w)
include inv

theorem read {fuel size : ℕ} {i : Fin 16} (hc : Spares w (.read i size)) {p' : Ring}
    {r : ReadResult} (h : ReadBuffer fuel w.ring i size = some (p', r)) :
    Inv ⟨p', w.hist.returned i r⟩ := by
  have L := inv.layout
  have ho := ReadBuffer_onlyReader h
  have hs := SameLaps.of_read h
  refine ⟨hs.layout L, ?_⟩
  intro j hj
  change p'.isuse j = true at hj
  rw [ho.isuse] at hj
  by_cases hji : j = i
  · subst hji
    rcases inv.read_outcome hj hc h with ⟨hpos, hflag, hno⟩ | hout
    · have hlast : (w.hist.returned j r).last j = w.hist.last j := by
        cases r with
        | success out => exact absurd rfl (hno out)
        | noBuffer => rfl
        | tooSmall => rfl
      exact (inv.reader j hj).same hs hpos hflag hlast
    · obtain ⟨k, x, hx, hk, hclear, rfl, hflag, hpos, -⟩ := hout
      have hlast := L.returned_last (i := j) hx hk
      refine ⟨?_, ?_, ?_⟩
      · intro l hl
        simp only [hlast] at hl
        obtain rfl : w.hist.before + k = l := by simpa using hl
        have := L.standing_lt hk
        change _ < w.hist.before + w.hist.log.length
        omega
      · intro hm
        change p'.overwriteread j = true at hm
        rw [hflag] at hm
        cases hm
      · intro _
        exact L.cursor_after hk hclear hs (due_eq_succ hlast) hpos
  · exact (inv.reader j hj).same hs (ho.readpos j hji) (ho.overwriteread j hji)
      (w.hist.returned_last_of_ne hji r)

theorem unlock (i : Fin 16) : Inv { w with ring := unlockRead w.ring i } := by
  have hs : SameLaps w { w with ring := unlockRead w.ring i } :=
    ⟨rfl, rfl, rfl, rfl, rfl, rfl, rfl, .refl _ _ _⟩
  exact ⟨hs.layout inv.layout, fun j hj => (inv.reader j hj).same hs rfl rfl rfl⟩

theorem release (i : Fin 16) : Inv { w with ring := ReleaseReader w.ring i } := by
  have hs : SameLaps w { w with ring := ReleaseReader w.ring i } :=
    ⟨rfl, rfl, rfl, rfl, rfl, rfl, rfl, .refl _ _ _⟩
  refine ⟨hs.layout inv.layout, fun j hj => ?_⟩
  have hold : w.ring.isuse j = true := by
    by_cases hji : j = i
    · subst hji
      simp [ReleaseReader] at hj
    · simpa [ReleaseReader, Function.update_of_ne hji] using hj
  exact (inv.reader j hold).same hs rfl rfl rfl

theorem outside (m : Memory) : Inv { w with ring := withOutside w.ring m } := by
  have hs : SameLaps w { w with ring := withOutside w.ring m } := by
    refine ⟨rfl, rfl, rfl, rfl, rfl, rfl, rfl, ?_⟩
    intro a _ ha
    exact if_pos (by omega)
  exact ⟨hs.layout inv.layout, fun j hj => (inv.reader j hj).same hs rfl rfl rfl⟩

theorem reset : Inv w.reset := by
  refine ⟨inv.layout.reset, fun i hi => ?_⟩
  have seen := (inv.reader i hi).seen
  have hdue : w.reset.due i = 0 := by
    cases hl : w.hist.last i with
    | none => simp [World.due, World.reset, hl]
    | some j =>
      have := seen j (by simp [hl])
      simp only [World.due, World.reset, hl]
      omega
  refine ⟨?_, ?_, ?_⟩
  · exact fun j hj => seen j hj
  · intro hm
    cases hm
  · intro _
    refine ⟨by omega, ?_, fun h => ?_, fun _ h => ?_, fun _ h => ?_⟩
    · rw [hdue]
      rfl
    · simp [World.reset] at h
    · simp [World.reset] at h
    · simp [World.reset] at h

theorem getIndex : Inv w.getIndex := by
  unfold World.getIndex GetReadIndex
  cases hf : (List.finRange 16).find? fun i => !w.ring.isuse i with
  | none => exact inv
  | some i =>
    simp only
    have hs : SameLaps w
        ⟨{ w.ring with
            overwriteread := Function.update w.ring.overwriteread i true
            isuse := Function.update w.ring.isuse i true },
          { w.hist with last := Function.update w.hist.last i none }⟩ :=
      ⟨rfl, rfl, rfl, rfl, rfl, rfl, rfl, .refl _ _ _⟩
    refine ⟨hs.layout inv.layout, fun j hj => ?_⟩
    by_cases hji : j = i
    · subst hji
      refine ⟨?_, ?_, ?_⟩
      · intro l hl
        simp at hl
      · intro _ k _ l hl
        simp at hl
      · intro hm
        simp at hm
    · have hold : w.ring.isuse j = true := by simpa [Function.update_of_ne hji] using hj
      exact (inv.reader j hold).same hs rfl (Function.update_of_ne hji _ _)
        (Function.update_of_ne hji _ _)

theorem write {f : Frame} (t : Tick) (h : hdrSize + f.pSize ≤ w.ring.bufsize)
    (hc : Spares w (.write f t)) : Inv (w.write f t) := by
  have L := inv.layout
  have hlen : (w.write f t).hist.log.length = w.hist.log.length + 1 := length_snoc _ _
  refine ⟨L.write t h, fun i hi => ?_⟩
  change (WrtieBuffer w.ring f t).isuse i = true at hi
  rw [WrtieBuffer_isuse] at hi
  have ok := inv.reader i hi
  have hflag : (w.write f t).ring.overwriteread i =
      if overwrites w.ring f.pSize i then true else w.ring.overwriteread i :=
    WrtieBuffer_overwriteread _ _ _ _
  refine ⟨?_, ?_, ?_⟩
  · intro j hj
    have := ok.seen j hj
    change j < w.hist.before + _
    omega
  · intro hm k hk j hj
    change j < w.hist.before + k
    by_cases hlast : k < w.hist.log.length
    · obtain ⟨hold, -⟩ := L.standing_of_write t h hlast hk
      cases hmo : w.ring.overwriteread i with
      | true => exact ok.marked hmo k hold j hj
      | false =>
        have ho : overwrites w.ring f.pSize i = true := by
          by_contra ho
          rw [hflag, if_neg ho, hmo] at hm
          cases hm
        exact last_lt_due hj (L.write_marks t h (ok.cursor hmo) ho hlast hk)
    · have := ok.seen j hj
      have := (L.write t h).standing_lt hk
      omega
  · intro hm
    have ho : overwrites w.ring f.pSize i = false := by
      by_contra ho
      rw [hflag, if_pos (by simpa using ho)] at hm
      cases hm
    rw [hflag, ho, if_neg (by simp)] at hm
    exact L.write_cursor t h (ok.cursor hm) ho (hc i hi hm ho)

theorem step {fuel : ℕ} {w' : World} {op : Op} (hfit : Fits w op) (hc : Spares w op)
    (h : w.step fuel op = some w') : Inv w' := by
  cases op with
  | write f t =>
    obtain rfl := Option.some.inj h
    exact inv.write t hfit hc
  | read i size =>
    obtain ⟨⟨p', r⟩, hr, rfl⟩ := Option.map_eq_some_iff.mp h
    exact inv.read hc hr
  | unlock i =>
    obtain rfl := Option.some.inj h
    exact inv.unlock i
  | reset =>
    obtain rfl := Option.some.inj h
    exact inv.reset
  | getIndex =>
    obtain rfl := Option.some.inj h
    exact inv.getIndex
  | release i =>
    obtain rfl := Option.some.inj h
    exact inv.release i
  | outside m =>
    obtain rfl := Option.some.inj h
    exact inv.outside m

omit inv in
theorem start {size : ℕ} (h : size < 2 ^ 31) (m : Memory) : Inv (World.start size m) := by
  refine ⟨⟨h, le_refl _, .inl rfl, fun _ => rfl, fun h => ?_, rfl, fun k _ h => ?_,
    fun k x h => ?_, rfl, rfl, fun k x h => ?_⟩, fun i hi => ?_⟩
  · simp [World.start] at h
  · simp [World.start] at h
  · simp [World.start] at h
  · simp [World.start] at h
  · cases hi

end Inv

/-- In every run whose steps spare the readers, a successful read returns an
intact frame that follows the reader's last one, or a later key frame. -/
theorem delivery_gap_free {fuel size : ℕ} (hsize : size < 2 ^ 31) {m : Memory} {ops : List Op}
    {w : World} (run : Run (World.step fuel) (fun w op => Fits w op ∧ Spares w op)
      (World.start size m) ops w)
    {i : Fin 16} (hi : w.ring.isuse i = true) {pReadsize : ℕ} (hc : Spares w (.read i pReadsize))
    {p' : Ring} {out : ReadOut} (h : ReadBuffer fuel w.ring i pReadsize = some (p', .success out)) :
    Delivered w i out := by
  have inv : Inv w := run.invariant Inv
    (fun _ _ _ hw hop hstep => hw.step hop.1 hop.2 hstep) (.start hsize m)
  exact inv.delivered hi hc h

instance (w : World) : (op : Op) → Decidable (Fits w op)
  | .write f _ => inferInstanceAs (Decidable (hdrSize + f.pSize ≤ w.ring.bufsize))
  | .read _ _ | .unlock _ | .reset | .getIndex | .release _ | .outside _ => isTrue trivial

theorem nonzero_none : ∀ e ∈ (none : Option (List UInt8)), ∀ b ∈ e, b ≠ 0 := by
  simp

def filled (b : UInt8) (pType : Int32) (pTimestamp : UInt64) : Frame where
  pBuf := List.replicate 148 b
  pType := pType
  pTimestamp := pTimestamp
  pPlaytime := 0
  enc := none
  size_lt := by simp
  enc_nonzero := nonzero_none

def still : Tick := ⟨1, 1, 1, 0, 0⟩

def keyWritten : World :=
  (World.start 400 fun _ => 0).getIndex.write (filled 0 MB_FT_IFRAME 0) still

def keyRead : World := (keyWritten.step 4 (.read 0 200)).getD keyWritten

def pFrameWritten : World := keyRead.write (filled 0 MB_FT_PFRAME 1) still

theorem delivery_gap_free_second_frame :
    ∃ p', ReadBuffer 4 pFrameWritten.ring 0 200 =
        some (p', .success (outOf 196 (filled 0 MB_FT_PFRAME 1))) ∧
      Delivered pFrameWritten 0 (outOf 196 (filled 0 MB_FT_PFRAME 1)) := by
  have hread : (ReadBuffer 4 pFrameWritten.ring 0 200).map (fun r => r.2) =
      some (.success (outOf 196 (filled 0 MB_FT_PFRAME 1))) := by decide +kernel
  obtain ⟨⟨p', r⟩, hp, rfl⟩ := Option.map_eq_some_iff.mp hread
  refine ⟨p', hp, ?_⟩
  have run : Run (World.step 4) (fun w op => Fits w op ∧ Spares w op)
      (World.start 400 fun _ => 0)
      [.getIndex, .write (filled 0 MB_FT_IFRAME 0) still, .read 0 200,
        .write (filled 0 MB_FT_PFRAME 1) still] pFrameWritten := by
    refine .cons ⟨trivial, trivial⟩ rfl (.cons ⟨by decide +kernel, ?_⟩ rfl
      (.cons ⟨trivial, ?_⟩ (t := keyRead) ?_ (.cons ⟨by decide +kernel, ?_⟩ rfl (.nil _))))
    · -- the reader starts marked
      have marked : ∀ i, (World.start 400 fun _ => 0).getIndex.ring.isuse i = true →
          (World.start 400 fun _ => 0).getIndex.ring.overwriteread i = true := by decide +kernel
      intro i hi hm
      rw [marked i hi] at hm
      cases hm
    · intro _ _ _
      refine ⟨0, .inl (by decide +kernel), ?_, .inl ⟨by decide +kernel, by decide +kernel, ?_⟩⟩
      · intro j hj hlt
        have hlen : keyWritten.hist.log.length = 1 := by decide +kernel
        change j < keyWritten.hist.log.length at hlt
        omega
      · intro hlt
        exact absurd hlt (by decide +kernel)
    · have hsome : (keyWritten.step 4 (.read 0 200)).isSome = true := by decide +kernel
      obtain ⟨v, hv⟩ := Option.isSome_iff_exists.mp hsome
      rw [keyRead, hv, Option.getD_some]
      exact hv
    · have inUse : ∀ i, keyRead.ring.isuse i = true → i = 0 := by decide +kernel
      have hlen : keyRead.hist.log.length = 1 := by decide +kernel
      intro i hi _ _
      obtain rfl := inUse i hi
      refine ⟨.inl (by decide +kernel), ?_, ?_⟩
      · intro hw
        exact absurd hw (by decide +kernel)
      · intro h0
        omega
  exact delivery_gap_free (by omega) run (by decide +kernel)
    (fun _ hm _ => absurd hm (by decide +kernel)) hp

/-- A writer that laps a waiting reader exactly is not noticed. -/
theorem delivery_not_gap_free : ¬ ∀ (fuel size : ℕ) (m : Memory) (ops : List Op) (w : World)
    (i : Fin 16) (pReadsize : ℕ) (p' : Ring) (out : ReadOut), size < 2 ^ 31 →
    Run (World.step fuel) Fits (World.start size m) ops w → w.ring.isuse i = true →
    ReadBuffer fuel w.ring i pReadsize = some (p', .success out) → Delivered w i out := by
  intro claim
  obtain ⟨w, run, hi, hlast, hbefore, hlog, hread⟩ :
      ∃ w, Run (World.step 4) Fits (World.start 400 fun _ => 0)
        [.getIndex, .write (filled 0 MB_FT_IFRAME 0) still, .read 0 200,
          .write (filled 0 MB_FT_PFRAME 1) still, .write (filled 0 MB_FT_PFRAME 2) still,
          .write (filled 0 MB_FT_PFRAME 3) still] w ∧
        (w.ring.isuse 0 = true ∧ w.hist.last 0 = some 0 ∧ w.hist.before = 0 ∧
          w.hist.log.map (fun x => (x.frame.pTimestamp.toNat, x.frame.pType)) =
            [(0, MB_FT_IFRAME), (1, MB_FT_PFRAME), (2, MB_FT_PFRAME), (3, MB_FT_PFRAME)] ∧
          (ReadBuffer 4 w.ring 0 200).map (fun r => r.2) =
            some (.success (outOf 196 (filled 0 MB_FT_PFRAME 3)))) :=
    exists_run (by decide +kernel)
  obtain ⟨⟨p', r⟩, hp, rfl⟩ := Option.map_eq_some_iff.mp hread
  obtain ⟨k, x, hx, -, hout, -, hcase⟩ := claim 4 400 _ _ w 0 200 p' _ (by omega) run hi hp
  have hk : (w.hist.log.map fun x => (x.frame.pTimestamp.toNat, x.frame.pType))[k]? =
      some (x.frame.pTimestamp.toNat, x.frame.pType) := by simp [hx]
  have htime : x.frame.pTimestamp.toNat = 3 := (congrArg ReadOut.pTimestamp hout).symm
  rw [hlog, htime] at hk
  have h3 : k = 3 ∧ x.frame.pType = MB_FT_PFRAME := by
    match k, hk with
    | 0, hk | 1, hk | 2, hk => simp at hk
    | 3, hk => simpa using hk.symm
    | _ + 4, hk => simp at hk
  rcases hcase with ⟨j, hj, hnext⟩ | ⟨hkey, -⟩
  · rw [hlast] at hj
    cases hj
    omega
  · rw [isKey, h3.2] at hkey
    exact absurd hkey (by decide)

end Jagles.MediaBuffer
