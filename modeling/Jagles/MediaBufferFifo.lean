import Jagles.MediaBufferGapFree

set_option autoImplicit false
set_option linter.dupNamespace false

/-!
# Within one lap the buffer is a queue

`Fifo` says what the buffer is for: a list of frames and, for each reader, the
place it has come to. As long as everything written fits the buffer, the bytes
that the readers get are those the queue gives them.
-/
namespace Jagles.MediaBuffer
open ByteMemory GuardedRuns

structure FrameView where
  payload : List UInt8
  pReadsize : ℕ
  pType : Int32
  pTimestamp : ℕ
  pPlaytime : ℕ
  enc : List UInt8
  deriving DecidableEq

def Frame.view (f : Frame) : FrameView where
  payload := f.pBuf
  pReadsize := f.pSize
  pType := f.pType
  pTimestamp := f.pTimestamp.toNat
  pPlaytime := f.pPlaytime.toNat
  enc := f.enc.getD []

inductive Received where
  | frame (v : FrameView)
  | noBuffer
  | tooSmall
  deriving DecidableEq

def received (p : Ring) : ReadResult → Received
  | .success out =>
    .frame
      { payload := loadBytes p.buf out.buf out.pReadsize
        pReadsize := out.pReadsize
        pType := out.pType
        pTimestamp := out.pTimestamp
        pPlaytime := out.pPlaytime
        enc := out.enc }
  | .noBuffer => .noBuffer
  | .tooSmall => .tooSmall

def World.emitted (fuel : ℕ) (w : World) : Op → Option (Fin 16 × Received)
  | .read i pReadsize =>
    (ReadBuffer fuel w.ring i pReadsize).map fun r => (i, received r.1 r.2)
  | _ => none

def World.trace (fuel : ℕ) : World → List Op → Option (World × List (Fin 16 × Received))
  | w, [] => some (w, [])
  | w, op :: ops => (w.step fuel op).bind fun w' =>
    (World.trace fuel w' ops).map fun r => (r.1, (w.emitted fuel op).toList ++ r.2)

structure Fifo where
  log : List Frame
  isuse : Fin 16 → Bool
  cursor : Fin 16 → Option ℕ

def Fifo.start : Fifo := ⟨[], fun _ => false, fun _ => none⟩

/-- The index of the next frame for reader `i`: the newest key frame until it
has returned one. -/
def Fifo.next (s : Fifo) (i : Fin 16) : Option ℕ :=
  match s.cursor i with
  | none => newest (fun k => s.log[k]?.any fun f => decide (isKey f)) s.log.length
  | some d => if d < s.log.length then some d else none

def Fifo.step (s : Fifo) : Op → Fifo
  | .write f _ => { s with log := s.log ++ [f] }
  | .read i _ =>
    match s.next i with
    | some k => { s with cursor := Function.update s.cursor i (some (k + 1)) }
    | none => s
  | .getIndex =>
    match (List.finRange 16).find? fun i => !s.isuse i with
    | some i => { s with isuse := Function.update s.isuse i true }
    | none => s
  | .unlock _ | .reset | .release _ | .outside _ => s

def Fifo.emitted (s : Fifo) : Op → Option (Fin 16 × Received)
  | .read i _ =>
    match (s.next i).bind fun k => s.log[k]? with
    | some f => some (i, .frame f.view)
    | none => some (i, .noBuffer)
  | _ => none

def Fifo.trace : Fifo → List Op → Fifo × List (Fin 16 × Received)
  | s, [] => (s, [])
  | s, op :: ops =>
    let r := Fifo.trace (s.step op) ops
    (r.1, (s.emitted op).toList ++ r.2)

def footprint (f : Frame) : ℕ := hdrSize + (f.pSize + 3) / 4 * 4

/-- One lap: the frames fit the buffer side by side, registered readers read
with room for the frame they are due, and no reader leaves. -/
def Fifo.Admits (s : Fifo) (bufsize : ℕ) : Op → Prop
  | .write f _ =>
    (s.log.map footprint).sum + footprint f ≤ bufsize ∧ (f.enc.getD []).length ≤ 5
  | .read i pReadsize => s.isuse i = true ∧
    ∀ f ∈ (s.next i).bind fun k => s.log[k]?, padded f.pSize ≤ pReadsize
  | .unlock _ | .getIndex | .outside _ => True
  | .reset | .release _ => False

instance (s : Fifo) (bufsize : ℕ) : (op : Op) → Decidable (s.Admits bufsize op)
  | .write f _ => inferInstanceAs
    (Decidable ((s.log.map footprint).sum + footprint f ≤ bufsize ∧ (f.enc.getD []).length ≤ 5))
  | .read i n => inferInstanceAs (Decidable (s.isuse i = true ∧
      ∀ f ∈ (s.next i).bind fun k => s.log[k]?, padded f.pSize ≤ n))
  | .unlock _ | .getIndex | .outside _ => isTrue trivial
  | .reset | .release _ => isFalse id

def Fifo.OneLap (bufsize : ℕ) : Fifo → List Op → Prop
  | _, [] => True
  | s, op :: ops => s.Admits bufsize op ∧ Fifo.OneLap bufsize (s.step op) ops

theorem Fifo.next_spec {s : Fifo} {i : Fin 16} {k : ℕ} (h : s.next i = some k) :
    ∃ f, s.log[k]? = some f ∧ (s.cursor i = none → isKey f) ∧ ∀ d ∈ s.cursor i, k = d := by
  unfold Fifo.next at h
  cases hc : s.cursor i with
  | none =>
    simp only [hc] at h
    rcases newest_spec (fun k => s.log[k]?.any fun f => decide (isKey f)) s.log.length with
      ⟨l, hl, -, hkey, -⟩ | ⟨hnone, -⟩
    · rw [hl] at h
      cases h
      obtain ⟨f, hf, hk⟩ := (Option.any_eq_true _ _).mp hkey
      exact ⟨f, hf, fun _ => by simpa using hk, fun d hd => by cases hd⟩
    · rw [hnone] at h
      cases h
  | some d =>
    simp only [hc] at h
    split at h
    · rename_i hd
      cases h
      refine ⟨_, List.getElem?_eq_getElem hd, ?_, ?_⟩
      · intro hno
        cases hno
      · intro e he
        simpa using he
    · cases h

theorem footprint_eq {f : Frame} (h : footprint f < 2 ^ 31) : span f = footprint f := by
  unfold footprint hdrSize at h
  have hp := padded_bounds f.pSize (by omega)
  unfold span footprint
  omega

/-- The world holds the frames of the queue in one lap, and every registered
reader is marked at offset zero or has its cursor where the queue has it. -/
structure Refines (w : World) (s : Fifo) : Prop where
  inv : Inv w
  lap : w.hist.lap = 0
  log : w.hist.log.map Placed.frame = s.log
  used : w.ring.writepos = (s.log.map footprint).sum
  enc : ∀ f ∈ s.log, (f.enc.getD []).length ≤ 5
  isuse : w.ring.isuse = s.isuse
  free : ∀ i, s.isuse i = false → s.cursor i = none ∧ w.ring.readpos i = 0
  marked : ∀ i, s.isuse i = true → w.ring.overwriteread i = true →
    s.cursor i = none ∧ w.ring.readpos i = 0
  cursor : ∀ i, s.isuse i = true → w.ring.overwriteread i = false →
    s.cursor i = some (w.due i) ∧ 0 < w.due i

namespace Refines
variable {w : World} {s : Fifo} (r : Refines w s)
include r

theorem length : w.hist.log.length = s.log.length := by
  rw [← r.log, List.length_map]

theorem get (k : ℕ) : s.log[k]? = w.hist.log[k]?.map Placed.frame := by
  rw [← r.log, List.getElem?_map]

theorem standing {k : ℕ} (hk : k < w.hist.log.length) : w.standing k :=
  .inl ⟨by rw [r.lap]; omega, hk⟩

theorem reader_cursor {i : Fin 16} (hi : s.isuse i = true)
    (hm : w.ring.overwriteread i = false) : Cursor w i := by
  rw [← r.isuse] at hi
  exact (r.inv.reader i hi).cursor hm

theorem pending {i : Fin 16} (hi : s.isuse i = true) :
    w.ring.readpos i = w.ring.writepos ↔
      (w.ring.overwriteread i = true ∧ s.log.length = 0) ∨
        (w.ring.overwriteread i = false ∧ w.due i = s.log.length) := by
  have L := r.inv.layout
  have hlen := r.length
  have hwp := L.writepos
  cases hm : w.ring.overwriteread i with
  | true =>
    rw [(r.marked i hi hm).2]
    constructor
    · intro h0
      refine .inl ⟨rfl, ?_⟩
      by_contra hn
      have hp := L.writepos_pos (by omega)
      unfold hdrSize at hp
      omega
    · rintro (⟨-, hn⟩ | ⟨hf, -⟩)
      · rw [hwp, if_pos (by omega)]
      · cases hf
  | false =>
    have c := r.reader_cursor hi hm
    have hpos := c.pos
    have hle := c.le
    constructor
    · intro h0
      refine .inr ⟨rfl, ?_⟩
      by_contra hn
      have hd : w.due i < w.hist.log.length := by omega
      have hin := L.end_le_writepos (show w.hist.lap ≤ w.due i by rw [r.lap]; omega) hd
      obtain ⟨x, -, hxp, hxe, -, -, -, hxl, -⟩ := L.get hd
      rw [if_neg (by omega), if_neg (by rw [r.lap]; omega)] at hpos
      unfold hdrSize at hxl
      omega
    · rintro (⟨hf, -⟩ | ⟨-, hd⟩)
      · cases hf
      · rw [hpos, if_pos (by omega)]

theorem key_iff_keyAt (k : ℕ) :
    (s.log[k]?.any fun f => decide (isKey f)) = true ↔ keyAt w.hist.log k := by
  rw [r.get]
  cases hx : w.hist.log[k]? <;> simp [keyAt, hx]

theorem search {i : Fin 16} (hi : s.isuse i = true) (hm : w.ring.overwriteread i = true)
    (hn : 0 < w.hist.log.length) :
    ∃ k, k < w.hist.log.length ∧ (∀ j, k < j → j < w.hist.log.length → ¬ keyAt w.hist.log j) ∧
      (s.next i = some k ∧ keyAt w.hist.log k ∨
        s.next i = none ∧ ¬ keyAt w.hist.log k ∧ posAt w.hist.log k = 0 ∧
          prevposAt w.hist.log k = 0) := by
  have hnext : s.next i =
      newest (fun k => s.log[k]?.any fun f => decide (isKey f)) s.log.length := by
    simp only [Fifo.next, (r.marked i hi hm).1]
  have hno {j : ℕ} (h : (s.log[j]?.any fun f => decide (isKey f)) = false) :
      ¬ keyAt w.hist.log j := by
    rw [← r.key_iff_keyAt, h]
    simp
  rw [hnext, r.length]
  rcases newest_spec (fun k => s.log[k]?.any fun f => decide (isKey f)) s.log.length with
    ⟨k, hk, hlt, hkey, hlater⟩ | ⟨hnone, hall⟩
  · exact ⟨k, hlt, fun j hkj hj => hno (hlater j hkj hj), .inl ⟨hk, (r.key_iff_keyAt k).mp hkey⟩⟩
  · have hzero := r.inv.layout.posAt_lap
    rw [r.lap] at hzero
    refine ⟨0, by rw [← r.length]; exact hn, fun j _ hj => hno (hall j hj),
      .inr ⟨hnone, ?_, hzero, rfl⟩⟩
    exact hno (hall 0 (by rw [← r.length]; exact hn))

/-- A read with room for the frame the queue has next meets the condition on a
step and does what the queue does. -/
theorem read_result {i : Fin 16} {fuel size : ℕ} (hi : s.isuse i = true)
    (hroom : ∀ f ∈ (s.next i).bind fun k => s.log[k]?, padded f.pSize ≤ size)
    (hfuel : s.log.length ≤ fuel) : Spares w (.read i size) ∧
    ∃ p' res, ReadBuffer fuel w.ring i size = some (p', res) ∧
      ((s.next i = none ∧ res = .noBuffer ∧ p'.readpos i = w.ring.readpos i ∧
          p'.overwriteread i = w.ring.overwriteread i) ∨
        ∃ k x, s.next i = some k ∧ w.hist.log[k]? = some x ∧
          res = .success (outOf x.pos x.frame) ∧ p'.overwriteread i = false) := by
  have L := r.inv.layout
  have hlen := r.length
  have hpend := r.pending hi
  have hroom' {k : ℕ} {x : Placed} (hk : s.next i = some k) (hx : w.hist.log[k]? = some x) :
      padded x.frame.pSize ≤ size := by
    apply hroom
    rw [hk, Option.bind_some, r.get, hx]
    rfl
  by_cases hne : w.ring.readpos i = w.ring.writepos
  · refine ⟨fun _ _ hno => absurd hne hno, w.ring, .noBuffer, ReadBuffer_empty fuel size hne,
      .inl ⟨?_, rfl, rfl, rfl⟩⟩
    rcases hpend.mp hne with ⟨hm, h0⟩ | ⟨hm, hd⟩
    · simp [Fifo.next, (r.marked i hi hm).1, h0, newest]
    · simp [Fifo.next, (r.cursor i hi hm).1, hd]
  cases hm : w.ring.overwriteread i with
  | true =>
    have hn : 0 < w.hist.log.length := by
      by_contra h0
      exact hne (hpend.mpr (.inl ⟨hm, by omega⟩))
    obtain ⟨k, hk, hlater, hcase⟩ := r.search hi hm hn
    have hst := r.standing hk
    rcases hcase with ⟨hnext, hkey⟩ | ⟨hnext, hkey, hend⟩
    · obtain ⟨x, hx, -, -, hz, -⟩ := L.get hk
      have hsz := hroom' hnext hx
      rw [← hz] at hsz
      obtain ⟨y, p', hy, hread, hflag, -⟩ :=
        @Layout.read_marked w L i k fuel size hm hne hst hlater hkey hsz (by omega)
      refine ⟨fun _ _ _ => ⟨k, hst, hlater, .inl ⟨hkey, hsz, fun h => ?_⟩⟩, p', _, hread,
        .inr ⟨k, y, hnext, hy, rfl, hflag⟩⟩
      rw [r.lap] at h
      omega
    · obtain ⟨p', hread, hflag, hpos⟩ :=
        @Layout.read_missing w L i k fuel size hm hne hst hlater hkey hend (by omega)
      exact ⟨fun _ _ _ => ⟨k, hst, hlater, .inr ⟨hkey, hend⟩⟩, p', _, hread,
        .inl ⟨hnext, rfl, hpos, hflag⟩⟩
  | false =>
    have c := r.reader_cursor hi hm
    have hd := c.pending hne
    obtain ⟨x, p', res, hx, hread, hflag, hcase⟩ := L.read_cursor c hm hne fuel size
    have hnext : s.next i = some (w.due i) := by
      simp only [Fifo.next, (r.cursor i hi hm).1]
      rw [if_pos (by omega)]
    have hsz := hroom' hnext hx
    rcases hcase with ⟨hsmall, -⟩ | ⟨-, rfl, -⟩
    · omega
    · exact ⟨fun _ hmark _ => absurd (hm.symm.trans hmark) (by simp), p', _, hread,
        .inr ⟨w.due i, x, hnext, hx, rfl, hflag⟩⟩

omit r in
theorem received_outOf {p : Ring} {a prevpos : ℕ} {f : Frame} (hs : Stored p.buf a prevpos f)
    (henc : (f.enc.getD []).length ≤ 5) : received p (.success (outOf a f)) = .frame f.view := by
  simp only [received, outOf, hs.payload, encField_takeWhile henc, Frame.view]

/-- The reader's own part of the relation; everything else is untouched by a read. -/
theorem returned {i : Fin 16} {fuel size : ℕ} {p' : Ring} {res : ReadResult} {s' : Fifo}
    (hread : ReadBuffer fuel w.ring i size = some (p', res))
    (inv' : Inv ⟨p', w.hist.returned i res⟩) (hi : s.isuse i = true)
    (hs : s'.log = s.log) (hu : s'.isuse = s.isuse)
    (hc : ∀ j, j ≠ i → s'.cursor j = s.cursor j)
    (hm : p'.overwriteread i = true → s'.cursor i = none ∧ p'.readpos i = 0)
    (hd : p'.overwriteread i = false → s'.cursor i =
      some (World.due ⟨p', w.hist.returned i res⟩ i) ∧
        0 < World.due ⟨p', w.hist.returned i res⟩ i) :
    Refines ⟨p', w.hist.returned i res⟩ s' := by
  have ho := ReadBuffer_onlyReader hread
  have hl := SameLaps.of_read hread
  refine ⟨inv', hl.lap.trans r.lap, ?_, ?_, ?_, ?_, ?_, ?_, ?_⟩
  · rw [hs, ← r.log, ← hl.log]
  · rw [hs, ← r.used]
    exact ho.writepos
  · rw [hs]
    exact r.enc
  · rw [hu, ← r.isuse]
    exact ho.isuse
  · intro j hj
    rw [hu] at hj
    have hji : j ≠ i := by
      rintro rfl
      rw [hi] at hj
      cases hj
    rw [hc j hji]
    exact ⟨(r.free j hj).1, (ho.readpos j hji).trans (r.free j hj).2⟩
  · intro j hj hf
    rw [hu] at hj
    by_cases hji : j = i
    · subst hji
      exact hm hf
    · have hold := r.marked j hj ((ho.overwriteread j hji).symm.trans hf)
      rw [hc j hji]
      exact ⟨hold.1, (ho.readpos j hji).trans hold.2⟩
  · intro j hj hf
    rw [hu] at hj
    by_cases hji : j = i
    · subst hji
      exact hd hf
    · have hold := r.cursor j hj ((ho.overwriteread j hji).symm.trans hf)
      have hdue : World.due ⟨p', w.hist.returned i res⟩ j = w.due j := by
        have hbefore : (w.hist.returned i res).before = w.hist.before := hl.before
        simp only [World.due, w.hist.returned_last_of_ne hji res, hbefore]
      rw [hc j hji, hdue]
      exact hold

theorem read {i : Fin 16} {fuel size : ℕ} (ha : s.Admits w.ring.bufsize (.read i size))
    (hfuel : s.log.length ≤ fuel) : ∃ w', w.step fuel (.read i size) = some w' ∧
    Refines w' (s.step (.read i size)) ∧
    w.emitted fuel (.read i size) = s.emitted (.read i size) := by
  obtain ⟨hi, hroom⟩ := ha
  have L := r.inv.layout
  obtain ⟨hspares, p', res, hread, hcase⟩ := r.read_result hi hroom hfuel
  have inv' := r.inv.read hspares hread
  refine ⟨⟨p', w.hist.returned i res⟩, ?_, ?_, ?_⟩
  · simp only [World.step, hread, Option.map_some]
  · rcases hcase with ⟨hnext, rfl, hpos, hflag⟩ | ⟨k, x, hnext, hx, rfl, hflag⟩
    · simp only [Fifo.step, hnext]
      refine r.returned hread inv' hi rfl rfl (fun _ _ => rfl) ?_ ?_
      · intro hf
        rw [hflag] at hf
        rw [hpos]
        exact r.marked i hi hf
      · intro hf
        rw [hflag] at hf
        exact r.cursor i hi hf
    · simp only [Fifo.step, hnext]
      have hst := r.standing (List.getElem?_eq_some_iff.mp hx).1
      have hdue : World.due ⟨p', w.hist.returned i (.success (outOf x.pos x.frame))⟩ i = k + 1 :=
        due_eq_succ (L.returned_last hx hst)
      refine r.returned hread inv' hi rfl rfl (fun j hj => Function.update_of_ne hj _ _) ?_ ?_
      · intro hf
        rw [hflag] at hf
        cases hf
      · intro _
        rw [hdue]
        exact ⟨Function.update_self _ _ _, by omega⟩
  · simp only [World.emitted, hread, Option.map_some, Fifo.emitted]
    rcases hcase with ⟨hnext, rfl, -⟩ | ⟨k, x, hnext, hx, rfl, -⟩
    · rw [hnext]
      rfl
    · have hst := r.standing (List.getElem?_eq_some_iff.mp hx).1
      have hs := L.stored k x hx hst
      rw [← (ReadBuffer_onlyReader hread).buf] at hs
      have hf : s.log[k]? = some x.frame := by rw [r.get, hx]; rfl
      have henc := r.enc x.frame (List.mem_of_getElem? hf)
      rw [hnext, Option.bind_some, hf, received_outOf hs henc]

theorem behind {i : Fin 16} (hi : s.isuse i = true) (hm : w.ring.overwriteread i = false)
    (hd : w.due i < w.hist.log.length) : w.ring.readpos i = posAt w.hist.log (w.due i) ∧
      endAt w.hist.log (w.due i) ≤ w.ring.writepos := by
  have c := r.reader_cursor hi hm
  have hpos := c.pos
  rw [if_neg (by omega), if_neg (by rw [r.lap]; omega)] at hpos
  exact ⟨hpos, r.inv.layout.end_le_writepos (by rw [r.lap]; omega) hd⟩

theorem readpos_le (i : Fin 16) : w.ring.readpos i ≤ w.ring.writepos := by
  have L := r.inv.layout
  cases hi : s.isuse i with
  | false =>
    have := (r.free i hi).2
    omega
  | true =>
    cases hm : w.ring.overwriteread i with
    | true =>
      have := (r.marked i hi hm).2
      omega
    | false =>
      have c := r.reader_cursor hi hm
      by_cases hd : w.due i < w.hist.log.length
      · obtain ⟨hpos, hend⟩ := r.behind hi hm hd
        obtain ⟨x, -, hxp, hxe, -⟩ := L.get hd
        omega
      · have hpos := c.pos
        have hle := c.le
        rw [if_pos (by omega)] at hpos
        omega

section Write
variable {f : Frame} (hfit : w.ring.writepos + footprint f ≤ w.ring.bufsize)
include hfit

omit r in
theorem frame_fits : hdrSize + f.pSize ≤ w.ring.bufsize := by
  unfold footprint at hfit
  omega

theorem not_wraps : wraps w.ring f.pSize = false := by
  have hsize := r.inv.layout.size
  have hspan := footprint_eq (show footprint f < 2 ^ 31 by omega)
  have hfoot : hdrSize + f.pSize ≤ footprint f := by unfold footprint; omega
  by_contra hw
  have := (r.inv.layout.wraps_iff (frame_fits hfit)).mp (by simpa using hw)
  omega

theorem not_overwrites (i : Fin 16) : overwrites w.ring f.pSize i = false := by
  by_contra ho
  obtain ⟨hlo, -⟩ := (r.inv.layout.overwrites_iff (frame_fits hfit) i).mp (by simpa using ho)
  have := r.readpos_le i
  omega

theorem spares_write (t : Tick) : Spares w (.write f t) := by
  have L := r.inv.layout
  have hwf := r.not_wraps hfit
  intro i hi hm _
  rw [r.isuse] at hi
  obtain ⟨-, hpos⟩ := r.cursor i hi hm
  have c := r.reader_cursor hi hm
  have hle := c.le
  refine ⟨?_, fun hw => ?_, fun h0 => by omega⟩
  · by_cases hd : w.due i < w.hist.log.length
    · obtain ⟨hrp, hend⟩ := r.behind hi hm hd
      obtain ⟨x, -, hxp, hxe, hxs, -, -, hxl, -⟩ := L.get hd
      have hplace : place w.ring f.pSize = w.ring.writepos := by simp [place, hwf]
      have h48 : 0 < hdrSize := by decide
      exact .inr ⟨by omega, .inl (by omega)⟩
    · exact .inl (by omega)
  · rw [hwf] at hw
    cases hw

end Write

theorem write {f : Frame} (t : Tick) (ha : s.Admits w.ring.bufsize (.write f t)) :
    Refines (w.write f t) (s.step (.write f t)) := by
  obtain ⟨hfit, henc⟩ := ha
  have L := r.inv.layout
  have hsize := L.size
  rw [← r.used] at hfit
  have hspan := footprint_eq (show footprint f < 2 ^ 31 by omega)
  have h := frame_fits hfit
  have hwf := r.not_wraps hfit
  have hflag (i : Fin 16) : (w.write f t).ring.overwriteread i = w.ring.overwriteread i := by
    change (WrtieBuffer w.ring f t).overwriteread i = _
    rw [WrtieBuffer_overwriteread, r.not_overwrites hfit i]
    rfl
  have hread (i : Fin 16) : (w.write f t).ring.readpos i = w.ring.readpos i := by
    change (WrtieBuffer w.ring f t).readpos i = _
    rw [WrtieBuffer_readpos]
  refine ⟨r.inv.write t h (r.spares_write hfit t), ?_, ?_, ?_, ?_, ?_, ?_, ?_, ?_⟩
  · rcases w.write_laps f t with ⟨hw, -⟩ | ⟨-, hl, -⟩
    · rw [hwf] at hw
      cases hw
    · rw [hl, r.lap]
  · simp only [World.write, Fifo.step, List.map_append, r.log, List.map_cons, List.map_nil]
  · rw [L.write_writepos t h, hspan]
    simp [place, hwf, Fifo.step, r.used]
  · intro g hg
    rcases List.mem_append.mp hg with hg | hg
    · exact r.enc g hg
    · obtain rfl : g = f := by simpa using hg
      exact henc
  · change (WrtieBuffer w.ring f t).isuse = s.isuse
    rw [WrtieBuffer_isuse, r.isuse]
  · intro i hi
    rw [hread]
    exact r.free i hi
  · intro i hi hm
    rw [hflag] at hm
    rw [hread]
    exact r.marked i hi hm
  · intro i hi hm
    rw [hflag] at hm
    exact r.cursor i hi hm

theorem getIndex : Refines w.getIndex (s.step .getIndex) := by
  have inv' := r.inv.getIndex
  unfold World.getIndex GetReadIndex at inv' ⊢
  simp only [Fifo.step, ← r.isuse]
  cases hf : (List.finRange 16).find? fun i => !w.ring.isuse i with
  | none => exact r
  | some i =>
    have hfree : s.isuse i = false := by
      have := List.find?_some hf
      rw [← r.isuse]
      simpa using this
    rw [hf] at inv'
    have hne {j : Fin 16} (hj : j ≠ i) (h : (Function.update w.ring.isuse i true) j = true) :
        s.isuse j = true := by
      rwa [Function.update_of_ne hj, r.isuse] at h
    refine ⟨inv', r.lap, r.log, r.used, r.enc, rfl, ?_, ?_, ?_⟩
    · intro j hj
      have hji : j ≠ i := by
        rintro rfl
        simp at hj
      simp only [Function.update_of_ne hji] at hj
      exact r.free j (by rw [← r.isuse]; exact hj)
    · intro j hj hm
      by_cases hji : j = i
      · subst hji
        exact r.free j hfree
      · simp only [Function.update_of_ne hji] at hm
        exact r.marked j (hne hji hj) hm
    · intro j hj hm
      by_cases hji : j = i
      · subst hji
        simp at hm
      · simp only [Function.update_of_ne hji] at hm
        have hold := r.cursor j (hne hji hj) hm
        simpa only [World.due, Function.update_of_ne hji] using hold

theorem step {fuel : ℕ} {op : Op} (ha : s.Admits w.ring.bufsize op)
    (hfuel : s.log.length ≤ fuel) : ∃ w', w.step fuel op = some w' ∧ Refines w' (s.step op) ∧
    w.emitted fuel op = s.emitted op := by
  cases op with
  | write f t => exact ⟨_, rfl, r.write t ha, rfl⟩
  | read i size => exact r.read ha hfuel
  | getIndex => exact ⟨_, rfl, r.getIndex, rfl⟩
  | unlock i =>
    exact ⟨_, rfl, ⟨r.inv.unlock i, r.lap, r.log, r.used, r.enc, r.isuse, r.free, r.marked,
      r.cursor⟩, rfl⟩
  | outside m =>
    exact ⟨_, rfl, ⟨r.inv.outside m, r.lap, r.log, r.used, r.enc, r.isuse, r.free, r.marked,
      r.cursor⟩, rfl⟩
  | reset => exact ha.elim
  | release i => exact ha.elim

end Refines

theorem World.step_bufsize {fuel : ℕ} {w w' : World} {op : Op} (h : w.step fuel op = some w') :
    w'.ring.bufsize = w.ring.bufsize := by
  cases op with
  | write f t =>
    obtain rfl := Option.some.inj h
    exact WrtieBuffer_bufsize _ _ _
  | read i size =>
    obtain ⟨⟨p', res⟩, hr, rfl⟩ := Option.map_eq_some_iff.mp h
    exact (ReadBuffer_onlyReader hr).bufsize
  | getIndex =>
    obtain rfl := Option.some.inj h
    unfold World.getIndex GetReadIndex
    cases (List.finRange 16).find? fun i => !w.ring.isuse i <;> rfl
  | unlock i | reset | release i | outside m =>
    obtain rfl := Option.some.inj h
    rfl

theorem Fifo.step_log (s : Fifo) (op : Op) :
    s.log <+: (s.step op).log ∧ (s.step op).log.length ≤ s.log.length + 1 := by
  cases op with
  | write f t => exact ⟨List.prefix_append _ _, by simp [Fifo.step]⟩
  | read i size =>
    simp only [Fifo.step]
    cases s.next i <;> exact ⟨List.prefix_refl _, by simp⟩
  | getIndex =>
    simp only [Fifo.step]
    cases (List.finRange 16).find? fun i => !s.isuse i <;> exact ⟨List.prefix_refl _, by simp⟩
  | unlock i | reset | release i | outside m => exact ⟨List.prefix_refl _, by simp [Fifo.step]⟩

theorem Refines.trace {w : World} {s : Fifo} (r : Refines w s) {size : ℕ} {ops : List Op}
    (fuel : ℕ) (hsize : w.ring.bufsize = size) (hlap : Fifo.OneLap size s ops)
    (hfuel : s.log.length + ops.length ≤ fuel) :
    ∃ w', World.trace fuel w ops = some (w', (s.trace ops).2) ∧ Refines w' (s.trace ops).1 := by
  induction ops generalizing w s with
  | nil => exact ⟨w, rfl, r⟩
  | cons op ops ih =>
    obtain ⟨ha, hrest⟩ := hlap
    rw [List.length_cons] at hfuel
    rw [← hsize] at ha
    obtain ⟨w', hstep, r', hout⟩ := r.step ha (show s.log.length ≤ fuel by omega)
    have hlog := (s.step_log op).2
    obtain ⟨w'', htrace, r''⟩ := ih r' ((World.step_bufsize hstep).trans hsize) hrest (by omega)
    refine ⟨w'', ?_, r''⟩
    simp only [World.trace, hstep, Option.bind_some, htrace, Option.map_some, hout, Fifo.trace]

def framesOf (i : Fin 16) (outs : List (Fin 16 × Received)) : List FrameView :=
  outs.filterMap fun r =>
    match r.2 with
    | .frame v => if r.1 = i then some v else none
    | .noBuffer | .tooSmall => none

namespace Fifo

theorem trace_log (s : Fifo) (ops : List Op) : s.log <+: (s.trace ops).1.log := by
  induction ops generalizing s with
  | nil => exact List.prefix_refl _
  | cons op ops ih => exact (s.step_log op).1.trans (ih (s.step op))

theorem trace_get {s : Fifo} {op : Op} {k : ℕ} {f : Frame} (ops : List Op)
    (h : s.log[k]? = some f) : ((s.step op).trace ops).1.log[k]? = some f := by
  obtain ⟨l, hl⟩ := (s.step_log op).1.trans (trace_log _ ops)
  rw [← hl, List.getElem?_append_left (List.getElem?_eq_some_iff.mp h).1, h]

theorem segment_cons {log : List Frame} {k d : ℕ} {f : Frame} (h : log[k]? = some f)
    (hk : k < d) : ((log.drop k).take (d - k)).map Frame.view =
      f.view :: ((log.drop (k + 1)).take (d - (k + 1))).map Frame.view := by
  obtain ⟨hlt, hget⟩ := List.getElem?_eq_some_iff.mp h
  rw [List.drop_eq_getElem_cons hlt, hget, show d - k = (d - (k + 1)) + 1 by omega,
    List.take_succ_cons, List.map_cons]

theorem framesOf_cons (i : Fin 16) (s : Fifo) (op : Op) (ops : List Op) :
    framesOf i (s.trace (op :: ops)).2 =
      framesOf i (s.emitted op).toList ++ framesOf i ((s.step op).trace ops).2 := by
  simp only [Fifo.trace, framesOf, List.filterMap_append]

theorem step_reader (s : Fifo) (op : Op) (i : Fin 16) :
    ((s.step op).cursor i = s.cursor i ∧ framesOf i (s.emitted op).toList = []) ∨
      ∃ k f, s.next i = some k ∧ s.log[k]? = some f ∧ (s.step op).cursor i = some (k + 1) ∧
        framesOf i (s.emitted op).toList = [f.view] := by
  cases op with
  | read j size =>
    simp only [Fifo.step, Fifo.emitted]
    cases hn : s.next j with
    | none => exact .inl ⟨rfl, rfl⟩
    | some k =>
      obtain ⟨f, hf, -⟩ := Fifo.next_spec hn
      by_cases hji : i = j
      · subst hji
        refine .inr ⟨k, f, hn, hf, Function.update_self _ _ _, ?_⟩
        simp [framesOf, hf]
      · refine .inl ⟨Function.update_of_ne hji _ _, ?_⟩
        simp [framesOf, hf, Ne.symm hji]
  | getIndex =>
    refine .inl ⟨?_, rfl⟩
    simp only [Fifo.step]
    cases (List.finRange 16).find? fun i => !s.isuse i <;> rfl
  | write f t | unlock i | reset | release i | outside m => exact .inl ⟨rfl, rfl⟩

theorem segment_of_cursor {s : Fifo} {i : Fin 16} {d : ℕ} (ops : List Op)
    (hc : s.cursor i = some d) : ∃ d', d ≤ d' ∧ (s.trace ops).1.cursor i = some d' ∧
    framesOf i (s.trace ops).2 =
      (((s.trace ops).1.log.drop d).take (d' - d)).map Frame.view := by
  induction ops generalizing s d with
  | nil => exact ⟨d, le_refl d, hc, by simp [Fifo.trace, framesOf]⟩
  | cons op ops ih =>
    rw [framesOf_cons]
    change ∃ d', d ≤ d' ∧ ((s.step op).trace ops).1.cursor i = some d' ∧ _ =
      List.map _ (List.take _ (List.drop _ ((s.step op).trace ops).1.log))
    rcases s.step_reader op i with ⟨hcur, hout⟩ | ⟨k, f, hnext, hf, hcur, hout⟩
    · rw [hout]
      exact ih (hcur.trans hc)
    · obtain ⟨-, -, -, hkd⟩ := Fifo.next_spec hnext
      obtain rfl := hkd d hc
      obtain ⟨d', hle, hfin, hseg⟩ := ih hcur
      refine ⟨d', by omega, hfin, ?_⟩
      rw [hout, hseg, segment_cons (trace_get ops hf) (by omega)]
      rfl

theorem segment_of_start {s : Fifo} {i : Fin 16} (ops : List Op) (hc : s.cursor i = none) :
    framesOf i (s.trace ops).2 = [] ∨ ∃ k d f, (s.trace ops).1.log[k]? = some f ∧ isKey f ∧
      k < d ∧ (s.trace ops).1.cursor i = some d ∧
      framesOf i (s.trace ops).2 =
        (((s.trace ops).1.log.drop k).take (d - k)).map Frame.view := by
  induction ops generalizing s with
  | nil => exact .inl rfl
  | cons op ops ih =>
    rcases s.step_reader op i with ⟨hcur, hout⟩ | ⟨k, f, hnext, hf, hcur, hout⟩
    · rw [framesOf_cons, hout]
      exact ih (hcur.trans hc)
    · obtain ⟨f', hf', hkey, -⟩ := Fifo.next_spec hnext
      obtain rfl : f = f' := by simpa [hf] using hf'
      obtain ⟨d, hle, hfin, hseg⟩ := segment_of_cursor ops hcur
      refine .inr ⟨k, d, f, trace_get ops hf, hkey hc, by omega, hfin, ?_⟩
      rw [framesOf_cons, hout, hseg]
      exact (segment_cons (trace_get ops hf) (by omega)).symm

end Fifo

theorem Refines.start {size : ℕ} (h : size < 2 ^ 31) (m : Memory) :
    Refines (World.start size m) Fifo.start where
  inv := .start h m
  lap := rfl
  log := rfl
  used := rfl
  enc := by simp [Fifo.start]
  isuse := rfl
  free _ _ := ⟨rfl, rfl⟩
  marked _ hi := by cases hi
  cursor _ hi := by cases hi

/-- Every one-lap run goes through, its reads return what the queue returns, and
each reader gets a gap-free segment of the frames written, from a key frame on. -/
theorem one_lap_fifo (fuel : ℕ) {size : ℕ} (hsize : size < 2 ^ 31) (m : Memory) {ops : List Op}
    (hlap : Fifo.OneLap size Fifo.start ops) (hfuel : ops.length ≤ fuel) :
    ∃ w outs, World.trace fuel (World.start size m) ops = some (w, outs) ∧
      outs = (Fifo.start.trace ops).2 ∧
      ∀ i, framesOf i outs = [] ∨ ∃ k d f, (w.hist.log.map Placed.frame)[k]? = some f ∧ isKey f ∧
        k < d ∧ framesOf i outs =
          (((w.hist.log.map Placed.frame).drop k).take (d - k)).map Frame.view := by
  obtain ⟨w, htrace, r⟩ := (Refines.start hsize m).trace fuel rfl hlap
    (by simpa [Fifo.start] using hfuel)
  refine ⟨w, _, htrace, rfl, fun i => ?_⟩
  rw [r.log]
  rcases Fifo.segment_of_start (s := Fifo.start) (i := i) ops rfl with
    h | ⟨k, d, f, hf, hkey, hlt, -, hseg⟩
  · exact .inl h
  · exact .inr ⟨k, d, f, hf, hkey, hlt, hseg⟩

def videoFrame : Frame :=
  ⟨[1, 2, 3, 4, 5], MB_FT_IFRAME, 7, 8, none, by simp, nonzero_none⟩
def audioFrame : Frame :=
  ⟨[6, 7, 8, 9], MB_FT_AUDIO, 9, 10, some [71, 55, 49, 49, 65], by simp, by simp⟩

theorem one_lap_fifo_two_frames :
    ∃ w, World.trace 6 (World.start 400 fun _ => 0)
      [.write videoFrame still, .getIndex, .read 0 8, .write audioFrame still, .read 0 8,
        .read 0 8] =
      some (w, [(0, .frame videoFrame.view), (0, .frame audioFrame.view), (0, .noBuffer)]) := by
  have hlap : Fifo.OneLap 400 Fifo.start
      [.write videoFrame still, .getIndex, .read 0 8, .write audioFrame still, .read 0 8,
        .read 0 8] :=
    ⟨by decide, trivial, by decide, by decide, by decide, by decide, trivial⟩
  obtain ⟨w, outs, htrace, hout, -⟩ := one_lap_fifo 6 (by omega) (fun _ => 0) hlap (by simp)
  refine ⟨w, ?_⟩
  rw [htrace, hout]
  rfl

end Jagles.MediaBuffer
