import Jagles.MediaBufferReads

set_option autoImplicit false
set_option linter.dupNamespace false

/-!
# Gap-free delivery

A reader that is not marked overwritten has a cursor into the log. The cursor
survives a write that spares the frame it points to, and a marked reader comes
back at a key frame newer than everything it returned.
-/
namespace Jagles.MediaBuffer
open ByteMemory GuardedRuns

def World.follows (w : World) (i : Fin 16) (k : ℕ) : Prop :=
  ∃ j, w.hist.last i = some j ∧ w.hist.before + k = j + 1

/-- No frame written later reaches into the bytes of frame `k`. -/
def Intact (log : List Placed) (k : ℕ) : Prop :=
  ∀ j, k < j → j < log.length →
    posAt log k + hdrSize + sizeAt log k ≤ posAt log j ∨
      posAt log j + hdrSize + sizeAt log j ≤ posAt log k

/-- What a successful read of reader `i` may return in `w`: an intact frame
written since the last reset, which is the successor of the one returned before
or a key frame written later than that one. -/
def Delivered (w : World) (i : Fin 16) (out : ReadOut) : Prop :=
  ∃ (k : ℕ) (x : Placed), w.hist.log[k]? = some x ∧ Intact w.hist.log k ∧
    out = outOf x.pos x.frame ∧ loadBytes w.ring.buf out.buf out.pReadsize = x.frame.pBuf ∧
    (w.follows i k ∨ isKey x.frame ∧ ∀ j ∈ w.hist.last i, j < w.hist.before + k)

def Fits (w : World) : Op → Prop
  | .write f _ => hdrSize + f.pSize ≤ w.ring.bufsize
  | _ => True

/-- The write leaves reader `i` its next frame, leaves no header where the lap
ends, and after a reset starts with a key frame or where the reader stopped. -/
structure WriteSpares (w : World) (f : Frame) (i : Fin 16) : Prop where
  next : w.due i = w.hist.log.length ∨
    (w.ring.readpos i ≠ w.ring.writepos ∧
      (posAt w.hist.log (w.due i) + hdrSize + sizeAt w.hist.log (w.due i) ≤ place w.ring f.pSize ∨
        place w.ring f.pSize + hdrSize + f.pSize ≤ posAt w.hist.log (w.due i)))
  lapEnd : wraps w.ring f.pSize = true → w.ring.writepos + 4 ≤ w.ring.bufsize ∧
    loadLE (storeBytes w.ring.buf hdrSize f.pBuf) w.ring.writepos 4 ≠ hdrFlag
  fresh : w.hist.log.length = 0 → isKey f ∨ w.follows i 0

/-- The newest key frame still stands and fits the caller's buffer, and if it is
in the lap before the current one that lap ends without a header; or there is no
key frame and the chain ends inside the standing frames. -/
def KeyInReach (w : World) (pReadsize : ℕ) : Prop :=
  ∃ k, w.standing k ∧ (∀ j, k < j → j < w.hist.log.length → ¬ keyAt w.hist.log j) ∧
    (keyAt w.hist.log k ∧ padded (sizeAt w.hist.log k) ≤ pReadsize ∧
        (k < w.hist.lap → w.lapEndClear) ∨
      ¬ keyAt w.hist.log k ∧ posAt w.hist.log k = 0 ∧ prevposAt w.hist.log k = 0)

/-- The condition on one step, in the state before it: `WriteSpares` for each
registered reader that is neither marked nor about to be, and `KeyInReach` for a
read of a marked reader. -/
def Spares (w : World) : Op → Prop
  | .write f _ => ∀ i, w.ring.isuse i = true → w.ring.overwriteread i = false →
      overwrites w.ring f.pSize i = false → WriteSpares w f i
  | .read i pReadsize => w.ring.isuse i = true → w.ring.overwriteread i = true →
      w.ring.readpos i ≠ w.ring.writepos → KeyInReach w pReadsize
  | _ => True

structure Cursor (w : World) (i : Fin 16) : Prop where
  le : w.due i ≤ w.hist.log.length
  pos : w.ring.readpos i =
    if w.due i = w.hist.log.length then w.ring.writepos
    else if w.due i = w.hist.lap ∧ 0 < w.hist.lap then w.lapEnd
    else posAt w.hist.log (w.due i)
  stands : w.due i < w.hist.log.length → w.standing (w.due i)
  clear : w.due i ≤ w.hist.lap → 0 < w.hist.lap → w.lapEndClear
  first : w.due i = 0 → 0 < w.hist.log.length → keyAt w.hist.log 0 ∨ w.follows i 0

structure ReaderOk (w : World) (i : Fin 16) : Prop where
  seen : ∀ j ∈ w.hist.last i, j < w.hist.before + w.hist.log.length
  marked : w.ring.overwriteread i = true → ∀ k, w.standing k → ∀ j ∈ w.hist.last i,
    j < w.hist.before + k
  cursor : w.ring.overwriteread i = false → Cursor w i

structure Inv (w : World) : Prop where
  layout : Layout w
  reader : ∀ i, w.ring.isuse i = true → ReaderOk w i

theorem due_eq_succ {w : World} {i : Fin 16} {k : ℕ}
    (h : w.hist.last i = some (w.hist.before + k)) : w.due i = k + 1 := by
  simp only [World.due, h]
  omega

theorem follows_due {w : World} {i : Fin 16} (h : 0 < w.due i) : w.follows i (w.due i) := by
  unfold World.due at *
  unfold World.follows
  cases hl : w.hist.last i with
  | none => simp [hl] at h
  | some j =>
    simp only [hl] at h ⊢
    exact ⟨j, rfl, by omega⟩

theorem last_lt_due {w : World} {i : Fin 16} {j k : ℕ} (hj : j ∈ w.hist.last i)
    (hk : w.due i ≤ k) : j < w.hist.before + k := by
  rw [Option.mem_def] at hj
  simp only [World.due, hj] at hk
  omega

namespace Layout
variable {w : World} (L : Layout w)
include L

theorem intact_of_standing {k : ℕ} (hk : w.standing k) : Intact w.hist.log k := by
  intro j hkj hj
  have hge := L.standing_ge hk
  have hlt := L.standing_lt hk
  obtain ⟨x, -, hpx, hex, hsx, -, -, hlx, -⟩ := L.get hlt
  obtain ⟨y, -, hpy, hey, hsy, -, -, hly, -⟩ := L.get hj
  by_cases same : j < w.hist.lap ∨ w.hist.lap ≤ k
  · have up := L.ascending hge hkj hj same
    omega
  · have hin := L.end_le_writepos (show w.hist.lap ≤ j by omega) hj
    rcases hk with hk | hk <;> omega

theorem latestAt_standing {k : ℕ} (hk : w.standing k) :
    latestAt w.hist.log (posAt w.hist.log k) = some k := by
  refine latestAt_eq (L.standing_lt hk) rfl ?_
  intro j hkj hj hpos
  have clear := L.intact_of_standing hk j hkj hj
  unfold hdrSize at clear
  omega

theorem returned_last {i : Fin 16} {k : ℕ} {x : Placed} (hx : w.hist.log[k]? = some x)
    (hk : w.standing k) : (w.hist.returned i (.success (outOf x.pos x.frame))).last i =
      some (w.hist.before + k) := by
  have hat := L.latestAt_standing hk
  rw [posAt_some hx] at hat
  simp [History.returned, outOf, hat]

theorem cursor_after {w' : World} {i : Fin 16} {k : ℕ} (hk : w.standing k)
    (hclear : k < w.hist.lap → w.lapEndClear) (s : SameLaps w w') (hdue : w'.due i = k + 1)
    (hpos : w'.ring.readpos i = endAt w.hist.log k) : Cursor w' i := by
  have hlt := L.standing_lt hk
  have hwp := L.writepos
  refine ⟨?_, ?_, ?_, ?_, ?_⟩
  · rw [hdue, s.log]
    omega
  · rw [hdue, s.log, s.lap, hpos, s.lapEnd, s.writepos]
    by_cases he : k + 1 = w.hist.log.length
    · rw [if_pos he, hwp, if_neg (by omega), ← he, Nat.add_sub_cancel]
    · rw [if_neg he]
      by_cases hl : k + 1 = w.hist.lap
      · rw [if_pos (by omega)]
        simp only [World.lapEnd, ← hl, Nat.add_sub_cancel]
      · have step := L.next k (L.standing_ge hk) (by omega)
        rw [if_neg hl] at step
        rw [if_neg (by omega), step]
  · intro h
    rw [hdue, s.log] at h
    rw [hdue, s.standing]
    exact L.standing_mono hk (show k ≤ k + 1 by omega) h
  · intro h h0
    rw [hdue, s.lap] at h
    exact s.lapEndClear (hclear (by omega))
  · intro h
    omega

end Layout

theorem Cursor.pending {w : World} {i : Fin 16} (c : Cursor w i)
    (hne : w.ring.readpos i ≠ w.ring.writepos) : w.due i < w.hist.log.length := by
  have hle := c.le
  have hpos := c.pos
  by_contra h
  rw [if_pos (by omega)] at hpos
  exact hne hpos

/-- A read through a cursor returns the frame it points to. -/
theorem Layout.read_cursor {w : World} (L : Layout w) {i : Fin 16} (c : Cursor w i)
    (hm : w.ring.overwriteread i = false) (hne : w.ring.readpos i ≠ w.ring.writepos)
    (fuel size : ℕ) : ∃ (x : Placed) (p' : Ring) (r : ReadResult),
    w.hist.log[w.due i]? = some x ∧ ReadBuffer fuel w.ring i size = some (p', r) ∧
    p'.overwriteread i = false ∧
    (size < padded x.frame.pSize ∧ r = .tooSmall ∧ p'.readpos i = w.ring.readpos i ∨
      padded x.frame.pSize ≤ size ∧ r = .success (outOf x.pos x.frame) ∧
        p'.readpos i = endAt w.hist.log (w.due i)) := by
  have hlt := c.pending hne
  obtain ⟨x, hx, hp, -⟩ := L.get hlt
  have hs := L.stored _ x hx (c.stands hlt)
  have hland : w.ring.readpos i = x.pos ∨
      (x.pos = 0 ∧ (hdrAt w.ring.buf (w.ring.readpos i)).flag ≠ hdrFlag) := by
    have hpos := c.pos
    rw [if_neg (by omega)] at hpos
    by_cases hl : w.due i = w.hist.lap ∧ 0 < w.hist.lap
    · rw [if_pos hl] at hpos
      refine .inr ⟨?_, ?_⟩
      · rw [← hp, hl.1]
        exact L.posAt_lap
      · rw [hpos]
        exact (c.clear (by omega) hl.2).2
    · rw [if_neg hl, hp] at hpos
      exact .inl hpos
  have hread := (ReadBuffer_locked fuel size hne).trans (readLocked_unmarked fuel size hm)
  rw [deliver_stored (lockRead w.ring i) hs hland] at hread
  by_cases hsz : size < padded x.frame.pSize
  · rw [if_pos hsz] at hread
    exact ⟨x, _, _, hx, hread, hm, .inl ⟨hsz, rfl, rfl⟩⟩
  · rw [if_neg hsz] at hread
    refine ⟨x, _, _, hx, hread, hm, .inr ⟨by omega, rfl, ?_⟩⟩
    rw [← L.end_u32 hx]
    exact Function.update_self _ _ _

theorem Layout.read_marked {w : World} (L : Layout w) {i : Fin 16} {k fuel size : ℕ}
    (hm : w.ring.overwriteread i = true) (hne : w.ring.readpos i ≠ w.ring.writepos)
    (hk : w.standing k) (newest : ∀ j, k < j → j < w.hist.log.length → ¬ keyAt w.hist.log j)
    (hkey : keyAt w.hist.log k) (hsize : padded (sizeAt w.hist.log k) ≤ size)
    (hfuel : w.hist.log.length - 1 - k < fuel) : ∃ (x : Placed) (p' : Ring),
    w.hist.log[k]? = some x ∧
    ReadBuffer fuel w.ring i size = some (p', .success (outOf x.pos x.frame)) ∧
    p'.overwriteread i = false ∧ p'.readpos i = endAt w.hist.log k := by
  obtain ⟨x, hx, hp, -, hz, -⟩ := L.get (L.standing_lt hk)
  have hs := L.stored k x hx hk
  obtain ⟨count, hfound, -⟩ := L.keySearch_found (pred32 w.ring.writecount) hk newest hkey hfuel
  have hread := (ReadBuffer_locked fuel size hne).trans
    (readLocked_found fuel size hm hfound)
  rw [hz] at hsize
  rw [deliver_stored (unmark w.ring i count) hs (.inl hp), if_neg (by omega)] at hread
  refine ⟨x, _, hx, hread, Function.update_self _ _ _, ?_⟩
  rw [← L.end_u32 hx]
  exact Function.update_self _ _ _

theorem Layout.read_missing {w : World} (L : Layout w) {i : Fin 16} {k fuel : ℕ} (size : ℕ)
    (hm : w.ring.overwriteread i = true) (hne : w.ring.readpos i ≠ w.ring.writepos)
    (hk : w.standing k) (newest : ∀ j, k < j → j < w.hist.log.length → ¬ keyAt w.hist.log j)
    (hkey : ¬ keyAt w.hist.log k) (hend : posAt w.hist.log k = 0 ∧ prevposAt w.hist.log k = 0)
    (hfuel : w.hist.log.length - 1 - k < fuel) : ∃ p' : Ring,
    ReadBuffer fuel w.ring i size = some (p', .noBuffer) ∧
    p'.overwriteread i = true ∧ p'.readpos i = w.ring.readpos i := by
  obtain ⟨count, hmiss⟩ :=
    L.keySearch_missing (pred32 w.ring.writecount) hk newest hkey hend hfuel
  have hread := (ReadBuffer_locked fuel size hne).trans
    (readLocked_missing fuel size hm hmiss)
  exact ⟨_, hread, hm, rfl⟩

theorem Layout.read_short {w : World} (L : Layout w) {i : Fin 16} {k fuel : ℕ} (size : ℕ)
    (hm : w.ring.overwriteread i = true) (hne : w.ring.readpos i ≠ w.ring.writepos)
    (hk : w.standing k) (newest : ∀ j, k < j → j < w.hist.log.length → ¬ keyAt w.hist.log j)
    (hfuel : fuel ≤ w.hist.log.length - 1 - k) : ReadBuffer fuel w.ring i size = none :=
  (ReadBuffer_locked fuel size hne).trans (readLocked_running fuel size hm
    (L.keySearch_short (pred32 w.ring.writecount) hk newest hfuel))

theorem Inv.read_outcome {w : World} (inv : Inv w) {i : Fin 16} (hi : w.ring.isuse i = true)
    {fuel size : ℕ} (hc : Spares w (.read i size)) {p' : Ring} {r : ReadResult}
    (h : ReadBuffer fuel w.ring i size = some (p', r)) :
    (p'.readpos i = w.ring.readpos i ∧ p'.overwriteread i = w.ring.overwriteread i ∧
      ∀ out, r ≠ .success out) ∨
    ∃ (k : ℕ) (x : Placed), w.hist.log[k]? = some x ∧ w.standing k ∧
      (k < w.hist.lap → w.lapEndClear) ∧ r = .success (outOf x.pos x.frame) ∧
      p'.overwriteread i = false ∧ p'.readpos i = endAt w.hist.log k ∧
      (w.follows i k ∨ isKey x.frame ∧ ∀ j ∈ w.hist.last i, j < w.hist.before + k) := by
  have L := inv.layout
  have ok := inv.reader i hi
  by_cases hne : w.ring.readpos i = w.ring.writepos
  · rw [ReadBuffer_empty fuel size hne] at h
    obtain ⟨rfl, rfl⟩ := Prod.mk.inj (Option.some.inj h)
    exact .inl ⟨rfl, rfl, by simp⟩
  cases hm : w.ring.overwriteread i with
  | false =>
    have c := ok.cursor hm
    obtain ⟨x, q, s, hx, hread, hq, hcase⟩ := L.read_cursor c hm hne fuel size
    rw [hread] at h
    obtain ⟨rfl, rfl⟩ := Prod.mk.inj (Option.some.inj h)
    rcases hcase with ⟨-, rfl, hpos⟩ | ⟨-, rfl, hpos⟩
    · exact .inl ⟨hpos, hq, by simp⟩
    · refine .inr ⟨w.due i, x, hx, c.stands (c.pending hne), ?_, rfl, hq, hpos, ?_⟩
      · intro hl
        exact c.clear (by omega) (by omega)
      · by_cases hd : w.due i = 0
        · rcases c.first hd (by have := c.pending hne; omega) with hkey | hfol
          · rw [hd] at hx ⊢
            exact .inr ⟨(keyAt_some hx).mp hkey, fun j hj => last_lt_due hj (by omega)⟩
          · rw [hd]
            exact .inl hfol
        · exact .inl (follows_due (by omega))
  | true =>
    obtain ⟨k, hk, newest, hcase⟩ := hc hi hm hne
    by_cases hfuel : w.hist.log.length - 1 - k < fuel
    · rcases hcase with ⟨hkey, hsize, hclear⟩ | ⟨hkey, hend⟩
      · obtain ⟨x, q, hx, hread, hq, hpos⟩ := L.read_marked hm hne hk newest hkey hsize hfuel
        rw [hread] at h
        obtain ⟨rfl, rfl⟩ := Prod.mk.inj (Option.some.inj h)
        exact .inr ⟨k, x, hx, hk, hclear, rfl, hq, hpos,
          .inr ⟨(keyAt_some hx).mp hkey, ok.marked hm k hk⟩⟩
      · obtain ⟨q, hread, hq, hpos⟩ := L.read_missing size hm hne hk newest hkey hend hfuel
        rw [hread] at h
        obtain ⟨rfl, rfl⟩ := Prod.mk.inj (Option.some.inj h)
        exact .inl ⟨hpos, hq, by simp⟩
    · rw [L.read_short size hm hne hk newest (by omega)] at h
      cases h

theorem Inv.delivered {w : World} (inv : Inv w) {i : Fin 16} (hi : w.ring.isuse i = true)
    {fuel size : ℕ} (hc : Spares w (.read i size)) {p' : Ring} {out : ReadOut}
    (h : ReadBuffer fuel w.ring i size = some (p', .success out)) : Delivered w i out := by
  have L := inv.layout
  rcases inv.read_outcome hi hc h with ⟨-, -, hno⟩ | ⟨k, x, hx, hk, -, hr, -, -, hfol⟩
  · exact absurd rfl (hno out)
  · obtain rfl : out = outOf x.pos x.frame := by simpa using hr
    exact ⟨k, x, hx, L.intact_of_standing hk, rfl, (L.stored k x hx hk).payload, hfol⟩

end Jagles.MediaBuffer
