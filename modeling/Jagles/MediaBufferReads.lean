import Jagles.MediaBufferSearch

set_option autoImplicit false
set_option linter.dupNamespace false

/-!
# What a read returns

`ReadBuffer` changes only its own reader's fields. At a stored frame it returns
that frame.
-/
namespace Jagles.MediaBuffer
open ByteMemory LinkChains

def outOf (a : ℕ) (f : Frame) : ReadOut where
  buf := a + hdrSize
  pReadsize := f.pSize
  pType := f.pType
  pTimestamp := f.pTimestamp.toNat
  pPlaytime := f.pPlaytime.toNat
  enc := (encField f.enc).takeWhile (· ≠ 0)

/-- Everything but the fields of reader `i` is as it was. -/
structure OnlyReader (i : Fin 16) (p p' : Ring) : Prop where
  writepos : p'.writepos = p.writepos
  lastwritepos : p'.lastwritepos = p.lastwritepos
  writecount : p'.writecount = p.writecount
  buf : p'.buf = p.buf
  bufsize : p'.bufsize = p.bufsize
  isuse : p'.isuse = p.isuse
  readpos : ∀ j, j ≠ i → p'.readpos j = p.readpos j
  overwriteread : ∀ j, j ≠ i → p'.overwriteread j = p.overwriteread j

theorem OnlyReader.refl (i : Fin 16) (p : Ring) : OnlyReader i p p :=
  ⟨rfl, rfl, rfl, rfl, rfl, rfl, fun _ _ => rfl, fun _ _ => rfl⟩

theorem OnlyReader.trans {i : Fin 16} {p q r : Ring} (h : OnlyReader i p q)
    (h' : OnlyReader i q r) : OnlyReader i p r where
  writepos := h'.writepos.trans h.writepos
  lastwritepos := h'.lastwritepos.trans h.lastwritepos
  writecount := h'.writecount.trans h.writecount
  buf := h'.buf.trans h.buf
  bufsize := h'.bufsize.trans h.bufsize
  isuse := h'.isuse.trans h.isuse
  readpos j hj := (h'.readpos j hj).trans (h.readpos j hj)
  overwriteread j hj := (h'.overwriteread j hj).trans (h.overwriteread j hj)

theorem deliver_onlyReader (p : Ring) (i : Fin 16) (pos size : ℕ) :
    OnlyReader i p (deliver p i pos size).1 := by
  simp only [deliver]
  split
  · exact .refl i p
  · exact ⟨rfl, rfl, rfl, rfl, rfl, rfl, fun j hj => Function.update_of_ne hj _ _,
      fun _ _ => rfl⟩

def lockRead (p : Ring) (i : Fin 16) : Ring :=
  { p with readlock := Function.update p.readlock i (p.readlock i + 1) }

def unmark (p : Ring) (i : Fin 16) (count : ℕ) : Ring :=
  { lockRead p i with
    readcount := Function.update p.readcount i count
    overwriteread := Function.update p.overwriteread i false }

section Branches
variable (fuel size : ℕ) {p : Ring} {i : Fin 16}

theorem ReadBuffer_empty (h : p.readpos i = p.writepos) :
    ReadBuffer fuel p i size = some (p, .noBuffer) := if_pos h

theorem ReadBuffer_locked (hne : p.readpos i ≠ p.writepos) :
    ReadBuffer fuel p i size = readLocked fuel p i size := if_neg hne

theorem readLocked_unmarked (hm : p.overwriteread i = false) :
    readLocked fuel p i size = some (deliver (lockRead p i) i (p.readpos i) size) := by
  simp only [readLocked, hm, Bool.false_eq_true, if_false, lockRead]

theorem readLocked_found {pos count : ℕ} (hm : p.overwriteread i = true)
    (h : keySearch p.buf fuel (searchStart p) (pred32 p.writecount) = some (.found pos count)) :
    readLocked fuel p i size = some (deliver (unmark p i count) i pos size) := by
  have hstart : searchStart (lockRead p i) = searchStart p := rfl
  unfold lockRead at hstart
  simp only [readLocked, hm, if_true, hstart, h, lockRead, unmark]

theorem readLocked_missing {count : ℕ} (hm : p.overwriteread i = true)
    (h : keySearch p.buf fuel (searchStart p) (pred32 p.writecount) = some (.missing count)) :
    readLocked fuel p i size = some
      ({ lockRead p i with readcount := Function.update p.readcount i count }, .noBuffer) := by
  have hstart : searchStart (lockRead p i) = searchStart p := rfl
  unfold lockRead at hstart
  simp only [readLocked, hm, if_true, hstart, h, lockRead]

theorem readLocked_running (hm : p.overwriteread i = true)
    (h : keySearch p.buf fuel (searchStart p) (pred32 p.writecount) = none) :
    readLocked fuel p i size = none := by
  have hstart : searchStart (lockRead p i) = searchStart p := rfl
  unfold lockRead at hstart
  simp only [readLocked, hm, if_true, hstart, h]

end Branches

theorem lockRead_onlyReader (p : Ring) (i : Fin 16) : OnlyReader i p (lockRead p i) :=
  ⟨rfl, rfl, rfl, rfl, rfl, rfl, fun _ _ => rfl, fun _ _ => rfl⟩

theorem unmark_onlyReader (p : Ring) (i : Fin 16) (count : ℕ) :
    OnlyReader i p (unmark p i count) :=
  ⟨rfl, rfl, rfl, rfl, rfl, rfl, fun _ _ => rfl, fun _ hj => Function.update_of_ne hj _ _⟩

/-- What the locked part can do: deliver at the read position, or search and then
deliver at the key frame that the links end at, or report that they end elsewhere. -/
theorem readLocked_cases {fuel size : ℕ} {p p' : Ring} {i : Fin 16} {r : ReadResult}
    (h : readLocked fuel p i size = some (p', r)) :
    p.overwriteread i = false ∧ deliver (lockRead p i) i (p.readpos i) size = (p', r) ∨
    p.overwriteread i = true ∧ ∃ n e, Chain (link p.buf) (searchStart p) n e ∧
      link p.buf e = none ∧
        (e < 2 ^ 31 ∧ keyHdr p.buf e ∧
            deliver (unmark p i (pred32^[n] (pred32 p.writecount))) i e size = (p', r) ∨
          ¬ (e < 2 ^ 31 ∧ keyHdr p.buf e) ∧ r = .noBuffer ∧
            p' = { lockRead p i with
              readcount := Function.update p.readcount i (pred32^[n] (pred32 p.writecount)) }) := by
  cases hm : p.overwriteread i with
  | false =>
    rw [readLocked_unmarked fuel size hm] at h
    exact .inl ⟨rfl, Option.some.inj h⟩
  | true =>
    refine .inr ⟨rfl, ?_⟩
    cases hs : keySearch p.buf fuel (searchStart p) (pred32 p.writecount) with
    | none =>
      rw [readLocked_running fuel size hm hs] at h
      cases h
    | some found =>
      obtain ⟨n, e, hc, he, hrep⟩ := chain_of_keySearch hs
      refine ⟨n, e, hc, he, ?_⟩
      by_cases hk : e < 2 ^ 31 ∧ keyHdr p.buf e
      · rw [reported, if_pos hk] at hrep
        rw [readLocked_found fuel size hm (hs.trans (congrArg some hrep))] at h
        exact .inl ⟨hk.1, hk.2, Option.some.inj h⟩
      · rw [reported, if_neg hk] at hrep
        rw [readLocked_missing fuel size hm (hs.trans (congrArg some hrep))] at h
        obtain ⟨hp, hr⟩ := Prod.mk.inj (Option.some.inj h)
        exact .inr ⟨hk, hr.symm, hp.symm⟩

theorem ReadBuffer_cases {fuel size : ℕ} {p p' : Ring} {i : Fin 16} {r : ReadResult}
    (h : ReadBuffer fuel p i size = some (p', r)) :
    p.readpos i = p.writepos ∧ p' = p ∧ r = .noBuffer ∨
      p.readpos i ≠ p.writepos ∧ readLocked fuel p i size = some (p', r) := by
  by_cases hne : p.readpos i = p.writepos
  · rw [ReadBuffer_empty fuel size hne] at h
    obtain ⟨hp, hr⟩ := Prod.mk.inj (Option.some.inj h)
    exact .inl ⟨hne, hp.symm, hr.symm⟩
  · rw [ReadBuffer_locked fuel size hne] at h
    exact .inr ⟨hne, h⟩

theorem readLocked_onlyReader {fuel size : ℕ} {p p' : Ring} {i : Fin 16} {r : ReadResult}
    (h : readLocked fuel p i size = some (p', r)) : OnlyReader i p p' := by
  rcases readLocked_cases h with ⟨-, hd⟩ | ⟨-, n, e, -, -, ⟨-, -, hd⟩ | ⟨-, -, rfl⟩⟩
  · have done := (lockRead_onlyReader p i).trans (deliver_onlyReader _ i (p.readpos i) size)
    rwa [hd] at done
  · have done := (unmark_onlyReader p i (pred32^[n] (pred32 p.writecount))).trans
      (deliver_onlyReader _ i e size)
    rwa [hd] at done
  · exact ⟨rfl, rfl, rfl, rfl, rfl, rfl, fun _ _ => rfl, fun _ _ => rfl⟩

theorem ReadBuffer_onlyReader {fuel size : ℕ} {p p' : Ring} {i : Fin 16} {r : ReadResult}
    (h : ReadBuffer fuel p i size = some (p', r)) : OnlyReader i p p' := by
  rcases ReadBuffer_cases h with ⟨-, rfl, -⟩ | ⟨-, hl⟩
  · exact .refl i p'
  · exact readLocked_onlyReader hl

theorem deliver_stored (p : Ring) {i : Fin 16} {pos a prevpos size : ℕ} {f : Frame}
    (hs : Stored p.buf a prevpos f)
    (ha : pos = a ∨ (a = 0 ∧ (hdrAt p.buf pos).flag ≠ hdrFlag)) :
    deliver p i pos size =
      if size < padded f.pSize then (p, .tooSmall)
      else
        ({ p with
            readcount := Function.update p.readcount i (u32 (p.readcount i + 1))
            readpos := Function.update p.readpos i (u32 (a + span f)) }, .success (outOf a f)) := by
  have hf : (hdrAt p.buf a).flag = hdrFlag := by rw [hs.hdr]; rfl
  have hpos : landing p.buf pos = a := by
    rcases ha with rfl | ⟨rfl, hn⟩
    · exact if_neg (by simpa using hf)
    · exact if_pos hn
  have htype : (UInt32.ofNat (hdrOf a prevpos f).buftype).toInt32 = f.pType := by
    simp [hdrOf]
  have hlen : (hdrOf a prevpos f).buflen = padded f.pSize := rfl
  simp only [deliver, hpos, hs.hdr, htype, hlen]
  split
  · rfl
  · simp only [hdrOf, outOf]

/-- The two worlds have the same frames in the same places. -/
structure SameLaps (w w' : World) : Prop where
  log : w'.hist.log = w.hist.log
  before : w'.hist.before = w.hist.before
  lap : w'.hist.lap = w.hist.lap
  prevLap : w'.hist.prevLap = w.hist.prevLap
  bufsize : w'.ring.bufsize = w.ring.bufsize
  writepos : w'.ring.writepos = w.ring.writepos
  lastwritepos : w'.ring.lastwritepos = w.ring.lastwritepos
  buf : Agree w'.ring.buf w.ring.buf 0 w.ring.bufsize

namespace SameLaps
variable {w w' : World} (s : SameLaps w w')
include s

theorem standing (k : ℕ) : w'.standing k ↔ w.standing k := by
  simp only [World.standing, s.log, s.lap, s.prevLap, s.writepos]

theorem lapEnd : w'.lapEnd = w.lapEnd := by simp only [World.lapEnd, s.log, s.lap]

theorem lapEndClear (h : w.lapEndClear) : w'.lapEndClear := by
  obtain ⟨hin, hflag⟩ := h
  unfold World.lapEndClear
  rw [s.lapEnd, s.bufsize, loadLE_congr (s.buf.sub (by omega) (by omega))]
  exact ⟨hin, hflag⟩

theorem layout (L : Layout w) : Layout w' := by
  refine ⟨?_, ?_, ?_, ?_, ?_, ?_, ?_, ?_, ?_, ?_, ?_⟩
  · rw [s.bufsize]; exact L.size
  · rw [s.lap, s.prevLap]; exact L.lap_le
  · rw [s.lap, s.prevLap]; exact L.lap_pos
  · rw [s.lap, s.log]; exact L.lap_nil
  · rw [s.lap, s.log]; exact L.lap_lt
  · rw [s.log, s.prevLap]; exact L.first
  · rw [s.log, s.lap, s.prevLap]; exact L.next
  · rw [s.log, s.bufsize]; exact L.fits
  · rw [s.log, s.writepos]; exact L.writepos
  · rw [s.log, s.lastwritepos]; exact L.lastwritepos
  · intro k x hx hs
    rw [s.log] at hx ⊢
    obtain ⟨-, hf⟩ := L.fits k x hx
    exact (L.stored k x hx ((s.standing k).mp hs)).congr (s.buf.sub (by omega) (by omega))

end SameLaps

namespace Layout
variable {w : World} (L : Layout w)
include L

theorem reset : Layout w.reset := by
  refine ⟨L.size, le_refl _, .inl rfl, fun _ => rfl, fun h => ?_, rfl, fun k _ h => ?_,
    fun k x h => ?_, rfl, rfl, fun k x h => ?_⟩
  · simp [World.reset] at h
  · simp [World.reset] at h
  · simp [World.reset] at h
  · simp [World.reset] at h

theorem end_u32 {k : ℕ} {x : Placed} (hx : w.hist.log[k]? = some x) :
    u32 (x.pos + span x.frame) = endAt w.hist.log k := by
  obtain ⟨y, hy, -, he, -, -, hf, -, hu, -⟩ := L.get (List.getElem?_eq_some_iff.mp hx).1
  obtain rfl : y = x := by simpa [hx] using hy.symm
  have := L.size
  rw [he]
  exact Nat.mod_eq_of_lt (by omega)

end Layout
end Jagles.MediaBuffer
