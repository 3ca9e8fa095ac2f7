import Jagles.GuardedRuns
import Jagles.MediaBufferFrames

set_option autoImplicit false
set_option linter.dupNamespace false

/-!
# Runs of the media buffer with their history

A `World` is the buffer with the history of its run: the frames written since
the last reset in write order with their offsets, where the last two laps begin
in that order, and the serial number of the frame each reader returned last.
-/
namespace Jagles.MediaBuffer
open ByteMemory GuardedRuns

structure Placed where
  pos : ℕ
  frame : Frame

def posAt (log : List Placed) (k : ℕ) : ℕ := (log[k]?.map Placed.pos).getD 0
def sizeAt (log : List Placed) (k : ℕ) : ℕ := (log[k]?.map fun x => x.frame.pSize).getD 0
def endAt (log : List Placed) (k : ℕ) : ℕ := posAt log k + (log[k]?.map fun x => span x.frame).getD 0
def prevposAt (log : List Placed) (k : ℕ) : ℕ := if k = 0 then 0 else posAt log (k - 1)
def keyAt (log : List Placed) (k : ℕ) : Prop := ∃ x, log[k]? = some x ∧ isKey x.frame

instance (log : List Placed) (k : ℕ) : Decidable (keyAt log k) :=
  match h : log[k]? with
  | none => isFalse (by simp [keyAt, h])
  | some x => decidable_of_iff (isKey x.frame) (by simp [keyAt, h])

def newest (p : ℕ → Bool) : ℕ → Option ℕ
  | 0 => none
  | n + 1 => if p n then some n else newest p n

def latestAt (log : List Placed) (a : ℕ) : Option ℕ :=
  newest (fun k => decide (posAt log k = a)) log.length

/-- `before` frames were written before the last reset, so the frame at index
`k` of `log` has serial number `before + k`. The current lap starts at index
`lap`, the lap before it at `prevLap`. -/
structure History where
  log : List Placed
  before : ℕ
  lap : ℕ
  prevLap : ℕ
  last : Fin 16 → Option ℕ

structure World where
  ring : Ring
  hist : History

def World.start (size : ℕ) (m : Memory) : World :=
  ⟨InitMediaBuffer size m, ⟨[], 0, 0, 0, fun _ => none⟩⟩

/-- `outside` is other code that changes memory past the end of the buffer. -/
inductive Op where
  | write (f : Frame) (t : Tick)
  | read (i : Fin 16) (pReadsize : ℕ)
  | unlock (i : Fin 16)
  | reset
  | getIndex
  | release (i : Fin 16)
  | outside (m : Memory)

def World.write (w : World) (f : Frame) (t : Tick) : World where
  ring := WrtieBuffer w.ring f t
  hist :=
    { w.hist with
      log := w.hist.log ++ [⟨place w.ring f.pSize, f⟩]
      lap := if wraps w.ring f.pSize then w.hist.log.length else w.hist.lap
      prevLap := if wraps w.ring f.pSize then w.hist.lap else w.hist.prevLap }

def History.returned (h : History) (i : Fin 16) : ReadResult → History
  | .success out =>
    { h with
      last := Function.update h.last i ((latestAt h.log (out.buf - hdrSize)).map (h.before + ·)) }
  | _ => h

def World.reset (w : World) : World where
  ring := ResetMediaBuffer w.ring
  hist :=
    { w.hist with log := [], before := w.hist.before + w.hist.log.length, lap := 0, prevLap := 0 }

def World.getIndex (w : World) : World :=
  match GetReadIndex w.ring with
  | (p, some i) => ⟨p, { w.hist with last := Function.update w.hist.last i none }⟩
  | (p, none) => ⟨p, w.hist⟩

def withOutside (p : Ring) (m : Memory) : Ring :=
  { p with buf := fun a => if a < p.bufsize then p.buf a else m a }

def World.step (fuel : ℕ) (w : World) : Op → Option World
  | .write f t => some (w.write f t)
  | .read i size => (ReadBuffer fuel w.ring i size).map fun r => ⟨r.1, w.hist.returned i r.2⟩
  | .unlock i => some { w with ring := unlockRead w.ring i }
  | .reset => some w.reset
  | .getIndex => some w.getIndex
  | .release i => some { w with ring := ReleaseReader w.ring i }
  | .outside m => some { w with ring := withOutside w.ring m }

/-- Index in `log` of the next frame for a reader that is not marked overwritten. -/
def World.due (w : World) (i : Fin 16) : ℕ :=
  match w.hist.last i with
  | some j => j + 1 - w.hist.before
  | none => 0

/-- The frames of the current lap, and those of the lap before it that the
writer has not come back to. -/
def World.standing (w : World) (k : ℕ) : Prop :=
  (w.hist.lap ≤ k ∧ k < w.hist.log.length) ∨
    (w.hist.prevLap ≤ k ∧ k < w.hist.lap ∧ w.ring.writepos ≤ posAt w.hist.log k)

instance (w : World) (k : ℕ) : Decidable (w.standing k) := inferInstanceAs (Decidable (_ ∨ _))

def World.lapEnd (w : World) : ℕ := endAt w.hist.log (w.hist.lap - 1)

/-- A reader that comes to the end of the lap before finds no header there. -/
def World.lapEndClear (w : World) : Prop :=
  w.lapEnd + 4 ≤ w.ring.bufsize ∧ loadLE w.ring.buf w.lapEnd 4 ≠ hdrFlag

theorem History.returned_last_of_ne (h : History) {i j : Fin 16} (hj : j ≠ i) (r : ReadResult) :
    (h.returned i r).last j = h.last j := by
  cases r with
  | success out => exact Function.update_of_ne hj _ _
  | noBuffer => rfl
  | tooSmall => rfl

theorem posAt_some {log : List Placed} {k : ℕ} {x : Placed} (h : log[k]? = some x) :
    posAt log k = x.pos := by simp [posAt, h]

theorem sizeAt_some {log : List Placed} {k : ℕ} {x : Placed} (h : log[k]? = some x) :
    sizeAt log k = x.frame.pSize := by simp [sizeAt, h]

theorem endAt_some {log : List Placed} {k : ℕ} {x : Placed} (h : log[k]? = some x) :
    endAt log k = x.pos + span x.frame := by simp [endAt, posAt, h]

theorem keyAt_some {log : List Placed} {k : ℕ} {x : Placed} (h : log[k]? = some x) :
    keyAt log k ↔ isKey x.frame := by simp [keyAt, h]

section Append
variable (log : List Placed) (y : Placed)

theorem getElem?_snoc_lt {k : ℕ} (h : k < log.length) : (log ++ [y])[k]? = log[k]? :=
  List.getElem?_append_left h

theorem posAt_snoc_lt {k : ℕ} (h : k < log.length) : posAt (log ++ [y]) k = posAt log k := by
  simp only [posAt, getElem?_snoc_lt log y h]

theorem endAt_snoc_lt {k : ℕ} (h : k < log.length) : endAt (log ++ [y]) k = endAt log k := by
  simp only [endAt, posAt_snoc_lt log y h, getElem?_snoc_lt log y h]

theorem prevposAt_snoc_le {k : ℕ} (h : k ≤ log.length) :
    prevposAt (log ++ [y]) k = prevposAt log k := by
  unfold prevposAt
  split
  · rfl
  · exact posAt_snoc_lt log y (by omega)

theorem posAt_snoc_last : posAt (log ++ [y]) log.length = y.pos := by simp [posAt]

theorem endAt_snoc_last : endAt (log ++ [y]) log.length = y.pos + span y.frame := by
  simp [endAt, posAt]

theorem length_snoc : (log ++ [y]).length = log.length + 1 := by simp

theorem keyAt_snoc_lt {k : ℕ} (h : k < log.length) : keyAt (log ++ [y]) k ↔ keyAt log k := by
  simp only [keyAt, getElem?_snoc_lt log y h]

end Append

theorem newest_spec (p : ℕ → Bool) (n : ℕ) :
    (∃ k, newest p n = some k ∧ k < n ∧ p k = true ∧ ∀ j, k < j → j < n → p j = false) ∨
      newest p n = none ∧ ∀ j, j < n → p j = false := by
  induction n with
  | zero => exact .inr ⟨rfl, fun j hj => by omega⟩
  | succ n ih =>
    simp only [newest]
    cases hp : p n with
    | true => exact .inl ⟨n, by simp, by omega, hp, fun j h h' => by omega⟩
    | false =>
      have up {j : ℕ} (hj : j < n + 1) (hlow : j < n → p j = false) : p j = false := by
        by_cases hn : j = n
        · rw [hn, hp]
        · exact hlow (by omega)
      rcases ih with ⟨k, hk, hkn, hpk, hlater⟩ | ⟨hnone, hall⟩
      · exact .inl ⟨k, by simpa using hk, by omega, hpk,
          fun j hkj hj => up hj (hlater j hkj)⟩
      · exact .inr ⟨by simpa using hnone, fun j hj => up hj (hall j)⟩

theorem latestAt_eq {log : List Placed} {a k : ℕ} (hk : k < log.length) (ha : posAt log k = a)
    (later : ∀ j, k < j → j < log.length → posAt log j ≠ a) : latestAt log a = some k := by
  rcases newest_spec (fun k => decide (posAt log k = a)) log.length with
    ⟨l, hl, hln, hpl, hlater⟩ | ⟨-, hall⟩
  · have hlk : l = k := by
      by_contra hne
      by_cases hlt : l < k
      · have := hlater k hlt hk
        simp [ha] at this
      · exact later l (by omega) hln (by simpa using hpl)
    rw [← hlk]
    exact hl
  · have := hall k hk
    simp [ha] at this

end Jagles.MediaBuffer
