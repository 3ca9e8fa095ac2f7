import Jagles.CriticalSections
import Jagles.MediaBufferGapFree

set_option autoImplicit false
set_option linter.dupNamespace false

/-!
# The buffer mutex and the frames in the readers' hands

One writer thread and sixteen reader threads run `WrtieBuffer`, `ReadBuffer` and
`unlockRead` step by step around the buffer's mutex. `ReadBuffer` gives the mutex
back on every path: the `if` in front of its last unlock has an empty body. A
mutex of the default kind does not check who unlocks it.
-/
namespace Jagles.MediaBuffer.Lease
open ByteMemory GuardedRuns CriticalSections

inductive Thread where
  | writer
  | reader (i : Fin 16)
  deriving DecidableEq

inductive WriterPc where
  | idle
  | locked (f : Frame) (t : Tick)
  | stored (t : Tick)
  | unlocked (t : Tick)

/-- `holding` is the decode loop between a successful read and the end of its pass. -/
inductive ReaderPc where
  | idle
  | checked (pReadsize : ℕ)
  | locked (pReadsize : ℕ)
  | finished (r : ReadResult)
  | holding

def WriterPc.critical : WriterPc → Bool
  | .locked _ _ | .stored _ => true
  | .idle | .unlocked _ => false

def ReaderPc.critical : ReaderPc → Bool
  | .locked _ | .finished _ => true
  | .idle | .checked _ | .holding => false

structure Leased where
  buf : ℕ
  bytes : List UInt8
  deriving DecidableEq

structure Shared where
  ring : Ring
  owner : Option Thread
  writer : WriterPc
  reader : Fin 16 → ReaderPc
  leases : Fin 16 → List Leased

def start (size : ℕ) (m : Memory) : Shared :=
  ⟨InitMediaBuffer size m, none, .idle, fun _ => .idle, fun _ => []⟩

inductive Act where
  | getIndex
  | writeLock (f : Frame) (t : Tick)
  | writeStore
  | writeUnlock
  | writeMeter
  | readCheck (i : Fin 16) (pReadsize : ℕ)
  | readLock (i : Fin 16)
  | readBody (i : Fin 16)
  | readUnlock (i : Fin 16)
  | unlockRead (i : Fin 16)
  | proceed (i : Fin 16)

def Shared.setReader (s : Shared) (i : Fin 16) (pc : ReaderPc) : Shared :=
  { s with reader := Function.update s.reader i pc }

/-- `ReadBuffer` returns; on success its caller has the bytes. -/
def Shared.returned (s : Shared) (i : Fin 16) : ReadResult → Shared
  | .success out =>
    { s.setReader i .holding with
      leases := Function.update s.leases i
        (⟨out.buf, loadBytes s.ring.buf out.buf out.pReadsize⟩ :: s.leases i) }
  | .noBuffer | .tooSmall => s.setReader i .idle

/-- One step of one thread. `proceed` is a pass of the decode loop that goes on
without `unlockRead`, as for audio or before the first key frame. -/
def step (fuel : ℕ) (s : Shared) : Act → Option Shared
  | .getIndex => some { s with ring := (GetReadIndex s.ring).1 }
  | .writeLock f t =>
    match s.writer, s.owner with
    | .idle, none => some { s with owner := some .writer, writer := .locked f t }
    | _, _ => none
  | .writeStore =>
    match s.writer with
    | .locked f t => some { s with ring := storeLocked s.ring f t, writer := .stored t }
    | _ => none
  | .writeUnlock =>
    match s.writer with
    | .stored t => some { s with owner := none, writer := .unlocked t }
    | _ => none
  | .writeMeter =>
    match s.writer with
    | .unlocked t => some { s with ring := meter s.ring t, writer := .idle }
    | _ => none
  | .readCheck i n =>
    match s.reader i with
    | .idle =>
      if s.ring.readpos i = s.ring.writepos then some s else some (s.setReader i (.checked n))
    | _ => none
  | .readLock i =>
    match s.reader i, s.owner with
    | .checked n, none => some { s.setReader i (.locked n) with owner := some (.reader i) }
    | _, _ => none
  | .readBody i =>
    match s.reader i with
    | .locked n => (readLocked fuel s.ring i n).map fun r =>
      { s.setReader i (.finished r.2) with ring := r.1 }
    | _ => none
  | .readUnlock i =>
    match s.reader i with
    | .finished r => some { s.returned i r with owner := none }
    | _ => none
  | .unlockRead i =>
    match s.reader i with
    | .holding =>
      some { s.setReader i .idle with
        ring := unlockRead s.ring i
        owner := none
        leases := Function.update s.leases i [] }
    | _ => none
  | .proceed i =>
    match s.reader i with
    | .holding => some (s.setReader i .idle)
    | _ => none

def unlocker : Act → Option Thread
  | .writeUnlock => some .writer
  | .readUnlock i => some (.reader i)
  | .unlockRead i => some (.reader i)
  | _ => none

def ByHolder (s : Shared) (a : Act) : Prop := ∀ t ∈ unlocker a, s.owner = some t

def LeasesIntact (s : Shared) : Prop :=
  ∀ i, ∀ l ∈ s.leases i, loadBytes s.ring.buf l.buf l.bytes.length = l.bytes

/-- The store the writer is about to make is clear of the bytes in the readers'
hands. -/
def StoresClear (s : Shared) : WriterPc → Prop
  | .locked f _ => ∀ i, ∀ l ∈ s.leases i,
      l.buf + l.bytes.length ≤ place s.ring f.pSize ∨
        place s.ring f.pSize + hdrSize + f.pSize ≤ l.buf
  | .idle | .stored _ | .unlocked _ => True

/-- The condition on one step. -/
def Clear (s : Shared) : Act → Prop
  | .unlockRead _ => False
  | .writeStore => StoresClear s s.writer
  | _ => True

instance (s : Shared) : (pc : WriterPc) → Decidable (StoresClear s pc)
  | .locked f _ => inferInstanceAs (Decidable (∀ i, ∀ l ∈ s.leases i,
      l.buf + l.bytes.length ≤ place s.ring f.pSize ∨
        place s.ring f.pSize + hdrSize + f.pSize ≤ l.buf))
  | .idle | .stored _ | .unlocked _ => isTrue trivial

instance (s : Shared) : (a : Act) → Decidable (Clear s a)
  | .unlockRead _ => isFalse id
  | .writeStore => inferInstanceAs (Decidable (StoresClear s s.writer))
  | .getIndex | .writeLock _ _ | .writeUnlock | .writeMeter | .readCheck _ _ | .readLock _
  | .readBody _ | .readUnlock _ | .proceed _ => isTrue trivial

instance (s : Shared) : Decidable (LeasesIntact s) :=
  inferInstanceAs (Decidable (∀ i, ∀ l ∈ s.leases i,
    loadBytes s.ring.buf l.buf l.bytes.length = l.bytes))

def Shared.view (s : Shared) : View Thread where
  owner := s.owner
  inside
    | .writer => s.writer.critical
    | .reader i => (s.reader i).critical

theorem GetReadIndex_buf (p : Ring) : (GetReadIndex p).1.buf = p.buf := by
  unfold GetReadIndex
  cases (List.finRange 16).find? fun i => !p.isuse i <;> rfl

theorem meter_buf (p : Ring) (t : Tick) : (meter p t).buf = p.buf := by
  obtain ⟨_, _, _, _, h⟩ := meter_eq p t
  rw [h]

theorem LeasesIntact.same {s t : Shared} (h : LeasesIntact s) (hl : t.leases = s.leases)
    (hb : t.ring.buf = s.ring.buf) : LeasesIntact t := by
  unfold LeasesIntact
  rw [hl, hb]
  exact h

theorem LeasesIntact.store {s : Shared} (h : LeasesIntact s) {f : Frame} {u : Tick}
    {pc : WriterPc} (clear : ∀ i, ∀ l ∈ s.leases i,
      l.buf + l.bytes.length ≤ place s.ring f.pSize ∨
        place s.ring f.pSize + hdrSize + f.pSize ≤ l.buf) :
    LeasesIntact { s with ring := storeLocked s.ring f u, writer := pc } := by
  intro i l hl
  have hkeep : Agree (storeLocked s.ring f u).buf s.ring.buf l.buf l.bytes.length :=
    storeFrame_agree s.ring.buf (clear i l hl)
  exact (loadBytes_congr hkeep).trans (h i l hl)

theorem LeasesIntact.returned {s : Shared} (h : LeasesIntact s) (i : Fin 16) (r : ReadResult)
    (owner : Option Thread) : LeasesIntact { s.returned i r with owner := owner } := by
  cases r with
  | success out =>
    intro j l hl
    by_cases hji : j = i
    · subst hji
      simp only [Shared.returned, Function.update_self, List.mem_cons] at hl
      rcases hl with rfl | hl
      · simp [Shared.returned, Shared.setReader, loadBytes]
      · exact h j l hl
    · simp only [Shared.returned, Function.update_of_ne hji] at hl
      exact h j l hl
  | noBuffer => exact h
  | tooSmall => exact h

theorem LeasesIntact.step {fuel : ℕ} {s t : Shared} {a : Act} (h : LeasesIntact s)
    (hc : Clear s a) (hstep : step fuel s a = some t) : LeasesIntact t := by
  cases a with
  | getIndex =>
    obtain rfl := Option.some.inj hstep
    exact h.same rfl (GetReadIndex_buf _)
  | writeStore =>
    simp only [Lease.step] at hstep
    split at hstep
    · rename_i f u hw
      obtain rfl := Option.some.inj hstep
      simp only [Clear, StoresClear, hw] at hc
      exact h.store hc
    · cases hstep
  | writeMeter =>
    simp only [Lease.step] at hstep
    split at hstep
    · obtain rfl := Option.some.inj hstep
      exact h.same rfl (meter_buf _ _)
    · cases hstep
  | readBody i =>
    simp only [Lease.step] at hstep
    split at hstep
    · obtain ⟨⟨p', r⟩, hp, rfl⟩ := Option.map_eq_some_iff.mp hstep
      exact h.same rfl (readLocked_onlyReader hp).buf
    · cases hstep
  | readUnlock i =>
    simp only [Lease.step] at hstep
    split at hstep
    · obtain rfl := Option.some.inj hstep
      exact h.returned i _ _
    · cases hstep
  | unlockRead i => exact hc.elim
  | readCheck i n =>
    simp only [Lease.step] at hstep
    split at hstep
    · split at hstep <;> (obtain rfl := Option.some.inj hstep; exact h)
    · cases hstep
  | writeLock f u | writeUnlock | readLock i | proceed i =>
    simp only [Lease.step] at hstep
    split at hstep
    · obtain rfl := Option.some.inj hstep
      exact h
    · cases hstep

def writeCall (f : Frame) (t : Tick) : List Act :=
  [.writeLock f t, .writeStore, .writeUnlock, .writeMeter]

def readCall (i : Fin 16) (pReadsize : ℕ) : List Act :=
  [.readCheck i pReadsize, .readLock i, .readBody i, .readUnlock i]

theorem writeCall_alone (fuel : ℕ) {s : Shared} (f : Frame) (t : Tick) (hw : s.writer = .idle)
    (ho : s.owner = none) : final (step fuel) (fun _ _ => True) s (writeCall f t) =
      some { s with ring := WrtieBuffer s.ring f t } := by
  simp [final, writeCall, step, hw, ho, WrtieBuffer]

theorem readCall_alone (fuel : ℕ) {s : Shared} {i : Fin 16} (pReadsize : ℕ)
    (hr : s.reader i = .idle) (ho : s.owner = none)
    (hne : s.ring.readpos i ≠ s.ring.writepos) :
    final (step fuel) (fun _ _ => True) s (readCall i pReadsize) =
      (ReadBuffer fuel s.ring i pReadsize).map fun r =>
        Shared.returned { s with ring := r.1 } i r.2 := by
  rw [ReadBuffer_locked fuel pReadsize hne]
  simp only [final, readCall, step, hr, ho, if_neg hne, if_true, Option.bind_some,
    Shared.setReader, Function.update_self]
  cases readLocked fuel s.ring i pReadsize with
  | none => rfl
  | some r =>
    cases hres : r.2 <;>
      simp [Shared.returned, Shared.setReader, hres]

end Jagles.MediaBuffer.Lease
