import Mathlib.Tactic

set_option autoImplicit false
set_option linter.dupNamespace false

/-!
# Programs that read a bit string

A `Program` asks for fixed-width fields and Exp-Golomb codes one after the other, and what
it asks for next depends on the values so far. `exec` runs it as a C parser with a 32-bit
bit counter would, on a memory that has a byte at every index, and records each byte it
reads, each table copy and each shift. `Complete` says, over the shape of the program, when
all of these are within their bounds.
-/
namespace Jagles.BitPrograms

inductive Event where
  | read (index : ℕ)
  | copy (available size : ℕ)
  | shift (count : ℕ)
  deriving DecidableEq

/-- An event that stays inside a buffer of `size` bytes, inside the table it copies from,
or inside the width of an `int`. -/
def Event.Safe (size : ℕ) : Event → Prop
  | .read index => index < size
  | .copy available count => count ≤ available
  | .shift count => count < 32

instance (size : ℕ) (e : Event) : Decidable (e.Safe size) := by
  cases e <;> unfold Event.Safe <;> infer_instance

@[simp] theorem Event.safe_read {size index : ℕ} : (Event.read index).Safe size ↔ index < size :=
  Iff.rfl

/-- The event of a buffer that starts `start` bytes into a larger one. -/
def Event.offset (start : ℕ) : Event → Event
  | .read index => .read (start + index)
  | e => e

inductive Program (α : Type) : Type where
  | done (a : α)
  | bits (count : ℕ) (next : ℕ → Program α)
  | golomb (next : ℕ → Program α)
  | skip (count : ℕ) (next : Program α)
  | copy (available size : ℕ) (next : Program α)

variable {α β : Type}

def Program.bind : Program α → (α → Program β) → Program β
  | .done a, f => f a
  | .bits count next, f => .bits count fun v => (next v).bind f
  | .golomb next, f => .golomb fun v => (next v).bind f
  | .skip count next, f => .skip count (next.bind f)
  | .copy available size next, f => .copy available size (next.bind f)

instance : Monad Program where
  pure := .done
  bind := .bind

/-- What a parser reads from: the memory from the start of its buffer on, the length in
bytes it was told, and what `1 << n` gives on this processor when `n` is too large. -/
structure Source where
  byte : ℕ → UInt8
  length : ℕ
  overshift : ℕ → ℕ

namespace Source

variable (s : Source)

/-- `nLen * 8` in 32 bits. -/
def limit : ℕ := s.length * 8 % 2 ^ 32

def bit (pos : ℕ) : Bool := (s.byte (pos / 8)).toNat.testBit (7 - pos % 8)

def shl (count : ℕ) : ℕ := if count < 32 then 2 ^ count else s.overshift count

end Source

structure Outcome (α : Type) where
  value : α
  startBit : ℕ
  events : List Event

def Outcome.after {α : Type} (o : Outcome α) (events : List Event) : Outcome α :=
  { o with events := events ++ o.events }

/-- `count` rounds of `ret <<= 1; if (bit) ret += 1; startBit++`. -/
def readValue (s : Source) : ℕ → ℕ → ℕ → Outcome ℕ
  | 0, ret, pos => ⟨ret, pos, []⟩
  | count + 1, ret, pos =>
    (readValue s count ((ret * 2 + (s.bit pos).toNat) % 2 ^ 32) ((pos + 1) % 2 ^ 32)).after
      [.read (pos / 8)]

/-- The loop over the zero bits in front of a code; `fuel` bounds its rounds. -/
def countZeros (s : Source) : ℕ → ℕ → Outcome ℕ
  | 0, pos => ⟨0, pos, []⟩
  | fuel + 1, pos =>
    if pos < s.limit then
      if s.bit pos then ⟨0, pos, [.read (pos / 8)]⟩
      else
        let o := countZeros s fuel (pos + 1)
        { o with value := o.value + 1, events := .read (pos / 8) :: o.events }
    else ⟨0, pos, []⟩

def readGolomb (s : Source) (pos : ℕ) : Outcome ℕ :=
  let zeros := countZeros s (s.limit - pos) pos
  let tail := readValue s zeros.value 0 ((zeros.startBit + 1) % 2 ^ 32)
  { value := (s.shl zeros.value + (2 ^ 32 - 1) + tail.value) % 2 ^ 32
    startBit := tail.startBit
    events := zeros.events ++ tail.events ++ [.shift zeros.value] }

def Program.exec (s : Source) : Program α → ℕ → Outcome α
  | .done a, pos => ⟨a, pos, []⟩
  | .bits count next, pos =>
    let o := readValue s count 0 pos
    ((next o.value).exec s o.startBit).after o.events
  | .golomb next, pos =>
    let o := readGolomb s pos
    ((next o.value).exec s o.startBit).after o.events
  | .skip count next, pos => next.exec s ((pos + count) % 2 ^ 32)
  | .copy available size next, pos => (next.exec s pos).after [.copy available size]

@[simp] theorem Outcome.after_value (o : Outcome α) (events : List Event) :
    (o.after events).value = o.value := rfl

@[simp] theorem Outcome.after_startBit (o : Outcome α) (events : List Event) :
    (o.after events).startBit = o.startBit := rfl

@[simp] theorem Outcome.after_events (o : Outcome α) (events : List Event) :
    (o.after events).events = events ++ o.events := rfl

theorem Outcome.after_after (o : Outcome α) (before events : List Event) :
    (o.after events).after before = o.after (before ++ events) := by
  simp [Outcome.after]

theorem Program.exec_bind (s : Source) (g : Program α) (f : α → Program β) (pos : ℕ) :
    (g >>= f).exec s pos =
      ((f (g.exec s pos).value).exec s (g.exec s pos).startBit).after (g.exec s pos).events := by
  change (g.bind f).exec s pos = _
  induction g generalizing pos with
  | done a => rfl
  | bits count next ih =>
    simp only [Program.bind, Program.exec, ih, Outcome.after_after, Outcome.after_value,
      Outcome.after_startBit, Outcome.after_events]
  | golomb next ih =>
    simp only [Program.bind, Program.exec, ih, Outcome.after_after, Outcome.after_value,
      Outcome.after_startBit, Outcome.after_events]
  | skip count next ih => simp only [Program.bind, Program.exec, ih]
  | copy available size next ih =>
    simp only [Program.bind, Program.exec, ih, Outcome.after_after, Outcome.after_value,
      Outcome.after_startBit, Outcome.after_events]

/-- A 32-bit word as a signed number. -/
def toInt (n : ℕ) : ℤ := ((n : ℤ) + 2 ^ 31) % 2 ^ 32 - 2 ^ 31

theorem toInt_of_lt {n : ℕ} (h : n < 2 ^ 31) : toInt n = n := by
  unfold toInt
  omega

/-! ## Reading back what was written -/

/-- The number whose binary digits are `bs`, the first one the highest. -/
def ofBits : List Bool → ℕ
  | [] => 0
  | b :: bs => b.toNat * 2 ^ bs.length + ofBits bs

/-- The lowest `count` binary digits of `n`, the highest of them first. -/
def toBits : ℕ → ℕ → List Bool
  | 0, _ => []
  | count + 1, n => n.testBit count :: toBits count n

/-- The Exp-Golomb code of `n`. -/
def golombBits (n : ℕ) : List Bool :=
  List.replicate (n + 1).log2 false ++ true :: toBits (n + 1).log2 (n + 1)

@[simp] theorem toBits_length (count n : ℕ) : (toBits count n).length = count := by
  induction count with
  | zero => rfl
  | succ count ih => simp [toBits, ih]

theorem ofBits_toBits (count n : ℕ) : ofBits (toBits count n) = n % 2 ^ count := by
  induction count with
  | zero => simp [toBits, ofBits, Nat.mod_one]
  | succ count ih =>
    rw [toBits, ofBits, ih, toBits_length, Nat.mod_pow_succ, Nat.toNat_testBit]
    ring

theorem ofBits_lt (bs : List Bool) : ofBits bs < 2 ^ bs.length := by
  induction bs with
  | nil => simp [ofBits]
  | cons b bs ih =>
    have hb := Bool.toNat_le b
    rw [ofBits, List.length_cons, pow_succ]
    nlinarith [Nat.two_pow_pos bs.length]

/-- The `count` places that are read from `pos` on, as the 32-bit counter gives them. -/
def positions (pos count : ℕ) : List ℕ := (List.range count).map fun i => (pos + i) % 2 ^ 32

theorem positions_succ {pos : ℕ} (hpos : pos < 2 ^ 32) (count : ℕ) :
    positions pos (count + 1) = pos :: positions ((pos + 1) % 2 ^ 32) count := by
  simp only [positions, List.range_succ_eq_map, List.map_cons, List.map_map, Nat.add_zero,
    Nat.mod_eq_of_lt hpos, List.cons.injEq, true_and]
  refine List.map_congr_left fun i _ => ?_
  simp only [Function.comp_apply, Nat.mod_add_mod]
  congr 1
  omega

@[simp] theorem positions_length (pos count : ℕ) : (positions pos count).length = count := by
  simp [positions]

def Source.window (s : Source) (pos count : ℕ) : List Bool := (positions pos count).map s.bit

def readEvents (pos count : ℕ) : List Event :=
  (positions pos count).map fun p => .read (p / 8)

theorem readValue_eq (s : Source) (count ret : ℕ) {pos : ℕ} (hpos : pos < 2 ^ 32) :
    readValue s count (ret % 2 ^ 32) pos =
      ⟨(ret * 2 ^ count + ofBits (s.window pos count)) % 2 ^ 32, (pos + count) % 2 ^ 32,
        readEvents pos count⟩ := by
  induction count generalizing ret pos with
  | zero =>
    simp only [readValue, Source.window, readEvents, positions, List.range_zero, List.map_nil,
      ofBits, pow_zero, Nat.mul_one, Nat.add_zero, Nat.mod_eq_of_lt hpos]
  | succ count ih =>
    have hret : (ret % 2 ^ 32 * 2 + (s.bit pos).toNat) % 2 ^ 32 =
        (ret * 2 + (s.bit pos).toNat) % 2 ^ 32 := by omega
    have hnext : (pos + 1) % 2 ^ 32 < 2 ^ 32 := Nat.mod_lt _ (by norm_num)
    rw [readValue, hret, ih (ret * 2 + (s.bit pos).toNat) hnext]
    simp only [Outcome.after, Source.window, readEvents, positions_succ hpos, List.map_cons,
      ofBits, List.length_map, positions_length, List.singleton_append, Outcome.mk.injEq,
      and_true]
    refine ⟨congrArg (· % 2 ^ 32) (by ring), ?_⟩
    rw [Nat.mod_add_mod]
    congr 1
    ring

/-- The bits at `pos` are `bs`. -/
def Bits (s : Source) (pos : ℕ) (bs : List Bool) : Prop :=
  ∀ i (h : i < bs.length), s.bit (pos + i) = bs[i]

theorem Bits.left {s : Source} {pos : ℕ} {bs cs : List Bool} (h : Bits s pos (bs ++ cs)) :
    Bits s pos bs := by
  intro i hi
  rw [h i (by simp; omega), List.getElem_append_left hi]

theorem Bits.right {s : Source} {pos : ℕ} {bs cs : List Bool} (h : Bits s pos (bs ++ cs)) :
    Bits s (pos + bs.length) cs := by
  intro i hi
  rw [Nat.add_assoc, h (bs.length + i) (by simp; omega)]
  simp

/-- The bits at `pos` are `bs`, and none of them is past the limit. -/
structure Holds (s : Source) (pos : ℕ) (bs : List Bool) : Prop where
  bit : ∀ i (h : i < bs.length), s.bit (pos + i) = bs[i]
  limit : pos + bs.length ≤ s.limit

theorem Holds.left {s : Source} {pos : ℕ} {bs cs : List Bool} (h : Holds s pos (bs ++ cs)) :
    Holds s pos bs where
  bit := Bits.left h.bit
  limit := by
    have := h.limit
    rw [List.length_append] at this
    omega

theorem Holds.right {s : Source} {pos : ℕ} {bs cs : List Bool} (h : Holds s pos (bs ++ cs)) :
    Holds s (pos + bs.length) cs where
  bit := Bits.right h.bit
  limit := by
    have := h.limit
    rw [List.length_append] at this
    omega

theorem Source.limit_lt (s : Source) : s.limit < 2 ^ 32 := Nat.mod_lt _ (by norm_num)

theorem Bits.window {s : Source} {pos : ℕ} {bs : List Bool} (h : Bits s pos bs)
    (hpos : pos + bs.length ≤ 2 ^ 32) : s.window pos bs.length = bs := by
  refine List.ext_getElem (by simp [Source.window]) ?_
  intro i _ hi
  simp only [Source.window, positions, List.getElem_map, List.getElem_range]
  rw [Nat.mod_eq_of_lt (by omega), h i hi]

theorem Holds.window {s : Source} {pos : ℕ} {bs : List Bool} (h : Holds s pos bs) :
    s.window pos bs.length = bs :=
  Bits.window h.bit (h.limit.trans s.limit_lt.le)

theorem readValue_holds {s : Source} {pos : ℕ} {bs : List Bool} (h : Holds s pos bs) :
    readValue s bs.length 0 pos =
      ⟨ofBits bs % 2 ^ 32, pos + bs.length, readEvents pos bs.length⟩ := by
  have hlim := h.limit
  have hlt := s.limit_lt
  have heq := readValue_eq s bs.length 0 (show pos < 2 ^ 32 by omega)
  rw [Nat.zero_mod, h.window, Nat.zero_mul, Nat.zero_add,
    Nat.mod_eq_of_lt (show pos + bs.length < 2 ^ 32 by omega)] at heq
  exact heq

/-- The code at `pos` has `zeros` zero bits in front: they end at a one or at the limit. -/
structure ZeroRun (s : Source) (pos zeros : ℕ) : Prop where
  zero : ∀ i < zeros, pos + i < s.limit ∧ s.bit (pos + i) = false
  stop : pos + zeros < s.limit → s.bit (pos + zeros) = true

theorem ZeroRun.unique {s : Source} {pos m n : ℕ} (h : ZeroRun s pos m) (h' : ZeroRun s pos n) :
    m = n := by
  rcases Nat.lt_trichotomy m n with hlt | heq | hgt
  · have hz := h'.zero m hlt
    simp [h.stop hz.1] at hz
  · exact heq
  · have hz := h.zero n hgt
    simp [h'.stop hz.1] at hz

theorem countZeros_spec (s : Source) {fuel pos : ℕ} (hfuel : s.limit - pos ≤ fuel) :
    ∃ zeros, ZeroRun s pos zeros ∧ countZeros s fuel pos =
      ⟨zeros, pos + zeros, readEvents pos zeros ++
        if pos + zeros < s.limit then [.read ((pos + zeros) / 8)] else []⟩ := by
  have hlt := s.limit_lt
  induction fuel generalizing pos with
  | zero =>
    have hout : ¬ pos < s.limit := by omega
    refine ⟨0, ⟨fun i hi => absurd hi (by omega), fun hin => absurd hin hout⟩, ?_⟩
    simp [countZeros, hout, readEvents, positions]
  | succ fuel ih =>
    by_cases hin : pos < s.limit
    · cases hb : s.bit pos with
      | true =>
        refine ⟨0, ⟨fun i hi => absurd hi (by omega), fun _ => hb⟩, ?_⟩
        simp [countZeros, hin, hb, readEvents, positions]
      | false =>
        have hless : s.limit - (pos + 1) ≤ fuel := by omega
        obtain ⟨zeros, hrun, heq⟩ := ih hless
        have hshift : pos + 1 + zeros = pos + (zeros + 1) := by ring
        refine ⟨zeros + 1, ⟨?_, ?_⟩, ?_⟩
        · intro i hi
          cases i with
          | zero => exact ⟨hin, hb⟩
          | succ i =>
            rw [show pos + (i + 1) = pos + 1 + i by ring]
            exact hrun.zero i (by omega)
        · rw [← hshift]
          exact hrun.stop
        · have hnext : (pos + 1) % 2 ^ 32 = pos + 1 := Nat.mod_eq_of_lt (by omega)
          simp only [countZeros, hin, if_true, hb, Bool.false_eq_true, if_false, heq, hshift]
          simp only [readEvents, positions_succ (show pos < 2 ^ 32 by omega), hnext,
            List.map_cons, List.cons_append]
    · refine ⟨0, ⟨fun i hi => absurd hi (by omega), fun h => absurd h hin⟩, ?_⟩
      simp [countZeros, hin, readEvents, positions]

/-- What reading a code at `pos` does when it has `zeros` zero bits in front. -/
theorem readGolomb_eq {s : Source} {pos zeros : ℕ} (hrun : ZeroRun s pos zeros) :
    readGolomb s pos =
      { value := (s.shl zeros + (2 ^ 32 - 1) +
          ofBits (s.window ((pos + zeros + 1) % 2 ^ 32) zeros) % 2 ^ 32) % 2 ^ 32
        startBit := (pos + 2 * zeros + 1) % 2 ^ 32
        events := (readEvents pos zeros ++
          if pos + zeros < s.limit then [.read ((pos + zeros) / 8)] else []) ++
          readEvents ((pos + zeros + 1) % 2 ^ 32) zeros ++ [.shift zeros] } := by
  obtain ⟨zeros', hrun', heq⟩ := countZeros_spec s (le_refl (s.limit - pos))
  obtain rfl := hrun.unique hrun'
  have hvalue := readValue_eq s zeros 0
    (show (pos + zeros + 1) % 2 ^ 32 < 2 ^ 32 from Nat.mod_lt _ (by norm_num))
  rw [Nat.zero_mod, Nat.zero_mul, Nat.zero_add] at hvalue
  simp only [readGolomb, heq, hvalue, Outcome.mk.injEq, true_and, and_true]
  rw [Nat.mod_add_mod]
  congr 1
  ring

theorem golomb_value {s : Source} {zeros pos : ℕ} (hz : zeros < 32) :
    (s.shl zeros + (2 ^ 32 - 1) + ofBits (s.window pos zeros) % 2 ^ 32) % 2 ^ 32 =
      2 ^ zeros - 1 + ofBits (s.window pos zeros) := by
  have hlt := ofBits_lt (s.window pos zeros)
  have hpow : 2 ^ zeros ≤ 2 ^ 31 := Nat.pow_le_pow_right (by norm_num) (by omega)
  have hpos := Nat.two_pow_pos zeros
  rw [show (s.window pos zeros).length = zeros by simp [Source.window]] at hlt
  simp only [Source.shl, hz, if_true]
  omega

theorem zeroRun_of_bits {s : Source} {pos zeros : ℕ}
    (h : Bits s pos (List.replicate zeros false ++ [true]))
    (hlim : zeros = 0 ∨ pos + zeros ≤ s.limit) : ZeroRun s pos zeros where
  zero i hi := by
    have hb := h i (by simp; omega)
    rw [List.getElem_append_left (by simpa using hi), List.getElem_replicate] at hb
    exact ⟨by omega, hb⟩
  stop _ := by
    have hb := h zeros (by simp)
    simpa using hb

theorem golombBits_split (n : ℕ) : golombBits n =
    (List.replicate (n + 1).log2 false ++ [true]) ++ toBits (n + 1).log2 (n + 1) := by
  simp [golombBits]

theorem golombBits_length (n : ℕ) : (golombBits n).length = 2 * (n + 1).log2 + 1 := by
  rw [golombBits_split]
  simp only [List.length_append, List.length_replicate, List.length_singleton, toBits_length]
  ring

theorem golombBits_length_lt {n k : ℕ} (hn : n + 1 < 2 ^ k) :
    (golombBits n).length < 2 * k := by
  have hlog : (n + 1).log2 < k := (Nat.log2_lt (by omega)).mpr hn
  rw [golombBits_length]
  omega

/-- The value of a code is the number it was made from, if the loop over the zero bits comes
to its one and the position does not overflow. -/
theorem readGolomb_bits {s : Source} {n pos : ℕ} (hn : n + 1 < 2 ^ 32)
    (h : Bits s pos (golombBits n))
    (hlim : (n + 1).log2 = 0 ∨ pos + (n + 1).log2 ≤ s.limit)
    (hpos : pos + (golombBits n).length < 2 ^ 32) :
    ∃ events, readGolomb s pos = ⟨n, pos + (golombBits n).length, events⟩ := by
  have hlen := golombBits_length n
  rw [golombBits_split] at h
  set z := (n + 1).log2 with hz
  have hlow : 2 ^ z ≤ n + 1 := Nat.log2_self_le (by omega)
  have hhigh : n + 1 < 2 ^ (z + 1) := Nat.lt_log2_self
  have hz32 : z < 32 := (Nat.log2_lt (by omega)).mpr hn
  have hright := h.right.window (by
    simp only [List.length_append, List.length_replicate, List.length_singleton, toBits_length]
    omega)
  rw [List.length_append, List.length_replicate, List.length_singleton, toBits_length] at hright
  have hmod : (n + 1) % 2 ^ z = n + 1 - 2 ^ z := by
    rw [Nat.mod_eq_sub_mod hlow, Nat.mod_eq_of_lt (by rw [pow_succ] at hhigh; omega)]
  have hmark : (pos + z + 1) % 2 ^ 32 = pos + (z + 1) := Nat.mod_eq_of_lt (by omega)
  refine ⟨(readGolomb s pos).events, ?_⟩
  rw [readGolomb_eq (zeroRun_of_bits h.left hlim)]
  simp only [Outcome.mk.injEq, and_true]
  constructor
  · rw [golomb_value hz32, hmark, hright, ofBits_toBits, hmod]
    omega
  · rw [hlen, Nat.mod_eq_of_lt (by omega), Nat.add_assoc]

theorem readGolomb_holds {s : Source} {n pos : ℕ} (hn : n + 1 < 2 ^ 32)
    (h : Holds s pos (golombBits n)) :
    ∃ events, readGolomb s pos = ⟨n, pos + (golombBits n).length, events⟩ := by
  have hlim := h.limit
  have hlt := s.limit_lt
  have hlen := golombBits_length n
  exact readGolomb_bits hn h.bit (.inr (by omega)) (by omega)

/-- The loop over the zero bits stops early when the limit is in front of the one, and then the
position is another one. -/
theorem startBit_readGolomb_iff {s : Source} {n pos : ℕ} (h : Bits s pos (golombBits n)) :
    (readGolomb s pos).startBit = pos + (golombBits n).length ↔
      ((n + 1).log2 = 0 ∨ pos + (n + 1).log2 ≤ s.limit) ∧
        pos + (golombBits n).length < 2 ^ 32 := by
  obtain ⟨zeros, hrun, -⟩ := countZeros_spec s (le_refl (s.limit - pos))
  have hstart : (readGolomb s pos).startBit = (pos + 2 * zeros + 1) % 2 ^ 32 := by
    rw [readGolomb_eq hrun]
  have hlen := golombBits_length n
  have hwrap := Nat.mod_lt (pos + 2 * zeros + 1) (show 2 ^ 32 > 0 by norm_num)
  rw [golombBits_split] at h
  rw [hstart]
  constructor
  · intro he
    refine ⟨?_, by omega⟩
    by_contra! hlim
    have hle : pos + zeros ≤ pos + (n + 1).log2 := by
      by_contra hgt
      have hin := (hrun.zero (n + 1).log2 (by omega)).1
      omega
    have hsmall := Nat.mod_le (pos + 2 * zeros + 1) (2 ^ 32)
    have hzeros : zeros = (n + 1).log2 := by omega
    have hlast := hrun.zero (zeros - 1)
    omega
  · rintro ⟨hlim, hpos⟩
    obtain rfl := hrun.unique (zeroRun_of_bits h.left hlim)
    rw [Nat.mod_eq_of_lt (by omega), hlen]
    omega

/-- Whole bytes made of bits, eight at a time. -/
def packBytes (bs : List Bool) : List UInt8 :=
  (List.range (bs.length / 8)).map fun j => UInt8.ofNat (ofBits ((bs.drop (8 * j)).take 8))

@[simp] theorem packBytes_length (bs : List Bool) : (packBytes bs).length = bs.length / 8 := by
  simp [packBytes]

theorem packBytes_cons {byte bs : List Bool} (h : byte.length = 8) :
    packBytes (byte ++ bs) = UInt8.ofNat (ofBits byte) :: packBytes bs := by
  have hlen : (byte ++ bs).length / 8 = bs.length / 8 + 1 := by
    rw [List.length_append]
    omega
  rw [packBytes, hlen, List.range_succ_eq_map, List.map_cons, List.map_map]
  have hhead : ((byte ++ bs).drop (8 * 0)).take 8 = byte := by
    rw [Nat.mul_zero, List.drop_zero, ← h, List.take_left]
  rw [hhead, packBytes]
  congr 1
  refine List.map_congr_left fun j _ => ?_
  have hdrop : (byte ++ bs).drop (8 * (j + 1)) = bs.drop (8 * j) := by
    rw [show 8 * (j + 1) = byte.length + 8 * j by omega, List.drop_append]
    simp
  simp only [Function.comp_apply, Nat.succ_eq_add_one, hdrop]

theorem testBit_ofBits (bs : List Bool) (i : ℕ) (h : i < bs.length) :
    (ofBits bs).testBit (bs.length - 1 - i) = bs[i] := by
  induction bs generalizing i with
  | nil => exact absurd h (by simp)
  | cons b bs ih =>
    rw [ofBits, Nat.mul_comm, Nat.testBit_two_pow_mul_add _ (ofBits_lt bs)]
    cases i with
    | zero =>
      cases b <;> simp
    | succ i =>
      have hi : i < bs.length := by simpa using h
      rw [List.length_cons, show bs.length + 1 - 1 - (i + 1) = bs.length - 1 - i by omega,
        if_pos (by omega), ih i hi]
      rfl

theorem packBytes_testBit (bs : List Bool) {i : ℕ} (h : i / 8 < bs.length / 8) :
    ((packBytes bs).getD (i / 8) 0).toNat.testBit (7 - i % 8) =
      bs.get ⟨i, by omega⟩ := by
  have hlen : ((bs.drop (8 * (i / 8))).take 8).length = 8 := by
    rw [List.length_take, List.length_drop]
    omega
  have hbyte := ofBits_lt ((bs.drop (8 * (i / 8))).take 8)
  have hbit := testBit_ofBits ((bs.drop (8 * (i / 8))).take 8) (i % 8) (by omega)
  rw [hlen] at hbyte
  simp only [hlen, List.getElem_take, List.getElem_drop] at hbit
  simp only [packBytes, List.getD_eq_getElem?_getD, List.getElem?_map, List.getElem?_range h,
    Option.map_some, Option.getD_some, UInt8.toNat_ofNat', Nat.mod_eq_of_lt hbyte]
  rw [hbit]
  simp only [List.get_eq_getElem]
  congr 1
  omega

/-- A source whose first bytes are packed from `bs ++ cs` holds `bs`. -/
theorem holds_of_packed {s : Source} {bs cs : List Bool} {n : ℕ}
    (hbytes : ∀ j < n, s.byte j = (packBytes (bs ++ cs)).getD j 0) (hbs : bs.length ≤ 8 * n)
    (hn : n ≤ (bs ++ cs).length / 8) (hlimit : 8 * n ≤ s.limit) : Holds s 0 bs where
  bit i hi := by
    have hbit := packBytes_testBit (bs ++ cs) (show i / 8 < (bs ++ cs).length / 8 by omega)
    rw [Nat.zero_add, Source.bit, hbytes _ (by omega), hbit, List.get_eq_getElem,
      List.getElem_append_left hi]
  limit := by omega

/-- Run where `bs` is written, `g` gives `a` and stops right behind `bs`. -/
def Decodes (s : Source) (g : Program α) (bs : List Bool) (a : α) : Prop :=
  ∀ pos, Holds s pos bs → ∃ events, g.exec s pos = ⟨a, pos + bs.length, events⟩

section decodes

variable {s : Source}

theorem Decodes.done (a : α) : Decodes s (pure a) [] a :=
  fun _ _ => ⟨[], rfl⟩

theorem Decodes.bind {g : Program α} {f : α → Program β} {bs cs : List Bool} {a : α} {b : β}
    (h : Decodes s g bs a) (h' : Decodes s (f a) cs b) : Decodes s (g >>= f) (bs ++ cs) b := by
  intro pos hpos
  obtain ⟨e, he⟩ := h pos hpos.left
  obtain ⟨e', he'⟩ := h' _ hpos.right
  refine ⟨e ++ e', ?_⟩
  simp only [Program.exec_bind, he, he', Outcome.after, List.length_append, Nat.add_assoc]

theorem Decodes.map {g : Program α} {bs : List Bool} {a : α} (h : Decodes s g bs a)
    (f : α → β) : Decodes s (g >>= fun x => pure (f x)) bs (f a) := by
  have h' := h.bind (f := fun x => pure (f x)) (Decodes.done (f a))
  rwa [List.append_nil] at h'

theorem Decodes.word {bs : List Bool} (h : bs.length ≤ 32) :
    Decodes s (.bits bs.length .done) bs (ofBits bs) := by
  intro pos hpos
  have hread := readValue_holds hpos
  have hsmall : ofBits bs < 2 ^ 32 :=
    (ofBits_lt bs).trans_le (Nat.pow_le_pow_right (by norm_num) h)
  rw [Nat.mod_eq_of_lt hsmall] at hread
  exact ⟨readEvents pos bs.length ++ [], by simp only [Program.exec, hread]; rfl⟩

theorem Decodes.bits {count n : ℕ} (hcount : count ≤ 32) (hn : n < 2 ^ count) :
    Decodes s (.bits count .done) (toBits count n) n := by
  have h : Decodes s _ (toBits count n) _ := Decodes.word (by rwa [toBits_length])
  rwa [toBits_length, ofBits_toBits, Nat.mod_eq_of_lt hn] at h

theorem Decodes.flag (b : Bool) : Decodes s (.bits 1 .done) [b] b.toNat := by
  have h : Decodes s _ [b] _ := Decodes.word (by simp)
  simpa [ofBits] using h

theorem Decodes.golomb {n : ℕ} (hn : n + 1 < 2 ^ 32) :
    Decodes s (.golomb .done) (golombBits n) n := by
  intro pos hpos
  obtain ⟨e, he⟩ := readGolomb_holds hn hpos
  exact ⟨e ++ [], by simp only [Program.exec, he]; rfl⟩

theorem Decodes.skip (bs : List Bool) : Decodes s (.skip bs.length (.done ())) bs () := by
  intro pos hpos
  have hlim := hpos.limit
  have hlt := s.limit_lt
  exact ⟨[], by simp only [Program.exec, Nat.mod_eq_of_lt (show pos + bs.length < 2 ^ 32 by omega)]⟩

theorem Decodes.copy (available size : ℕ) :
    Decodes s (.copy available size (.done ())) [] () :=
  fun _ _ => ⟨[.copy available size], rfl⟩

end decodes

/-! ## Staying inside the buffer -/

/-- Every field `g` asks for from `pos` on is inside the first `size` bytes, every code has
fewer than 32 zero bits in front, and every copy has enough to copy from. -/
def Program.Complete (s : Source) (size : ℕ) : Program α → ℕ → Prop
  | .done _, _ => True
  | .bits count next, pos =>
    (∀ p ∈ positions pos count, p / 8 < size) ∧
      (next (ofBits (s.window pos count) % 2 ^ 32)).Complete s size ((pos + count) % 2 ^ 32)
  | .golomb next, pos =>
    ∃ zeros < 32, ZeroRun s pos zeros ∧ (∀ p ∈ positions pos zeros, p / 8 < size) ∧
      (pos + zeros < s.limit → (pos + zeros) / 8 < size) ∧
      (∀ p ∈ positions ((pos + zeros + 1) % 2 ^ 32) zeros, p / 8 < size) ∧
      (next (2 ^ zeros - 1 + ofBits (s.window ((pos + zeros + 1) % 2 ^ 32) zeros))).Complete s size
        ((pos + 2 * zeros + 1) % 2 ^ 32)
  | .skip count next, pos => next.Complete s size ((pos + count) % 2 ^ 32)
  | .copy available count next, pos => count ≤ available ∧ next.Complete s size pos

end Jagles.BitPrograms
