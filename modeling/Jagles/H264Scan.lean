import Jagles.H264
import Jagles.NalUnits

set_option autoImplicit false
set_option linter.dupNamespace false

/-!
# The scan of `GetWidthHeight` and its result

The loop visits the starts of the NAL units one after the other, those behind a four-byte
start code twice, and ends at the first one the parser does not accept. What it returns then
is `-1`; it returns 0 when all of them were accepted.
-/
namespace Jagles.H264
open BitPrograms NalUnits

namespace Memory

variable (m : Memory)

/-- The NAL starts the loop visits in `rounds` rounds from `i` on. -/
def startsFrom : ℕ → ℕ → List ℕ
  | 0, _ => []
  | rounds + 1, i =>
    (if m.startcode4 i then [i + 4] else []) ++ ((if m.startcode3 i then [i + 3] else []) ++
      startsFrom rounds (i + 1))

def nalStarts : List ℕ := m.startsFrom (m.stream.length - 4) 0

/-- A start code in the stream stands before `start`, and a byte of the stream behind it. -/
structure IsNal (start : ℕ) : Prop where
  code : StartCode m.stream start
  lt : start < m.stream.length

def Accepts (start : ℕ) (size : ℤ × ℤ) : Prop :=
  (m.decodeAt start).value = .size size.1 size.2

def Accepted (start : ℕ) : Prop := ∃ size, m.Accepts start size

def Rejected (start : ℕ) : Prop := (m.decodeAt start).value = .rejected

/-- The size comes from a sequence parameter set of the stream. -/
def SizeOfSps (size : ℤ × ℤ) : Prop := ∃ start, m.IsNal start ∧ m.Accepts start size

end Memory

/-- The visits one after the other, without the comparisons. -/
def walk (m : Memory) : List ℕ → ℤ × ℤ → Call
  | [], size => ⟨some 0, size, []⟩
  | start :: starts, size => attempt m start size (walk m starts)

variable {m : Memory}

/-- The same result, and the same safety in a stream of `n` bytes. -/
structure Alike (n : ℕ) (c d : Call) : Prop where
  ret : c.ret = d.ret
  size : c.size = d.size
  safe : (∀ e ∈ c.events, e.Safe n) ↔ ∀ e ∈ d.events, e.Safe n

theorem Alike.attempt {n : ℕ} {next next' : ℤ × ℤ → Call} (start : ℕ) (size : ℤ × ℤ)
    (h : ∀ size, Alike n (next size) (next' size)) :
    Alike n (attempt m start size next) (attempt m start size next') := by
  cases hv : (m.decodeAt start).value with
  | rejected =>
    simp only [H264.attempt, hv]
    exact ⟨rfl, rfl, Iff.rfl⟩
  | threw =>
    simp only [H264.attempt, hv]
    exact ⟨rfl, rfl, Iff.rfl⟩
  | size width height =>
    have hnext := h (width, height)
    simp only [H264.attempt, hv]
    refine ⟨hnext.ret, hnext.size, ?_⟩
    simp only [Call.after, List.forall_mem_append, hnext.safe]

theorem Alike.onStartcode {n : ℕ} {next : ℤ × ℤ → Call} {starts : List ℕ} (found : Bool)
    (i length : ℕ) (size : ℤ × ℤ) (hin : i + length ≤ n)
    (h : ∀ size, Alike n (next size) (walk m starts size)) :
    Alike n (onStartcode m found i length size next)
      (walk m ((if found then [i + length] else []) ++ starts) size) := by
  have hreads : ∀ e ∈ (List.range length).map fun j => Event.read (i + j), e.Safe n := by
    simp only [List.forall_mem_map, List.mem_range, Event.safe_read]
    intro j hj
    omega
  have hcall : Alike n (if found then H264.attempt m (i + length) size next else next size)
      (walk m ((if found then [i + length] else []) ++ starts) size) := by
    cases found with
    | true => exact Alike.attempt (i + length) size h
    | false => exact h size
  refine ⟨hcall.ret, hcall.size, ?_⟩
  simp only [H264.onStartcode, Call.after, List.forall_mem_append, hcall.safe]
  exact and_iff_right hreads

theorem scanLoop_alike {n rounds i : ℕ} (hin : i + rounds + 4 ≤ n ∨ rounds = 0) (size : ℤ × ℤ) :
    Alike n (scanLoop m rounds i size) (walk m (m.startsFrom rounds i) size) := by
  induction rounds generalizing i size with
  | zero => exact ⟨rfl, rfl, Iff.rfl⟩
  | succ rounds ih =>
    refine Alike.onStartcode (m.startcode4 i) i 4 size (by omega) fun size => ?_
    refine Alike.onStartcode (m.startcode3 i) i 3 size (by omega) fun size => ?_
    exact ih (by omega) size

theorem getWidthHeight_alike (m : Memory) (size : ℤ × ℤ) :
    Alike m.stream.length (getWidthHeight m size) (walk m m.nalStarts size) :=
  scanLoop_alike (by omega) size

/-! ## Which starts are visited -/

theorem byte_eq {i : ℕ} {b : UInt8} (hi : i < m.stream.length) (h : m.byte i = b) :
    m.stream[i]? = some b := by
  rw [Memory.byte, List.getElem?_eq_getElem hi] at h
  rw [List.getElem?_eq_getElem hi, ← h]
  rfl

theorem isNal_of_startcode3 {i : ℕ} (hi : i + 3 < m.stream.length) (h : m.startcode3 i = true) :
    m.IsNal (i + 3) := by
  simp only [Memory.startcode3, Bool.and_eq_true, beq_iff_eq] at h
  exact ⟨⟨by omega, byte_eq (by omega) h.1.1, byte_eq (by omega) h.1.2, byte_eq (by omega) h.2⟩, hi⟩

theorem isNal_of_startcode4 {i : ℕ} (hi : i + 4 < m.stream.length) (h : m.startcode4 i = true) :
    m.IsNal (i + 4) := by
  simp only [Memory.startcode4, Bool.and_eq_true, beq_iff_eq] at h
  exact ⟨⟨by omega, byte_eq (by omega) h.1.1.2, byte_eq (by omega) h.1.2, byte_eq (by omega) h.2⟩,
    hi⟩

theorem isNal_of_mem_startsFrom {rounds i start : ℕ}
    (hin : i + rounds + 4 ≤ m.stream.length ∨ rounds = 0) (h : start ∈ m.startsFrom rounds i) :
    m.IsNal start := by
  induction rounds generalizing i with
  | zero => exact absurd h (by simp [Memory.startsFrom])
  | succ rounds ih =>
    simp only [Memory.startsFrom, List.mem_append] at h
    rcases h with h | h | h
    · split at h
      · rename_i hcode
        obtain rfl : start = i + 4 := by simpa using h
        exact isNal_of_startcode4 (by omega) hcode
      · exact absurd h (by simp)
    · split at h
      · rename_i hcode
        obtain rfl : start = i + 3 := by simpa using h
        exact isNal_of_startcode3 (by omega) hcode
      · exact absurd h (by simp)
    · exact ih (by omega) h

theorem isNal_of_mem {start : ℕ} (h : start ∈ m.nalStarts) : m.IsNal start :=
  isNal_of_mem_startsFrom (by omega) h

/-! ## What the visits come to -/

/-- A list of visits that ends at a rejected NAL, with what `*width` and `*height` hold then. -/
structure EndsAt (m : Memory) (starts before : List ℕ) (start : ℕ) (after : List ℕ) : Prop where
  split : starts = before ++ start :: after
  before : ∀ a ∈ before, m.Accepted a
  rejected : m.Rejected start

/-- The visits all accept, or they end at the first rejected NAL, or in an exception. -/
theorem walk_ends (starts : List ℕ) (size : ℤ × ℤ) :
    (walk m starts size).ret = some 0 ∧ (∀ a ∈ starts, m.Accepted a) ∨
    (walk m starts size).ret = some (-1) ∧ (∃ before start after,
      EndsAt m starts before start after ∧
      (before = [] → (walk m starts size).size = size) ∧
      (before ≠ [] → ∃ a ∈ before, m.Accepts a (walk m starts size).size)) ∨
    (walk m starts size).ret = none ∧ ∃ before start after, starts = before ++ start :: after ∧
      (∀ a ∈ before, m.Accepted a) ∧ (m.decodeAt start).value = .threw := by
  induction starts generalizing size with
  | nil => exact .inl ⟨rfl, by simp⟩
  | cons start starts ih =>
    cases hv : (m.decodeAt start).value with
    | rejected =>
      have hw : walk m (start :: starts) size =
          ⟨some (-1), size, (m.decodeAt start).events.map (Event.offset start)⟩ := by
        simp only [walk, attempt, hv]
      rw [hw]
      exact .inr (.inl ⟨rfl, [], start, starts, ⟨rfl, by simp, hv⟩, fun _ => rfl,
        fun h => absurd rfl h⟩)
    | threw =>
      have hw : walk m (start :: starts) size =
          ⟨none, size, (m.decodeAt start).events.map (Event.offset start)⟩ := by
        simp only [walk, attempt, hv]
      rw [hw]
      exact .inr (.inr ⟨rfl, [], start, starts, rfl, by simp, hv⟩)
    | size width height =>
      have haccepts : m.Accepts start (width, height) := hv
      have hthis : m.Accepted start := ⟨_, haccepts⟩
      simp only [walk, attempt, hv, Call.after]
      rcases ih (width, height) with ⟨hret, hall⟩ | ⟨hret, before, r, after, hends, hempty, hlast⟩ |
        ⟨hret, before, r, after, hsplit, hbefore, hthrew⟩
      · exact .inl ⟨hret, by simpa using ⟨hthis, hall⟩⟩
      · refine .inr (.inl ⟨hret, start :: before, r, after, ⟨by rw [hends.split]; rfl,
          by simpa using ⟨hthis, hends.before⟩, hends.rejected⟩,
          fun hnil => absurd hnil (by simp), fun _ => ?_⟩)
        by_cases hb : before = []
        · rw [hempty hb]
          exact ⟨start, by simp, haccepts⟩
        · obtain ⟨a, ha, hacc⟩ := hlast hb
          exact ⟨a, by simp [ha], hacc⟩
      · exact .inr (.inr ⟨hret, start :: before, r, after, by rw [hsplit]; rfl,
          by simpa using ⟨hthis, hbefore⟩, hthrew⟩)

/-- Two ways to split a list at the first NAL that is not accepted are the same. -/
theorem first_unique {before before' after after' : List ℕ} {a b : ℕ}
    (h : before ++ a :: after = before' ++ b :: after') (hb : ∀ x ∈ before, m.Accepted x)
    (hb' : ∀ x ∈ before', m.Accepted x) (ha : ¬ m.Accepted a) (hbn : ¬ m.Accepted b) :
    before = before' ∧ a = b := by
  induction before generalizing before' with
  | nil =>
    cases before' with
    | nil =>
      obtain ⟨hab, -⟩ := List.cons.inj h
      exact ⟨rfl, hab⟩
    | cons x before' =>
      obtain ⟨hax, -⟩ := List.cons.inj h
      exact absurd (hb' x (by simp)) (hax ▸ ha)
  | cons x before ih =>
    cases before' with
    | nil =>
      obtain ⟨hxb, -⟩ := List.cons.inj h
      exact absurd (hb x (by simp)) (hxb ▸ hbn)
    | cons y before' =>
      obtain ⟨rfl, htail⟩ := List.cons.inj h
      obtain ⟨rfl, rfl⟩ := ih htail (fun z hz => hb z (by simp [hz])) fun z hz => hb' z (by simp [hz])
      exact ⟨rfl, rfl⟩

theorem Memory.Rejected.not_accepted {start : ℕ} (h : m.Rejected start) : ¬ m.Accepted start := by
  rintro ⟨size, hsize⟩
  unfold Memory.Rejected at h
  rw [Memory.Accepts, h] at hsize
  cases hsize

/-- The call returns, with a value other than 0 exactly when the stream has a sequence
parameter set the parser accepts, and then it has stored the size from such a set. -/
structure Detects (m : Memory) (size : ℤ × ℤ) : Prop where
  returns : ∃ r, (getWidthHeight m size).ret = some r
  ret : ∀ r, (getWidthHeight m size).ret = some r → (r ≠ 0 ↔ ∃ size, m.SizeOfSps size)
  size : ∀ r, (getWidthHeight m size).ret = some r → r ≠ 0 →
    m.SizeOfSps (getWidthHeight m size).size

/-- Nothing is visited and there is no set at the very end of the stream either, or the
visits begin with accepted sets and then come to a rejected NAL. Where the rejected NAL is
the very first, the caller's size must already be that of a set in the stream. -/
def EndsWell (m : Memory) (size : ℤ × ℤ) : Prop :=
  m.nalStarts = [] ∧ (¬ ∃ size, m.SizeOfSps size) ∨
  ∃ before start after, EndsAt m m.nalStarts before start after ∧
    (before ≠ [] ∨ m.SizeOfSps size)

theorem sizeOfSps_of_mem {a : ℕ} {size : ℤ × ℤ} (ha : a ∈ m.nalStarts) (h : m.Accepts a size) :
    m.SizeOfSps size :=
  ⟨a, isNal_of_mem ha, h⟩

theorem detects_iff (m : Memory) (size : ℤ × ℤ) : Detects m size ↔ EndsWell m size := by
  have halike := getWidthHeight_alike m size
  have hends := walk_ends m.nalStarts size (m := m)
  rw [← halike.ret, ← halike.size] at hends
  constructor
  · intro h
    obtain ⟨r, hr⟩ := h.returns
    rcases hends with ⟨hret, hall⟩ | ⟨hret, before, start, after, hat, hempty, -⟩ | ⟨hret, -⟩
    · left
      obtain rfl : r = 0 := by simpa [hret] using hr.symm
      have hno : ¬ ∃ size, m.SizeOfSps size := fun hsps => (h.ret 0 hr).mpr hsps rfl
      refine ⟨?_, hno⟩
      cases hs : m.nalStarts with
      | nil => rfl
      | cons a starts =>
        obtain ⟨sz, hsz⟩ := hall a (by rw [hs]; simp)
        exact absurd ⟨sz, sizeOfSps_of_mem (by rw [hs]; simp) hsz⟩ hno
    · right
      obtain rfl : r = -1 := by simpa [hret] using hr.symm
      refine ⟨before, start, after, hat, ?_⟩
      by_cases hb : before = []
      · right
        rw [← hempty hb]
        exact h.size (-1) hr (by norm_num)
      · exact .inl hb
    · rw [hret] at hr
      cases hr
  · intro h
    rcases h with ⟨hnil, hno⟩ | ⟨before, start, after, hat, hgood⟩
    · rw [hnil] at hends
      have hret : (getWidthHeight m size).ret = some 0 := by
        rw [halike.ret, hnil]
        rfl
      refine ⟨⟨0, hret⟩, fun r hr => ?_, fun r hr hne => ?_⟩
      · obtain rfl : r = 0 := by simpa [hret] using hr.symm
        exact ⟨fun hz => absurd rfl hz, fun hsps => absurd hsps hno⟩
      · obtain rfl : r = 0 := by simpa [hret] using hr.symm
        exact absurd rfl hne
    · have hnot := hat.rejected.not_accepted
      have hmem : start ∈ m.nalStarts := by rw [hat.split]; simp
      rcases hends with ⟨-, hall⟩ | ⟨hret, before', start', after', hat', hempty, hlast⟩ |
        ⟨-, before', start', after', hsplit, hbefore, hthrew⟩
      · exact absurd (hall start hmem) hnot
      · obtain ⟨rfl, rfl⟩ := first_unique (hat.split.symm.trans hat'.split) hat.before hat'.before
          hnot hat'.rejected.not_accepted
        have hsize : m.SizeOfSps (getWidthHeight m size).size := by
          by_cases hb : before = []
          · rw [hempty hb]
            exact hgood.resolve_left fun hne => hne hb
          · obtain ⟨a, ha, hacc⟩ := hlast hb
            exact sizeOfSps_of_mem (by rw [hat.split]; simp [ha]) hacc
        refine ⟨⟨-1, hret⟩, fun r hr => ?_, fun _ _ _ => hsize⟩
        obtain rfl : r = -1 := by simpa [hret] using hr.symm
        exact ⟨fun _ => ⟨_, hsize⟩, fun _ => by norm_num⟩
      · have hnot' : ¬ m.Accepted start' := by
          rintro ⟨sz, hsz⟩
          rw [Memory.Accepts, hthrew] at hsz
          cases hsz
        obtain ⟨-, rfl⟩ := first_unique (hat.split.symm.trans hsplit) hat.before hbefore hnot hnot'
        have hr := hat.rejected
        rw [Memory.Rejected, hthrew] at hr
        cases hr

/-- A stream of one sequence parameter set, 16x16, of the baseline profile. -/
def loneSps : Memory where
  stream := [0, 0, 0, 1, 0x67, 66, 0, 30, 0xFB, 0x80]
  beyond _ := 0
  overshift _ := 0
  heap := 256

theorem loneSps_not_detected : ¬ Detects loneSps (0, 0) := by
  intro h
  have hret : (getWidthHeight loneSps (0, 0)).ret = some 0 := by decide +kernel
  refine (h.ret 0 hret).mpr ⟨(16, 16), 4, ⟨⟨by decide, by decide, by decide, by decide⟩, by decide⟩, ?_⟩ rfl
  unfold Memory.Accepts
  decide +kernel

end Jagles.H264
