import Mathlib.Data.Nat.Log
import Mathlib.Tactic

set_option autoImplicit false
set_option linter.dupNamespace false

/-!
# Byte-addressed memory

A memory is a total map from offsets to bytes. Little-endian words and byte
strings are loaded from it and stored into it; every lemma below says either
that a load sees a store, or that it does not reach it. Big-endian words are only
loaded; `bytesBE` gives the bytes that they are loaded from.
-/
namespace Jagles.ByteMemory

abbrev Memory := ℕ → UInt8

def loadLE (m : Memory) : ℕ → ℕ → ℕ
  | _, 0 => 0
  | a, n + 1 => (m a).toNat + 256 * loadLE m (a + 1) n

def loadBytes (m : Memory) (a n : ℕ) : List UInt8 := (List.range n).map fun i => m (a + i)

def loadBE (m : Memory) (a : ℕ) : ℕ → ℕ
  | 0 => 0
  | n + 1 => 256 * loadBE m a n + (m (a + n)).toNat

def bytesBE : ℕ → ℕ → List UInt8
  | 0, _ => []
  | n + 1, v => bytesBE n (v / 256) ++ [UInt8.ofNat v]

def storeLE (m : Memory) (a n v : ℕ) : Memory := fun x =>
  if a ≤ x ∧ x < a + n then UInt8.ofNat (v / 256 ^ (x - a)) else m x

def storeBytes (m : Memory) (a : ℕ) (bs : List UInt8) : Memory := fun x =>
  if a ≤ x then bs.getD (x - a) (m x) else m x

def bytesLE (n v : ℕ) : List UInt8 := (List.range n).map fun i => UInt8.ofNat (v / 256 ^ i)

/-- Byte strings stored one after the other, each at its own offset. -/
def storeAll (m : Memory) (ss : List (ℕ × List UInt8)) : Memory :=
  ss.foldl (fun m s => storeBytes m s.1 s.2) m

/-- Two memories hold the same `n` bytes from `a` on. -/
def Agree (m m' : Memory) (a n : ℕ) : Prop := ∀ x, a ≤ x → x < a + n → m x = m' x

theorem Agree.refl (m : Memory) (a n : ℕ) : Agree m m a n := fun _ _ _ => rfl

theorem Agree.trans {m m' m'' : Memory} {a n : ℕ} (h : Agree m m' a n)
    (h' : Agree m' m'' a n) : Agree m m'' a n :=
  fun x hx hn => (h x hx hn).trans (h' x hx hn)

theorem Agree.sub {m m' : Memory} {a n b k : ℕ} (h : Agree m m' a n)
    (hb : a ≤ b) (hk : b + k ≤ a + n) : Agree m m' b k :=
  fun x hx hn => h x (by omega) (by omega)

theorem storeLE_agree (m : Memory) {a n v b k : ℕ} (h : b + k ≤ a ∨ a + n ≤ b) :
    Agree (storeLE m a n v) m b k := by
  intro x hx hk
  exact if_neg (by omega)

theorem storeBytes_agree (m : Memory) {a b k : ℕ} {bs : List UInt8}
    (h : b + k ≤ a ∨ a + bs.length ≤ b) : Agree (storeBytes m a bs) m b k := by
  intro x hx hk
  unfold storeBytes
  split
  · rw [List.getD_eq_getElem?_getD, List.getElem?_eq_none (by omega), Option.getD_none]
  · rfl

theorem Agree.storeBytes {m m' : Memory} {b k : ℕ} (h : Agree m m' b k) (a : ℕ)
    (bs : List UInt8) : Agree (storeBytes m a bs) (storeBytes m' a bs) b k := by
  intro x hx hk
  simp only [ByteMemory.storeBytes, h x hx hk]

theorem storeLE_eq (m : Memory) (a n v : ℕ) : storeLE m a n v = storeBytes m a (bytesLE n v) := by
  funext x
  unfold storeLE storeBytes bytesLE
  by_cases hlow : a ≤ x
  · rw [if_pos hlow, List.getD_eq_getElem?_getD]
    by_cases hhigh : x < a + n
    · rw [if_pos ⟨hlow, hhigh⟩, List.getElem?_map, List.getElem?_range (by omega)]
      rfl
    · rw [if_neg (fun h => hhigh h.2), List.getElem?_eq_none (by simp; omega), Option.getD_none]
  · rw [if_neg (fun h => hlow h.1), if_neg hlow]

theorem loadLE_congr {m m' : Memory} {a n : ℕ} (h : Agree m m' a n) :
    loadLE m a n = loadLE m' a n := by
  induction n generalizing a with
  | zero => rfl
  | succ n ih =>
    simp only [loadLE]
    rw [h a (by omega) (by omega), ih (h.sub (by omega) (by omega))]

theorem loadBytes_congr {m m' : Memory} {a n : ℕ} (h : Agree m m' a n) :
    loadBytes m a n = loadBytes m' a n := by
  apply List.map_congr_left
  intro i hi
  exact h (a + i) (by omega) (by have := List.mem_range.mp hi; omega)

theorem loadLE_of_digits {m : Memory} {a n v : ℕ} (hv : v < 256 ^ n)
    (h : ∀ i < n, (m (a + i)).toNat = v / 256 ^ i % 256) : loadLE m a n = v := by
  induction n generalizing a v with
  | zero => simp only [loadLE]; omega
  | succ n ih =>
    have first := h 0 (by omega)
    have rest : loadLE m (a + 1) n = v / 256 := by
      apply ih
      · rw [Nat.div_lt_iff_lt_mul (by omega)]
        simpa only [pow_succ] using hv
      · intro i hi
        have hd := h (i + 1) (by omega)
        rw [show a + 1 + i = a + (i + 1) by omega, hd, Nat.div_div_eq_div_mul, pow_succ, Nat.mul_comm]
    simp only [loadLE, rest]
    simp only [Nat.add_zero, pow_zero, Nat.div_one] at first
    omega

theorem loadLE_storeLE (m : Memory) {a n v : ℕ} (hv : v < 256 ^ n) :
    loadLE (storeLE m a n v) a n = v := by
  apply loadLE_of_digits hv
  intro i hi
  unfold storeLE
  rw [if_pos (by omega), Nat.add_sub_cancel_left]
  simp only [UInt8.toNat_ofNat']

theorem loadBytes_storeBytes (m : Memory) (a : ℕ) {n : ℕ} {bs : List UInt8}
    (h : bs.length = n) : loadBytes (storeBytes m a bs) a n = bs := by
  subst n
  apply List.ext_getElem
  · simp [loadBytes]
  · intro i hi hb
    simp [loadBytes, storeBytes, hb]

@[simp] theorem loadBytes_length (m : Memory) (a n : ℕ) : (loadBytes m a n).length = n := by
  simp [loadBytes]

@[simp] theorem bytesBE_length (n v : ℕ) : (bytesBE n v).length = n := by
  induction n generalizing v with
  | zero => rfl
  | succ n ih => simp [bytesBE, ih]

theorem loadBytes_add (m : Memory) (a n k : ℕ) :
    loadBytes m a (n + k) = loadBytes m a n ++ loadBytes m (a + n) k := by
  unfold loadBytes
  rw [List.range_add, List.map_append, List.map_map]
  simp [Function.comp_def, Nat.add_assoc]

theorem loadBytes_mid {m : Memory} {a n : ℕ} {l mid r : List UInt8}
    (h : loadBytes m a n = l ++ mid ++ r) : loadBytes m (a + l.length) mid.length = mid := by
  have hlen : n = l.length + mid.length + r.length := by
    have hcount := congrArg List.length h
    simpa [Nat.add_assoc] using hcount
  rw [hlen, loadBytes_add, loadBytes_add] at h
  have hleft := List.append_inj_left h (by simp)
  exact List.append_inj_right hleft (by simp)

theorem loadBE_of_loadBytes {m : Memory} {a n v : ℕ} (hv : v < 256 ^ n)
    (h : loadBytes m a n = bytesBE n v) : loadBE m a n = v := by
  induction n generalizing v with
  | zero =>
    simp only [loadBE]
    omega
  | succ n ih =>
    rw [loadBytes_add] at h
    have hleft := List.append_inj_left h (by simp)
    have hlast := List.append_inj_right h (by simp)
    have hbyte : m (a + n) = UInt8.ofNat v := by simpa [loadBytes] using hlast
    have hdiv : v / 256 < 256 ^ n := by
      rw [Nat.div_lt_iff_lt_mul (by omega)]
      simpa only [pow_succ] using hv
    rw [loadBE, ih hdiv hleft, hbyte, UInt8.toNat_ofNat']
    omega

theorem loadBytes_storeBytes_append (m : Memory) (n : ℕ) (bs : List UInt8) :
    loadBytes (storeBytes m n bs) 0 (n + bs.length) = loadBytes m 0 n ++ bs := by
  rw [loadBytes_add, Nat.zero_add, loadBytes_storeBytes m n rfl]
  congr 1
  exact loadBytes_congr (storeBytes_agree m (.inl (by omega)))

end Jagles.ByteMemory
