import Jagles.Quantisers
import Mathlib.Data.Int.Bitwise

set_option autoImplicit false
set_option linter.dupNamespace false

/-!
# Sound as G.711 codes

The functions of `ag711.cpp` between sixteen bit samples and A-law or u-law codes.
-/
namespace Jagles.G711
open Quantisers

def SIGN_BIT : UInt8 := 0x80
def QUANT_MASK : UInt8 := 0xf
def SEG_SHIFT : ℕ := 4
def SEG_MASK : UInt8 := 0x70

def segEnd : List ℤ := [0xFF, 0x1FF, 0x3FF, 0x7FF, 0xFFF, 0x1FFF, 0x3FFF, 0x7FFF]

/-- The first entry that is not below the value, or the length of the table. -/
def search (val : ℤ) (table : List ℤ) : ℕ := table.findIdx (val ≤ ·)

/-- `(val >> shift) & QUANT_MASK` of an `int`. -/
def quantised (val : ℤ) (shift : ℕ) : UInt8 := UInt8.ofNat ((val >>> shift) % 16).toNat

def linear2alaw (pcm_val : ℤ) : UInt8 :=
  let mask : UInt8 := if 0 ≤ pcm_val then 0xD5 else 0x55
  let pcm_val := if 0 ≤ pcm_val then pcm_val else -pcm_val - 8
  let seg := search pcm_val segEnd
  if 8 ≤ seg then 0x7F ^^^ mask
  else
    let aval := UInt8.ofNat (seg <<< SEG_SHIFT)
    if seg < 2 then (aval ||| quantised pcm_val 4) ^^^ mask
    else (aval ||| quantised pcm_val (seg + 3)) ^^^ mask

def alaw2linear (a_val : UInt8) : ℤ :=
  let a_val := a_val ^^^ 0x55
  let t : ℤ := ((a_val &&& QUANT_MASK).toNat <<< 4 : ℕ)
  let seg := (a_val &&& SEG_MASK).toNat >>> SEG_SHIFT
  let t := match seg with
    | 0 => t + 8
    | 1 => t + 0x108
    | _ => (t + 0x108) <<< (seg - 1)
  if a_val &&& SIGN_BIT ≠ 0 then t else -t

def BIAS : ℤ := 0x84

def linear2ulaw (pcm_val : ℤ) : UInt8 :=
  let mask : UInt8 := if pcm_val < 0 then 0x7F else 0xFF
  let pcm_val := if pcm_val < 0 then BIAS - pcm_val else pcm_val + BIAS
  let seg := search pcm_val segEnd
  if 8 ≤ seg then 0x7F ^^^ mask
  else (UInt8.ofNat (seg <<< 4) ||| quantised pcm_val (seg + 3)) ^^^ mask

def ulaw2linear (u_val : UInt8) : ℤ :=
  let u_val := ~~~u_val
  let t : ℤ := ((u_val &&& QUANT_MASK).toNat <<< 3 : ℕ) + BIAS
  let t := t <<< ((u_val &&& SEG_MASK).toNat >>> SEG_SHIFT)
  if u_val &&& SIGN_BIT ≠ 0 then BIAS - t else t - BIAS

/-! ## The cells of the two laws -/

/-- The magnitudes of A-law: steps of sixteen in the first two segments. -/
def aLaw : Quantiser where
  bound k := if k < 16 then 16 * k else 16 * segmented 16 (k - 16)
  strict := by
    refine strictMono_nat_of_lt_succ fun k => ?_
    have hstep := segmented_strictMono (b := 16) (by omega)
    rcases Nat.lt_trichotomy k 15 with h | rfl | h
    · rw [if_pos (by omega), if_pos (by omega)]; omega
    · decide
    · rw [if_neg (by omega), if_neg (by omega)]
      have hlt := hstep (show k - 16 < k + 1 - 16 by omega)
      omega

/-- The magnitudes of u-law. -/
def uLaw : Quantiser where
  bound k := 8 * segmented 16 k - BIAS
  strict := by
    refine strictMono_nat_of_lt_succ fun k => ?_
    have hlt := segmented_strictMono (b := 16) (by omega) k.lt_succ_self
    change (8 * segmented 16 k : ℤ) - BIAS < 8 * segmented 16 (k + 1) - BIAS
    have hcast : (segmented 16 k : ℤ) < segmented 16 (k + 1) := by exact_mod_cast hlt
    omega

/-- The segment of a magnitude is its number of binary digits less eight. -/
theorem search_segEnd {v : ℕ} (hv : v < 32768) :
    search v segEnd < 8 ∧ v < 32 * 2 ^ (search v segEnd + 3) ∧
      (search v segEnd = 0 ∨ 16 * 2 ^ (search v segEnd + 3) ≤ v) := by
  simp only [search, segEnd, List.findIdx_cons, List.findIdx_nil, cond_eq_ite, decide_eq_true_eq]
  split_ifs <;> simp <;> omega

theorem search_past {v : ℤ} (hv : 32768 ≤ v) : search v segEnd = 8 := by
  simp only [search, segEnd, List.findIdx_cons, List.findIdx_nil, cond_eq_ite, decide_eq_true_eq]
  split_ifs <;> first | rfl | omega

theorem quantised_natCast (v shift : ℕ) :
    quantised v shift = UInt8.ofNat (v / 2 ^ shift % 16) := by
  unfold quantised
  rw [Int.shiftRight_eq_div_pow]
  norm_cast

theorem code_eq : ∀ seg < 8, ∀ r < 16,
    UInt8.ofNat (seg <<< 4) ||| UInt8.ofNat r = UInt8.ofNat (16 * seg + r) := by
  decide

theorem forall_code {P : UInt8 → Prop} (h : ∀ seg < 16, ∀ r < 16, P (UInt8.ofNat (16 * seg + r)))
    (a : UInt8) : P a := by
  have hlt : a.toNat < 256 := a.toNat_lt
  have ha := h (a.toNat / 16) (by omega) (a.toNat % 16) (by omega)
  rwa [Nat.div_add_mod, UInt8.ofNat_toNat] at ha

/-- The code of a magnitude, before it gets its sign: the segment and the step in it. -/
def alawCode (v : ℤ) : UInt8 :=
  UInt8.ofNat (search v segEnd <<< SEG_SHIFT) |||
    quantised v (if search v segEnd < 2 then 4 else search v segEnd + 3)

theorem aLaw_cell_segment {k v : ℕ} (hk : 16 ≤ k) (hlow : segmented 16 (k - 16) ≤ v / 16)
    (hhigh : v / 16 < segmented 16 (k - 16 + 1)) : aLaw.Cell k v := by
  have hnext : k + 1 - 16 = k - 16 + 1 := by omega
  constructor
  · change (if k < 16 then 16 * (k : ℤ) else 16 * segmented 16 (k - 16)) ≤ v
    rw [if_neg (by omega)]
    omega
  · change (v : ℤ) < if k + 1 < 16 then 16 * ((k + 1 : ℕ) : ℤ) else 16 * segmented 16 (k + 1 - 16)
    rw [if_neg (by omega), hnext]
    omega

theorem aLaw_cell_first {v : ℕ} (hv : v < 256) : aLaw.Cell (v / 16) v := by
  constructor
  · change (if v / 16 < 16 then 16 * ((v / 16 : ℕ) : ℤ) else _) ≤ (v : ℤ)
    rw [if_pos (by omega)]
    omega
  · change (v : ℤ) < if v / 16 + 1 < 16 then 16 * ((v / 16 + 1 : ℕ) : ℤ) else _
    split_ifs with h
    · omega
    · have hlast : v / 16 = 15 := by omega
      rw [hlast]
      change (v : ℤ) < 256
      omega

theorem alawCode_cell {v : ℕ} (hv : v < 32768) :
    ∃ k < 128, aLaw.Cell k v ∧ alawCode v = UInt8.ofNat k := by
  obtain ⟨hseg, hhigh, hlow⟩ := search_segEnd hv
  unfold alawCode
  generalize search v segEnd = seg at hseg hhigh hlow ⊢
  rcases Nat.eq_zero_or_pos seg with rfl | hpos
  · have hv : v < 256 := by simpa using hhigh
    refine ⟨v / 16, by omega, aLaw_cell_first hv, ?_⟩
    rw [if_pos (by omega), quantised_natCast, SEG_SHIFT, code_eq 0 (by omega) _ (by omega)]
    congr 1
    omega
  · have hshift : (if seg < 2 then 4 else seg + 3) = seg + 3 := by split_ifs <;> omega
    have hpow : 2 ^ (seg + 3) = 16 * 2 ^ (seg - 1) := by
      rw [show seg + 3 = seg - 1 + 4 by omega, Nat.pow_add]
      omega
    have hquot : v / 2 ^ (seg + 3) = v / 16 / 2 ^ (seg - 1) := by rw [hpow, Nat.div_div_eq_div_mul]
    rw [hpow] at hhigh hlow
    have hlow : 16 * (16 * 2 ^ (seg - 1)) ≤ v := hlow.resolve_left (by omega)
    have hcell := segmented_cell (b := 16) (s := seg - 1) (v := v / 16) (by omega) (by omega)
    have hle : 16 ≤ v / 16 / 2 ^ (seg - 1) :=
      (Nat.le_div_iff_mul_le (Nat.two_pow_pos _)).mpr (by omega)
    have hlt : v / 16 / 2 ^ (seg - 1) < 32 :=
      (Nat.div_lt_iff_lt_mul (Nat.two_pow_pos _)).mpr (by omega)
    have hindex : 16 * seg + (v / 16 / 2 ^ (seg - 1) - 16) - 16 =
        16 * (seg - 1) + (v / 16 / 2 ^ (seg - 1) - 16) := by omega
    refine ⟨16 * seg + (v / 16 / 2 ^ (seg - 1) - 16), by omega,
      aLaw_cell_segment (by omega) (hindex ▸ hcell.1) (hindex ▸ hcell.2), ?_⟩
    rw [hshift, quantised_natCast, hquot, SEG_SHIFT, code_eq seg hseg _ (by omega)]
    congr 1
    omega

/-- What is out of range gets the last code. -/
theorem alaw_index (v : ℕ) : ∃ k, aLaw.Index 128 k v ∧
    (if 8 ≤ search v segEnd then 0x7F else alawCode v) = UInt8.ofNat k := by
  rcases Nat.lt_or_ge v 32768 with hv | hv
  · obtain ⟨k, hk, hcell, hcode⟩ := alawCode_cell hv
    have hseg := (search_segEnd hv).1
    exact ⟨k, hcell.index hk, by rw [if_neg (by omega), hcode]⟩
  · have hseg := search_past (v := v) (by omega)
    refine ⟨127, ⟨by omega, ?_, by omega⟩, by rw [hseg]; rfl⟩
    have hbound : aLaw.bound 127 = 31744 := by decide
    omega

theorem linear2alaw_positive (v : ℕ) :
    ∃ k, aLaw.Index 128 k v ∧ linear2alaw v = UInt8.ofNat k ^^^ 0xD5 := by
  obtain ⟨k, hindex, hcode⟩ := alaw_index v
  refine ⟨k, hindex, ?_⟩
  rw [← hcode]
  have hsign : (0 : ℤ) ≤ v := by omega
  simp only [linear2alaw, alawCode, if_pos hsign]
  split_ifs <;> rfl

/-- A negative sample is coded by the magnitude that is eight less. -/
theorem linear2alaw_negative (v : ℕ) :
    ∃ k, aLaw.Index 128 k v ∧ linear2alaw (-8 - v) = UInt8.ofNat k ^^^ 0x55 := by
  obtain ⟨k, hindex, hcode⟩ := alaw_index v
  refine ⟨k, hindex, ?_⟩
  rw [← hcode]
  have hsign : ¬ (0 : ℤ) ≤ -8 - v := by omega
  have hmagnitude : -(-8 - (v : ℤ)) - 8 = v := by ring
  simp only [linear2alaw, alawCode, if_neg hsign, hmagnitude]
  split_ifs <;> rfl

/-- A code stands for the middle of its cell, with its sign. -/
theorem alaw2linear_code : ∀ k < 128,
    alaw2linear (UInt8.ofNat k ^^^ 0xD5) = aLaw.mid k ∧
      alaw2linear (UInt8.ofNat k ^^^ 0x55) = -aLaw.mid k := by
  decide

/-- The samples whose magnitude is less than eight go below zero and wrap. -/
theorem linear2alaw_wraps {x : ℤ} (hlow : -7 ≤ x) (hhigh : x ≤ -1) :
    alaw2linear (linear2alaw x) = -248 := by
  obtain rfl | rfl | rfl | rfl | rfl | rfl | rfl :
    x = -7 ∨ x = -6 ∨ x = -5 ∨ x = -4 ∨ x = -3 ∨ x = -2 ∨ x = -1 := by omega
  all_goals decide

/-- A sample that the encoder codes by its own magnitude. -/
theorem coded_of_not_wraps {x : ℤ} (h : ¬ (-7 ≤ x ∧ x ≤ -1)) :
    (∃ v : ℕ, x = v) ∨ ∃ v : ℕ, x = -8 - v := by
  rcases lt_or_ge x 0 with hx | hx
  · exact .inr ⟨(-8 - x).toNat, by omega⟩
  · exact .inl ⟨x.toNat, by omega⟩

/-- The width of a cell is a sixteenth of the magnitude, or sixteen. -/
theorem aLaw_width {k v : ℕ} (h : aLaw.Cell k v) :
    aLaw.bound (k + 1) - aLaw.bound k ≤ max 16 (v / 16 : ℕ) := by
  have hle := h.le
  change (if k < 16 then 16 * (k : ℤ) else 16 * segmented 16 (k - 16)) ≤ v at hle
  change (if k + 1 < 16 then 16 * ((k + 1 : ℕ) : ℤ) else 16 * segmented 16 (k + 1 - 16)) -
    (if k < 16 then 16 * (k : ℤ) else 16 * segmented 16 (k - 16)) ≤ _
  rcases Nat.lt_or_ge k 16 with hk | hk
  · have hwidth : (if k + 1 < 16 then 16 * ((k + 1 : ℕ) : ℤ) else 16 * segmented 16 (k + 1 - 16)) =
        16 * (k + 1) := by
      split_ifs with h
      · push_cast; ring
      · have hk : k = 15 := by omega
        subst hk
        rfl
    rw [hwidth, if_pos hk]
    omega
  · rw [if_neg (by omega)] at hle
    rw [if_neg (by omega), if_neg (by omega), show k + 1 - 16 = k - 16 + 1 by omega,
      segmented_step (by omega)]
    have hwidth := le_segmented 16 (k - 16)
    omega

theorem aLaw_error {k v : ℕ} (h : aLaw.Cell k v) :
    2 * |aLaw.mid k - v| ≤ max 16 (v / 16 : ℕ) :=
  h.error.trans (aLaw_width h)

theorem aLaw_cell_of_index {k v : ℕ} (hv : v < 32768) (h : aLaw.Index 128 k v) :
    aLaw.Cell k v := by
  refine ⟨h.le, ?_⟩
  rcases Nat.lt_or_ge (k + 1) 128 with hk | hk
  · exact h.below hk
  · have hlast : k + 1 = 128 := by have := h.lt; omega
    have hbound : aLaw.bound 128 = 32768 := by decide
    rw [hlast, hbound]
    omega

/-- A sample of sixteen bits comes back within half a step, and eight more below zero, exactly when
it is not one of the seven below zero that the encoder takes for a magnitude below zero. -/
theorem linear2alaw_accurate_iff (x : Int16) :
    |alaw2linear (linear2alaw x.toInt) - x.toInt| ≤ max 16 (|x.toInt| / 32 + 8) ↔
      ¬ (-7 ≤ x.toInt ∧ x.toInt ≤ -1) := by
  have hlow := x.le_toInt
  have hhigh := x.toInt_lt
  generalize x.toInt = x at hlow hhigh ⊢
  constructor
  · rintro h ⟨hge, hle⟩
    rw [linear2alaw_wraps hge hle] at h
    rw [abs_of_neg (show -248 - x < 0 by omega), abs_of_neg (show x < 0 by omega)] at h
    omega
  · intro h
    rcases coded_of_not_wraps h with ⟨v, rfl⟩ | ⟨v, rfl⟩
    · obtain ⟨k, hindex, hcode⟩ := linear2alaw_positive v
      have herror := aLaw_error (aLaw_cell_of_index (by omega) hindex)
      rw [hcode, (alaw2linear_code k hindex.lt).1, abs_of_nonneg (show (0 : ℤ) ≤ v by omega)]
      omega
    · obtain ⟨k, hindex, hcode⟩ := linear2alaw_negative v
      have herror := aLaw_error (aLaw_cell_of_index (by omega) hindex)
      rw [hcode, (alaw2linear_code k hindex.lt).2, abs_of_neg (show -8 - (v : ℤ) < 0 by omega)]
      have hswap : -aLaw.mid k - (-8 - v) = 8 - (aLaw.mid k - v) := by ring
      have hsplit := abs_sub (8 : ℤ) (aLaw.mid k - v)
      rw [hswap]
      rw [abs_of_pos (show (0 : ℤ) < 8 by omega)] at hsplit
      omega

theorem aLaw_mid_pos (k : ℕ) : 0 < aLaw.mid k := by
  have hfirst : aLaw.mid 0 = 8 := by decide
  have hmono : aLaw.mid 0 ≤ aLaw.mid k := Quantiser.mid_mono k.zero_le
  omega

/-- A-law keeps the order of the samples that it codes by their magnitude, and every code is the
code of the sample that it stands for. -/
theorem alaw_codes :
    (∀ a, linear2alaw (alaw2linear a) = a) ∧
      ∀ x y : ℤ, ¬ (-7 ≤ x ∧ x ≤ -1) → ¬ (-7 ≤ y ∧ y ≤ -1) → x ≤ y →
        alaw2linear (linear2alaw x) ≤ alaw2linear (linear2alaw y) := by
  refine ⟨forall_code (by decide), fun x y hx hy h => ?_⟩
  rcases coded_of_not_wraps hx with ⟨v, rfl⟩ | ⟨v, rfl⟩ <;>
    rcases coded_of_not_wraps hy with ⟨w, rfl⟩ | ⟨w, rfl⟩
  · obtain ⟨j, hj, hcodej⟩ := linear2alaw_positive v
    obtain ⟨k, hk, hcodek⟩ := linear2alaw_positive w
    rw [hcodej, hcodek, (alaw2linear_code j hj.lt).1, (alaw2linear_code k hk.lt).1]
    exact hj.mid_le hk h
  · omega
  · obtain ⟨j, hj, hcodej⟩ := linear2alaw_negative v
    obtain ⟨k, hk, hcodek⟩ := linear2alaw_positive w
    rw [hcodej, hcodek, (alaw2linear_code j hj.lt).2, (alaw2linear_code k hk.lt).1]
    have hjpos := aLaw_mid_pos j
    have hkpos := aLaw_mid_pos k
    omega
  · obtain ⟨j, hj, hcodej⟩ := linear2alaw_negative v
    obtain ⟨k, hk, hcodek⟩ := linear2alaw_negative w
    rw [hcodej, hcodek, (alaw2linear_code j hj.lt).2, (alaw2linear_code k hk.lt).2]
    have hmid := hk.mid_le hj (by omega)
    omega

/-! ## u-law -/

/-- A magnitude in range has the bias added, so that its segment and step are those of
`segmented`. -/
theorem ulaw_index (m : ℕ) : ∃ k, uLaw.Index 128 k m ∧
    (if 8 ≤ search ((m : ℤ) + BIAS) segEnd then (0x7F : UInt8)
      else UInt8.ofNat (search ((m : ℤ) + BIAS) segEnd <<< 4) |||
        quantised ((m : ℤ) + BIAS) (search ((m : ℤ) + BIAS) segEnd + 3)) = UInt8.ofNat k := by
  have hbias : (m : ℤ) + BIAS = ((m + 132 : ℕ) : ℤ) := by simp [BIAS]
  rw [hbias]
  rcases Nat.lt_or_ge (m + 132) 32768 with hv | hv
  · obtain ⟨hseg, hhigh, hlow⟩ := search_segEnd hv
    generalize search ((m + 132 : ℕ) : ℤ) segEnd = seg at hseg hhigh hlow ⊢
    have hpow : 2 ^ (seg + 3) = 8 * 2 ^ seg := by rw [Nat.pow_add]; omega
    have hquot : (m + 132) / 2 ^ (seg + 3) = (m + 132) / 8 / 2 ^ seg := by
      rw [hpow, Nat.div_div_eq_div_mul]
    rw [hpow] at hhigh hlow
    have hlow : 16 * (8 * 2 ^ seg) ≤ m + 132 := by
      rcases hlow with rfl | h
      · omega
      · exact h
    have hcell := segmented_cell (b := 16) (s := seg) (v := (m + 132) / 8) (by omega) (by omega)
    have hle : 16 ≤ (m + 132) / 8 / 2 ^ seg :=
      (Nat.le_div_iff_mul_le (Nat.two_pow_pos _)).mpr (by omega)
    have hlt : (m + 132) / 8 / 2 ^ seg < 32 :=
      (Nat.div_lt_iff_lt_mul (Nat.two_pow_pos _)).mpr (by omega)
    refine ⟨16 * seg + ((m + 132) / 8 / 2 ^ seg - 16), ⟨by omega, ?_, fun _ => ?_⟩, ?_⟩
    · change (8 * segmented 16 _ : ℤ) - 132 ≤ m
      omega
    · change (m : ℤ) < 8 * segmented 16 _ - 132
      omega
    · rw [if_neg (by omega), quantised_natCast, hquot, code_eq seg hseg _ (by omega)]
      congr 1
      omega
  · have hseg := search_past (v := (m + 132 : ℕ)) (by omega)
    refine ⟨127, ⟨by omega, ?_, by omega⟩, by rw [hseg]; rfl⟩
    have hbound : uLaw.bound 127 = 31612 := by decide
    omega

theorem linear2ulaw_positive (m : ℕ) :
    ∃ k, uLaw.Index 128 k m ∧ linear2ulaw m = UInt8.ofNat k ^^^ 0xFF := by
  obtain ⟨k, hindex, hcode⟩ := ulaw_index m
  refine ⟨k, hindex, ?_⟩
  rw [← hcode]
  have hsign : ¬ (m : ℤ) < 0 := by omega
  simp only [linear2ulaw, if_neg hsign]
  split_ifs <;> rfl

theorem linear2ulaw_negative (m : ℕ) :
    ∃ k, uLaw.Index 128 k (m + 1 : ℕ) ∧ linear2ulaw (-1 - m) = UInt8.ofNat k ^^^ 0x7F := by
  obtain ⟨k, hindex, hcode⟩ := ulaw_index (m + 1)
  refine ⟨k, hindex, ?_⟩
  rw [← hcode]
  have hsign : -1 - (m : ℤ) < 0 := by omega
  have hmagnitude : BIAS - (-1 - (m : ℤ)) = ((m + 1 : ℕ) : ℤ) + BIAS := by push_cast; ring
  simp only [linear2ulaw, if_pos hsign, hmagnitude]
  split_ifs <;> rfl

theorem ulaw2linear_code : ∀ k < 128,
    ulaw2linear (UInt8.ofNat k ^^^ 0xFF) = uLaw.mid k ∧
      ulaw2linear (UInt8.ofNat k ^^^ 0x7F) = -uLaw.mid k := by
  decide

/-- The last cell ends at 32636; the samples above it lose less than a thirty-second all the
same. -/
theorem uLaw_error {k m : ℕ} (hm : m ≤ 32768) (h : uLaw.Index 128 k m) :
    |uLaw.mid k - m| ≤ (m + 132) / 32 := by
  have hle : (8 * segmented 16 k : ℤ) - 132 ≤ m := h.le
  rcases Nat.lt_or_ge m 32636 with hlt | hge
  · have hcell : uLaw.Cell k m := by
      refine ⟨h.le, ?_⟩
      rcases Nat.lt_or_ge (k + 1) 128 with hk | hk
      · exact h.below hk
      · have hlast : k + 1 = 128 := by have := h.lt; omega
        have hbound : uLaw.bound 128 = 32636 := by decide
        rw [hlast, hbound]
        omega
    have herror : 2 * |uLaw.mid k - m| ≤
        (8 * segmented 16 (k + 1) - 132 : ℤ) - (8 * segmented 16 k - 132) := hcell.error
    rw [segmented_step (by omega)] at herror
    have hwidth := le_segmented 16 k
    omega
  · have hlast : k = 127 := by
      by_contra hne
      have hk := h.lt
      have hbelow := h.below (by omega)
      have hmono : uLaw.bound (k + 1) ≤ uLaw.bound 127 := Quantiser.bound_mono (by omega)
      have hbound : uLaw.bound 127 = 31612 := by decide
      omega
    have hmid : uLaw.mid 127 = 32124 := by decide
    rw [hlast, hmid, abs_of_neg (by omega)]
    omega

/-- u-law loses no more than a thirty-second of a sample of sixteen bits, and four. -/
theorem linear2ulaw_accurate (x : Int16) :
    |ulaw2linear (linear2ulaw x.toInt) - x.toInt| ≤ (|x.toInt| + 132) / 32 := by
  have hlow := x.le_toInt
  have hhigh := x.toInt_lt
  generalize x.toInt = x at hlow hhigh ⊢
  rcases lt_or_ge x 0 with hx | hx
  · obtain ⟨m, rfl⟩ : ∃ m : ℕ, x = -1 - m := ⟨(-1 - x).toNat, by omega⟩
    obtain ⟨k, hindex, hcode⟩ := linear2ulaw_negative m
    have herror := uLaw_error (by omega) hindex
    have hswap : -uLaw.mid k - (-1 - (m : ℤ)) = -(uLaw.mid k - (m + 1 : ℕ)) := by push_cast; ring
    rw [hcode, (ulaw2linear_code k hindex.lt).2, hswap, abs_neg, abs_of_neg hx]
    omega
  · obtain ⟨m, rfl⟩ : ∃ m : ℕ, x = m := ⟨x.toNat, by omega⟩
    obtain ⟨k, hindex, hcode⟩ := linear2ulaw_positive m
    rw [hcode, (ulaw2linear_code k hindex.lt).1, abs_of_nonneg hx]
    exact uLaw_error (by omega) hindex

end Jagles.G711
