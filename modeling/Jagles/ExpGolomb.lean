import Jagles.BitPrograms

set_option autoImplicit false
set_option linter.dupNamespace false

/-!
# Exp-Golomb codes (`Ue`, `Se`, `u`, `Ue_265`, `u_265`)

The readers of the two parameter set parsers, on a code that starts at any bit of a buffer of
any length. Bit positions and the length in bits have 32 bits.
-/
namespace Jagles.ExpGolomb
open BitPrograms

/-! ## The readers -/

/-- The value and the position behind it. -/
def ue (s : Source) (nStartBit : ℕ) : ℕ × ℕ :=
  let o := readGolomb s nStartBit
  (o.value, o.startBit)

def ue265 (s : Source) (nStartBit : ℕ) : ℕ × ℕ :=
  let o := readGolomb s nStartBit
  (o.value, o.startBit)

/-- `UeVal` is an `int`. Half of it is exact in a `double`. -/
def se (s : Source) (nStartBit : ℕ) : ℤ × ℕ :=
  let r := ue s nStartBit
  let ueVal := toInt r.1
  let nValue := ⌈(ueVal : ℚ) / 2⌉
  (if ueVal.tmod 2 = 0 then -nValue else nValue, r.2)

def u (bitCount : ℕ) (s : Source) (nStartBit : ℕ) : ℕ × ℕ :=
  let o := readValue s bitCount 0 nStartBit
  (o.value, o.startBit)

def u265 (bitCount : ℕ) (s : Source) (nStartBit : ℕ) : ℕ × ℕ :=
  let o := readValue s bitCount 0 nStartBit
  (o.value, o.startBit)

/-! ## Codes -/

/-- The number whose code stands for a signed one. -/
def signedCode (v : ℤ) : ℕ := (if 0 < v then 2 * v - 1 else -2 * v).toNat

/-- The loop over the zero bits comes to the one, and the position behind the code has 32
bits. -/
def Reached (s : Source) (pos k : ℕ) : Prop :=
  (k = 0 ∨ pos + (k + 1).log2 ≤ s.limit) ∧ pos + 2 * (k + 1).log2 + 1 < 2 ^ 32

section Readers
variable {s : Source} {pos : ℕ}

theorem log2_eq_zero_iff (k : ℕ) : (k + 1).log2 = 0 ↔ k = 0 := by
  rw [← Nat.lt_one_iff, Nat.log2_lt (by omega)]
  omega

theorem reached_iff (k : ℕ) :
    Reached s pos k ↔ ((k + 1).log2 = 0 ∨ pos + (k + 1).log2 ≤ s.limit) ∧
      pos + (golombBits k).length < 2 ^ 32 := by
  rw [Reached, log2_eq_zero_iff, golombBits_length, Nat.add_assoc]

theorem reached_of_short (hs : s.length < 2 ^ 29) {k : ℕ}
    (hin : pos + (golombBits k).length ≤ 8 * s.length) : Reached s pos k := by
  rw [golombBits_length] at hin
  have hlim : s.limit = s.length * 8 := Nat.mod_eq_of_lt (by omega)
  refine ⟨.inr ?_, by omega⟩
  rw [hlim]
  omega

theorem readGolomb_iff {k : ℕ} (hk : k + 1 < 2 ^ 32) (h : Bits s pos (golombBits k)) :
    (readGolomb s pos).value = k ∧
      (readGolomb s pos).startBit = pos + 2 * (k + 1).log2 + 1 ↔ Reached s pos k := by
  rw [Nat.add_assoc, ← golombBits_length]
  constructor
  · rintro ⟨-, hstart⟩
    exact (reached_iff k).mpr ((startBit_readGolomb_iff h).mp hstart)
  · intro hreached
    obtain ⟨hlim, hpos⟩ := (reached_iff k).mp hreached
    obtain ⟨events, he⟩ := readGolomb_bits hk h hlim hpos
    rw [he]
    exact ⟨rfl, rfl⟩

theorem ue_iff {k : ℕ} (hk : k + 1 < 2 ^ 31) (h : Bits s pos (golombBits k)) :
    ue s pos = (k, pos + 2 * (k + 1).log2 + 1) ↔ Reached s pos k := by
  rw [ue, Prod.mk.injEq]
  exact readGolomb_iff (by omega) h

/-- The sign and the rounding give the number back. -/
theorem half_signedCode (v : ℤ) :
    (if ((signedCode v : ℕ) : ℤ).tmod 2 = 0 then -⌈((signedCode v : ℕ) : ℚ) / 2⌉
      else ⌈((signedCode v : ℕ) : ℚ) / 2⌉) = v := by
  unfold signedCode
  by_cases hv : 0 < v
  · obtain ⟨m, rfl⟩ : ∃ m : ℕ, v = m + 1 := ⟨(v - 1).toNat, by omega⟩
    have hcode : (2 * ((m : ℤ) + 1) - 1).toNat = 2 * m + 1 := by omega
    have hceil : ⌈((2 * m + 1 : ℕ) : ℚ) / 2⌉ = m + 1 := by
      rw [Int.ceil_eq_iff]
      push_cast
      constructor <;> linarith
    rw [if_pos hv, hcode, hceil, if_neg]
    rw [Int.tmod_eq_emod_of_nonneg (by omega)]
    omega
  · obtain ⟨m, rfl⟩ : ∃ m : ℕ, v = -m := ⟨(-v).toNat, by omega⟩
    have hcode : (-2 * -(m : ℤ)).toNat = 2 * m := by omega
    have hceil : ⌈((2 * m : ℕ) : ℚ) / 2⌉ = m := by
      rw [Int.ceil_eq_iff]
      push_cast
      constructor <;> linarith
    rw [if_neg hv, hcode, hceil, if_pos]
    rw [Int.tmod_eq_emod_of_nonneg (by omega)]
    omega

theorem signedCode_lt {v : ℤ} (hv : |v| < 2 ^ 30) : signedCode v + 1 < 2 ^ 31 := by
  rw [abs_lt] at hv
  unfold signedCode
  split <;> omega

theorem se_iff {v : ℤ} (hv : |v| < 2 ^ 30) (h : Bits s pos (golombBits (signedCode v))) :
    se s pos = (v, pos + 2 * (signedCode v + 1).log2 + 1) ↔ Reached s pos (signedCode v) := by
  have hcode := signedCode_lt hv
  constructor
  · intro he
    refine (reached_iff _).mpr ((startBit_readGolomb_iff h).mp ?_)
    rw [golombBits_length, ← Nat.add_assoc]
    exact congrArg Prod.snd he
  · intro hreached
    have hue := (ue_iff hcode h).mpr hreached
    have hint : toInt (signedCode v) = (signedCode v : ℕ) := toInt_of_lt (by omega)
    simp only [se, hue, hint]
    exact congrArg (·, _) (half_signedCode v)

theorem u_iff {bs : List Bool} (hpos : pos < 2 ^ 32) (h : Bits s pos bs) :
    u bs.length s pos = (ofBits bs, pos + bs.length) ↔
      ofBits bs < 2 ^ 32 ∧ pos + bs.length < 2 ^ 32 := by
  have hread := readValue_eq s bs.length 0 hpos
  rw [Nat.zero_mod, Nat.zero_mul, Nat.zero_add] at hread
  simp only [u, hread, Prod.mk.injEq]
  constructor
  · rintro ⟨hvalue, hstart⟩
    have hend : pos + bs.length < 2 ^ 32 := hstart ▸ Nat.mod_lt _ (by norm_num)
    rw [h.window hend.le] at hvalue
    exact ⟨hvalue ▸ Nat.mod_lt _ (by norm_num), hend⟩
  · rintro ⟨hvalue, hend⟩
    rw [h.window hend.le]
    exact ⟨Nat.mod_eq_of_lt hvalue, Nat.mod_eq_of_lt hend⟩

end Readers

/-- A code is read as the number it was made from, with the position behind it, exactly when the
loop over its zero bits comes to the one and the position has 32 bits. A field is read exactly when
its value and the position behind it have 32 bits. So it is in a buffer of fewer than `2 ^ 29`
bytes. -/
theorem codes_read (s : Source) {pos : ℕ} (hpos : pos < 2 ^ 32) :
    (∀ k, k < 2 ^ 31 - 1 → Bits s pos (golombBits k) →
      (ue s pos = (k, pos + 2 * (k + 1).log2 + 1) ↔ Reached s pos k) ∧
      (ue265 s pos = (k, pos + 2 * (k + 1).log2 + 1) ↔ Reached s pos k)) ∧
    (∀ v : ℤ, |v| < 2 ^ 30 → Bits s pos (golombBits (signedCode v)) →
      (se s pos = (v, pos + 2 * (signedCode v + 1).log2 + 1) ↔ Reached s pos (signedCode v))) ∧
    (∀ bs, Bits s pos bs →
      (u bs.length s pos = (ofBits bs, pos + bs.length) ↔
        ofBits bs < 2 ^ 32 ∧ pos + bs.length < 2 ^ 32) ∧
      (u265 bs.length s pos = (ofBits bs, pos + bs.length) ↔
        ofBits bs < 2 ^ 32 ∧ pos + bs.length < 2 ^ 32)) ∧
    (s.length < 2 ^ 29 →
      (∀ k, pos + (golombBits k).length ≤ 8 * s.length → Reached s pos k) ∧
      ∀ bs : List Bool, bs.length ≤ 32 → pos + bs.length ≤ 8 * s.length →
        ofBits bs < 2 ^ 32 ∧ pos + bs.length < 2 ^ 32) := by
  refine ⟨fun k hk h => ?_, fun v hv h => se_iff hv h, fun bs h => ?_,
    fun hs => ⟨fun k hin => reached_of_short hs hin, fun bs hbs hin => ⟨?_, by omega⟩⟩⟩
  · exact ⟨ue_iff (by omega) h, ue_iff (by omega) h⟩
  · exact ⟨u_iff hpos h, u_iff hpos h⟩
  · exact (ofBits_lt bs).trans_le (Nat.pow_le_pow_right (by norm_num) hbs)

/-- One byte with the code of 3 and that of the signed -1. -/
def oneByte : Source := ⟨fun i => if i = 0 then 0b00100011 else 0, 1, fun _ => 0⟩

theorem codes_read_byte :
    ue oneByte 0 = (3, 5) ∧ se oneByte 5 = (-1, 8) ∧ u 3 oneByte 5 = (3, 8) := by
  obtain ⟨hue, -, -, hshort⟩ := codes_read oneByte (show 0 < 2 ^ 32 by norm_num)
  obtain ⟨-, hse, hu, hshort'⟩ := codes_read oneByte (show 5 < 2 ^ 32 by norm_num)
  have hcode : Bits oneByte 0 (golombBits 3) := by
    unfold Bits
    decide
  have hsigned : Bits oneByte 5 (golombBits (signedCode (-1))) := by
    unfold Bits
    decide
  have hfield : Bits oneByte 5 [false, true, true] := by
    unfold Bits
    decide
  exact ⟨(hue 3 (by norm_num) hcode).1.mpr (hshort (by decide) |>.1 3 (by decide)),
    (hse (-1) (by norm_num) hsigned).mpr (hshort' (by decide) |>.1 _ (by decide)),
    (hu _ hfield).1.mpr (by decide)⟩

/-- `2 ^ 29` bytes, with the code of 1 in the first one. -/
def longBuffer : Source := ⟨fun i => if i = 0 then 0b01000000 else 0, 2 ^ 29, fun _ => 0⟩

/-- Ones all over. -/
def ones : Source := ⟨fun _ => 255, 5, fun _ => 0⟩

/-- The number of bits of a buffer of `2 ^ 29` bytes is zero in 32 bits, and a field of 33 bits
loses the first one. -/
theorem codes_not_read :
    (Bits longBuffer 0 (golombBits 1) ∧ 0 + (golombBits 1).length ≤ 8 * longBuffer.length ∧
      ue longBuffer 0 = (0, 1)) ∧
    Bits ones 0 (List.replicate 33 true) ∧ u 33 ones 0 = (2 ^ 32 - 1, 33) ∧
      ofBits (List.replicate 33 true) = 2 ^ 33 - 1 := by
  unfold Bits
  refine ⟨by decide, by decide, by decide, by decide⟩

end Jagles.ExpGolomb
