import Mathlib.Tactic

set_option autoImplicit false
set_option linter.dupNamespace false

/-!
# Signs of floating-point numbers

Rounding keeps the sign of a number, and a number that is not below the smallest exponent
does not vanish. So an integer that is converted, and converted again to a wider format, is
on the side of zero where it was.
-/
namespace Jagles.FloatSigns
open Float.Model Float.Model.UnpackedFloat

/-- A zero or a finite number of the sign. -/
def Signed (s : Sign) : UnpackedFloat → Prop
  | .zero t => t = s
  | .finite t _ _ _ => t = s
  | .infinity _ | .notANumber => False

/-- A finite number of the sign that is in the range of the format. -/
def Nonzero (spec : Format) (s : Sign) (x : UnpackedFloat) : Prop :=
  ∃ m e h, x = .finite s m e h ∧ spec.minExponent ≤ e

/-- A number without a minus sign, or none at all. -/
def Unsigned : UnpackedFloat → Prop
  | .zero t => t = .positive
  | .finite t _ _ _ => t = .positive
  | .infinity t => t = .positive
  | .notANumber => True

/-- A number of one format in another. -/
def convert (spec : Format) : UnpackedFloat → UnpackedFloat
  | .finite sign m e _ => UnpackedFloat.round spec sign m e
  | x => x

/-- What rounding ends with: the digits are shifted, rounded and shifted once more. -/
def roundedTwice (spec : Format) (m : ℕ) (e : ℤ) (a : Accuracy) : ExtendedMantissa × ℤ :=
  let first := shiftToTargetExponent spec m e a
  shiftToTargetExponent spec first.1.roundedMantissa first.2 .exact

section Rounding
variable {spec : Format} {sign : Sign}

theorem mantissa_shiftRight (em : ExtendedMantissa) (k : ℕ) :
    (em >>> k).mantissa = em.mantissa / 2 ^ k := by
  induction k generalizing em with
  | zero => simp [HShiftRight.hShiftRight, Nat.repeat]
  | succ k ih =>
    change (em >>> k).mantissa / 2 = em.mantissa / 2 ^ (k + 1)
    rw [ih, Nat.div_div_eq_div_mul, pow_succ]

theorem mantissa_ofMantissaAndAccuracy (m : ℕ) (a : Accuracy) :
    (ExtendedMantissa.ofMantissaAndAccuracy m a).mantissa = m := by
  unfold ExtendedMantissa.ofMantissaAndAccuracy
  split <;> rfl

theorem mantissa_le_roundedMantissa (em : ExtendedMantissa) :
    em.mantissa ≤ em.roundedMantissa := by
  unfold ExtendedMantissa.roundedMantissa Accuracy.roundToNearestEven
  split <;> omega

theorem roundWithAccuracy_zero {m : ℕ} {e : ℤ} {a : Accuracy}
    (h : (roundedTwice spec m e a).1.mantissa = 0) :
    roundWithAccuracy spec sign m e a = .zero sign :=
  dif_pos h

theorem roundWithAccuracy_finite {m : ℕ} {e : ℤ} {a : Accuracy}
    (h : (roundedTwice spec m e a).1.mantissa ≠ 0) :
    ∃ hm, roundWithAccuracy spec sign m e a =
      .finite sign (roundedTwice spec m e a).1.mantissa (roundedTwice spec m e a).2 hm :=
  ⟨Nat.pos_of_ne_zero h, dif_neg h⟩

theorem roundWithAccuracy_signed (m : ℕ) (e : ℤ) (a : Accuracy) :
    Signed sign (roundWithAccuracy spec sign m e a) := by
  by_cases h : (roundedTwice spec m e a).1.mantissa = 0
  · rw [roundWithAccuracy_zero h]
    rfl
  · obtain ⟨hm, heq⟩ := roundWithAccuracy_finite h
    rw [heq]
    rfl

theorem round_signed (m : ℕ) (e : ℤ) : Signed sign (UnpackedFloat.round spec sign m e) :=
  roundWithAccuracy_signed _ _ _

/-- Shifting a number in range to its exponent leaves some of its digits. -/
theorem shiftToTargetExponent_pos {m : ℕ} {e : ℤ} (hm : 0 < m) (he : spec.minExponent ≤ e)
    (a : Accuracy) :
    0 < (shiftToTargetExponent spec m e a).1.mantissa ∧
      spec.minExponent ≤ (shiftToTargetExponent spec m e a).2 := by
  have hshift : (spec.targetExponent (totalExponent m e) - e).toNat ≤ m.log2 := by
    have hfirst := spec.hm
    have hbits : spec.mantissaBits = 1 + spec.mantissaBitsWithoutImplicit := rfl
    unfold Format.targetExponent totalExponent
    omega
  unfold shiftToTargetExponent shiftToExponent
  dsimp only
  rw [mantissa_shiftRight, mantissa_ofMantissaAndAccuracy]
  refine ⟨Nat.div_pos ?_ (by positivity), by omega⟩
  exact (Nat.pow_le_pow_right (by decide) hshift).trans (Nat.log2_self_le hm.ne')

theorem roundWithAccuracy_nonzero {m : ℕ} {e : ℤ} (hm : 0 < m) (he : spec.minExponent ≤ e)
    (a : Accuracy) : Nonzero spec sign (roundWithAccuracy spec sign m e a) := by
  obtain ⟨hfirst, hexp⟩ := shiftToTargetExponent_pos hm he a
  have hrounded := hfirst.trans_le (mantissa_le_roundedMantissa _)
  obtain ⟨hlast, hexp'⟩ := shiftToTargetExponent_pos hrounded hexp .exact
  obtain ⟨hm', heq⟩ := roundWithAccuracy_finite hlast.ne'
  exact ⟨_, _, hm', heq, hexp'⟩

theorem round_nonzero {m : ℕ} {e : ℤ} (hm : 0 < m) (he : spec.minExponent ≤ e) :
    Nonzero spec sign (UnpackedFloat.round spec sign m e) := by
  unfold UnpackedFloat.round decreaseExponent
  refine roundWithAccuracy_nonzero ?_ ?_ _
  · rw [Nat.shiftLeft_eq]
    positivity
  · have hmin : spec.minExponent ≤ spec.targetExponent (totalExponent m e) := le_max_right _ _
    omega

theorem convert_nonzero {source : Format} (hmin : spec.minExponent ≤ source.minExponent)
    {x : UnpackedFloat} (h : Nonzero source sign x) : Nonzero spec sign (convert spec x) := by
  obtain ⟨m, e, hm, rfl, he⟩ := h
  exact round_nonzero hm (hmin.trans he)

theorem convert_signed {x : UnpackedFloat} (h : Signed sign x) : Signed sign (convert spec x) := by
  cases x with
  | zero t => exact h
  | finite t m e hm =>
    obtain rfl : t = sign := h
    exact round_signed m e
  | infinity t => exact h
  | notANumber => exact h

theorem ofInt_nonzero {n : ℤ} (hn : n < 0) (hmin : spec.minExponent ≤ 0) :
    Nonzero spec .negative (UnpackedFloat.ofInt spec n) := by
  have hcompare : compare n 0 = .lt := compare_lt_iff_lt.mpr hn
  unfold UnpackedFloat.ofInt UnpackedFloat.normalize
  rw [hcompare]
  exact round_nonzero (by omega) hmin

theorem ofInt_signed {n : ℤ} (hn : 0 < n) : Signed .positive (UnpackedFloat.ofInt spec n) := by
  have hcompare : compare n 0 = .gt := compare_gt_iff_gt.mpr hn
  unfold UnpackedFloat.ofInt UnpackedFloat.normalize
  rw [hcompare]
  exact round_signed _ _

theorem mul_signed {x y : UnpackedFloat} (hx : Signed .positive x) (hy : Signed .positive y) :
    Signed .positive (UnpackedFloat.mul spec x y) := by
  match x, y with
  | .zero s, .zero t => obtain ⟨rfl, rfl⟩ := And.intro hx hy; rfl
  | .zero s, .finite t _ _ _ => obtain ⟨rfl, rfl⟩ := And.intro hx hy; rfl
  | .finite s _ _ _, .zero t => obtain ⟨rfl, rfl⟩ := And.intro hx hy; rfl
  | .finite s _ _ _, .finite t _ _ _ =>
    obtain ⟨rfl, rfl⟩ := And.intro hx hy
    exact roundWithAccuracy_signed _ _ _

/-- A decimal literal with a fraction is not below zero. -/
theorem ofScientific_signed (m : ℕ) {e : ℤ} (he : e < 0) :
    Signed .positive (UnpackedFloat.ofScientific spec m e) := by
  have hpow : ¬ e > 2 ^ spec.exponentBits := by
    have : (0 : ℤ) < 2 ^ spec.exponentBits := by positivity
    omega
  unfold UnpackedFloat.ofScientific
  by_cases hzero : m = 0
  · rw [dif_pos hzero]
    rfl
  rw [dif_neg hzero, if_neg hpow]
  by_cases hsmall : e < -((2 ^ spec.exponentBits : ℤ) + m.log2)
  · rw [if_pos hsmall]
    rfl
  · rw [if_neg hsmall, if_neg he.not_ge]
    exact roundWithAccuracy_signed _ _ _

theorem Signed.unsigned {x : UnpackedFloat} (h : Signed .positive x) : Unsigned x := by
  cases x with
  | zero t => exact h
  | finite t m e hm => exact h
  | infinity t => exact h.elim
  | notANumber => trivial

theorem ofInt_unsigned {n : ℤ} (hn : 0 ≤ n) : Unsigned (UnpackedFloat.ofInt spec n) := by
  rcases hn.eq_or_lt with rfl | hpos
  · rfl
  · exact (ofInt_signed hpos).unsigned

/-- Without minus signs a quotient has none: a zero divisor gives infinity or no number. -/
theorem div_unsigned {x y : UnpackedFloat} (hx : Unsigned x) (hy : Unsigned y) :
    Unsigned (UnpackedFloat.div spec x y) := by
  cases x <;> cases y <;>
    first
      | trivial
      | (obtain ⟨rfl, rfl⟩ := And.intro hx hy
         first | rfl | exact (roundWithAccuracy_signed _ _ _).unsigned)

theorem toInt32_unsigned {x : UnpackedFloat} (h : Unsigned x) : 0 ≤ x.toInt32.toInt := by
  have hint : 0 ≤ x.toInt Int32.minValue.toInt Int32.maxValue.toInt := by
    cases x with
    | zero t => exact le_rfl
    | finite t m e hm =>
      obtain rfl : t = .positive := h
      exact Int.natCast_nonneg _
    | infinity t =>
      obtain rfl : t = .positive := h
      decide
    | notANumber => exact le_rfl
  have hmin : Int32.minValue.toInt ≤ 0 := by decide
  unfold UnpackedFloat.toInt32
  by_cases hmax : x.toInt Int32.minValue.toInt Int32.maxValue.toInt ≤ Int32.maxValue.toInt
  · rw [Int32.toInt_ofIntClamp (hmin.trans hint) hmax]
    exact hint
  · unfold Int32.ofIntClamp
    rw [dif_pos (hmin.trans hint), dif_neg hmax]
    decide

/-- A negative number is below zero and every positive number. -/
theorem lt_of_signs {x y : UnpackedFloat} (hx : Nonzero spec .negative x)
    (hy : Signed .positive y) : UnpackedFloat.lt x y = true := by
  obtain ⟨m, e, hm, rfl, -⟩ := hx
  cases y with
  | zero t => rfl
  | finite t m' e' hm' =>
    obtain rfl : t = .positive := hy
    rfl
  | infinity t => exact hy.elim
  | notANumber => exact hy.elim

end Rounding

end Jagles.FloatSigns
