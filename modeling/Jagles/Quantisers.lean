import Mathlib.Order.Monotone.Basic
import Mathlib.Algebra.Order.Group.Unbundled.Abs
import Mathlib.Algebra.Order.Ring.Int
import Mathlib.Tactic.Ring
import Mathlib.Tactic.Linarith

set_option autoImplicit false
set_option linter.dupNamespace false

/-!
# Quantisers

The line is cut at boundaries, and every value of a cell is given back as the middle of the cell.
-/
namespace Jagles.Quantisers

structure Quantiser where
  bound : ℕ → ℤ
  strict : ∀ ⦃j k : ℕ⦄, j < k → bound j < bound k

namespace Quantiser
variable (q : Quantiser) {j k n : ℕ} {x y : ℤ}

structure Cell (k : ℕ) (x : ℤ) : Prop where
  le : q.bound k ≤ x
  lt : x < q.bound (k + 1)

/-- With `n` cells, the last of which takes all that is above it as well. -/
structure Index (n k : ℕ) (x : ℤ) : Prop where
  lt : k < n
  le : q.bound k ≤ x
  below : k + 1 < n → x < q.bound (k + 1)

def mid (k : ℕ) : ℤ := (q.bound k + q.bound (k + 1)) / 2

variable {q}

theorem bound_mono (h : j ≤ k) : q.bound j ≤ q.bound k := by
  rcases h.lt_or_eq with hlt | rfl
  · exact (q.strict hlt).le
  · exact le_rfl

theorem Cell.index (h : q.Cell k x) (hk : k < n) : q.Index n k x :=
  ⟨hk, h.le, fun _ => h.lt⟩

theorem Index.le_of_le (hx : q.Index n j x) (hy : q.Index n k y) (h : x ≤ y) : j ≤ k := by
  by_contra hlt
  have hbound : q.bound (k + 1) ≤ q.bound j := bound_mono (by omega)
  have hxlt := hx.lt
  have hxle := hx.le
  have hylt := hy.below (by omega)
  omega

theorem mid_mono (h : j ≤ k) : q.mid j ≤ q.mid k := by
  have hlow : q.bound j ≤ q.bound k := bound_mono h
  have hhigh : q.bound (j + 1) ≤ q.bound (k + 1) := bound_mono (Nat.succ_le_succ h)
  unfold mid
  omega

theorem Index.mid_le (hx : q.Index n j x) (hy : q.Index n k y) (h : x ≤ y) :
    q.mid j ≤ q.mid k :=
  mid_mono (hx.le_of_le hy h)

theorem Index.unique (hj : q.Index n j x) (hk : q.Index n k x) : j = k :=
  le_antisymm (hj.le_of_le hk le_rfl) (hk.le_of_le hj le_rfl)

/-- The middle is off by half the cell at most. -/
theorem Cell.error (hx : q.Cell k x) : 2 * |q.mid k - x| ≤ q.bound (k + 1) - q.bound k := by
  have hle := hx.le
  have hlt := hx.lt
  unfold mid
  rcases abs_cases ((q.bound k + q.bound (k + 1)) / 2 - x) with ⟨habs, -⟩ | ⟨habs, -⟩ <;>
    rw [habs] <;> omega

end Quantiser

/-! ## Segments of equal steps, each twice as wide as the one before -/

/-- With `b` steps to a segment. -/
def segmented (b k : ℕ) : ℕ := (b + k % b) * 2 ^ (k / b)

variable {b s v : ℕ}

theorem segmented_at {r : ℕ} (hr : r < b) : segmented b (b * s + r) = (b + r) * 2 ^ s := by
  have hb : 0 < b := by omega
  unfold segmented
  rw [Nat.mul_add_mod, Nat.mod_eq_of_lt hr, Nat.mul_add_div hb, Nat.div_eq_of_lt hr, Nat.add_zero]

theorem segmented_succ {r : ℕ} (hr : r < b) :
    segmented b (b * s + r + 1) = (b + r + 1) * 2 ^ s := by
  rcases Nat.lt_or_ge (r + 1) b with h | h
  · exact segmented_at h
  · -- the last step of a segment ends where the next segment begins
    have hnext : b * s + r + 1 = b * (s + 1) + 0 := by rw [Nat.mul_add]; omega
    have hsum : b + r + 1 = 2 * b := by omega
    rw [hnext, segmented_at (by omega), hsum]
    ring

theorem segmented_step (hb : 0 < b) (k : ℕ) :
    segmented b (k + 1) = segmented b k + 2 ^ (k / b) := by
  have hr := Nat.mod_lt k hb
  have hsucc := segmented_succ (s := k / b) hr
  rw [Nat.div_add_mod] at hsucc
  rw [hsucc, Nat.succ_mul]
  rfl

theorem le_segmented (b k : ℕ) : b * 2 ^ (k / b) ≤ segmented b k :=
  Nat.mul_le_mul_right _ (Nat.le_add_right b _)

theorem segmented_strictMono (hb : 0 < b) : StrictMono (segmented b) := by
  refine strictMono_nat_of_lt_succ fun k => ?_
  rw [segmented_step hb]
  exact Nat.lt_add_of_pos_right (Nat.two_pow_pos _)

/-- Each segment goes up to twice its first value. -/
theorem segmented_cell (hlow : b * 2 ^ s ≤ v) (hhigh : v < 2 * b * 2 ^ s) :
    segmented b (b * s + (v / 2 ^ s - b)) ≤ v ∧ v < segmented b (b * s + (v / 2 ^ s - b) + 1) := by
  have hpos := Nat.two_pow_pos s
  have hquot : b ≤ v / 2 ^ s := (Nat.le_div_iff_mul_le hpos).mpr hlow
  have hless : v / 2 ^ s < 2 * b := (Nat.div_lt_iff_lt_mul hpos).mpr hhigh
  have hr : v / 2 ^ s - b < b := by omega
  have hv : b + (v / 2 ^ s - b) = v / 2 ^ s := by omega
  rw [segmented_at hr, segmented_succ hr, hv]
  exact ⟨Nat.div_mul_le_self v _, Nat.lt_mul_of_div_lt (Nat.lt_succ_self _) hpos⟩

end Jagles.Quantisers
