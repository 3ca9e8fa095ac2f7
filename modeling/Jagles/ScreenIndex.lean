import Mathlib.Tactic

set_option autoImplicit false
set_option linter.dupNamespace false

/-!
# The pane under a touch (`ParametricManager::GetScreenIndex`)

A touch in one of the modes with several panes is turned into the number of a pane by the
halves and thirds of the window, which are truncated.
-/
namespace Jagles.ScreenIndex

/-- The modes that `GetScreenIndex` is called in. -/
inductive ScreenMode where
  | SCRN_FOUR
  | SCRN_THREE
  | SCRN_SIX
  | SCRN_FOUREX
  deriving DecidableEq

structure Window where
  window_width : ℤ
  window_height : ℤ

def getScreenIndex (s : Window) (x y : ℤ) (screenmode : ScreenMode) : ℤ :=
  match screenmode with
  | .SCRN_FOUR =>
    let px := x.tdiv (s.window_width.tdiv 2)
    let py := y.tdiv (s.window_height.tdiv 2)
    px + (1 - py) * 2
  | .SCRN_THREE =>
    if x > s.window_width.tdiv 2 ∧ x < s.window_width ∧ y > 0 ∧
        y < (2 * s.window_height).tdiv 3 then 1
    else if x > 0 ∧ x < s.window_width.tdiv 2 ∧ y > 0 ∧ y < (2 * s.window_height).tdiv 3 then 0
    else -1
  | .SCRN_SIX =>
    if y > (2 * s.window_height).tdiv 3 then x.tdiv (s.window_width.tdiv 3) + 2
    else if x > (2 * s.window_width).tdiv 3 ∧ x < s.window_width ∧ y > s.window_height.tdiv 3 ∧
        y < (2 * s.window_height).tdiv 3 then 1
    else if x > (2 * s.window_width).tdiv 3 ∧ x < s.window_width ∧ y > 0 ∧
        y < s.window_height.tdiv 3 then 0
    else -1
  | .SCRN_FOUREX =>
    if x > s.window_width.tdiv 3 * 2 ∧ y > s.window_height.tdiv 3 ∧
        y < s.window_height.tdiv 3 * 2 then 1
    else if x > s.window_width.tdiv 3 * 2 ∧ y < s.window_height.tdiv 3 then 0
    else -1

/-- The panes that a touch can select. -/
def paneCount : ScreenMode → ℤ
  | .SCRN_FOUR => 4
  | .SCRN_THREE => 2
  | .SCRN_SIX => 5
  | .SCRN_FOUREX => 2

/-- The quarter of the window that `FourScreen` draws a pane in. The panes are numbered from
the bottom left, while `y` goes down. -/
def InQuadrant (s : Window) (index x y : ℤ) : Prop :=
  (if index % 2 = 0 then x < s.window_width / 2 else s.window_width / 2 ≤ x) ∧
    (if index / 2 = 1 then y < s.window_height / 2 else s.window_height / 2 ≤ y)

structure Inside (s : Window) (x y : ℤ) : Prop where
  x_nonneg : 0 ≤ x
  x_lt : x < s.window_width
  y_nonneg : 0 ≤ y
  y_lt : y < s.window_height

/-- No pane, or one that the mode has; of four panes, the one the point is in. -/
def HitsPane (s : Window) (x y : ℤ) (mode : ScreenMode) : Prop :=
  getScreenIndex s x y mode = -1 ∨
    0 ≤ getScreenIndex s x y mode ∧ getScreenIndex s x y mode < paneCount mode ∧
      (mode = .SCRN_FOUR → InQuadrant s (getScreenIndex s x y mode) x y)

/-- The point is in the columns and rows that the truncated parts make up. With four
panes, a point of the odd last row is taken for no pane if it is right of the middle. -/
def InParts (s : Window) (x y : ℤ) : ScreenMode → Prop
  | .SCRN_FOUR =>
    x < 2 * (s.window_width / 2) ∧
      (y < 2 * (s.window_height / 2) ∨ s.window_width / 2 ≤ x)
  | .SCRN_SIX => y ≤ 2 * s.window_height / 3 ∨ x < 3 * (s.window_width / 3)
  | .SCRN_THREE | .SCRN_FOUREX => True

instance (s : Window) (x y : ℤ) : (mode : ScreenMode) → Decidable (InParts s x y mode)
  | .SCRN_FOUR => inferInstanceAs (Decidable (x < 2 * (s.window_width / 2) ∧
      (y < 2 * (s.window_height / 2) ∨ s.window_width / 2 ≤ x)))
  | .SCRN_SIX => inferInstanceAs (Decidable
      (y ≤ 2 * s.window_height / 3 ∨ x < 3 * (s.window_width / 3)))
  | .SCRN_THREE | .SCRN_FOUREX => isTrue trivial

section Divisions
variable {n v : ℤ}

/-- Dividing by the truncated half gives 0 and 1 in the halves, and 2 for the odd rest. -/
theorem tdiv_half (hn : 3 ≤ n) (h0 : 0 ≤ v) (hv : v < n) :
    v.tdiv (n.tdiv 2) = if v < n / 2 then 0 else if v < 2 * (n / 2) then 1 else 2 := by
  rw [Int.tdiv_eq_ediv_of_nonneg h0, Int.tdiv_eq_ediv_of_nonneg (by omega)]
  have hpos : 0 < n / 2 := by omega
  split
  · exact Int.ediv_eq_zero_of_lt h0 ‹_›
  · split
    · apply le_antisymm
      · exact Int.lt_add_one_iff.mp ((Int.ediv_lt_iff_lt_mul hpos).mpr (by omega))
      · exact (Int.le_ediv_iff_mul_le hpos).mpr (by omega)
    · apply le_antisymm
      · exact Int.lt_add_one_iff.mp ((Int.ediv_lt_iff_lt_mul hpos).mpr (by omega))
      · exact (Int.le_ediv_iff_mul_le hpos).mpr (by omega)

theorem tdiv_third_lt (hn : 3 ≤ n) (h0 : 0 ≤ v) :
    v.tdiv (n.tdiv 3) < 3 ↔ v < 3 * (n / 3) := by
  rw [Int.tdiv_eq_ediv_of_nonneg h0, Int.tdiv_eq_ediv_of_nonneg (by omega)]
  exact Int.ediv_lt_iff_lt_mul (by omega)

end Divisions

section Modes
variable {s : Window} {x y : ℤ}

theorem hitsPane_four (hw : 3 ≤ s.window_width) (hh : 3 ≤ s.window_height) (h : Inside s x y) :
    HitsPane s x y .SCRN_FOUR ↔ InParts s x y .SCRN_FOUR := by
  obtain ⟨hx, hx', hy, hy'⟩ := h
  have hindex : getScreenIndex s x y .SCRN_FOUR =
      (if x < s.window_width / 2 then 0 else if x < 2 * (s.window_width / 2) then 1 else 2) +
        (1 - if y < s.window_height / 2 then 0 else
          if y < 2 * (s.window_height / 2) then 1 else 2) * 2 := by
    rw [← tdiv_half hw hx hx', ← tdiv_half hh hy hy']
    rfl
  simp only [HitsPane, InQuadrant, InParts, paneCount, hindex, true_imp_iff]
  split_ifs <;> omega

theorem hitsPane_six (hw : 3 ≤ s.window_width) (h : Inside s x y) :
    HitsPane s x y .SCRN_SIX ↔ InParts s x y .SCRN_SIX := by
  have hthird := tdiv_third_lt (v := x) hw h.x_nonneg
  have hpos : 0 ≤ x.tdiv (s.window_width.tdiv 3) :=
    Int.tdiv_nonneg h.x_nonneg (Int.tdiv_nonneg (by omega) (by omega))
  have hrow : (2 * s.window_height).tdiv 3 = 2 * s.window_height / 3 :=
    Int.tdiv_eq_ediv_of_nonneg (by have := h.y_nonneg; have := h.y_lt; omega)
  simp only [HitsPane, InParts, paneCount, getScreenIndex, hrow]
  split_ifs <;> simp <;> omega

/-- The two modes with less than a full grid take a number only under its own tests. -/
theorem hitsPane_other {mode : ScreenMode} (h : mode = .SCRN_THREE ∨ mode = .SCRN_FOUREX) :
    HitsPane s x y mode := by
  rcases h with rfl | rfl
  · simp only [HitsPane, paneCount, getScreenIndex]
    split_ifs <;> simp
  · simp only [HitsPane, paneCount, getScreenIndex]
    split_ifs <;> simp

end Modes

/-- The index is that of a pane, in the mode with four panes of the one touched, exactly
when the point is in the parts that the window is divided into. -/
theorem hitsPane_iff (s : Window) (hw : 3 ≤ s.window_width) (hh : 3 ≤ s.window_height)
    (x y : ℤ) (h : Inside s x y) (mode : ScreenMode) : HitsPane s x y mode ↔ InParts s x y mode := by
  cases mode with
  | SCRN_FOUR => exact hitsPane_four hw hh h
  | SCRN_THREE => exact iff_of_true (hitsPane_other (.inl rfl)) trivial
  | SCRN_SIX => exact hitsPane_six hw h
  | SCRN_FOUREX => exact iff_of_true (hitsPane_other (.inr rfl)) trivial

theorem hitsPane_hd : HitsPane ⟨1920, 1080⟩ 1919 1079 .SCRN_FOUR ∧
    HitsPane ⟨1920, 1080⟩ 1919 1079 .SCRN_SIX :=
  ⟨(hitsPane_iff ⟨1920, 1080⟩ (by decide) (by decide) 1919 1079
      ⟨by decide, by decide, by decide, by decide⟩ .SCRN_FOUR).mpr (by decide),
    (hitsPane_iff ⟨1920, 1080⟩ (by decide) (by decide) 1919 1079
      ⟨by decide, by decide, by decide, by decide⟩ .SCRN_SIX).mpr (by decide)⟩

/-- In a window 1919 pixels wide the last column is taken for a fifth pane of four. -/
theorem last_column_missed : ¬ ∀ (s : Window), 3 ≤ s.window_width → 3 ≤ s.window_height →
    ∀ x y, Inside s x y → ∀ mode, HitsPane s x y mode := by
  intro hall
  have hhit := hall ⟨1919, 1080⟩ (by decide) (by decide) 1918 0
    ⟨by decide, by decide, by decide, by decide⟩ .SCRN_FOUR
  have hindex : getScreenIndex ⟨1919, 1080⟩ 1918 0 .SCRN_FOUR = 4 := by decide
  rcases hhit with hnone | ⟨-, hlt, -⟩
  · rw [hindex] at hnone
    exact absurd hnone (by decide)
  · rw [hindex] at hlt
    exact absurd hlt (by decide)

end Jagles.ScreenIndex
