import Jagles.NormalScreen

set_option autoImplicit false
set_option linter.dupNamespace false

/-!
# Touching a split screen

`SetSelected(x, y, w, h)` looks for the pane at a point of a window and selects it. The
panes of each split mode cover a grid of 12 by 12 cells; the borders of a pane count as
part of it, and the page is counted in the panes of the mode that has the page's number.
-/
namespace Jagles
namespace NormalScreen
open GuardedRuns

structure SplitPosition where
  x : ℤ
  y : ℤ
  w : ℤ
  h : ℤ

/-- The `pos` column of `SplitMode`. -/
def splitPos : Fin 7 → List SplitPosition := ![
  [⟨0, 0, 12, 12⟩],
  [⟨0, 0, 6, 6⟩, ⟨6, 0, 6, 6⟩, ⟨0, 6, 6, 6⟩, ⟨6, 6, 6, 6⟩],
  [⟨0, 0, 8, 8⟩, ⟨8, 0, 4, 4⟩, ⟨8, 4, 4, 4⟩, ⟨0, 8, 4, 4⟩, ⟨4, 8, 4, 4⟩, ⟨8, 8, 4, 4⟩],
  [⟨0, 0, 9, 9⟩, ⟨9, 0, 3, 3⟩, ⟨9, 3, 3, 3⟩, ⟨9, 6, 3, 3⟩, ⟨0, 9, 3, 3⟩, ⟨3, 9, 3, 3⟩,
    ⟨6, 9, 3, 3⟩, ⟨9, 9, 3, 3⟩],
  [⟨0, 0, 4, 4⟩, ⟨4, 0, 4, 4⟩, ⟨8, 0, 4, 4⟩, ⟨0, 4, 4, 4⟩, ⟨4, 4, 4, 4⟩, ⟨8, 4, 4, 4⟩,
    ⟨0, 8, 4, 4⟩, ⟨4, 8, 4, 4⟩, ⟨8, 8, 4, 4⟩],
  [⟨0, 0, 3, 3⟩, ⟨3, 0, 3, 3⟩, ⟨6, 0, 3, 3⟩, ⟨9, 0, 3, 3⟩, ⟨0, 3, 3, 3⟩, ⟨3, 3, 6, 6⟩,
    ⟨9, 3, 3, 3⟩, ⟨0, 6, 3, 3⟩, ⟨9, 6, 3, 3⟩, ⟨0, 9, 3, 3⟩, ⟨3, 9, 3, 3⟩, ⟨6, 9, 3, 3⟩,
    ⟨9, 9, 3, 3⟩],
  [⟨0, 0, 3, 3⟩, ⟨3, 0, 3, 3⟩, ⟨6, 0, 3, 3⟩, ⟨9, 0, 3, 3⟩, ⟨0, 3, 3, 3⟩, ⟨3, 3, 3, 3⟩,
    ⟨6, 3, 3, 3⟩, ⟨9, 3, 3, 3⟩, ⟨0, 6, 3, 3⟩, ⟨3, 6, 3, 3⟩, ⟨6, 6, 3, 3⟩, ⟨9, 6, 3, 3⟩,
    ⟨0, 9, 3, 3⟩, ⟨3, 9, 3, 3⟩, ⟨6, 9, 3, 3⟩, ⟨9, 9, 3, 3⟩]]

/-- The test of `SetSelected`. -/
def SplitPosition.touches (p : SplitPosition) (px py : ℤ) : Bool :=
  decide (px ≥ p.x ∧ px ≤ p.x + p.w ∧ py ≥ p.y ∧ py ≤ p.y + p.h)

/-- `SplitMode[i].count`; outside the table there is nothing to read. -/
def splitCountAt (i : ℤ) : Option ℕ :=
  if h : 0 ≤ i ∧ i < 7 then some (splitCount ⟨i.toNat, by omega⟩) else none

/-- `SetSelected(x, y, w, h)`, with the pane that `SetSelected(true, 0)` is called on; `none`
when an index leaves `SplitMode` or `mVideo`. -/
def setSelectedAt (s : NormalScreen) (x y w h : ℤ) : Option (NormalScreen × Option ℤ) :=
  let wunit := w.tdiv 12
  let hunit := h.tdiv 12
  let px := x.tdiv wunit
  let py := y.tdiv hunit
  let mIsSelected := clearLoop s.allPage.toNat s.mIsSelected
  match (splitPos s.mCurrentMode).findIdx? fun p => p.touches px py with
  | none => some ({ s with mIsSelected }, none)
  | some i => do
    let count ← splitCountAt s.mCurrentPage
    let index := s.mCurrentPage * count + i
    if 0 ≤ index ∧ index < 36 then
      some ({ s with
        mIsSelected := Function.update mIsSelected index true
        mSelectIndex := index }, some index)
    else none

/-! ## The grid -/

/-- The cells of the pane. -/
def SplitPosition.contains (p : SplitPosition) (cx cy : ℤ) : Bool :=
  decide (p.x ≤ cx ∧ cx < p.x + p.w ∧ p.y ≤ cy ∧ cy < p.y + p.h)

def paneIs (test : SplitPosition → Bool) (mode : Fin 7) (i : ℕ) : Bool :=
  (splitPos mode)[i]?.any test

/-- Panes without a common cell. -/
def SplitPosition.Apart (p q : SplitPosition) : Prop :=
  p.x + p.w ≤ q.x ∨ q.x + q.w ≤ p.x ∨ p.y + p.h ≤ q.y ∨ q.y + q.h ≤ p.y

instance : DecidableRel SplitPosition.Apart :=
  fun _ _ => inferInstanceAs (Decidable (_ ∨ _ ∨ _ ∨ _))

theorem grid_apart : ∀ mode : Fin 7, (splitPos mode).Pairwise SplitPosition.Apart := by
  decide

theorem grid_covered : ∀ (mode : Fin 7) (cx cy : Fin 12),
    ((splitPos mode).any fun p => p.contains cx cy) = true := by
  decide +kernel

theorem SplitPosition.Apart.not_contains {p q : SplitPosition} (h : p.Apart q) {cx cy : ℤ}
    (hp : p.contains cx cy = true) (hq : q.contains cx cy = true) : False := by
  obtain ⟨hpx, hpx', hpy, hpy'⟩ := of_decide_eq_true hp
  obtain ⟨hqx, hqx', hqy, hqy'⟩ := of_decide_eq_true hq
  rcases h with h | h | h | h <;> omega

/-- Each cell of the grid belongs to one pane. -/
theorem contains_unique {mode : Fin 7} {cx cy : ℤ} {i k : ℕ}
    (hi : paneIs (fun p => p.contains cx cy) mode i = true)
    (hk : paneIs (fun p => p.contains cx cy) mode k = true) : k = i := by
  obtain ⟨p, hp, hpc⟩ := (Option.any_eq_true _ _).mp hi
  obtain ⟨q, hq, hqc⟩ := (Option.any_eq_true _ _).mp hk
  obtain ⟨hilt, rfl⟩ := List.getElem?_eq_some_iff.mp hp
  obtain ⟨hklt, rfl⟩ := List.getElem?_eq_some_iff.mp hq
  have hapart := List.pairwise_iff_getElem.mp (grid_apart mode)
  rcases lt_trichotomy k i with hlt | heq | hgt
  · exact ((hapart k i hklt hilt hlt).not_contains hqc hpc).elim
  · exact heq
  · exact ((hapart i k hilt hklt hgt).not_contains hpc hqc).elim

/-- With its borders a pane touches no cell beyond the grid, and each cell and the lines
at its end are touched. -/
theorem grid_touched : ∀ (mode : Fin 7) (px py : Fin 13),
    ((splitPos mode).any fun p => p.touches px py) = true := by
  decide +kernel

theorem grid_bounded : ∀ mode : Fin 7,
    ((splitPos mode).all fun p => decide (p.x + p.w ≤ 12 ∧ p.y + p.h ≤ 12)) = true := by
  decide

/-- The first pane that the test of `SetSelected` accepts. -/
def FirstTouched (mode : Fin 7) (px py : ℤ) (j : ℕ) : Prop :=
  paneIs (fun p => p.touches px py) mode j = true ∧
    ∀ k < j, paneIs (fun p => p.touches px py) mode k = false

theorem firstTouched_iff {mode : Fin 7} {px py : ℤ} {j : ℕ} :
    ((splitPos mode).findIdx? fun p => p.touches px py) = some j ↔ FirstTouched mode px py j := by
  rw [List.findIdx?_eq_some_iff_getElem]
  constructor
  · rintro ⟨hlt, hp, hbefore⟩
    refine ⟨by simp [paneIs, hlt, hp], ?_⟩
    intro k hk
    have := hbefore k hk
    simpa [paneIs, hk.trans hlt] using this
  · rintro ⟨hp, hbefore⟩
    obtain ⟨p, hget, hp⟩ := (Option.any_eq_true _ _).mp hp
    obtain ⟨hlt, rfl⟩ := List.getElem?_eq_some_iff.mp hget
    refine ⟨hlt, hp, ?_⟩
    intro k hk
    have := hbefore k hk
    simpa [paneIs, hk.trans hlt] using this

/-- Only beyond the grid is no pane touched. -/
theorem untouched_iff {mode : Fin 7} {px py : ℤ} (hx : 0 ≤ px) (hy : 0 ≤ py) :
    ((splitPos mode).findIdx? fun p => p.touches px py) = none ↔ 12 < px ∨ 12 < py := by
  rw [List.findIdx?_eq_none_iff]
  constructor
  · intro hnone
    by_contra hin
    have hcell := grid_touched mode ⟨px.toNat, by omega⟩ ⟨py.toNat, by omega⟩
    obtain ⟨p, hp, ht⟩ := List.any_eq_true.mp hcell
    simp only [Int.toNat_of_nonneg hx, Int.toNat_of_nonneg hy, hnone p hp] at ht
    cases ht
  · intro hout p hp
    have hbound := List.all_eq_true.mp (grid_bounded mode) p hp
    rw [decide_eq_true_eq] at hbound
    apply decide_eq_false
    omega

/-! ## Runs -/

/-- A call without animation, or a touch in a window of width `w` and height `h`. -/
inductive Action where
  | call (c : Call)
  | touch (x y w h : ℤ)

def act (s : NormalScreen) : Action → Option NormalScreen
  | .call c => some (step s c)
  | .touch x y w h => (setSelectedAt s x y w h).map Prod.fst

/-- A point of a window of at least a pixel for each cell. -/
structure InWindow (x y w h : ℤ) : Prop where
  width : 12 ≤ w
  height : 12 ≤ h
  x_nonneg : 0 ≤ x
  x_lt : x < w
  y_nonneg : 0 ≤ y
  y_lt : y < h

def LegalAction (s : NormalScreen) : Action → Prop
  | .call c => Legal s c
  | .touch x y w h => InWindow x y w h

def Reachable (s : NormalScreen) : Prop := ∃ as, Run act LegalAction create as s

structure Ranged (s : NormalScreen) : Prop where
  sized : Sized s
  page : 0 ≤ s.mCurrentPage
  select : 0 ≤ s.mSelectIndex

theorem setSelectedAt_cases {s t : NormalScreen} {x y w h : ℤ} {picked : Option ℤ}
    (he : setSelectedAt s x y w h = some (t, picked)) :
    t.allPage = s.allPage ∧ t.mCurrentPage = s.mCurrentPage ∧ t.mCurrentMode = s.mCurrentMode ∧
      (picked = none ∧ t.mSelectIndex = s.mSelectIndex ∨
        ∃ index, 0 ≤ index ∧ index < 36 ∧ picked = some index ∧ t.mSelectIndex = index) := by
  simp only [setSelectedAt] at he
  split at he
  · obtain ⟨rfl, rfl⟩ := Prod.mk.inj (Option.some.inj he)
    exact ⟨rfl, rfl, rfl, .inl ⟨rfl, rfl⟩⟩
  · obtain ⟨n, -, he⟩ := Option.bind_eq_some_iff.mp he
    split at he
    · rename_i hrange
      obtain ⟨rfl, rfl⟩ := Prod.mk.inj (Option.some.inj he)
      exact ⟨rfl, rfl, rfl, .inr ⟨_, hrange.1, hrange.2, rfl, rfl⟩⟩
    · cases he

theorem setPage_page {s : NormalScreen} (h : 0 ≤ s.mCurrentPage) (index : ℤ) :
    0 ≤ (s.setPage index).mCurrentPage ∧ (s.setPage index).mSelectIndex = s.mSelectIndex := by
  simp only [setPage]
  split
  · exact ⟨h, rfl⟩
  · rename_i hin
    exact ⟨not_lt.mp fun hlt => hin (.inl hlt), rfl⟩

theorem Ranged.step {s : NormalScreen} (h : Ranged s) {c : Call} (hl : Legal s c) :
    Ranged (step s c) := by
  refine ⟨step_sized h.sized hl, ?_, ?_⟩
  · cases c with
    | setSplit index =>
      apply (setPage_page _ _).1
      exact Int.tdiv_nonneg h.select (Int.natCast_nonneg _)
    | setPage index => exact (setPage_page h.page index).1
    | setSelected index => exact h.page
    | setAllPage n => exact h.page
  · cases c with
    | setSplit index =>
      have hkept := (setPage_page (s := { setPageVisible false s with
        mCurrentMode := index
        mCurrentPage := s.mSelectIndex.tdiv (splitCount index) })
        (Int.tdiv_nonneg h.select (Int.natCast_nonneg _)) (s.mSelectIndex.tdiv (splitCount index))).2
      exact hkept ▸ h.select
    | setPage index => exact (setPage_page h.page index).2 ▸ h.select
    | setSelected index => exact hl.1
    | setAllPage n => exact h.select

theorem Ranged.act {s t : NormalScreen} {a : Action} (h : Ranged s) (hl : LegalAction s a)
    (he : act s a = some t) : Ranged t := by
  cases a with
  | call c =>
    obtain rfl := Option.some.inj he
    exact h.step hl
  | touch x y w h' =>
    obtain ⟨⟨u, picked⟩, hu, rfl⟩ := Option.map_eq_some_iff.mp he
    obtain ⟨hall, hpage, -, hselect⟩ := setSelectedAt_cases hu
    refine ⟨⟨hall ▸ h.sized.1, hall ▸ h.sized.2⟩, hpage ▸ h.page, ?_⟩
    rcases hselect with ⟨-, hkept⟩ | ⟨index, h0, -, -, hset⟩
    · exact hkept ▸ h.select
    · exact hset ▸ h0

theorem Reachable.ranged {s : NormalScreen} (h : Reachable s) : Ranged s := by
  obtain ⟨as, hrun⟩ := h
  exact hrun.invariant Ranged (fun _ _ _ hi hl he => hi.act hl he)
    ⟨create_sized, by decide, by decide⟩

/-! ## The pane under the finger -/

/-- A touch selects pane `index` and no other one. -/
structure Selects (s t : NormalScreen) (picked : Option ℤ) (index : ℤ) : Prop where
  picked : picked = some index
  below : index < 36
  select : t.mSelectIndex = index
  flags : ∀ j, 0 ≤ j → j < s.allPage → (t.mIsSelected j = true ↔ j = index)

structure SelectsNothing (s t : NormalScreen) (picked : Option ℤ) : Prop where
  picked : picked = none
  select : t.mSelectIndex = s.mSelectIndex
  flags : ∀ j, 0 ≤ j → j < s.allPage → t.mIsSelected j = false

/-- What a touch of pane `i` of the page should do. -/
def Touches (s : NormalScreen) (x y w h : ℤ) (i : ℕ) : Prop :=
  ∃ t picked, setSelectedAt s x y w h = some (t, picked) ∧
    if s.mCurrentPage * s.count + i < s.allPage
    then Selects s t picked (s.mCurrentPage * s.count + i)
    else SelectsNothing s t picked

/-- The pane found at the cell counted in whole pixels makes up for the page that is counted
in the panes of another mode. For a pane that is not there, no pane is found. -/
def TouchFits (s : NormalScreen) (x y w h : ℤ) (i : ℕ) : Prop :=
  if s.mCurrentPage * s.count + i < s.allPage
  then ∃ j n, FirstTouched s.mCurrentMode (x / (w / 12)) (y / (h / 12)) j ∧
    splitCountAt s.mCurrentPage = some n ∧ s.mCurrentPage * n + j = s.mCurrentPage * s.count + i
  else 12 < x / (w / 12) ∨ 12 < y / (h / 12)

section Touch
variable {s : NormalScreen} {x y w h : ℤ}

theorem InWindow.cell (hin : InWindow x y w h) :
    x.tdiv (w.tdiv 12) = x / (w / 12) ∧ y.tdiv (h.tdiv 12) = y / (h / 12) ∧
      0 ≤ x / (w / 12) ∧ 0 ≤ y / (h / 12) := by
  obtain ⟨hw, hh, hx, -, hy, -⟩ := hin
  rw [Int.tdiv_eq_ediv_of_nonneg hx, Int.tdiv_eq_ediv_of_nonneg hy,
    Int.tdiv_eq_ediv_of_nonneg (a := w) (by omega), Int.tdiv_eq_ediv_of_nonneg (a := h) (by omega)]
  exact ⟨rfl, rfl, Int.ediv_nonneg hx (by omega), Int.ediv_nonneg hy (by omega)⟩

/-- The cell under a point of the window is in the grid. -/
theorem InWindow.grid (hin : InWindow x y w h) :
    (0 ≤ 12 * x / w ∧ 12 * x / w < 12) ∧ 0 ≤ 12 * y / h ∧ 12 * y / h < 12 := by
  obtain ⟨hw, hh, hx, hx', hy, hy'⟩ := hin
  refine ⟨⟨Int.ediv_nonneg (by omega) (by omega), ?_⟩, Int.ediv_nonneg (by omega) (by omega), ?_⟩
  · exact (Int.ediv_lt_iff_lt_mul (by omega)).mpr (by omega)
  · exact (Int.ediv_lt_iff_lt_mul (by omega)).mpr (by omega)

/-- The flags after the loop of `SetSelected`. -/
def cleared (s : NormalScreen) : ℤ → Bool := clearLoop s.allPage.toNat s.mIsSelected

theorem cleared_below (s : NormalScreen) {j : ℤ} (h0 : 0 ≤ j) (hj : j < s.allPage) :
    cleared s j = false := by
  rw [cleared, clearLoop_apply, if_pos (by omega)]

theorem setSelectedAt_untouched (hin : InWindow x y w h)
    (hout : 12 < x / (w / 12) ∨ 12 < y / (h / 12)) :
    setSelectedAt s x y w h = some ({ s with mIsSelected := cleared s }, none) := by
  obtain ⟨hpx, hpy, hx, hy⟩ := hin.cell
  simp only [setSelectedAt, hpx, hpy, (untouched_iff hx hy).mpr hout]
  rfl

theorem setSelectedAt_touched (hin : InWindow x y w h) {j : ℕ}
    (hj : FirstTouched s.mCurrentMode (x / (w / 12)) (y / (h / 12)) j) :
    setSelectedAt s x y w h = (splitCountAt s.mCurrentPage).bind fun n =>
      if 0 ≤ s.mCurrentPage * n + j ∧ s.mCurrentPage * n + j < 36 then
        some ({ s with
          mIsSelected := Function.update (cleared s) (s.mCurrentPage * n + j) true
          mSelectIndex := s.mCurrentPage * n + j }, some (s.mCurrentPage * n + j))
      else none := by
  obtain ⟨hpx, hpy, -, -⟩ := hin.cell
  simp only [setSelectedAt, hpx, hpy, firstTouched_iff.mpr hj]
  rfl

theorem touched_cases (hin : InWindow x y w h) (mode : Fin 7) :
    (∃ j, FirstTouched mode (x / (w / 12)) (y / (h / 12)) j) ↔
      ¬ (12 < x / (w / 12) ∨ 12 < y / (h / 12)) := by
  obtain ⟨-, -, hx, hy⟩ := hin.cell
  rw [← @untouched_iff mode _ _ hx hy]
  simp only [← firstTouched_iff]
  rw [← Option.isSome_iff_exists, ← Option.isNone_iff_eq_none]
  simp

/-- A pane that the screen has. -/
theorem touches_iff_of_lt (hr : Ranged s) (hin : InWindow x y w h) {i : ℕ}
    (hlt : s.mCurrentPage * s.count + i < s.allPage) :
    Touches s x y w h i ↔ TouchFits s x y w h i := by
  have hall := hr.sized.2
  have hpos : 0 ≤ s.mCurrentPage * s.count + i :=
    add_nonneg (mul_nonneg hr.page (Int.natCast_nonneg _)) (Int.natCast_nonneg _)
  simp only [Touches, TouchFits, if_pos hlt]
  constructor
  · rintro ⟨t, picked, he, hsel⟩
    by_cases hout : 12 < x / (w / 12) ∨ 12 < y / (h / 12)
    · rw [setSelectedAt_untouched hin hout] at he
      obtain ⟨-, rfl⟩ := Prod.mk.inj (Option.some.inj he)
      cases hsel.picked
    · obtain ⟨j, hj⟩ := (touched_cases hin s.mCurrentMode).mpr hout
      rw [setSelectedAt_touched hin hj] at he
      obtain ⟨n, hn, he⟩ := Option.bind_eq_some_iff.mp he
      split at he
      · obtain ⟨-, rfl⟩ := Prod.mk.inj (Option.some.inj he)
        exact ⟨j, n, hj, hn, Option.some.inj hsel.picked⟩
      · cases he
  · rintro ⟨j, n, hj, hn, hindex⟩
    refine ⟨{ s with
      mIsSelected := Function.update (cleared s) (s.mCurrentPage * s.count + i) true
      mSelectIndex := s.mCurrentPage * s.count + i }, _, ?_, rfl, by omega, rfl, ?_⟩
    · rw [setSelectedAt_touched hin hj, hn, Option.bind_some, hindex, if_pos ⟨hpos, by omega⟩]
    · intro k h0 hk
      by_cases hki : k = s.mCurrentPage * s.count + i
      · rw [hki]
        simp
      · simp only [Function.update_of_ne hki, cleared_below s h0 hk, hki]
        simp

/-- A pane that the screen does not have. -/
theorem touches_iff_of_le (hin : InWindow x y w h) {i : ℕ}
    (hle : ¬ s.mCurrentPage * s.count + i < s.allPage) :
    Touches s x y w h i ↔ TouchFits s x y w h i := by
  simp only [Touches, TouchFits, if_neg hle]
  constructor
  · rintro ⟨t, picked, he, hsel⟩
    by_contra hout
    obtain ⟨j, hj⟩ := (touched_cases hin s.mCurrentMode).mpr hout
    rw [setSelectedAt_touched hin hj] at he
    obtain ⟨n, -, he⟩ := Option.bind_eq_some_iff.mp he
    split at he
    · obtain ⟨-, rfl⟩ := Prod.mk.inj (Option.some.inj he)
      cases hsel.picked
    · cases he
  · intro hout
    exact ⟨_, _, setSelectedAt_untouched hin hout, rfl, rfl, fun k h0 hk => cleared_below s h0 hk⟩

theorem touches_iff (hr : Ranged s) (hin : InWindow x y w h) (i : ℕ) :
    Touches s x y w h i ↔ TouchFits s x y w h i := by
  by_cases hlt : s.mCurrentPage * s.count + i < s.allPage
  · exact touches_iff_of_lt hr hin hlt
  · exact touches_iff_of_le hin hlt

/-- One pane is under the finger. -/
theorem pane_under (mode : Fin 7) (hin : InWindow x y w h) :
    ∃ i, ∀ k, paneIs (fun p => p.contains (12 * x / w) (12 * y / h)) mode k = true ↔ k = i := by
  obtain ⟨⟨hx, hx'⟩, hy, hy'⟩ := hin.grid
  have hcell := grid_covered mode ⟨(12 * x / w).toNat, by omega⟩ ⟨(12 * y / h).toNat, by omega⟩
  simp only [Int.toNat_of_nonneg hx, Int.toNat_of_nonneg hy] at hcell
  obtain ⟨p, hp, hc⟩ := List.any_eq_true.mp hcell
  obtain ⟨i, hi, rfl⟩ := List.mem_iff_getElem.mp hp
  have hpane : paneIs (fun p => p.contains (12 * x / w) (12 * y / h)) mode i = true := by
    simp [paneIs, hi, hc]
  refine ⟨i, fun k => ⟨contains_unique hpane, ?_⟩⟩
  rintro rfl
  exact hpane

end Touch

/-- In every state reached and at every point there is one pane under the finger, and the
touch selects it exactly when the touch fits. -/
theorem touch_selects_iff (s : NormalScreen) (hs : Reachable s) (x y w h : ℤ)
    (hin : InWindow x y w h) :
    ∃ i, (∀ k, paneIs (fun p => p.contains (12 * x / w) (12 * y / h)) s.mCurrentMode k = true ↔
      k = i) ∧ (Touches s x y w h i ↔ TouchFits s x y w h i) := by
  obtain ⟨i, hi⟩ := pane_under s.mCurrentMode hin
  exact ⟨i, hi, touches_iff hs.ranged hin i⟩

theorem touch_selects_iff_undivided : Touches create 50 60 100 200 0 := by
  have hin : InWindow 50 60 100 200 :=
    ⟨by decide, by decide, by decide, by decide, by decide, by decide⟩
  obtain ⟨i, hi, htouch⟩ := touch_selects_iff create ⟨[], .nil _⟩ 50 60 100 200 hin
  obtain rfl : 0 = i := (hi 0).mp (by decide +kernel)
  apply htouch.mpr
  rw [TouchFits, if_pos (by decide)]
  exact ⟨0, 1, ⟨by decide +kernel, fun k hk => absurd hk (Nat.not_lt_zero k)⟩, by decide, by decide⟩

/-- A finger in the middle of four panes is on the last one; the first one is selected. -/
theorem touch_selects_neighbour : ¬ ∀ s, Reachable s → ∀ x y w h, InWindow x y w h →
    ∀ i, paneIs (fun p => p.contains (12 * x / w) (12 * y / h)) s.mCurrentMode i = true →
      Touches s x y w h i := by
  intro hall
  have hreach : Reachable (step create (.setSplit 1)) :=
    ⟨[.call (.setSplit 1)], .cons trivial rfl (.nil _)⟩
  have hin : InWindow 600 600 1200 1200 :=
    ⟨by decide, by decide, by decide, by decide, by decide, by decide⟩
  obtain ⟨t, picked, he, hsel⟩ :=
    hall _ hreach 600 600 1200 1200 hin 3 (by decide +kernel)
  rw [if_pos (by decide +kernel)] at hsel
  rw [setSelectedAt_touched (j := 0) hin
    ⟨by decide +kernel, fun k hk => absurd hk (Nat.not_lt_zero k)⟩] at he
  obtain ⟨n, hn, he⟩ := Option.bind_eq_some_iff.mp he
  obtain rfl : 1 = n := by
    have hpage : splitCountAt (step create (.setSplit 1)).mCurrentPage = some 1 := by decide +kernel
    exact Option.some.inj (hpage.symm.trans hn)
  rw [if_pos (by decide +kernel)] at he
  obtain ⟨-, rfl⟩ := Prod.mk.inj (Option.some.inj he)
  have hwrong := Option.some.inj hsel.picked
  exact absurd hwrong (by decide +kernel)

end NormalScreen
end Jagles
