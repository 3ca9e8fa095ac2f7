import Jagles.MotionCoverage

set_option autoImplicit false
set_option linter.dupNamespace false

/-!
# Objects that overlap (`TrackingFrame::intersect`, the scan of `DetectTracking`)

Two frames are taken to meet when a corner of the second one lies in the first. A frame that
reaches past the other one on both sides has no corner there. In the scan a new frame never
does, but a frame that is enlarged by it can come to lie over a third one.
-/
namespace Jagles.MotionTracking

namespace TrackingFrame

/-- The frame has a cell. -/
def Proper (f : TrackingFrame) : Prop := f._l ≤ f._r ∧ f._t ≤ f._b

/-- The frames share a cell of the grid. -/
def Overlaps (f g : TrackingFrame) : Prop := ∃ x y, f.contain x y = true ∧ g.contain x y = true

/-- `g` reaches past `f` on both sides of an axis. -/
def Past (g f : TrackingFrame) : Prop :=
  g._l < f._l ∧ f._r < g._r ∨ g._t < f._t ∧ f._b < g._b

theorem Overlaps.symm {f g : TrackingFrame} (h : f.Overlaps g) : g.Overlaps f := by
  obtain ⟨x, y, hf, hg⟩ := h
  exact ⟨x, y, hg, hf⟩

theorem overlaps_comm (f g : TrackingFrame) : f.Overlaps g ↔ g.Overlaps f :=
  ⟨Overlaps.symm, Overlaps.symm⟩

theorem overlaps_iff {f g : TrackingFrame} (hf : f.Proper) (hg : g.Proper) :
    f.Overlaps g ↔ (f._l ≤ g._r ∧ g._l ≤ f._r) ∧ f._t ≤ g._b ∧ g._t ≤ f._b := by
  unfold Overlaps
  simp only [contain_iff]
  unfold Proper at hf hg
  constructor
  · rintro ⟨x, y, hfx, hgx⟩
    omega
  · intro h
    exact ⟨max f._l g._l, max f._t g._t, by omega, by omega⟩

/-- The corner test finds the frames that share a cell, but for those that reach past. -/
theorem intersect_iff {f g : TrackingFrame} (hf : f.Proper) (hg : g.Proper) :
    f.intersect g = true ↔ f.Overlaps g ∧ ¬ g.Past f := by
  rw [overlaps_iff hf hg]
  simp only [intersect, Bool.or_eq_true, contain_iff, Past]
  unfold Proper at hf hg
  omega

theorem intersect_exact_iff {f g : TrackingFrame} (hf : f.Proper) (hg : g.Proper) :
    (f.intersect g = true ↔ f.Overlaps g) ↔ ¬ (f.Overlaps g ∧ g.Past f) := by
  rw [intersect_iff hf hg]
  tauto

theorem intersect_symm_iff {f g : TrackingFrame} (hf : f.Proper) (hg : g.Proper) :
    f.intersect g = g.intersect f ↔ (f.Overlaps g → (g.Past f ↔ f.Past g)) := by
  rw [Bool.eq_iff_iff, intersect_iff hf hg, intersect_iff hg hf, overlaps_comm g f]
  by_cases ho : f.Overlaps g
  · simp only [ho, true_and, forall_const, not_iff_not]
  · simp only [ho, false_and, false_implies]

end TrackingFrame
open TrackingFrame

/-! ## The frame around a white pixel -/

section Frames
variable {px : Bitmap} {x y : ℤ}

theorem getFrame_window (hy : 0 ≤ y ∧ y ≤ 49) (h : px x y = true) :
    x - 5 ≤ (getFrame px x y)._l ∧ (getFrame px x y)._r ≤ x + 4 ∧ y ≤ (getFrame px x y)._t ∧
      (getFrame px x y)._b ≤ y + 9 := by
  have hcolumn : x ∈ loop (x - 5) (x + 5) := mem_loop.mpr (by omega)
  have hrow : y ∈ loop y (if y + 10 > 50 then 50 else y + 10) :=
    mem_loop.mpr ⟨le_rfl, by split <;> omega⟩
  obtain ⟨l, hl, hl0, -⟩ := find?_loop
    (p := fun i => (loop y (if y + 10 > 50 then 50 else y + 10)).any fun j => px i j) hcolumn
    (List.any_eq_true.mpr ⟨y, hrow, h⟩)
  obtain ⟨r, hr, -, hr0⟩ := find?_loop_reverse
    (p := fun i => (loop y (if y + 10 > 50 then 50 else y + 10)).any fun j => px i j) hcolumn
    (List.any_eq_true.mpr ⟨y, hrow, h⟩)
  obtain ⟨t, ht, ht0, -⟩ := find?_loop
    (p := fun i => (loop (x - 5) (x + 5)).any fun j => px j i) hrow
    (List.any_eq_true.mpr ⟨x, hcolumn, h⟩)
  obtain ⟨b, hb, -, hb0⟩ := find?_loop_reverse
    (p := fun i => (loop (x - 5) (x + 5)).any fun j => px j i) hrow
    (List.any_eq_true.mpr ⟨x, hcolumn, h⟩)
  have el : (getFrame px x y)._l = l := congrArg (Option.getD · _) hl
  have er : (getFrame px x y)._r = r := congrArg (Option.getD · _) hr
  have et : (getFrame px x y)._t = t := congrArg (Option.getD · _) ht
  have eb : (getFrame px x y)._b = b := congrArg (Option.getD · _) hb
  split at hb0 <;> omega

/-- The frame contains the white pixels of the window around it. -/
theorem getFrame_contains {u v : ℤ} (hu : x - 5 ≤ u ∧ u ≤ x + 4) (hv : y ≤ v ∧ v ≤ y + 9)
    (hv49 : v ≤ 49) (h : px u v = true) : (getFrame px x y).contain u v = true := by
  have hcolumn : u ∈ loop (x - 5) (x + 5) := mem_loop.mpr (by omega)
  have hrow : v ∈ loop y (if y + 10 > 50 then 50 else y + 10) :=
    mem_loop.mpr ⟨hv.1, by split <;> omega⟩
  obtain ⟨l, hl, -, hlu⟩ := find?_loop
    (p := fun i => (loop y (if y + 10 > 50 then 50 else y + 10)).any fun j => px i j) hcolumn
    (List.any_eq_true.mpr ⟨v, hrow, h⟩)
  obtain ⟨r, hr, hru, -⟩ := find?_loop_reverse
    (p := fun i => (loop y (if y + 10 > 50 then 50 else y + 10)).any fun j => px i j) hcolumn
    (List.any_eq_true.mpr ⟨v, hrow, h⟩)
  obtain ⟨t, ht, -, htv⟩ := find?_loop
    (p := fun i => (loop (x - 5) (x + 5)).any fun j => px j i) hrow
    (List.any_eq_true.mpr ⟨u, hcolumn, h⟩)
  obtain ⟨b, hb, hbv, -⟩ := find?_loop_reverse
    (p := fun i => (loop (x - 5) (x + 5)).any fun j => px j i) hrow
    (List.any_eq_true.mpr ⟨u, hcolumn, h⟩)
  have el : (getFrame px x y)._l = l := congrArg (Option.getD · _) hl
  have er : (getFrame px x y)._r = r := congrArg (Option.getD · _) hr
  have et : (getFrame px x y)._t = t := congrArg (Option.getD · _) ht
  have eb : (getFrame px x y)._b = b := congrArg (Option.getD · _) hb
  rw [contain_iff, el, er, et, eb]
  exact ⟨hlu, hru, htv, hbv⟩

/-- The frame was made or last enlarged for the pixel at `x` and `y`. -/
structure GrownAt (px : Bitmap) (f : TrackingFrame) (x y : ℤ) : Prop where
  proper : f.Proper
  column : f._l ≤ x ∧ x ≤ f._r
  top : f._t ≤ y
  bottom : f._b ≤ y + 9
  window : ∀ u v, x - 5 ≤ u ∧ u ≤ x + 4 → y ≤ v ∧ v ≤ y + 9 → v ≤ 49 → px u v = true →
    f.contain u v = true

theorem getFrame_grownAt (hx : 5 ≤ x ∧ x ≤ 44) (hy : 0 ≤ y ∧ y ≤ 49) (h : px x y = true) :
    GrownAt px (getFrame px x y) x y := by
  obtain ⟨hin, hself⟩ := getFrame_covers hx hy h
  rw [contain_iff] at hself
  exact ⟨⟨hin.width, hin.height⟩, ⟨hself.1, hself.2.1⟩, hself.2.2.1, (getFrame_window hy h).2.2.2,
    fun u v hu hv hv49 hp => getFrame_contains hu hv hv49 hp⟩

theorem combine_grownAt {f : TrackingFrame} {u v : ℤ} (hf : GrownAt px f u v) (hle : v ≤ y)
    (hx : 5 ≤ x ∧ x ≤ 44) (hy : 0 ≤ y ∧ y ≤ 49) (h : px x y = true) :
    GrownAt px (remeasure px (f.combine (getFrame px x y))) x y := by
  have hnew := getFrame_grownAt hx hy h
  refine ⟨⟨?_, ?_⟩, ⟨?_, ?_⟩, ?_, ?_, ?_⟩
  · exact (min_le_right _ _).trans (hf.proper.1.trans (le_max_right _ _))
  · exact (min_le_right _ _).trans (hf.proper.2.trans (le_max_right _ _))
  · exact (min_le_left _ _).trans hnew.column.1
  · exact hnew.column.2.trans (le_max_left _ _)
  · exact (min_le_left _ _).trans hnew.top
  · exact max_le hnew.bottom (by have := hf.bottom; omega)
  · intro i j hi hj hj49 hp
    exact contain_combine (.inr (hnew.window i j hi hj hj49 hp))

/-- A new frame does not reach past one that it shares a cell with. -/
theorem getFrame_not_past {f : TrackingFrame} {u v : ℤ} (hf : GrownAt px f u v) (hle : v ≤ y)
    (hx : 5 ≤ x ∧ x ≤ 44) (hy : 0 ≤ y ∧ y ≤ 49) (h : px x y = true)
    (hout : f.contain x y = false) :
    ¬ (f.Overlaps (getFrame px x y) ∧ (getFrame px x y).Past f) := by
  rintro ⟨hoverlaps, hpast⟩
  have hnew := getFrame_grownAt hx hy h
  obtain ⟨hleft, hright, htop, -⟩ := getFrame_window hy h
  rw [overlaps_iff hf.proper hnew.proper] at hoverlaps
  have hcolumn := hf.column
  have hftop := hf.top
  have hfbottom := hf.bottom
  have hgcolumn := hnew.column
  rcases hpast with hpast | hpast
  · have hin := hf.window x y (by omega) (by omega) hy.2 h
    rw [hout] at hin
    cases hin
  · omega

end Frames

/-! ## One pixel of the scan -/

/-- Frames at two places of the list share no cell. -/
def Apart (lst : List TrackingFrame) : Prop := lst.Pairwise fun f g => ¬ f.Overlaps g

theorem apart_iff {lst : List TrackingFrame} :
    Apart lst ↔ ∀ (i j : ℕ) (f g : TrackingFrame), i ≠ j → lst[i]? = some f → lst[j]? = some g → ¬ f.Overlaps g := by
  rw [Apart, List.pairwise_iff_getElem]
  constructor
  · intro h i j f g hne hf hg
    obtain ⟨hi, rfl⟩ := List.getElem?_eq_some_iff.mp hf
    obtain ⟨hj, rfl⟩ := List.getElem?_eq_some_iff.mp hg
    rcases lt_or_gt_of_ne hne with hlt | hgt
    · exact h i j hi hj hlt
    · exact fun ho => h j i hj hi hgt ho.symm
  · intro h i j hi hj hlt
    exact h i j _ _ hlt.ne (List.getElem?_eq_getElem hi) (List.getElem?_eq_getElem hj)

/-- The condition on the scan at one pixel: a frame that is enlarged for it meets no other one
after that. -/
def MergesApart (px : Bitmap) (lst : List TrackingFrame) (x y : ℤ) : Prop :=
  px x y = true → inFrame x y lst = false →
    ∀ i f, intersectFrame (getFrame px x y) lst = some i → lst[i]? = some f →
      ∀ j g, j ≠ i → lst[j]? = some g → ¬ (f.combine (getFrame px x y)).Overlaps g

/-- The frames have been made or enlarged in rows up to `y`. -/
def Grown (px : Bitmap) (y : ℤ) (lst : List TrackingFrame) : Prop :=
  ∀ f ∈ lst, ∃ u v, v ≤ y ∧ GrownAt px f u v

section Scan
variable {px : Bitmap} {lst : List TrackingFrame} {x y : ℤ}

theorem combine_contains {f g : TrackingFrame} {u v : ℤ} (h : f.contain u v = true) :
    (remeasure px (f.combine g)).contain u v = true := contain_combine (.inl h)

theorem getElem?_merged (i j : ℕ) (g : TrackingFrame) :
    (lst.modify i fun f => remeasure px (f.combine g))[j]? =
      lst[j]?.map fun f => if i = j then remeasure px (f.combine g) else f := by
  rw [List.getElem?_modify]
  rfl

/-- A frame keeps its place in the list and its cells. -/
theorem scan_place (px : Bitmap) (x y : ℤ) {i : ℕ} {f : TrackingFrame} (h : lst[i]? = some f) :
    ∃ f', (scan px lst x y)[i]? = some f' ∧
      ∀ u v, f.contain u v = true → f'.contain u v = true := by
  rcases scan_cases px lst x y with ⟨he, -⟩ | ⟨-, ⟨k, -, he⟩ | he⟩
  · rw [he]
    exact ⟨f, h, fun _ _ hc => hc⟩
  · rw [he, getElem?_merged, h, Option.map_some]
    refine ⟨_, rfl, fun u v hc => ?_⟩
    split
    · exact combine_contains hc
    · exact hc
  · rw [he, List.getElem?_append_left (List.getElem?_eq_some_iff.mp h).1]
    exact ⟨f, h, fun _ _ hc => hc⟩

/-- Frames that share a cell go on to share it. -/
theorem scan_not_apart (h : ¬ Apart lst) : ¬ Apart (scan px lst x y) := by
  rw [apart_iff] at h ⊢
  push Not at h ⊢
  obtain ⟨i, j, f, g, hne, hf, hg, u, v, hfu, hgu⟩ := h
  obtain ⟨f', hf', hkeepf⟩ := scan_place px x y hf
  obtain ⟨g', hg', hkeepg⟩ := scan_place px x y hg
  exact ⟨i, j, f', g', hne, hf', hg', u, v, hkeepf u v hfu, hkeepg u v hgu⟩

theorem scan_grown (h : Grown px y lst) (hx : 5 ≤ x ∧ x ≤ 44) (hy : 0 ≤ y ∧ y ≤ 49) :
    Grown px y (scan px lst x y) := by
  intro f hf
  rcases scan_cases px lst x y with ⟨he, -⟩ | ⟨hpixel, ⟨i, -, he⟩ | he⟩
  · exact h f (he ▸ hf)
  · rw [he] at hf
    rcases mem_modify hf with hold | ⟨g, hg, rfl⟩
    · exact h f hold
    · obtain ⟨u, v, hle, hgrown⟩ := h g hg
      exact ⟨x, y, le_rfl, combine_grownAt hgrown hle hx hy hpixel⟩
  · rw [he] at hf
    rcases List.mem_append.mp hf with hold | hnew
    · exact h f hold
    · rw [List.mem_singleton.mp hnew]
      exact ⟨x, y, le_rfl, getFrame_grownAt hx hy hpixel⟩

theorem scan_add (hpixel : px x y = true) (hout : inFrame x y lst = false)
    (h : intersectFrame (getFrame px x y) lst = none) :
    scan px lst x y = lst ++ [getFrame px x y] := by
  simp [scan, hpixel, hout, h]

theorem scan_merge {i : ℕ} (hpixel : px x y = true) (hout : inFrame x y lst = false)
    (h : intersectFrame (getFrame px x y) lst = some i) : scan px lst x y =
      lst.modify i fun f => remeasure px (f.combine (getFrame px x y)) := by
  simp [scan, hpixel, hout, h]

theorem scan_keep (h : px x y = true → inFrame x y lst = true) : scan px lst x y = lst := by
  cases hpixel : px x y <;> simp_all [scan]

theorem remeasure_overlaps (px : Bitmap) (f g : TrackingFrame) :
    (remeasure px f).Overlaps g ↔ f.Overlaps g := Iff.rfl

/-- A frame that is added for a pixel outside the list shares no cell with the list. -/
theorem add_apart (hlst : Grown px y lst) (ha : Apart lst) (hx : 5 ≤ x ∧ x ≤ 44)
    (hy : 0 ≤ y ∧ y ≤ 49) (hpixel : px x y = true) (hout : inFrame x y lst = false)
    (h : intersectFrame (getFrame px x y) lst = none) : Apart (lst ++ [getFrame px x y]) := by
  rw [Apart, List.pairwise_append]
  refine ⟨ha, List.pairwise_singleton _ _, ?_⟩
  intro f hf g hg
  rw [List.mem_singleton.mp hg]
  obtain ⟨u, v, hle, hgrown⟩ := hlst f hf
  have hfout : f.contain x y = false :=
    Bool.eq_false_iff.mpr (List.any_eq_false.mp hout f hf)
  have hmiss : f.intersect (getFrame px x y) = false := List.findIdx?_eq_none_iff.mp h f hf
  intro ho
  have hnew := getFrame_grownAt hx hy hpixel
  have hpast := getFrame_not_past hgrown hle hx hy hpixel hfout
  rw [(intersect_iff hgrown.proper hnew.proper).mpr ⟨ho, fun hp => hpast ⟨ho, hp⟩⟩] at hmiss
  cases hmiss

theorem merge_apart_iff {i : ℕ} (ha : Apart lst) (hpixel : px x y = true)
    (hout : inFrame x y lst = false) (h : intersectFrame (getFrame px x y) lst = some i) :
    Apart (lst.modify i fun f => remeasure px (f.combine (getFrame px x y))) ↔
      MergesApart px lst x y := by
  rw [apart_iff] at ha ⊢
  constructor
  · intro hmerged _ _ k f hk hf j g hne hg
    obtain rfl : i = k := Option.some.inj (h.symm.trans hk)
    rw [← remeasure_overlaps px]
    refine hmerged i j _ _ (Ne.symm hne) ?_ ?_
    · rw [getElem?_merged, hf, Option.map_some, if_pos rfl]
    · rw [getElem?_merged, hg, Option.map_some, if_neg (Ne.symm hne)]
  · intro hmerges j k f' g' hne hf' hg'
    rw [getElem?_merged] at hf' hg'
    obtain ⟨f, hf, rfl⟩ := Option.map_eq_some_iff.mp hf'
    obtain ⟨g, hg, rfl⟩ := Option.map_eq_some_iff.mp hg'
    by_cases hij : i = j
    · subst hij
      rw [if_pos rfl, if_neg hne]
      exact hmerges hpixel hout i f h hf k g (Ne.symm hne) hg
    · by_cases hik : i = k
      · subst hik
        rw [if_neg hij, if_pos rfl, overlaps_comm]
        exact hmerges hpixel hout i g h hg j f (Ne.symm hij) hf
      · rw [if_neg hij, if_neg hik]
        exact ha j k f g hne hf hg

/-- One pixel keeps the frames apart just when the frame it enlarges stays apart. -/
theorem scan_apart_iff (hlst : Grown px y lst) (ha : Apart lst) (hx : 5 ≤ x ∧ x ≤ 44)
    (hy : 0 ≤ y ∧ y ≤ 49) : Apart (scan px lst x y) ↔ MergesApart px lst x y := by
  by_cases hkeep : px x y = true → inFrame x y lst = true
  · rw [scan_keep hkeep]
    constructor
    · intro _ hpixel hout
      rw [hkeep hpixel] at hout
      cases hout
    · exact fun _ => ha
  · push Not at hkeep
    obtain ⟨hpixel, hin⟩ := hkeep
    have hout : inFrame x y lst = false := Bool.eq_false_iff.mpr hin
    cases hi : intersectFrame (getFrame px x y) lst with
    | none =>
      rw [scan_add hpixel hout hi]
      constructor
      · intro _ _ _ i f hsome
        rw [hi] at hsome
        cases hsome
      · exact fun _ => add_apart hlst ha hx hy hpixel hout hi
    | some i =>
      rw [scan_merge hpixel hout hi]
      exact merge_apart_iff ha hpixel hout hi

theorem Grown.mono {y' : ℤ} (h : Grown px y lst) (hy : y ≤ y') : Grown px y' lst := by
  intro f hf
  obtain ⟨u, v, hle, hgrown⟩ := h f hf
  exact ⟨u, v, hle.trans hy, hgrown⟩

end Scan

/-! ## The whole scan -/

/-- The pixels in the order of the scan, as pairs of a column and a row. -/
def pixels : List (ℤ × ℤ) := (loop 0 50).flatMap fun y => (loop 5 45).map fun x => (x, y)

/-- The condition on a scan from `lst` on: it holds at each pixel of `cells`. -/
def MergesApartFrom (px : Bitmap) : List TrackingFrame → List (ℤ × ℤ) → Prop
  | _, [] => True
  | lst, (x, y) :: cells => MergesApart px lst x y ∧ MergesApartFrom px (scan px lst x y) cells

theorem objects_eq (px : Bitmap) :
    objects px = pixels.foldl (fun lst c => scan px lst c.1 c.2) [] := by
  unfold objects pixels
  rw [List.foldl_flatMap]
  simp only [List.foldl_map]

theorem mem_pixels {c : ℤ × ℤ} (h : c ∈ pixels) : (5 ≤ c.1 ∧ c.1 ≤ 44) ∧ 0 ≤ c.2 ∧ c.2 ≤ 49 := by
  obtain ⟨y, hy, hc⟩ := List.mem_flatMap.mp h
  obtain ⟨x, hx, rfl⟩ := List.mem_map.mp hc
  rw [mem_loop] at hx hy
  dsimp only
  omega

/-- The rows come from top to bottom. -/
theorem pixels_sorted : pixels.Pairwise fun c d => c.2 ≤ d.2 := by
  unfold pixels
  rw [List.pairwise_flatMap]
  constructor
  · intro y _
    rw [List.pairwise_map]
    exact List.pairwise_of_forall fun _ _ => le_rfl
  · apply (loop_sorted 0 50).imp
    intro a b hab c hc d hd
    obtain ⟨_, -, rfl⟩ := List.mem_map.mp hc
    obtain ⟨_, -, rfl⟩ := List.mem_map.mp hd
    exact hab.le

section Whole
variable {px : Bitmap}

theorem foldl_not_apart {lst : List TrackingFrame} (cells : List (ℤ × ℤ)) (h : ¬ Apart lst) :
    ¬ Apart (cells.foldl (fun lst c => scan px lst c.1 c.2) lst) := by
  induction cells generalizing lst with
  | nil => exact h
  | cons c cells ih => exact ih (scan_not_apart h)

theorem foldl_apart_iff {lst : List TrackingFrame} {cells : List (ℤ × ℤ)}
    (hcells : ∀ c ∈ cells, (5 ≤ c.1 ∧ c.1 ≤ 44) ∧ 0 ≤ c.2 ∧ c.2 ≤ 49)
    (hsorted : cells.Pairwise fun c d => c.2 ≤ d.2)
    (hlst : ∀ c ∈ cells, Grown px c.2 lst) (ha : Apart lst) :
    Apart (cells.foldl (fun lst c => scan px lst c.1 c.2) lst) ↔
      MergesApartFrom px lst cells := by
  induction cells generalizing lst with
  | nil => exact ⟨fun _ => trivial, fun _ => ha⟩
  | cons c cells ih =>
    obtain ⟨hx, hy⟩ := hcells c List.mem_cons_self
    have hgrown := hlst c List.mem_cons_self
    have hone := scan_apart_iff hgrown ha hx hy
    rw [List.foldl_cons, MergesApartFrom, ← hone]
    by_cases hstep : Apart (scan px lst c.1 c.2)
    · rw [and_iff_right hstep]
      apply ih (fun d hd => hcells d (List.mem_cons_of_mem _ hd)) hsorted.of_cons _ hstep
      intro d hd
      exact (scan_grown hgrown hx hy).mono (List.rel_of_pairwise_cons hsorted hd)
    · exact iff_of_false (foldl_not_apart cells hstep) fun h => hstep h.1

theorem objects_apart_iff (px : Bitmap) :
    Apart (objects px) ↔ MergesApartFrom px [] pixels := by
  rw [objects_eq]
  apply foldl_apart_iff (fun c hc => mem_pixels hc) pixels_sorted
  · intro c _ f hf
    cases hf
  · exact List.Pairwise.nil

/-- The objects of a bitmap share no cell just when every frame enlarged in the scan stays off
the others, and `intersect` tells a common cell just when the second frame does not reach past
the first one. -/
theorem boxes_apart_iff (px : Bitmap) {f g : TrackingFrame} (hf : f.Proper) (hg : g.Proper) :
    (Apart (objects px) ↔ MergesApartFrom px [] pixels) ∧
      ((f.intersect g = true ↔ f.Overlaps g) ↔ ¬ (f.Overlaps g ∧ g.Past f)) ∧
      (f.intersect g = g.intersect f ↔ (f.Overlaps g → (g.Past f ↔ f.Past g))) :=
  ⟨objects_apart_iff px, intersect_exact_iff hf hg, intersect_symm_iff hf hg⟩

end Whole

/-- A frame of three by three cells and one around it. -/
def inner : TrackingFrame := { TrackingFrame.create 0 with _l := 4, _t := 4, _r := 6, _b := 6 }

def outer : TrackingFrame := { TrackingFrame.create 0 with _l := 0, _t := 0, _r := 9, _b := 9 }

theorem boxes_apart_iff_nested :
    (inner.intersect outer = true ↔ inner.Overlaps outer) ↔
      ¬ (inner.Overlaps outer ∧ outer.Past inner) :=
  (boxes_apart_iff (fun _ _ => false) (f := inner) (g := outer)
    ⟨by decide, by decide⟩ ⟨by decide, by decide⟩).2.1

/-- Five white pixels: the frame of the first two grows over the one of the next two when the
last one is met. -/
def fiveLit : Bitmap := fun x y =>
  [((20 : ℤ), (0 : ℤ)), (34, 1), (28, 5), (29, 8), (24, 9)].contains (x, y)

/-- Both frames of the bitmap contain the cell in column 29 and row 5, and a frame in the
middle of another one shares its cells, which the test tells in one direction only. -/
theorem objects_fiveLit : ¬ Apart (objects fiveLit) ∧ inner.Overlaps outer ∧
    inner.intersect outer = false ∧ outer.intersect inner = true := by
  refine ⟨fun h => ?_, ⟨5, 5, by decide⟩, by decide, by decide⟩
  have hboth : (objects fiveLit).map (fun f => f.contain 29 5) = [true, true] := by
    decide +kernel
  have happart : ((objects fiveLit).map fun f => f.contain 29 5).Pairwise
      fun a b => ¬ (a = true ∧ b = true) :=
    List.pairwise_map.mpr (h.imp fun hapart hc => hapart ⟨29, 5, hc⟩)
  rw [hboth] at happart
  exact absurd happart (by decide)

end Jagles.MotionTracking
