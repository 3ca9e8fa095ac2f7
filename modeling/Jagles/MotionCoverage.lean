import Jagles.MotionTracking
import Jagles.AccessTraces
import Jagles.EdgeScans

set_option autoImplicit false
set_option linter.dupNamespace false

/-!
# What the objects of a bitmap cover

The scan of `DetectTracking` with the reads of `mPixelsBuffer` that its calls make. The
objects only grow while it runs, so that a white pixel once covered stays covered, and all
of them lie in the bitmap.
-/
namespace Jagles.MotionTracking
open AccessTraces AccessTraces.Traced EdgeScans

/-! ## The reads -/

section Reads
variable (mPixelsBuffer : Bitmap)

/-- `mPixelsBuffer[y*50+x]==0xffffffff`. -/
def readPixel (x y : ℤ) : Traced ℤ Bool := read (y * 50 + x) (mPixelsBuffer x y)

/-- `GetFrameArea`. -/
def readFrameArea (tf : TrackingFrame) : Traced ℤ ℤ :=
  (loop tf._l (tf._r + 1)).foldlM (fun lcount x =>
    (loop tf._t (tf._b + 1)).foldlM (fun lcount y => do
      if ← readPixel mPixelsBuffer x y then pure (lcount + 1) else pure lcount) lcount) 0

def readRemeasure (tf : TrackingFrame) : Traced ℤ TrackingFrame := do
  let area ← readFrameArea mPixelsBuffer tf
  pure { tf with _area := area }

/-- `GetFrame`. -/
def readFrame (x y : ℤ) : Traced ℤ TrackingFrame := do
  let columns := loop (x - 5) (x + 5)
  let rows := loop y (if y + 10 > 50 then 50 else y + 10)
  let inColumn (i : ℤ) : Traced ℤ Bool := rows.anyM fun j => readPixel mPixelsBuffer i j
  let inRow (i : ℤ) : Traced ℤ Bool := columns.anyM fun j => readPixel mPixelsBuffer j i
  let l ← columns.findM? inColumn
  let r ← columns.reverse.findM? inColumn
  let t ← rows.findM? inRow
  let b ← rows.reverse.findM? inRow
  readRemeasure mPixelsBuffer { TrackingFrame.create 0 with
    _l := l.getD (x - 5)
    _r := r.getD (x + 4)
    _t := t.getD y
    _b := b.getD (if y + 10 > 49 then 49 else y + 10) }

/-- One pixel of the scan of `DetectTracking`. -/
def readScan (lframelist : List TrackingFrame) (x y : ℤ) : Traced ℤ (List TrackingFrame) :=
  if mPixelsBuffer x y && !inFrame x y lframelist then do
    let tf ← readFrame mPixelsBuffer x y
    match intersectFrame tf lframelist with
    | some lindex =>
      let f ← readRemeasure mPixelsBuffer ((lframelist.getD lindex tf).combine tf)
      pure (lframelist.set lindex f)
    | none => pure (lframelist ++ [tf])
  else pure lframelist

def readObjects : Traced ℤ (List TrackingFrame) :=
  (loop 0 50).foldlM (fun lst y =>
    (loop 5 45).foldlM (fun lst x => readScan mPixelsBuffer lst x y) lst) []

/-- One object in the loop that matches the objects with the tracked frames. -/
def readMatch (s : GPUMotionTracking) (o : TrackingFrame) : Traced ℤ GPUMotionTracking :=
  let o := o.resizeFrame
  if o._area ≥ s.mObjectSize then
    match intersectFrame o s.mTrackingFrame with
    | some lindex => do
      let f ← readRemeasure mPixelsBuffer
        ((s.mTrackingFrame.getD lindex (.create s.created)).updatefrom o)
      pure { s with mTrackingFrame := s.mTrackingFrame.set lindex f }
    | none => do
      let f ← readRemeasure mPixelsBuffer ((TrackingFrame.create s.created).updatefrom o)
      pure { s with mTrackingFrame := s.mTrackingFrame ++ [f], created := s.created + 1 }
  else pure s

/-- `DetectTracking` up to its last loop, which reads no pixel. -/
def readDetect (s : GPUMotionTracking) : Traced ℤ GPUMotionTracking := do
  let lframelist ← readObjects mPixelsBuffer
  lframelist.reverse.foldlM (readMatch mPixelsBuffer) s.clearUpdates

end Reads

section Values
variable (px : Bitmap)

theorem foldl_count (p : ℤ → Bool) (l : List ℤ) (n : ℤ) :
    l.foldl (fun n y => if p y then n + 1 else n) n = n + (l.countP p : ℕ) := by
  induction l generalizing n with
  | nil => simp
  | cons y l ih =>
    rw [List.foldl_cons, ih, List.countP_cons]
    split
    · push_cast
      ring
    · simp

theorem value_readFrameArea (tf : TrackingFrame) :
    (readFrameArea px tf).value = getFrameArea px tf := by
  have hpixel : ∀ (x y n : ℤ), (do
      if ← readPixel px x y then pure (n + 1) else pure n : Traced ℤ ℤ).value =
        if px x y then n + 1 else n := by
    intro x y n
    change (if px x y then _ else _ : Traced ℤ ℤ).value = _
    split <;> rfl
  simp only [readFrameArea, getFrameArea, value_foldlM, hpixel, foldl_count]
  rw [List.sum_eq_foldl, List.foldl_map]

@[simp] theorem value_readRemeasure (tf : TrackingFrame) :
    (readRemeasure px tf).value = remeasure px tf := by
  simp only [readRemeasure, value_bind, value_pure, value_readFrameArea, remeasure]

@[simp] theorem value_readFrame (x y : ℤ) : (readFrame px x y).value = getFrame px x y := by
  simp only [readFrame, value_bind, value_findM?, value_anyM, value_readRemeasure]
  rfl

theorem modify_eq_set {α : Type} {f : α → α} {l : List α} {p : α → Bool} {i : ℕ} (d : α)
    (h : l.findIdx? p = some i) : l.modify i f = l.set i (f (l.getD i d)) := by
  obtain ⟨hlt, -⟩ := List.findIdx?_eq_some_iff_getElem.mp h
  rw [List.modify_eq_set_getElem?, List.getD_eq_getElem?_getD, List.getElem?_eq_getElem hlt]
  rfl

@[simp] theorem value_readScan (lst : List TrackingFrame) (x y : ℤ) :
    (readScan px lst x y).value = scan px lst x y := by
  unfold readScan scan
  split
  · rw [value_bind, value_readFrame]
    dsimp only
    cases hi : intersectFrame (getFrame px x y) lst with
    | none => rfl
    | some i =>
      dsimp only
      rw [modify_eq_set (getFrame px x y) hi]
      simp only [value_bind, value_readRemeasure, value_pure]
  · rfl

theorem value_readObjects : (readObjects px).value = objects px := by
  simp only [readObjects, objects, value_foldlM, value_readScan]

@[simp] theorem value_readMatch (s : GPUMotionTracking) (o : TrackingFrame) :
    (readMatch px s o).value = s.matchObject px o := by
  simp only [readMatch, GPUMotionTracking.matchObject]
  split
  · cases hi : intersectFrame o.resizeFrame s.mTrackingFrame with
    | none => simp only [value_bind, value_readRemeasure, value_pure]
    | some i =>
      dsimp only
      rw [modify_eq_set (.create s.created) hi]
      simp only [value_bind, value_readRemeasure, value_pure]
  · rfl

/-- The reads are those of the scan that the tracking uses. -/
theorem value_readDetect (s : GPUMotionTracking) : (readDetect px s).value =
    (objects px).reverse.foldl (GPUMotionTracking.matchObject px) s.clearUpdates := by
  simp only [readDetect, value_bind, value_foldlM, value_readMatch, value_readObjects]

end Values

/-! ## Coverage -/

section Loops
variable {a b i j : ℤ} {p : ℤ → Bool}

theorem loop_eq (a b : ℤ) :
    loop a b = (List.range (b - a).toNat).map fun k : ℕ => a + (k : ℤ) := by
  unfold loop
  change List.map _ ((List.range _).flatMap fun k : ℕ => [(k : ℤ)]) = _
  rw [← List.map_eq_flatMap, List.map_map]
  rfl

theorem mem_loop : i ∈ loop a b ↔ a ≤ i ∧ i < b := by
  rw [loop_eq]
  simp only [List.mem_map, List.mem_range]
  constructor
  · rintro ⟨k, hk, rfl⟩
    omega
  · rintro ⟨hlow, hhigh⟩
    exact ⟨(i - a).toNat, by omega, by omega⟩

theorem loop_sorted (a b : ℤ) : (loop a b).Pairwise (· < ·) := by
  rw [loop_eq, List.pairwise_map]
  apply List.pairwise_lt_range.imp
  intro k n hkn
  omega

theorem find?_loop (hj : j ∈ loop a b) (hp : p j = true) :
    ∃ i, (loop a b).find? p = some i ∧ a ≤ i ∧ i ≤ j := by
  cases hi : (loop a b).find? p with
  | none => exact absurd hp (List.find?_eq_none.mp hi j hj)
  | some i =>
    have hlow := (mem_loop.mp (List.mem_of_find?_eq_some hi)).1
    refine ⟨i, rfl, hlow, ?_⟩
    rcases find?_first (loop_sorted a b) hi hj hp with rfl | hlt
    · exact le_rfl
    · exact hlt.le

theorem find?_loop_reverse (hj : j ∈ loop a b) (hp : p j = true) :
    ∃ i, (loop a b).reverse.find? p = some i ∧ j ≤ i ∧ i < b := by
  have hj' := List.mem_reverse.mpr hj
  cases hi : (loop a b).reverse.find? p with
  | none => exact absurd hp (List.find?_eq_none.mp hi j hj')
  | some i =>
    have hhigh := (mem_loop.mp (List.mem_reverse.mp (List.mem_of_find?_eq_some hi))).2
    refine ⟨i, rfl, ?_, hhigh⟩
    rcases find?_first (List.pairwise_reverse.mpr (loop_sorted a b)) hi hj' hp with rfl | hlt
    · exact le_rfl
    · exact hlt.le

end Loops

structure InBitmap (f : TrackingFrame) : Prop where
  left : 0 ≤ f._l
  width : f._l ≤ f._r
  right : f._r ≤ 49
  top : 0 ≤ f._t
  height : f._t ≤ f._b
  bottom : f._b ≤ 49

theorem TrackingFrame.contain_iff (f : TrackingFrame) (x y : ℤ) :
    f.contain x y = true ↔ f._l ≤ x ∧ x ≤ f._r ∧ f._t ≤ y ∧ y ≤ f._b := by
  simp [TrackingFrame.contain]

section Frames
variable {px : Bitmap} {x y : ℤ}

/-- The frame made around a white pixel contains it. -/
theorem getFrame_covers (hx : 5 ≤ x ∧ x ≤ 44) (hy : 0 ≤ y ∧ y ≤ 49) (h : px x y = true) :
    InBitmap (getFrame px x y) ∧ (getFrame px x y).contain x y = true := by
  let columns := loop (x - 5) (x + 5)
  let rows := loop y (if y + 10 > 50 then 50 else y + 10)
  have hcolumn : x ∈ columns := mem_loop.mpr (by omega)
  have hrow : y ∈ rows := mem_loop.mpr ⟨le_rfl, by split <;> omega⟩
  have hinColumn : (rows.any fun j => px x j) = true := List.any_eq_true.mpr ⟨y, hrow, h⟩
  have hinRow : (columns.any fun j => px j y) = true := List.any_eq_true.mpr ⟨x, hcolumn, h⟩
  obtain ⟨l, hl, hl0, hlx⟩ :=
    find?_loop (p := fun i => rows.any fun j => px i j) hcolumn hinColumn
  obtain ⟨r, hr, hrx, hr0⟩ :=
    find?_loop_reverse (p := fun i => rows.any fun j => px i j) hcolumn hinColumn
  obtain ⟨t, ht, ht0, hty⟩ := find?_loop (p := fun i => columns.any fun j => px j i) hrow hinRow
  obtain ⟨b, hb, hby, hb0⟩ :=
    find?_loop_reverse (p := fun i => columns.any fun j => px j i) hrow hinRow
  have hbottom : b ≤ 49 := by
    split at hb0 <;> omega
  have hframe : (getFrame px x y)._l = l ∧ (getFrame px x y)._r = r ∧
      (getFrame px x y)._t = t ∧ (getFrame px x y)._b = b :=
    ⟨congrArg (Option.getD · _) hl, congrArg (Option.getD · _) hr,
      congrArg (Option.getD · _) ht, congrArg (Option.getD · _) hb⟩
  obtain ⟨el, er, et, eb⟩ := hframe
  refine ⟨⟨?_, ?_, ?_, ?_, ?_, ?_⟩, ?_⟩
  · omega
  · omega
  · omega
  · omega
  · omega
  · omega
  · rw [TrackingFrame.contain_iff, el, er, et, eb]
    exact ⟨hlx, hrx, hty, hby⟩

theorem InBitmap.combine {f tf : TrackingFrame} (h : InBitmap f) (h' : InBitmap tf) :
    InBitmap (f.combine tf) where
  left := le_min h'.left h.left
  width := (min_le_right _ _).trans (h.width.trans (le_max_right _ _))
  right := max_le h'.right h.right
  top := le_min h'.top h.top
  height := (min_le_right _ _).trans (h.height.trans (le_max_right _ _))
  bottom := max_le h'.bottom h.bottom

/-- A combined frame contains what either of its parts contains. -/
theorem contain_combine {f tf : TrackingFrame}
    (h : f.contain x y = true ∨ tf.contain x y = true) : (f.combine tf).contain x y = true := by
  simp only [TrackingFrame.contain_iff] at h ⊢
  simp only [TrackingFrame.combine, min_le_iff, le_max_iff]
  omega

theorem InBitmap.resizeFrame {f : TrackingFrame} (h : InBitmap f) : InBitmap f.resizeFrame := by
  obtain ⟨hl, hw, hr, ht, hh, hb⟩ := h
  have hcx : 0 ≤ (f._l + f._r).tdiv 2 ∧ (f._l + f._r).tdiv 2 ≤ 49 := by
    rw [Int.tdiv_eq_ediv_of_nonneg (by omega)]
    omega
  have hcy : 0 ≤ (f._t + f._b).tdiv 2 ∧ (f._t + f._b).tdiv 2 ≤ 49 := by
    rw [Int.tdiv_eq_ediv_of_nonneg (by omega)]
    omega
  simp only [TrackingFrame.resizeFrame]
  constructor
  all_goals
    dsimp only
    split_ifs <;> omega

end Frames

section Scan
variable {px : Bitmap} {lst : List TrackingFrame} {x y : ℤ}

/-- The list lies in the bitmap and covers the white pixels of a region. -/
structure Covering (px : Bitmap) (region : ℤ → ℤ → Prop) (lst : List TrackingFrame) : Prop where
  inside : ∀ f ∈ lst, InBitmap f
  covers : ∀ x y, region x y → px x y = true → inFrame x y lst = true

theorem inFrame_iff : inFrame x y lst = true ↔ ∃ f ∈ lst, f.contain x y = true := List.any_eq_true

theorem mem_modify {α : Type} {g : α → α} {l : List α} {i : ℕ} {a : α} (h : a ∈ l.modify i g) :
    a ∈ l ∨ ∃ b ∈ l, a = g b := by
  obtain ⟨k, hk⟩ := List.mem_iff_getElem?.mp h
  rw [List.getElem?_modify] at hk
  obtain ⟨b, hb, he⟩ := Option.map_eq_some_iff.mp hk
  have hmem := List.mem_of_getElem? hb
  split at he
  · exact .inr ⟨b, hmem, he.symm⟩
  · exact .inl (he ▸ hmem)

/-- A frame is still there after a change, unless it is the one that has been changed. -/
theorem mem_modify_of_mem {α : Type} {l : List α} {a : α} (h : a ∈ l) (g : α → α) (i : ℕ) :
    a ∈ l.modify i g ∨ g a ∈ l.modify i g := by
  obtain ⟨k, hk⟩ := List.mem_iff_getElem?.mp h
  have hg : (l.modify i g)[k]? = some (if i = k then g a else a) := by
    rw [List.getElem?_modify, hk]
    split <;> rfl
  have hmem := List.mem_of_getElem? hg
  split at hmem
  · exact .inr hmem
  · exact .inl hmem

/-- What the scan does at one pixel: it goes on, grows the first frame that the new one
meets, or adds the new one. -/
theorem scan_cases (px : Bitmap) (lst : List TrackingFrame) (x y : ℤ) :
    scan px lst x y = lst ∧ (px x y = true → inFrame x y lst = true) ∨
    px x y = true ∧ ((∃ i, intersectFrame (getFrame px x y) lst = some i ∧ scan px lst x y =
        lst.modify i fun f => remeasure px (f.combine (getFrame px x y))) ∨
      scan px lst x y = lst ++ [getFrame px x y]) := by
  by_cases hpixel : px x y = true
  · by_cases hin : inFrame x y lst = true
    · exact .inl ⟨by simp [scan, hpixel, hin], fun _ => hin⟩
    · refine .inr ⟨hpixel, ?_⟩
      simp only [Bool.not_eq_true] at hin
      simp only [scan, hpixel, hin, Bool.not_false, Bool.and_self, if_true]
      cases intersectFrame (getFrame px x y) lst with
      | none => exact .inr rfl
      | some i => exact .inl ⟨i, rfl, rfl⟩
  · exact .inl ⟨by simp [scan, hpixel], fun h => absurd h hpixel⟩

theorem scan_grows {u v : ℤ} (h : inFrame u v lst = true) :
    inFrame u v (scan px lst x y) = true := by
  obtain ⟨f, hf, hc⟩ := inFrame_iff.mp h
  apply inFrame_iff.mpr
  rcases scan_cases px lst x y with ⟨he, -⟩ | ⟨-, ⟨i, -, he⟩ | he⟩
  · rw [he]
    exact ⟨f, hf, hc⟩
  · rw [he]
    rcases mem_modify_of_mem hf (fun f => remeasure px (f.combine (getFrame px x y))) i with
      hsame | hgrown
    · exact ⟨f, hsame, hc⟩
    · exact ⟨_, hgrown, contain_combine (.inl hc)⟩
  · rw [he]
    exact ⟨f, List.mem_append_left _ hf, hc⟩

theorem scan_inside (h : ∀ f ∈ lst, InBitmap f) (hx : 5 ≤ x ∧ x ≤ 44) (hy : 0 ≤ y ∧ y ≤ 49) :
    ∀ f ∈ scan px lst x y, InBitmap f := by
  intro f hf
  rcases scan_cases px lst x y with ⟨he, -⟩ | ⟨hpixel, ⟨i, -, he⟩ | he⟩
  · exact h f (he ▸ hf)
  · have hnew := (getFrame_covers hx hy hpixel).1
    rw [he] at hf
    rcases mem_modify hf with hold | ⟨g, hg, rfl⟩
    · exact h f hold
    · have hgrown := (h g hg).combine hnew
      exact ⟨hgrown.1, hgrown.2, hgrown.3, hgrown.4, hgrown.5, hgrown.6⟩
  · rw [he] at hf
    rcases List.mem_append.mp hf with hold | hnew
    · exact h f hold
    · rw [List.mem_singleton.mp hnew]
      exact (getFrame_covers hx hy hpixel).1

/-- After its turn a white pixel is covered. -/
theorem scan_covers (hx : 5 ≤ x ∧ x ≤ 44) (hy : 0 ≤ y ∧ y ≤ 49) (h : px x y = true) :
    inFrame x y (scan px lst x y) = true := by
  rcases scan_cases px lst x y with ⟨he, hin⟩ | ⟨-, ⟨i, hi, he⟩ | he⟩
  · rw [he]
    exact hin h
  · have hnew := (getFrame_covers hx hy h).2
    obtain ⟨hlt, -⟩ := List.findIdx?_eq_some_iff_getElem.mp hi
    have hget : (lst.modify i fun f => remeasure px (f.combine (getFrame px x y)))[i]? =
        some (remeasure px ((lst[i]).combine (getFrame px x y))) := by
      rw [List.getElem?_modify, List.getElem?_eq_getElem hlt]
      simp
    rw [he]
    apply inFrame_iff.mpr
    exact ⟨_, List.mem_of_getElem? hget, contain_combine (.inr hnew)⟩
  · rw [he]
    apply inFrame_iff.mpr
    exact ⟨_, List.mem_append_right _ (List.mem_singleton_self _), (getFrame_covers hx hy h).2⟩

theorem Covering.scan {region : ℤ → ℤ → Prop} (h : Covering px region lst)
    (hx : 5 ≤ x ∧ x ≤ 44) (hy : 0 ≤ y ∧ y ≤ 49) :
    Covering px (fun u v => region u v ∨ u = x ∧ v = y) (scan px lst x y) where
  inside := scan_inside h.inside hx hy
  covers := by
    intro u v huv hpixel
    rcases huv with hdone | ⟨rfl, rfl⟩
    · exact scan_grows (h.covers u v hdone hpixel)
    · exact scan_covers hx hy hpixel

/-- One row. -/
theorem Covering.row {region : ℤ → ℤ → Prop} (xs : List ℤ) (hxs : ∀ x ∈ xs, 5 ≤ x ∧ x ≤ 44)
    (hy : 0 ≤ y ∧ y ≤ 49) (h : Covering px region lst) :
    Covering px (fun u v => region u v ∨ u ∈ xs ∧ v = y)
      (xs.foldl (fun lst x => MotionTracking.scan px lst x y) lst) := by
  induction xs generalizing region lst with
  | nil => exact ⟨h.inside, fun u v huv => h.covers u v (huv.resolve_right (by simp))⟩
  | cons x xs ih =>
    have hstep := h.scan (hxs x List.mem_cons_self) hy
    have hrest := ih (fun u hu => hxs u (List.mem_cons_of_mem x hu)) hstep
    refine ⟨hrest.inside, fun u v huv => hrest.covers u v ?_⟩
    rw [List.mem_cons] at huv
    tauto

theorem Covering.rows {region : ℤ → ℤ → Prop} (ys : List ℤ) (hys : ∀ y ∈ ys, 0 ≤ y ∧ y ≤ 49)
    (h : Covering px region lst) :
    Covering px (fun u v => region u v ∨ u ∈ loop 5 45 ∧ v ∈ ys)
      (ys.foldl (fun lst y => (loop 5 45).foldl (fun lst x => MotionTracking.scan px lst x y) lst)
        lst) := by
  induction ys generalizing region lst with
  | nil => exact ⟨h.inside, fun u v huv => h.covers u v (huv.resolve_right (by simp))⟩
  | cons y ys ih =>
    have hcolumns : ∀ x ∈ loop 5 45, 5 ≤ x ∧ x ≤ 44 := by
      intro x hx
      have := mem_loop.mp hx
      omega
    have hrow := h.row _ hcolumns (hys y List.mem_cons_self)
    have hrest := ih (fun v hv => hys v (List.mem_cons_of_mem y hv)) hrow
    refine ⟨hrest.inside, fun u v huv => hrest.covers u v ?_⟩
    rw [List.mem_cons] at huv
    tauto

theorem objects_covering (px : Bitmap) :
    Covering px (fun x y => (5 ≤ x ∧ x ≤ 44) ∧ 0 ≤ y ∧ y ≤ 49) (objects px) := by
  have hrows : ∀ y ∈ loop 0 50, 0 ≤ y ∧ y ≤ 49 := by
    intro y hy
    have := mem_loop.mp hy
    omega
  have hempty : Covering px (fun _ _ => False) [] := ⟨by simp, fun _ _ h => h.elim⟩
  have hall := hempty.rows _ hrows
  refine ⟨hall.inside, fun x y hxy => hall.covers x y (.inr ?_)⟩
  rw [mem_loop, mem_loop]
  omega

end Scan

/-! ## The reads lie in the bitmap -/

/-- An index of `mPixelsBuffer`. -/
def IsPixel (i : ℤ) : Prop := 0 ≤ i ∧ i < 2500

section Within
variable (px : Bitmap)

theorem readPixel_within {x y : ℤ} (hx : 0 ≤ x ∧ x ≤ 49) (hy : 0 ≤ y ∧ y ≤ 49) :
    (readPixel px x y).Within IsPixel :=
  within_read ⟨by omega, by omega⟩ _

theorem readFrameArea_within {tf : TrackingFrame} (h : InBitmap tf) :
    (readFrameArea px tf).Within IsPixel := by
  refine within_foldlM (fun _ => True) (fun _ _ _ _ => trivial) ?_ trivial
  intro n _ x hx
  refine within_foldlM (fun _ => True) (fun _ _ _ _ => trivial) ?_ trivial
  intro n _ y hy
  have hcolumn := mem_loop.mp hx
  have hrow := mem_loop.mp hy
  have hl := h.left
  have hr := h.right
  have ht := h.top
  have hb := h.bottom
  refine (readPixel_within px (by omega) (by omega)).bind ?_
  split
  · exact within_pure _
  · exact within_pure _

theorem readRemeasure_within {tf : TrackingFrame} (h : InBitmap tf) :
    (readRemeasure px tf).Within IsPixel :=
  (readFrameArea_within px h).bind (within_pure _)

theorem InBitmap.of_bounds {f g : TrackingFrame} (h : InBitmap f)
    (he : (g._l, g._r, g._t, g._b) = (f._l, f._r, f._t, f._b)) : InBitmap g := by
  simp only [Prod.mk.injEq] at he
  obtain ⟨hl, hr, ht, hb⟩ := he
  exact ⟨hl ▸ h.left, hl ▸ hr ▸ h.width, hr ▸ h.right, ht ▸ h.top, ht ▸ hb ▸ h.height,
    hb ▸ h.bottom⟩

variable {px} {x y : ℤ}

theorem readFrame_within (hx : 5 ≤ x ∧ x ≤ 44) (hy : 0 ≤ y ∧ y ≤ 49) (h : px x y = true) :
    (readFrame px x y).Within IsPixel := by
  have hcell : ∀ i ∈ loop (x - 5) (x + 5), ∀ j ∈ loop y (if y + 10 > 50 then 50 else y + 10),
      (readPixel px i j).Within IsPixel := by
    intro i hi j hj
    have hcolumn := mem_loop.mp hi
    have hrow := mem_loop.mp hj
    split at hrow <;> exact readPixel_within px (by omega) (by omega)
  have hframe := (getFrame_covers hx hy h).1
  refine (within_findM? fun i hi => within_anyM fun j hj => ?_).bind ?_
  · exact hcell i hi j hj
  refine (within_findM? fun i hi => within_anyM fun j hj => ?_).bind ?_
  · exact hcell i (List.mem_reverse.mp hi) j hj
  refine (within_findM? fun j hj => within_anyM fun i hi => ?_).bind ?_
  · exact hcell i hi j hj
  refine (within_findM? fun j hj => within_anyM fun i hi => ?_).bind ?_
  · exact hcell i hi j (List.mem_reverse.mp hj)
  apply readRemeasure_within px
  apply hframe.of_bounds
  simp only [value_findM?, value_anyM]
  rfl

variable {lst : List TrackingFrame}

theorem readScan_within (hin : ∀ f ∈ lst, InBitmap f) (hx : 5 ≤ x ∧ x ≤ 44)
    (hy : 0 ≤ y ∧ y ≤ 49) : (readScan px lst x y).Within IsPixel := by
  unfold readScan
  split
  · rename_i hscan
    have hpixel : px x y = true := (Bool.and_eq_true_iff.mp hscan).1
    refine (readFrame_within hx hy hpixel).bind ?_
    rw [value_readFrame]
    cases hi : intersectFrame (getFrame px x y) lst with
    | none => exact within_pure _
    | some i =>
      obtain ⟨hlt, -⟩ := List.findIdx?_eq_some_iff_getElem.mp hi
      have hold : InBitmap (lst.getD i (getFrame px x y)) := by
        rw [List.getD_eq_getElem?_getD, List.getElem?_eq_getElem hlt]
        exact hin _ (List.getElem_mem hlt)
      exact (readRemeasure_within px (hold.combine (getFrame_covers hx hy hpixel).1)).bind
        (within_pure _)
  · exact within_pure _

theorem readObjects_within (px : Bitmap) : (readObjects px).Within IsPixel := by
  have hrows : ∀ y ∈ loop 0 50, 0 ≤ y ∧ y ≤ 49 := by
    intro y hy
    have := mem_loop.mp hy
    omega
  have hcolumns : ∀ x ∈ loop 5 45, 5 ≤ x ∧ x ≤ 44 := by
    intro x hx
    have := mem_loop.mp hx
    omega
  refine within_foldlM (fun lst : List TrackingFrame => ∀ f ∈ lst, InBitmap f) ?_ ?_ ?_
  · intro lst hlst y hy
    have hstart : Covering px (fun _ _ => False) lst := ⟨hlst, fun _ _ h => h.elim⟩
    simp only [value_foldlM, value_readScan]
    exact (hstart.row _ hcolumns (hrows y hy)).inside
  · intro lst hlst y hy
    refine within_foldlM (fun lst : List TrackingFrame => ∀ f ∈ lst, InBitmap f) ?_ ?_ hlst
    · intro lst hlst x hx
      rw [value_readScan]
      exact scan_inside hlst (hcolumns x hx) (hrows y hy)
    · intro lst hlst x hx
      exact readScan_within hlst (hcolumns x hx) (hrows y hy)
  · intro f hf
    cases hf

theorem readMatch_within (s : GPUMotionTracking) {o : TrackingFrame} (h : InBitmap o) :
    (readMatch px s o).Within IsPixel := by
  have hmoved : ∀ f : TrackingFrame, InBitmap (f.updatefrom o.resizeFrame) :=
    fun f => h.resizeFrame.of_bounds rfl
  unfold readMatch
  dsimp only
  split
  · cases intersectFrame o.resizeFrame s.mTrackingFrame with
    | none => exact (readRemeasure_within px (hmoved _)).bind (within_pure _)
    | some i => exact (readRemeasure_within px (hmoved _)).bind (within_pure _)
  · exact within_pure _

theorem readDetect_within (px : Bitmap) (s : GPUMotionTracking) :
    (readDetect px s).Within IsPixel := by
  refine (readObjects_within px).bind ?_
  rw [value_readObjects]
  refine within_foldlM (fun _ => True) (fun _ _ _ _ => trivial) ?_ trivial
  intro s _ o ho
  exact readMatch_within s ((objects_covering px).inside o (List.mem_reverse.mp ho))

end Within

/-- After the scan each white pixel of the scanned columns is in one of the frames, the
frames lie in the bitmap, and no pixel outside it is read. -/
theorem motion_covered (px : Bitmap) :
    (∀ x y, 5 ≤ x → x ≤ 44 → 0 ≤ y → y ≤ 49 → px x y = true →
      ∃ f ∈ (readObjects px).value, f.contain x y = true) ∧
    (∀ f ∈ (readObjects px).value, 0 ≤ f._l ∧ f._l ≤ f._r ∧ f._r ≤ 49 ∧
      0 ≤ f._t ∧ f._t ≤ f._b ∧ f._b ≤ 49) ∧
    ∀ s : GPUMotionTracking, ∀ i ∈ (readDetect px s).accesses, 0 ≤ i ∧ i < 2500 := by
  have hall := objects_covering px
  rw [value_readObjects]
  refine ⟨?_, ?_, ?_⟩
  · intro x y hx hx' hy hy' hpixel
    exact inFrame_iff.mp (hall.covers x y ⟨⟨hx, hx'⟩, hy, hy'⟩ hpixel)
  · intro f hf
    have h := hall.inside f hf
    exact ⟨h.left, h.width, h.right, h.top, h.height, h.bottom⟩
  · intro s i hi
    exact readDetect_within px s i hi

end Jagles.MotionTracking
