import Jagles.CircleDetection

set_option autoImplicit false
set_option linter.dupNamespace false

/-!
# Cropping a fisheye picture (`JAPlayer::TestCircRound`, `DoScale`, `SetCropInfo`)

The player scans a picture like the live view does, and rounds the size of the crop up to
even numbers. `GLES_V2_DetectCrop` scans more columns, and `SetCropInfo` puts the border of
the picture where it takes a scan to have found nothing.
-/
namespace Jagles.CropDetection
open EdgeScans CircleDetection

/-! ## The player -/

structure JAPlayer where
  mCropLeft : ℤ
  mCropRight : ℤ
  mCropTop : ℤ
  mCropBottom : ℤ
  mCropWidth : ℤ
  mCropHeight : ℤ
  deriving DecidableEq

/-- `if (n % 2) n += 1` -/
def roundUp (n : ℤ) : ℤ := if n.tmod 2 ≠ 0 then n + 1 else n

namespace JAPlayer

/-- `TestCircRound`, for a picture of `mVideoWidth` times `mVideoHeight` pixels. -/
def testCircRound (f : AVFrame) (opt : UInt8) : Bounds :=
  ⟨f.minx opt, f.maxx opt, f.miny opt, f.maxy opt⟩

/-- The crop that `DoScale` uses for the luma plane of a fisheye picture. It is looked for as
long as there is none. -/
def doScale (s : JAPlayer) (f : AVFrame) : JAPlayer :=
  if s.mCropWidth = 0 ∧ s.mCropHeight = 0 then
    let b := testCircRound f 80
    { mCropLeft := b.left
      mCropRight := b.right
      mCropTop := b.top
      mCropBottom := b.bottom
      mCropWidth := roundUp (b.right - b.left)
      mCropHeight := roundUp (b.bottom - b.top) }
  else s

/-- The crop has an inside, its sides are even, and it lies in the picture. -/
structure InFrame (s : JAPlayer) (width height : ℤ) : Prop where
  size : 0 < s.mCropWidth ∧ 0 < s.mCropHeight
  even : Even s.mCropWidth ∧ Even s.mCropHeight
  horizontal : 0 ≤ s.mCropLeft ∧ s.mCropLeft + s.mCropWidth ≤ width
  vertical : 0 ≤ s.mCropTop ∧ s.mCropTop + s.mCropHeight ≤ height

end JAPlayer

/-! ## The live view -/

section Crop
variable (f : AVFrame) (value : UInt8)

/-- The columns `width / 3` to `width * 2 / 3`. -/
def cropColumns : List ℕ := List.range' (f.width / 3) (f.width * 2 / 3 - f.width / 3)

def cropMiny : ℕ :=
  scan (· < ·) (cropColumns f)
    (fun x => (List.range f.height).find? fun y => f.dbuf value x y) f.height

def cropMaxy : ℕ :=
  scan (· > ·) (cropColumns f)
    (fun x => (List.range' 1 (f.height - 1)).reverse.find? fun y => f.dbuf value x y) 0

/-- `GLES_V2_DetectCrop` -/
def detectCrop : Bounds := ⟨f.minx value, f.maxx value, cropMiny f value, cropMaxy f value⟩

/-- `SetCropInfo`, for the gray plane of the pixels that are read. -/
def setCropInfo : Bounds :=
  let r := detectCrop f 130
  { left := if r.left ≥ (f.width : ℤ) - 1 then 0 else r.left
    right := if r.right = 0 then f.width else r.right
    top := if r.top ≥ f.height then 0 else r.top
    bottom := if r.bottom = 0 then f.height else r.bottom }

/-- A row with a bright pixel in these columns. -/
def CropRow (y : ℕ) : Prop :=
  y < f.height ∧ ∃ x, f.width / 3 ≤ x ∧ x < f.width * 2 / 3 ∧ f.dbuf value x y = true

end Crop

/-- `0 ≤ l < r ≤ w` and `0 ≤ t < b ≤ h`. -/
structure Proper (b : Bounds) (width height : ℤ) : Prop where
  horizontal : 0 ≤ b.left ∧ b.left < b.right ∧ b.right ≤ width
  vertical : 0 ≤ b.top ∧ b.top < b.bottom ∧ b.bottom ≤ height

/-! ## Edges in order -/

theorem roundUp_spec (n : ℤ) : n ≤ roundUp n ∧ roundUp n ≤ n + 1 ∧ Even (roundUp n) := by
  unfold roundUp
  have h := Int.mul_tdiv_add_tmod n 2
  have hlt := Int.tmod_lt_of_pos n two_pos
  have hgt := Int.lt_tmod_of_pos n two_pos
  split_ifs with hodd
  · refine ⟨by omega, le_rfl, ?_⟩
    rw [Int.even_iff]
    omega
  · refine ⟨le_rfl, by omega, ?_⟩
    rw [Int.even_iff]
    omega

section Edges
variable {P Q : ℕ → Prop} {first last m n : ℕ}

/-- The edges are in order exactly when two values are, if what the first scan starts with is
not in front of any value. -/
theorem edges_lt_iff (hm : EdgeOf (· < ·) first P m) (hn : EdgeOf (· > ·) 0 Q n)
    (hfirst : ∀ x, Q x → x ≤ first) : m < n ↔ ∃ x y, x < y ∧ P x ∧ Q y := by
  constructor
  · intro hlt
    have hQ : Q n := hn.attained.resolve_left (by omega)
    have hP : P m := hm.attained.resolve_left (by have := hfirst n hQ; omega)
    exact ⟨m, n, hlt, hP, hQ⟩
  · rintro ⟨x, y, hlt, hx, hy⟩
    have hleft := hm.best x hx
    have hright := hn.best y hy
    omega

end Edges

section Scans
variable {f : AVFrame} {value : UInt8}

theorem mem_cropColumns {x : ℕ} :
    x ∈ cropColumns f ↔ f.width / 3 ≤ x ∧ x < f.width * 2 / 3 := by
  rw [cropColumns, List.mem_range'_1]
  omega

theorem cropMiny_edgeOf (f : AVFrame) (value : UInt8) :
    EdgeOf (· < ·) f.height (CropRow f value) (cropMiny f value) :=
  (firstRow_edgeOf f value (cropColumns f)).congr fun y => by
    simp only [mem_cropColumns, CropRow, and_assoc]

theorem cropMaxy_edgeOf (f : AVFrame) (value : UInt8) :
    EdgeOf (· > ·) 0 (CropRow f value) (cropMaxy f value) :=
  (lastRow_edgeOf f value (cropColumns f)).congr fun y => by
    simp only [mem_cropColumns, CropRow, and_assoc]

end Scans

/-! ## When the crop is in the picture -/

/-- Two columns, the first one from column 10 on, are bright in the middle rows, and two rows
in the columns that are scanned. -/
def TwoEdges (f : AVFrame) (opt : UInt8) : Prop :=
  (∃ x x', x < x' ∧ (10 ≤ x ∧ BrightColumn f opt x) ∧ BrightColumn f opt x') ∧
    ∃ y y', y < y' ∧ BrightRow f opt y ∧ BrightRow f opt y'

/-- A single column from column 10 on is bright, and it is not the last one, or a single row
is, and it is not the first one. -/
def SingleEdge (f : AVFrame) (value : UInt8) : Prop :=
  (∃ x, x ≠ f.width - 1 ∧ (10 ≤ x ∧ BrightColumn f value x) ∧
    ∀ x', 10 ≤ x' ∧ BrightColumn f value x' → x' = x) ∨
  ∃ y, y ≠ 0 ∧ CropRow f value y ∧ ∀ y', CropRow f value y' → y' = y

/-- The crop between four edges of a picture that are not behind its border. -/
theorem inFrame_iff {l r t b : ℕ} {width height : ℤ} (hr : (r : ℤ) < width)
    (hb : (b : ℤ) < height) :
    JAPlayer.InFrame ⟨l, r, t, b, roundUp (r - l), roundUp (b - t)⟩ width height ↔
      l < r ∧ t < b := by
  obtain ⟨hwlow, hwhigh, hweven⟩ := roundUp_spec (r - l)
  obtain ⟨hhlow, hhhigh, hheven⟩ := roundUp_spec (b - t)
  have hwsign := Int.even_iff.mp hweven
  have hhsign := Int.even_iff.mp hheven
  constructor
  · rintro ⟨⟨hw, hh⟩, -, -, -⟩
    dsimp only at hw hh
    omega
  · rintro ⟨hl, ht⟩
    exact ⟨⟨by dsimp only; omega, by dsimp only; omega⟩, ⟨hweven, hheven⟩,
      ⟨by dsimp only; omega, by dsimp only; omega⟩, by dsimp only; omega, by dsimp only; omega⟩

theorem maxx_lt {f : AVFrame} (opt : UInt8) (hwidth : 12 ≤ f.width) : f.maxx opt < f.width := by
  rcases (maxx_edgeOf f opt).attained with h | h
  · omega
  · exact h.1

theorem maxy_lt {f : AVFrame} (opt : UInt8) (hheight : 3 ≤ f.height) :
    f.maxy opt < f.height := by
  rcases (maxy_edgeOf f opt).attained with h | h
  · omega
  · exact h.1

theorem doScale_inFrame_iff {s : JAPlayer} {f : AVFrame} (hwidth : 12 ≤ f.width)
    (hheight : 3 ≤ f.height) (hnone : s.mCropWidth = 0 ∧ s.mCropHeight = 0) :
    (s.doScale f).InFrame f.width f.height ↔ TwoEdges f 80 := by
  have hcolumns : f.minx 80 < f.maxx 80 ↔ _ :=
    edges_lt_iff (minx_edgeOf f 80) (maxx_edgeOf f 80) fun x hx => Nat.le_sub_one_of_lt hx.1
  have hrows : f.miny 80 < f.maxy 80 ↔ _ :=
    edges_lt_iff (miny_edgeOf f 80) (maxy_edgeOf f 80) fun y hy => hy.1.le
  have hr := maxx_lt 80 hwidth
  have hb := maxy_lt 80 hheight
  rw [JAPlayer.doScale, if_pos hnone, TwoEdges, ← hcolumns, ← hrows]
  exact inFrame_iff (by omega) (by omega)

/-- The edges that `SetCropInfo` uses on an axis, with the border of the picture for those that
the scans seem not to have found: they are in order unless there is a single value, which is
neither of the two that the scans start with. -/
theorem fixed_iff (size : ℕ) {P Q : ℕ → Prop} {first m n : ℕ} (hm : EdgeOf (· < ·) first P m)
    (hn : EdgeOf (· > ·) 0 Q n) (hPQ : ∀ x, P x → Q x) (hup : ∀ x y, P x → x ≤ y → Q y → P y)
    (hfirst : ∀ x, P x → x ≤ first) (hn_le : n ≤ size) (hsize : 0 < size) :
    ((0 : ℤ) ≤ (if (m : ℤ) ≥ first then 0 else (m : ℤ)) ∧
      (if (m : ℤ) ≥ first then 0 else (m : ℤ)) < (if (n : ℤ) = 0 then (size : ℤ) else n) ∧
      (if (n : ℤ) = 0 then (size : ℤ) else n) ≤ size) ↔
      ¬ ∃ x, x ≠ first ∧ x ≠ 0 ∧ P x ∧ ∀ x', P x' → x' = x := by
  by_cases hfound : ∃ x, P x
  · obtain ⟨x, hx⟩ := hfound
    have hleast := hm.isLeast hx (hfirst x hx)
    have hgreatest := hn.isGreatest (hPQ x hx) (Nat.zero_le x)
    have hle : m ≤ n := hgreatest.2 (hPQ m hleast.1)
    have hlast : P n := hup m n hleast.1 hle hgreatest.1
    have hmfirst := hfirst m hleast.1
    by_cases hsingle : m = n
    · subst hsingle
      have honly : ∀ x', P x' → x' = m := fun x' hx' =>
        le_antisymm (hgreatest.2 (hPQ x' hx')) (hleast.2 hx')
      constructor
      · rintro ⟨-, hlt, -⟩ ⟨y, hyfirst, hyzero, hy, -⟩
        obtain rfl := honly y hy
        rw [if_neg (by omega), if_neg (by omega)] at hlt
        exact lt_irrefl _ hlt
      · intro hnot
        have hend : m = first ∨ m = 0 := by
          by_contra hne
          rw [not_or] at hne
          exact hnot ⟨m, hne.1, hne.2, hleast.1, honly⟩
        split_ifs <;> omega
    · refine iff_of_true (by split_ifs <;> omega) ?_
      rintro ⟨y, -, -, -, honly⟩
      exact hsingle ((honly m hleast.1).trans (honly n hlast).symm)
  · have hstart : m = first := hm.attained.resolve_right fun h => hfound ⟨m, h⟩
    refine iff_of_true (by split_ifs <;> omega) ?_
    rintro ⟨y, -, -, hy, -⟩
    exact hfound ⟨y, hy⟩

theorem cropMaxy_le (f : AVFrame) (value : UInt8) : cropMaxy f value ≤ f.height := by
  rcases (cropMaxy_edgeOf f value).attained with h | h
  · omega
  · exact h.1.le

theorem setCropInfo_proper_iff {f : AVFrame} (hwidth : 12 ≤ f.width) (hheight : 3 ≤ f.height) :
    Proper (setCropInfo f) f.width f.height ↔ ¬ SingleEdge f 130 := by
  have hx := fixed_iff f.width (minx_edgeOf f 130) (maxx_edgeOf f 130)
    (fun x h => h.2) (fun x y h hle hy => ⟨h.1.trans hle, hy⟩)
    (fun x h => Nat.le_sub_one_of_lt h.2.1) (maxx_lt 130 hwidth).le (by omega)
  have hy := fixed_iff f.height (cropMiny_edgeOf f 130) (cropMaxy_edgeOf f 130)
    (fun y h => h) (fun y y' _ _ hy' => hy') (fun y h => h.1.le) (cropMaxy_le f 130) (by omega)
  have hborder : ((f.width - 1 : ℕ) : ℤ) = f.width - 1 := by omega
  have hcolumn : (∃ x, x ≠ f.width - 1 ∧ x ≠ 0 ∧ (10 ≤ x ∧ BrightColumn f 130 x) ∧
      ∀ x', 10 ≤ x' ∧ BrightColumn f 130 x' → x' = x) ↔
      ∃ x, x ≠ f.width - 1 ∧ (10 ≤ x ∧ BrightColumn f 130 x) ∧
        ∀ x', 10 ≤ x' ∧ BrightColumn f 130 x' → x' = x := by
    refine exists_congr fun x => and_congr_right fun _ => ?_
    exact and_iff_right_of_imp fun h => by have := h.1.1; omega
  have hrow : (∃ y, y ≠ f.height ∧ y ≠ 0 ∧ CropRow f 130 y ∧
      ∀ y', CropRow f 130 y' → y' = y) ↔
      ∃ y, y ≠ 0 ∧ CropRow f 130 y ∧ ∀ y', CropRow f 130 y' → y' = y := by
    refine exists_congr fun y => and_iff_right_of_imp fun h => ?_
    exact h.2.1.1.ne
  rw [hborder, hcolumn] at hx
  rw [hrow] at hy
  rw [SingleEdge, not_or, ← hx, ← hy]
  exact ⟨fun h => ⟨h.horizontal, h.vertical⟩, fun h => ⟨h.1, h.2⟩⟩

/-- The player's crop is in the picture exactly when both scans find two edges, and the crop of
the live view exactly when neither scan finds a single one. -/
theorem crop_inFrame_iff (s : JAPlayer) (f : AVFrame) (hwidth : 12 ≤ f.width)
    (hheight : 3 ≤ f.height) (hnone : s.mCropWidth = 0 ∧ s.mCropHeight = 0) :
    ((s.doScale f).InFrame f.width f.height ↔ TwoEdges f 80) ∧
      (Proper (setCropInfo f) f.width f.height ↔ ¬ SingleEdge f 130) :=
  ⟨doScale_inFrame_iff hwidth hheight hnone, setCropInfo_proper_iff hwidth hheight⟩

/-- The player before the first picture. -/
def noCrop : JAPlayer := ⟨0, 0, 0, 0, 0, 0⟩

theorem crop_inFrame_bright :
    (noCrop.doScale (plain 100 100 255)).InFrame 100 100 ∧
      Proper (setCropInfo (plain 100 100 255)) 100 100 := by
  have hcolumn : ∀ x, x < 100 → ∀ opt < 255, BrightColumn (plain 100 100 255) opt x :=
    fun x hx opt hopt => ⟨hx, 33, by decide, by decide, decide_eq_true hopt⟩
  have h := crop_inFrame_iff noCrop (plain 100 100 255) (by decide) (by decide) ⟨rfl, rfl⟩
  refine ⟨h.1.mpr ⟨⟨10, 11, by decide, ⟨le_rfl, hcolumn 10 (by decide) 80 (by decide)⟩,
      hcolumn 11 (by decide) 80 (by decide)⟩, 0, 1, one_pos,
      ⟨by decide, 33, by decide, by decide, by decide⟩,
      ⟨by decide, 33, by decide, by decide, by decide⟩⟩, h.2.mpr ?_⟩
  rintro (⟨x, -, -, honly⟩ | ⟨y, -, -, honly⟩)
  · have h10 := honly 10 ⟨le_rfl, hcolumn 10 (by decide) 130 (by decide)⟩
    have h11 := honly 11 ⟨by decide, hcolumn 11 (by decide) 130 (by decide)⟩
    omega
  · have h0 := honly 0 ⟨by decide, 33, by decide, by decide, by decide⟩
    have h1 := honly 1 ⟨by decide, 33, by decide, by decide, by decide⟩
    omega

/-- A dark picture has no edges, and the crop of the player has a negative size. -/
theorem doScale_dark : ¬ (noCrop.doScale (plain 640 480 0)).InFrame 640 480 := by
  have hdark : ∀ x, ¬ BrightColumn (plain 640 480 0) 80 x := by
    rintro x ⟨-, y, -, -, hbright⟩
    simp [AVFrame.dbuf, plain] at hbright
  intro h
  obtain ⟨⟨x, x', -, -, hx'⟩, -⟩ :=
    (doScale_inFrame_iff (f := plain 640 480 0) (by decide) (by decide) ⟨rfl, rfl⟩).mp h
  exact hdark x' hx'

end Jagles.CropDetection
