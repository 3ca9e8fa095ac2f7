import Jagles.EdgeScans
import Jagles.FloatSigns

set_option autoImplicit false
set_option linter.dupNamespace false

/-!
# Detecting the circle of a fisheye picture (`TestCircRound`, `DetectCircleData`)

The left and right edges of the circle are looked for in the middle third of the rows, the
top and bottom edges in columns left of the middle. Floats are those of the language.
-/
namespace Jagles.CircleDetection
open EdgeScans FloatSigns Float.Model

/-- A decoded picture: the luma plane has `linesize` bytes a row. -/
structure AVFrame where
  width : ℕ
  height : ℕ
  linesize : ℕ
  data : ℕ → UInt8

/-- `dbuf[y * width + x] == 1`: the pixel is brighter than the threshold. -/
def AVFrame.dbuf (f : AVFrame) (opt : UInt8) (x y : ℕ) : Bool := f.data (y * f.linesize + x) > opt

structure JAMedia where
  mRadius : ℤ
  mCenterX : ℤ
  mCenterY : ℤ
  deriving DecidableEq

structure Bounds where
  left : ℤ
  right : ℤ
  top : ℤ
  bottom : ℤ
  deriving DecidableEq

/-! ## The tests of `DetectCircleData` -/

/-- An `int` as a `float`. -/
def toFloat (n : ℤ) : UnpackedFloat := UnpackedFloat.ofInt Format.binary32 n

/-- A `float` as a `double`. -/
def toDouble (x : UnpackedFloat) : UnpackedFloat := convert Format.binary64 x

/-- `lcut > 1.30`, where `lcut = lw / lh`. -/
def isWide (lw lh : ℤ) : Bool :=
  UnpackedFloat.lt (UnpackedFloat.ofScientific Format.binary64 130 (-2))
    (toDouble (UnpackedFloat.div Format.binary32 (toFloat lw) (toFloat lh)))

/-- `lw < height`. -/
def isNarrower (lw height : ℤ) : Bool := UnpackedFloat.lt (toFloat lw) (toFloat height)

/-- `l < (float) height * 0.7`. -/
def isSmall (l height : ℤ) : Bool :=
  UnpackedFloat.lt (toDouble (toFloat l))
    (UnpackedFloat.mul Format.binary64 (toDouble (toFloat height))
      (UnpackedFloat.ofScientific Format.binary64 7 (-1)))

/-- The middle of the picture, which has the picture's height but for 50 rows on each
side. -/
def middleSquare (height width : ℤ) : Bounds :=
  let lhalfw := width.tdiv 2
  let lhalfh := height.tdiv 2
  let lhalf := lhalfw - lhalfh
  ⟨lhalf + 50, width - lhalf - 50, 50, height - 50⟩

def detectCircleData (b : Bounds) (height width : ℤ) : Bounds :=
  let lw := b.right - b.left
  let lh := b.bottom - b.top
  let b := if isWide lw lh then
      if isNarrower lw height then middleSquare height width
      else { b with top := 0, bottom := height - 1 }
    else b
  if isSmall lw height || isSmall lh height then
    if height = 720 ∨ height = 1080 then ⟨100, width - 100, 0, height - 1⟩
    else middleSquare height width
  else b

/-! ## The scans of `TestCircRound` -/

section Scans
variable (f : AVFrame) (opt : UInt8)

/-- The rows `height / 3` to `height * 2 / 3`. -/
def AVFrame.middleRows : List ℕ :=
  List.range' (f.height / 3) (f.height * 2 / 3 - f.height / 3)

/-- The columns `width / 3` to `width / 2`. -/
def AVFrame.middleColumns : List ℕ :=
  List.range' (f.width / 3) (f.width / 2 - f.width / 3)

def AVFrame.minx : ℕ :=
  scan (· < ·) f.middleRows
    (fun y => (List.range' 10 (f.width - 10)).find? fun x => f.dbuf opt x y) (f.width - 1)

def AVFrame.maxx : ℕ :=
  scan (· > ·) f.middleRows
    (fun y => (List.range f.width).reverse.find? fun x => f.dbuf opt x y) 0

def AVFrame.miny : ℕ :=
  scan (· < ·) f.middleColumns
    (fun x => (List.range f.height).find? fun y => f.dbuf opt x y) f.height

def AVFrame.maxy : ℕ :=
  scan (· > ·) f.middleColumns
    (fun x => (List.range' 1 (f.height - 1)).reverse.find? fun y => f.dbuf opt x y) 0

end Scans

/-- `TestCircRound`: what it leaves in the fields of the circle, and the bounds it gives. -/
def JAMedia.testCircRound (s : JAMedia) (f : AVFrame) (opt : UInt8) : JAMedia × Bounds :=
  if s.mRadius ≠ 0 then
    (s, ⟨max (s.mCenterX - s.mRadius) 0, min (s.mCenterX + s.mRadius) f.width,
      max (s.mCenterY - s.mRadius) 0, min (s.mCenterY + s.mRadius) f.height⟩)
  else
    let b : Bounds := ⟨f.minx opt, f.maxx opt, f.miny opt, f.maxy opt⟩
    let mRadius := (b.right - b.left).tdiv 2
    let t : JAMedia :=
      { mRadius
        mCenterX := b.left + mRadius
        mCenterY := b.top + (b.bottom - b.top).tdiv 2 }
    (t, detectCircleData b f.height f.width)

/-! ## The edges of the bright pixels -/

/-- A column with a bright pixel in the middle rows. -/
def BrightColumn (f : AVFrame) (opt : UInt8) (x : ℕ) : Prop :=
  x < f.width ∧ ∃ y, f.height / 3 ≤ y ∧ y < f.height * 2 / 3 ∧ f.dbuf opt x y = true

/-- A row with a bright pixel in the middle columns. -/
def BrightRow (f : AVFrame) (opt : UInt8) (y : ℕ) : Prop :=
  y < f.height ∧ ∃ x, f.width / 3 ≤ x ∧ x < f.width / 2 ∧ f.dbuf opt x y = true

/-- The first bright column from column 10 on and the last one, and the first and the last
bright row, which are the height and 0 when there is none. -/
structure Edges (f : AVFrame) (opt : UInt8) (l r t b : ℕ) : Prop where
  left : IsLeast {x | 10 ≤ x ∧ BrightColumn f opt x} l
  right : IsGreatest {x | BrightColumn f opt x} r
  vertical : IsLeast {y | BrightRow f opt y} t ∧ IsGreatest {y | BrightRow f opt y} b ∨
    (∀ y, ¬ BrightRow f opt y) ∧ t = f.height ∧ b = 0

/-- The fixed crop for bright pixels `lw` wide and `lh` high fits the picture, if one is
taken. -/
def CropFits (lw lh height width : ℤ) : Prop :=
  if isSmall lw height || isSmall lh height then
    if height = 720 ∨ height = 1080 then 200 ≤ width
    else 100 ≤ height ∧ height / 2 ≤ width / 2 + 50
  else isWide lw lh = true → isNarrower lw height = true →
    100 ≤ height ∧ height / 2 ≤ width / 2 + 50

/-- The circle is not found, or it is in the picture, and so are the bounds. -/
structure InFrame (t : JAMedia) (b : Bounds) (height width : ℤ) : Prop where
  circle : t.mRadius = 0 ∨ 0 < t.mRadius ∧ 0 ≤ t.mCenterX ∧ t.mCenterX < width ∧
    0 ≤ t.mCenterY ∧ t.mCenterY < height
  horizontal : 0 ≤ b.left ∧ b.left ≤ b.right ∧ b.right ≤ width
  vertical : 0 ≤ b.top ∧ b.top ≤ b.bottom ∧ b.bottom ≤ height

section Edges
variable {f : AVFrame} {opt : UInt8}

theorem mem_middleRows {y : ℕ} :
    y ∈ f.middleRows ↔ f.height / 3 ≤ y ∧ y < f.height * 2 / 3 := by
  rw [AVFrame.middleRows, List.mem_range'_1]
  omega

theorem mem_middleColumns {x : ℕ} :
    x ∈ f.middleColumns ↔ f.width / 3 ≤ x ∧ x < f.width / 2 := by
  rw [AVFrame.middleColumns, List.mem_range'_1]
  omega

theorem minx_edgeOf (f : AVFrame) (opt : UInt8) :
    EdgeOf (· < ·) (f.width - 1) (fun x => 10 ≤ x ∧ BrightColumn f opt x) (f.minx opt) := by
  refine (scan_find?_edgeOf _ _ (List.pairwise_lt_range' ..) (fun y x => f.dbuf opt x y) _).congr ?_
  intro x
  simp only [List.mem_range'_1, mem_middleRows, BrightColumn, and_assoc]
  constructor
  · rintro ⟨hlow, hhigh, hbright⟩
    exact ⟨hlow, by omega, hbright⟩
  · rintro ⟨hlow, hhigh, hbright⟩
    exact ⟨hlow, by omega, hbright⟩

theorem maxx_edgeOf (f : AVFrame) (opt : UInt8) :
    EdgeOf (· > ·) 0 (BrightColumn f opt) (f.maxx opt) := by
  refine (scan_find?_edgeOf _ _ (List.pairwise_reverse.mpr List.pairwise_lt_range)
    (fun y x => f.dbuf opt x y) _).congr ?_
  intro x
  simp only [List.mem_reverse, List.mem_range, mem_middleRows, BrightColumn, and_assoc]

/-- The first row with a bright pixel in some columns. -/
theorem firstRow_edgeOf (f : AVFrame) (opt : UInt8) (columns : List ℕ) :
    EdgeOf (· < ·) f.height (fun y => y < f.height ∧ ∃ x ∈ columns, f.dbuf opt x y = true)
      (scan (· < ·) columns
        (fun x => (List.range f.height).find? fun y => f.dbuf opt x y) f.height) := by
  refine (scan_find?_edgeOf _ _ List.pairwise_lt_range (fun x y => f.dbuf opt x y) _).congr ?_
  intro y
  simp only [List.mem_range]

/-- The last row with a bright pixel in some columns. Row 0 is not scanned; it is where the
scan starts. -/
theorem lastRow_edgeOf (f : AVFrame) (opt : UInt8) (columns : List ℕ) :
    EdgeOf (· > ·) 0 (fun y => y < f.height ∧ ∃ x ∈ columns, f.dbuf opt x y = true)
      (scan (· > ·) columns
        (fun x => (List.range' 1 (f.height - 1)).reverse.find? fun y => f.dbuf opt x y) 0) := by
  have h := scan_find?_edgeOf (R := (· > ·)) columns
    (List.range' 1 (f.height - 1)).reverse (List.pairwise_reverse.mpr (List.pairwise_lt_range' ..))
    (fun x y => f.dbuf opt x y) 0
  have hvalues : ∀ y, (y ∈ (List.range' 1 (f.height - 1)).reverse ∧
      ∃ x ∈ columns, f.dbuf opt x y = true) ↔
      1 ≤ y ∧ y < f.height ∧ ∃ x ∈ columns, f.dbuf opt x y = true := by
    intro y
    simp only [List.mem_reverse, List.mem_range'_1]
    constructor
    · rintro ⟨⟨hlow, hhigh⟩, hbright⟩
      exact ⟨hlow, by omega, hbright⟩
    · rintro ⟨hlow, hhigh, hbright⟩
      exact ⟨⟨hlow, by omega⟩, hbright⟩
  have h := h.congr hvalues
  refine ⟨h.start, fun y hy hgt => ?_, h.attained.imp_right And.right⟩
  exact h.best y ⟨Nat.one_le_of_lt hgt, hy⟩ hgt

theorem miny_edgeOf (f : AVFrame) (opt : UInt8) :
    EdgeOf (· < ·) f.height (BrightRow f opt) (f.miny opt) :=
  (firstRow_edgeOf f opt f.middleColumns).congr fun y => by
    simp only [mem_middleColumns, BrightRow, and_assoc]

theorem maxy_edgeOf (f : AVFrame) (opt : UInt8) :
    EdgeOf (· > ·) 0 (BrightRow f opt) (f.maxy opt) :=
  (lastRow_edgeOf f opt f.middleColumns).congr fun y => by
    simp only [mem_middleColumns, BrightRow, and_assoc]

/-- The scans find the edges of a picture that is bright in its middle rows. -/
theorem scans_edges {x : ℕ} (hx : 10 ≤ x) (hbright : BrightColumn f opt x) :
    Edges f opt (f.minx opt) (f.maxx opt) (f.miny opt) (f.maxy opt) := by
  have htop := miny_edgeOf f opt
  have hbottom := maxy_edgeOf f opt
  refine ⟨(minx_edgeOf f opt).isLeast ⟨hx, hbright⟩ (Nat.le_sub_one_of_lt hbright.1),
    (maxx_edgeOf f opt).isGreatest hbright (Nat.zero_le x), ?_⟩
  by_cases hrow : ∃ y, BrightRow f opt y
  · obtain ⟨y, hy⟩ := hrow
    exact .inl ⟨htop.isLeast hy hy.1.le, hbottom.isGreatest hy (Nat.zero_le y)⟩
  · have hnone := not_exists.mp hrow
    exact .inr ⟨hnone, htop.attained.resolve_right (hnone _),
      hbottom.attained.resolve_right (hnone _)⟩

theorem Edges.unique {l r t b l' r' t' b' : ℕ} (h : Edges f opt l r t b)
    (h' : Edges f opt l' r' t' b') : l = l' ∧ r = r' ∧ t = t' ∧ b = b' := by
  refine ⟨h.left.unique h'.left, h.right.unique h'.right, ?_⟩
  rcases h.vertical, h'.vertical with ⟨⟨ht, hb⟩ | ⟨hnone, ht, hb⟩, ⟨ht', hb'⟩ | ⟨hnone', ht', hb'⟩⟩
  · exact ⟨ht.unique ht', hb.unique hb'⟩
  · exact absurd ht.1 (hnone' t)
  · exact absurd ht'.1 (hnone t')
  · exact ⟨ht.trans ht'.symm, hb.trans hb'.symm⟩

theorem exists_edges_iff {l r t b : ℕ} (h : Edges f opt l r t b) {P : ℕ → ℕ → ℕ → ℕ → Prop} :
    (∃ l' r' t' b', Edges f opt l' r' t' b' ∧ P l' r' t' b') ↔ P l r t b := by
  constructor
  · rintro ⟨l', r', t', b', h', hP⟩
    obtain ⟨rfl, rfl, rfl, rfl⟩ := h.unique h'
    exact hP
  · intro hP
    exact ⟨l, r, t, b, h, hP⟩

/-- Without a bright column the left edge is the last column, and the right edge is in front
of column 10. -/
theorem radius_neg (hwidth : 12 ≤ f.width) (hdark : ∀ x, 10 ≤ x → ¬ BrightColumn f opt x) :
    ((f.maxx opt : ℤ) - f.minx opt).tdiv 2 < 0 := by
  have hleft : f.minx opt = f.width - 1 :=
    (minx_edgeOf f opt).attained.resolve_right fun h => hdark _ h.1 h.2
  have hright : f.maxx opt < 10 := by
    rcases (maxx_edgeOf f opt).attained with hzero | hbright
    · omega
    · by_contra hge
      exact hdark _ (not_lt.mp hge) hbright
  rw [← neg_sub, Int.neg_tdiv, Int.tdiv_eq_ediv_of_nonneg (by omega)]
  omega

end Edges

/-! ## The bounds -/

/-- A negative height is less than any part of a positive one. -/
theorem isSmall_of_neg {l height : ℤ} (hl : l < 0) (hheight : 0 < height) :
    isSmall l height = true := by
  have hneg : Nonzero Format.binary64 .negative (toDouble (toFloat l)) :=
    convert_nonzero (by decide) (ofInt_nonzero hl (by decide))
  exact lt_of_signs hneg
    (mul_signed (convert_signed (ofInt_signed hheight)) (ofScientific_signed 7 (by decide)))

theorem middleSquare_iff {height width : ℤ} (hheight : 0 ≤ height) (hwidth : 0 ≤ width) :
    (0 ≤ (middleSquare height width).left ∧
      (middleSquare height width).left ≤ (middleSquare height width).right ∧
      (middleSquare height width).right ≤ width) ∧
    (0 ≤ (middleSquare height width).top ∧
      (middleSquare height width).top ≤ (middleSquare height width).bottom ∧
      (middleSquare height width).bottom ≤ height) ↔
      100 ≤ height ∧ height / 2 ≤ width / 2 + 50 := by
  simp only [middleSquare, Int.tdiv_eq_ediv_of_nonneg hheight, Int.tdiv_eq_ediv_of_nonneg hwidth]
  omega

/-- The bounds that `DetectCircleData` gives for edges that are in order, or whose rows are
missing. -/
theorem detectCircleData_iff {b : Bounds} {height width : ℤ} (hheight : 3 ≤ height)
    (hhorizontal : 0 ≤ b.left ∧ b.left ≤ b.right ∧ b.right ≤ width)
    (hvertical : 0 ≤ b.top ∧ b.bottom ≤ height) :
    ((0 ≤ (detectCircleData b height width).left ∧
        (detectCircleData b height width).left ≤ (detectCircleData b height width).right ∧
        (detectCircleData b height width).right ≤ width) ∧
      (0 ≤ (detectCircleData b height width).top ∧
        (detectCircleData b height width).top ≤ (detectCircleData b height width).bottom ∧
        (detectCircleData b height width).bottom ≤ height)) ↔
      CropFits (b.right - b.left) (b.bottom - b.top) height width := by
  have hwidth : 0 ≤ width := by omega
  have hmiddle := @middleSquare_iff height width (by omega) hwidth
  unfold detectCircleData CropFits
  dsimp only
  by_cases hsmall : (isSmall (b.right - b.left) height || isSmall (b.bottom - b.top) height) = true
  · rw [if_pos hsmall, if_pos hsmall]
    split_ifs with hcommon
    · dsimp only
      omega
    · exact hmiddle
  · rw [if_neg hsmall, if_neg hsmall]
    have hrows : b.top ≤ b.bottom := by
      by_contra hlt
      have hshort : isSmall (b.bottom - b.top) height = true :=
        isSmall_of_neg (by omega) (by omega)
      rw [hshort, Bool.or_true] at hsmall
      exact hsmall rfl
    split_ifs with hwide hnarrow
    · exact hmiddle.trans ⟨fun h _ _ => h, fun h => h hwide hnarrow⟩
    · refine iff_of_true ?_ fun _ h => absurd h hnarrow
      dsimp only
      omega
    · refine iff_of_true ?_ fun h => absurd h hwide
      omega

theorem testCircRound_mRadius {s : JAMedia} (hradius : s.mRadius = 0) (f : AVFrame)
    (opt : UInt8) :
    (s.testCircRound f opt).1.mRadius = ((f.maxx opt : ℤ) - f.minx opt).tdiv 2 := by
  rw [JAMedia.testCircRound, if_neg (not_not.mpr hradius)]

theorem Edges.columns {f : AVFrame} {opt : UInt8} {l r t b : ℕ} (h : Edges f opt l r t b) :
    10 ≤ l ∧ l ≤ r ∧ r < f.width :=
  ⟨h.left.1.1, h.right.2 h.left.1.2, h.right.1.1⟩

theorem Edges.rows {f : AVFrame} {opt : UInt8} {l r t b : ℕ} (h : Edges f opt l r t b) :
    t ≤ b ∧ b < f.height ∨ t = f.height ∧ b = 0 := by
  rcases h.vertical with ⟨htop, hbottom⟩ | ⟨-, ht, hb⟩
  · exact .inl ⟨htop.2 hbottom.1, hbottom.1.1⟩
  · exact .inr ⟨ht, hb⟩

/-- The circle between the edges of a picture is in it. -/
theorem circle_inFrame {l r t b height width : ℤ} (hcolumns : 0 ≤ l ∧ l ≤ r ∧ r < width)
    (hrows : 0 ≤ t ∧ t ≤ b ∧ b < height ∨ t = height ∧ b = 0) (hheight : 3 ≤ height) :
    (r - l).tdiv 2 = 0 ∨ 0 < (r - l).tdiv 2 ∧ 0 ≤ l + (r - l).tdiv 2 ∧
      l + (r - l).tdiv 2 < width ∧ 0 ≤ t + (b - t).tdiv 2 ∧ t + (b - t).tdiv 2 < height := by
  have hradius : (r - l).tdiv 2 = (r - l) / 2 := Int.tdiv_eq_ediv_of_nonneg (by omega)
  have hmiddle : 0 ≤ t + (b - t).tdiv 2 ∧ t + (b - t).tdiv 2 < height := by
    rcases hrows with ⟨_, hle, _⟩ | ⟨rfl, rfl⟩
    · rw [Int.tdiv_eq_ediv_of_nonneg (by omega)]
      omega
    · rw [zero_sub, Int.neg_tdiv, Int.tdiv_eq_ediv_of_nonneg (by omega)]
      omega
  omega

/-- Detection from a picture leaves the circle and the bounds in the picture exactly when
the middle rows are bright in column 10 or behind it, and the crop that is taken fits. -/
theorem testCircRound_iff (s : JAMedia) (f : AVFrame) (opt : UInt8) (hradius : s.mRadius = 0)
    (hwidth : 12 ≤ f.width) (hheight : 3 ≤ f.height) :
    InFrame (s.testCircRound f opt).1 (s.testCircRound f opt).2 f.height f.width ↔
      ∃ l r t b, Edges f opt l r t b ∧ CropFits (r - l) (b - t) f.height f.width := by
  unfold JAMedia.testCircRound
  rw [if_neg (not_not.mpr hradius)]
  dsimp only
  by_cases hfound : ∃ x, 10 ≤ x ∧ BrightColumn f opt x
  · obtain ⟨x, hx, hbright⟩ := hfound
    have hedges := scans_edges hx hbright
    have hcolumns := hedges.columns
    have hrows := hedges.rows
    have hbounds := @detectCircleData_iff ⟨f.minx opt, f.maxx opt, f.miny opt, f.maxy opt⟩ f.height
      f.width (by omega) (by dsimp only; omega) (by dsimp only; omega)
    rw [exists_edges_iff hedges, ← hbounds]
    constructor
    · intro h
      exact ⟨h.horizontal, h.vertical⟩
    · rintro ⟨hhorizontal, hvertical⟩
      exact ⟨circle_inFrame (by omega) (by omega) (by omega), hhorizontal, hvertical⟩
  · have hnegative := radius_neg hwidth fun x hx hbright => hfound ⟨x, hx, hbright⟩
    refine iff_of_false (fun h => ?_) ?_
    · rcases h.circle with hzero | ⟨hpos, _⟩
      · exact hnegative.ne hzero
      · exact hnegative.not_gt hpos
    · rintro ⟨l, r, t, b, hedges, -⟩
      exact hfound ⟨l, hedges.left.1⟩

/-- A picture of one colour. -/
def plain (width height : ℕ) (luma : UInt8) : AVFrame := ⟨width, height, width, fun _ => luma⟩

/-- `JAMedia` before the first picture. -/
def undetected : JAMedia := ⟨0, 0, 0⟩

theorem testCircRound_bright :
    InFrame (undetected.testCircRound (plain 100 100 255) 130).1
      (undetected.testCircRound (plain 100 100 255) 130).2
      (plain 100 100 255).height (plain 100 100 255).width := by
  have hbright : BrightColumn (plain 100 100 255) 130 10 :=
    ⟨by decide, 33, by decide, by decide, by decide⟩
  have hwidth : 12 ≤ (plain 100 100 255).width := by decide
  have hheight : 3 ≤ (plain 100 100 255).height := by decide
  have hedges := scans_edges le_rfl hbright
  rw [testCircRound_iff undetected (plain 100 100 255) 130 rfl hwidth hheight]
  refine ⟨_, _, _, _, hedges, ?_⟩
  unfold CropFits
  decide +kernel

/-- A dark picture gives a negative radius, and detection is not tried again. -/
theorem testCircRound_dark :
    (undetected.testCircRound (plain 640 480 0) 130).1.mRadius < 0 ∧
    ¬ InFrame (undetected.testCircRound (plain 640 480 0) 130).1
      (undetected.testCircRound (plain 640 480 0) 130).2 480 640 := by
  have hdark : ∀ x, 10 ≤ x → ¬ BrightColumn (plain 640 480 0) 130 x := by
    rintro x - ⟨-, y, -, -, hbright⟩
    simp [AVFrame.dbuf, plain] at hbright
  have hradius : (undetected.testCircRound (plain 640 480 0) 130).1.mRadius < 0 := by
    rw [testCircRound_mRadius rfl]
    exact radius_neg (by decide) hdark
  refine ⟨hradius, fun h => ?_⟩
  rcases h.circle with hzero | ⟨hpos, _⟩
  · exact hradius.ne hzero
  · exact hradius.not_gt hpos

end Jagles.CircleDetection
