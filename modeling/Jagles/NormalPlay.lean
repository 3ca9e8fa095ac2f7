import Jagles.GuardedRuns

set_option autoImplicit false
set_option linter.dupNamespace false

/-!
# Zoom and pan of a pane (`NormalPlay`)

`SetPosition` and `SetScale` bound the offset of the picture; what of the picture the pane
then shows is decided by the two shaders. Floats are rationals. The loading image and the
line of information that follow a pane are left out.
-/
namespace Jagles

structure Vec3 where
  x : ℚ
  y : ℚ
  z : ℚ
  deriving DecidableEq

structure NormalPlay where
  m_aspect : ℚ
  mKeepAspect : ℚ
  mPosition : Vec3
  mScale : Vec3
  mTexPosition : Vec3
  mTexScale : Vec3
  mNeedDraw : Bool
  deriving DecidableEq

namespace NormalPlay
open GuardedRuns

/-! ## The calls -/

/-- The constructor, and the values that `ResetPosition` goes back to. -/
def create (aspect : ℚ) : NormalPlay :=
  ⟨aspect, 1, ⟨0, 0, 0⟩, ⟨1, 1, 1⟩, ⟨0, 0, 0⟩, ⟨1, 1, 1⟩, false⟩

def resetPosition (s : NormalPlay) : NormalPlay :=
  { s with
    mPosition := ⟨0, 0, 0⟩, mScale := ⟨1, 1, 1⟩
    mTexPosition := ⟨0, 0, 0⟩, mTexScale := ⟨1, 1, 1⟩
    mNeedDraw := true }

def setKeepAspect (s : NormalPlay) (aspect : ℚ) : NormalPlay := { s with mKeepAspect := aspect }

/-- `ReSetBuffer`, but for the vertices. -/
def reSetBuffer (s : NormalPlay) (aspect : ℚ) : NormalPlay := { s with m_aspect := aspect }

/-- `ParametricSurface::SetPosition`. -/
def storePosition (s : NormalPlay) (pos : Vec3) (texture : Bool) : NormalPlay :=
  if texture then
    if s.mTexPosition ≠ pos then { s with mTexPosition := pos, mNeedDraw := true } else s
  else
    if s.mPosition ≠ pos then { s with mPosition := pos, mNeedDraw := true } else s

/-- `ParametricSurface::SetScale`. -/
def storeScale (s : NormalPlay) (scale : Vec3) (texture : Bool) : NormalPlay :=
  if texture then
    if s.mTexScale ≠ scale then { s with mTexScale := scale, mNeedDraw := true } else s
  else
    if s.mScale ≠ scale then { s with mScale := scale, mNeedDraw := true } else s

/-- `lw` and `lh`, the bounds of the offset at a scale. -/
def offsetBounds (s : NormalPlay) (scale : Vec3) : ℚ × ℚ :=
  if s.mKeepAspect ≠ 1 then
    if s.m_aspect < s.mKeepAspect then
      ((1 - 1 / scale.x) / 2, (s.m_aspect / s.mKeepAspect - 1 / scale.x) / 2)
    else
      ((s.mKeepAspect / s.m_aspect - 1 / scale.x) / 2, (1 - 1 / scale.x) / 2)
  else
    ((1 - 1 / scale.x) / 2, (1 - 1 / scale.x) / 2)

/-- One coordinate of the offset after the three tests against its bound. -/
def limit (l v : ℚ) : ℚ :=
  let v := if v < -l then -l else v
  let v := if v > l then l else v
  if l < 0 then 0 else v

def limitOffset (s : NormalPlay) (scale pos : Vec3) : Vec3 :=
  let (lw, lh) := s.offsetBounds scale
  { pos with y := limit lh pos.y, x := limit lw pos.x }

def setPosition (s : NormalPlay) (pos : Vec3) (texture : Bool) : NormalPlay :=
  if texture then s.storePosition (s.limitOffset s.mTexScale pos) true
  else s.storePosition pos false

def setScale (s : NormalPlay) (scale : Vec3) (texture : Bool) : NormalPlay :=
  if texture then
    if scale.x < 1 then s
    else (s.storePosition (s.limitOffset scale s.mTexPosition) true).storeScale scale true
  else s.storeScale scale false

inductive Call
  | setPosition (pos : Vec3) (texture : Bool)
  | setScale (scale : Vec3) (texture : Bool)
  | setKeepAspect (aspect : ℚ)
  | reSetBuffer (aspect : ℚ)
  | resetPosition

def step (s : NormalPlay) : Call → Option NormalPlay
  | .setPosition pos texture => some (s.setPosition pos texture)
  | .setScale scale texture => some (s.setScale scale texture)
  | .setKeepAspect aspect => some (s.setKeepAspect aspect)
  | .reSetBuffer aspect => some (s.reSetBuffer aspect)
  | .resetPosition => some s.resetPosition

/-! ## The shaders -/

/-- The uniforms that `DrawSelf` passes. -/
structure Uniforms where
  aZoom : ℚ
  aLeftOffset : ℚ
  aTopOffset : ℚ
  aKeepAspect : ℚ

def drawSelf (s : NormalPlay) : Uniforms where
  aZoom := 1 / s.mTexScale.x
  aLeftOffset := s.mTexPosition.x
  aTopOffset := s.mTexPosition.y
  aKeepAspect := if s.mKeepAspect ≠ 1 then s.mKeepAspect / s.m_aspect else 1

/-- `NormalPlaySeg`: `vTextureCoord`. -/
def normalPlaySeg (u : Uniforms) (aTexCoor : ℚ × ℚ) : ℚ × ℚ :=
  ((aTexCoor.1 - 1 / 2) * u.aZoom + 1 / 2 + u.aLeftOffset,
    (aTexCoor.2 - 1 / 2) * u.aZoom + 1 / 2 + u.aTopOffset)

/-- `lcoord` of `NormalPlayFrag`. -/
def lcoord (vKeepAspect : ℚ) (vTextureCoord : ℚ × ℚ) : ℚ × ℚ :=
  if vKeepAspect > 1 then
    (vTextureCoord.1, (vTextureCoord.2 - 1 / 2) * vKeepAspect + 1 / 2)
  else
    ((vTextureCoord.1 - 1 / 2) / vKeepAspect + 1 / 2, vTextureCoord.2)

/-- `NormalPlayFrag`: the coordinate whose colour is taken, or none for black. -/
def normalPlayFrag (vKeepAspect : ℚ) (vTextureCoord : ℚ × ℚ) : Option (ℚ × ℚ) :=
  let lcoord := lcoord vKeepAspect vTextureCoord
  if vKeepAspect > 1 then
    if lcoord.2 < 0 ∨ lcoord.2 > 1 then none else some lcoord
  else
    if lcoord.1 < 0 ∨ lcoord.1 > 1 then none else some lcoord

/-- What of the picture is at a point of the pane. -/
def sampled (s : NormalPlay) (aTexCoor : ℚ × ℚ) : ℚ × ℚ :=
  lcoord s.drawSelf.aKeepAspect (normalPlaySeg s.drawSelf aTexCoor)

/-- The part of the picture's width that the pane spans, which is over 1 when the zoomed
picture is narrower than the pane. -/
def spanX (s : NormalPlay) : ℚ := (s.sampled (1, 0)).1 - (s.sampled (0, 0)).1

/-- The part of the picture's height that the pane spans. -/
def spanY (s : NormalPlay) : ℚ := (s.sampled (0, 1)).2 - (s.sampled (0, 0)).2

/-- The points of the pane. -/
def pane : Set (ℚ × ℚ) := Set.Icc 0 1 ×ˢ Set.Icc 0 1

/-- On an axis on which the picture fills the pane the pane shows nothing but picture, and
on the other axis the picture is in the middle. -/
structure InPicture (s : NormalPlay) : Prop where
  horizontal : s.spanX ≤ 1 → ∀ c ∈ pane, (s.sampled c).1 ∈ Set.Icc 0 1
  vertical : s.spanY ≤ 1 → ∀ c ∈ pane, (s.sampled c).2 ∈ Set.Icc 0 1
  left : 1 < s.spanX → s.mTexPosition.x = 0 ∧ ∀ y, (s.sampled (1 / 2, y)).1 = 1 / 2
  top : 1 < s.spanY → s.mTexPosition.y = 0 ∧ ∀ x, (s.sampled (x, 1 / 2)).2 = 1 / 2

/-! ## One axis -/

theorem limit_of_neg {l : ℚ} (h : l < 0) (v : ℚ) : limit l v = 0 := by
  simp only [limit, if_pos h]

theorem abs_limit_le {l : ℚ} (h : 0 ≤ l) (v : ℚ) : |limit l v| ≤ l := by
  simp only [limit, if_neg (not_lt.mpr h), abs_le]
  split_ifs <;> constructor <;> linarith

/-- The offset of an axis is bounded by half of what the pane does not span. -/
theorem axis_mem {zoom m offset c : ℚ} (hzoom : 0 ≤ zoom) (hm : 0 < m)
    (hoffset : |offset| ≤ (1 / m - zoom) / 2) (hc : c ∈ Set.Icc (0 : ℚ) 1) :
    (c - 1 / 2) * (zoom * m) + 1 / 2 + offset * m ∈ Set.Icc (0 : ℚ) 1 := by
  have hbound : |offset * m| ≤ (1 - zoom * m) / 2 := by
    calc
      |offset * m| = |offset| * m := by rw [abs_mul, abs_of_pos hm]
      _ ≤ (1 / m - zoom) / 2 * m := mul_le_mul_of_nonneg_right hoffset hm.le
      _ = (1 - zoom * m) / 2 := by field_simp
  have hpoint : |(c - 1 / 2) * (zoom * m)| ≤ zoom * m / 2 := by
    have hcentre : |c - 1 / 2| ≤ 1 / 2 := abs_le.mpr ⟨by linarith [hc.1], by linarith [hc.2]⟩
    have hspan : 0 ≤ zoom * m := mul_nonneg hzoom hm.le
    rw [abs_mul, abs_of_nonneg hspan]
    linarith [mul_le_mul_of_nonneg_right hcentre hspan]
  rw [abs_le] at hbound hpoint
  exact ⟨by linarith, by linarith⟩

theorem limit_axis_mem {zoom m c : ℚ} (v : ℚ) (hzoom : 0 ≤ zoom) (hm : 0 < m)
    (hspan : zoom * m ≤ 1) (hc : c ∈ Set.Icc (0 : ℚ) 1) :
    (c - 1 / 2) * (zoom * m) + 1 / 2 + limit ((1 / m - zoom) / 2) v * m ∈ Set.Icc (0 : ℚ) 1 := by
  have hle : zoom ≤ 1 / m := (le_div_iff₀ hm).mpr hspan
  exact axis_mem hzoom hm (abs_limit_le (by linarith) v) hc

theorem limit_axis_eq_zero {zoom m : ℚ} (v : ℚ) (hm : 0 < m) (hspan : 1 < zoom * m) :
    limit ((1 / m - zoom) / 2) v = 0 := by
  have hlt : 1 / m < zoom := (div_lt_iff₀ hm).mpr hspan
  exact limit_of_neg (by linarith) v

/-! ## Both axes -/

/-- By what the fragment shader stretches the horizontal axis. -/
def stretchX (k : ℚ) : ℚ := if k > 1 then 1 else 1 / k

/-- By what the fragment shader stretches the vertical axis. -/
def stretchY (k : ℚ) : ℚ := if k > 1 then k else 1

theorem stretchX_pos {k : ℚ} (hk : 0 < k) : 0 < stretchX k := by
  unfold stretchX
  split_ifs
  · exact one_pos
  · exact one_div_pos.mpr hk

theorem stretchY_pos {k : ℚ} (hk : 0 < k) : 0 < stretchY k := by
  unfold stretchY
  split_ifs
  · exact hk
  · exact one_pos

section Sampling
variable (s : NormalPlay)

theorem sampled_fst (c : ℚ × ℚ) :
    (s.sampled c).1 = (c.1 - 1 / 2) * (s.drawSelf.aZoom * stretchX s.drawSelf.aKeepAspect) + 1 / 2 +
      s.drawSelf.aLeftOffset * stretchX s.drawSelf.aKeepAspect := by
  unfold sampled lcoord stretchX normalPlaySeg
  split_ifs <;> ring

theorem sampled_snd (c : ℚ × ℚ) :
    (s.sampled c).2 = (c.2 - 1 / 2) * (s.drawSelf.aZoom * stretchY s.drawSelf.aKeepAspect) + 1 / 2 +
      s.drawSelf.aTopOffset * stretchY s.drawSelf.aKeepAspect := by
  unfold sampled lcoord stretchY normalPlaySeg
  split_ifs <;> ring

theorem spanX_eq : s.spanX = s.drawSelf.aZoom * stretchX s.drawSelf.aKeepAspect := by
  simp only [spanX, sampled_fst]
  ring

theorem spanY_eq : s.spanY = s.drawSelf.aZoom * stretchY s.drawSelf.aKeepAspect := by
  simp only [spanY, sampled_snd]
  ring

end Sampling

theorem aKeepAspect_pos {s : NormalPlay} (haspect : 0 < s.m_aspect) (hkeep : 0 < s.mKeepAspect) :
    0 < s.drawSelf.aKeepAspect := by
  unfold drawSelf
  dsimp only
  split_ifs
  · exact div_pos hkeep haspect
  · exact one_pos

/-- The case split of the clamp is that of the fragment shader. -/
theorem offsetBounds_eq {s : NormalPlay} (haspect : 0 < s.m_aspect) (scale : Vec3) :
    s.offsetBounds scale =
      ((1 / stretchX s.drawSelf.aKeepAspect - 1 / scale.x) / 2,
        (1 / stretchY s.drawSelf.aKeepAspect - 1 / scale.x) / 2) := by
  unfold offsetBounds drawSelf stretchX stretchY
  dsimp only
  by_cases hone : s.mKeepAspect ≠ 1
  · have hgt : s.mKeepAspect / s.m_aspect > 1 ↔ s.m_aspect < s.mKeepAspect := one_lt_div haspect
    simp only [if_pos hone, hgt]
    split_ifs
    · rw [one_div_one, one_div_div]
    · rw [one_div_one, one_div_one_div]
  · simp only [if_neg hone]
    norm_num

/-- An offset that has been limited at the scale in use keeps the pane in the picture. -/
theorem inPicture_of_limitOffset {s : NormalPlay} (pos : Vec3) (haspect : 0 < s.m_aspect)
    (hkeep : 0 < s.mKeepAspect) (hscale : 1 ≤ s.mTexScale.x)
    (hpos : s.mTexPosition = s.limitOffset s.mTexScale pos) : s.InPicture := by
  have hk := aKeepAspect_pos haspect hkeep
  have hX := stretchX_pos hk
  have hY := stretchY_pos hk
  have hzoom : 0 ≤ 1 / s.mTexScale.x := one_div_nonneg.mpr (by linarith)
  have hx : s.mTexPosition.x =
      limit ((1 / stretchX s.drawSelf.aKeepAspect - 1 / s.mTexScale.x) / 2) pos.x := by
    rw [hpos, limitOffset, offsetBounds_eq haspect]
  have hy : s.mTexPosition.y =
      limit ((1 / stretchY s.drawSelf.aKeepAspect - 1 / s.mTexScale.x) / 2) pos.y := by
    rw [hpos, limitOffset, offsetBounds_eq haspect]
  refine ⟨fun hspan c hc => ?_, fun hspan c hc => ?_, fun hspan => ?_, fun hspan => ?_⟩
  · rw [spanX_eq] at hspan
    rw [sampled_fst, show s.drawSelf.aLeftOffset = _ from hx]
    exact limit_axis_mem pos.x hzoom hX hspan hc.1
  · rw [spanY_eq] at hspan
    rw [sampled_snd, show s.drawSelf.aTopOffset = _ from hy]
    exact limit_axis_mem pos.y hzoom hY hspan hc.2
  · rw [spanX_eq] at hspan
    have hzero : s.mTexPosition.x = 0 := hx.trans (limit_axis_eq_zero pos.x hX hspan)
    refine ⟨hzero, fun y => ?_⟩
    rw [sampled_fst, show s.drawSelf.aLeftOffset = 0 from hzero]
    ring
  · rw [spanY_eq] at hspan
    have hzero : s.mTexPosition.y = 0 := hy.trans (limit_axis_eq_zero pos.y hY hspan)
    refine ⟨hzero, fun x => ?_⟩
    rw [sampled_snd, show s.drawSelf.aTopOffset = 0 from hzero]
    ring

/-- When the picture fills the pane on both axes no point of the pane is black. -/
theorem InPicture.not_black {s : NormalPlay} (h : s.InPicture) (hX : s.spanX ≤ 1)
    (hY : s.spanY ≤ 1) {c : ℚ × ℚ} (hc : c ∈ pane) :
    normalPlayFrag s.drawSelf.aKeepAspect (normalPlaySeg s.drawSelf c) = some (s.sampled c) := by
  have hx := h.horizontal hX c hc
  have hy := h.vertical hY c hc
  have hx' : ¬ ((s.sampled c).1 < 0 ∨ (s.sampled c).1 > 1) := by
    rw [not_or]
    exact ⟨not_lt.mpr hx.1, not_lt.mpr hx.2⟩
  have hy' : ¬ ((s.sampled c).2 < 0 ∨ (s.sampled c).2 > 1) := by
    rw [not_or]
    exact ⟨not_lt.mpr hy.1, not_lt.mpr hy.2⟩
  unfold normalPlayFrag
  dsimp only
  split_ifs with hk hout hout
  · exact absurd hout hy'
  · rfl
  · exact absurd hout hx'
  · rfl

/-! ## The calls keep the picture in the pane -/

section Stores
variable (s : NormalPlay) (v : Vec3)

@[simp] theorem storePosition_texPosition : (s.storePosition v true).mTexPosition = v := by
  by_cases h : s.mTexPosition ≠ v
  · simp only [storePosition, if_true, if_pos h]
  · simpa only [storePosition, if_true, if_neg h] using not_not.mp h

@[simp] theorem storeScale_texScale : (s.storeScale v true).mTexScale = v := by
  by_cases h : s.mTexScale ≠ v
  · simp only [storeScale, if_true, if_pos h]
  · simpa only [storeScale, if_true, if_neg h] using not_not.mp h

variable (texture : Bool)

@[simp] theorem storePosition_texScale :
    (s.storePosition v texture).mTexScale = s.mTexScale := by
  unfold storePosition
  split_ifs <;> rfl

@[simp] theorem storePosition_aspect : (s.storePosition v texture).m_aspect = s.m_aspect := by
  unfold storePosition
  split_ifs <;> rfl

@[simp] theorem storePosition_keepAspect :
    (s.storePosition v texture).mKeepAspect = s.mKeepAspect := by
  unfold storePosition
  split_ifs <;> rfl

@[simp] theorem storeScale_texPosition :
    (s.storeScale v texture).mTexPosition = s.mTexPosition := by
  unfold storeScale
  split_ifs <;> rfl

@[simp] theorem storeScale_aspect : (s.storeScale v texture).m_aspect = s.m_aspect := by
  unfold storeScale
  split_ifs <;> rfl

@[simp] theorem storeScale_keepAspect :
    (s.storeScale v texture).mKeepAspect = s.mKeepAspect := by
  unfold storeScale
  split_ifs <;> rfl

end Stores

theorem limitOffset_congr {s t : NormalPlay} (haspect : t.m_aspect = s.m_aspect)
    (hkeep : t.mKeepAspect = s.mKeepAspect) (scale pos : Vec3) :
    t.limitOffset scale pos = s.limitOffset scale pos := by
  unfold limitOffset offsetBounds
  rw [haspect, hkeep]

theorem storeScale_false_texScale (s : NormalPlay) (scale : Vec3) :
    (s.storeScale scale false).mTexScale = s.mTexScale := by
  rw [storeScale, if_neg Bool.false_ne_true]
  split_ifs <;> rfl

/-- No call takes the scale of the picture below 1. -/
theorem step_texScale {s t : NormalPlay} {c : Call} (h : s.step c = some t)
    (hscale : 1 ≤ s.mTexScale.x) : 1 ≤ t.mTexScale.x := by
  cases c with
  | setPosition pos texture =>
    obtain rfl := Option.some.inj h
    unfold setPosition
    split_ifs <;> simpa using hscale
  | setScale scale texture =>
    obtain rfl := Option.some.inj h
    unfold setScale
    split_ifs with htexture hsmall
    · exact hscale
    · simpa using hsmall
    · rw [storeScale_false_texScale]
      exact hscale
  | setKeepAspect aspect | reSetBuffer aspect =>
    obtain rfl := Option.some.inj h
    exact hscale
  | resetPosition =>
    obtain rfl := Option.some.inj h
    exact le_rfl

theorem run_texScale {aspect : ℚ} {s : NormalPlay} {cs : List Call}
    (h : Run step (fun _ _ => True) (create aspect) cs s) : 1 ≤ s.mTexScale.x :=
  h.invariant (fun s => 1 ≤ s.mTexScale.x) (fun _ _ _ hs _ ht => step_texScale ht hs) le_rfl

/-- After a change of position or scale the pane stays in the picture, on each axis on which
the picture is large enough; a scale below 1 is refused. -/
theorem setPosition_setScale_inPicture (s : NormalPlay) (hscale : 1 ≤ s.mTexScale.x)
    (haspect : 0 < s.m_aspect) (hkeep : 0 < s.mKeepAspect) (pos scale : Vec3) :
    (s.setPosition pos true).InPicture ∧ (1 ≤ scale.x → (s.setScale scale true).InPicture) ∧
      (scale.x < 1 → s.setScale scale true = s) := by
  refine ⟨?_, fun hone => ?_, fun hsmall => ?_⟩
  · rw [setPosition, if_pos rfl]
    refine inPicture_of_limitOffset pos (by simpa) (by simpa) (by simpa) ?_
    rw [storePosition_texPosition, storePosition_texScale,
      limitOffset_congr (storePosition_aspect ..) (storePosition_keepAspect ..)]
  · rw [setScale, if_pos rfl, if_neg (not_lt.mpr hone)]
    refine inPicture_of_limitOffset s.mTexPosition (by simpa) (by simpa) (by simpa) ?_
    rw [storeScale_texPosition, storePosition_texPosition, storeScale_texScale]
    exact (limitOffset_congr (by simp) (by simp) scale s.mTexPosition).symm
  · rw [setScale, if_pos rfl, if_pos hsmall]

/-- A wide picture in a narrow pane, zoomed to three halves. -/
theorem setPosition_setScale_inPicture_wide :
    ((create (1 / 2)).setKeepAspect (16 / 9)).mTexScale.x = 1 ∧
      (((create (1 / 2)).setKeepAspect (16 / 9)).setScale ⟨3 / 2, 1, 1⟩ true).InPicture := by
  have h := setPosition_setScale_inPicture ((create (1 / 2)).setKeepAspect (16 / 9)) le_rfl
    (by norm_num [create, setKeepAspect]) (by norm_num [setKeepAspect]) ⟨1, 1, 0⟩ ⟨3 / 2, 1, 1⟩
  exact ⟨rfl, h.2.1 (by norm_num)⟩

end NormalPlay

end Jagles
