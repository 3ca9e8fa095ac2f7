import Jagles.TriangleMeshes

set_option autoImplicit false
set_option linter.dupNamespace false

/-!
# The mesh of a surface (`ParametricSurface::GenerateVertices`)

A surface is drawn as two triangles for each cell of a grid of parameters, one span below and
to the left of the interval of the surface. Parameters are integers.
-/
namespace Jagles
open TriangleMeshes Triangle

structure ParametricSurface where
  anglespan : ℤ
  m_startangle : ℤ × ℤ
  m_endangle : ℤ × ℤ
  deriving DecidableEq

namespace ParametricSurface

variable {α : Type*}

/-- What `Evaluate` and `EvaluateCoord` see: their argument, and the column of the cell. -/
structure Sample where
  mxStart : Bool
  mxEnd : Bool
  domain : ℤ × ℤ
  deriving DecidableEq

/-- What is written to the two buffers, each from its start on. -/
structure Buffers (α : Type*) where
  vertices : List α
  texturecorrd : List α
  deriving DecidableEq

section Generate
variable (s : ParametricSurface) (Evaluate : Sample → α × α × α) (EvaluateCoord : Sample → α × α)

end Generate

/-! ## What is drawn -/

/-- The corners of the two triangles of a cell. -/
def cellSamples (s : ParametricSurface) (i j : ℤ) : List Sample :=
  let column := Sample.mk (decide (i = s.m_startangle.1))
    (decide (i ≥ s.m_endangle.1 - s.anglespan ∧ i < s.m_endangle.1))
  [column (i, j), column (i - s.anglespan, j), column (i, j - s.anglespan),
    column (i, j - s.anglespan), column (i - s.anglespan, j),
    column (i - s.anglespan, j - s.anglespan)]

/-- The number of cells in a row of the grid. -/
def columns (s : ParametricSurface) : ℕ :=
  ((s.m_endangle.1 - s.m_startangle.1) / s.anglespan).toNat

def rows (s : ParametricSurface) : ℕ :=
  ((s.m_endangle.2 - s.m_startangle.2) / s.anglespan).toNat

/-- The corners of the triangles, in the order in which they are drawn. -/
def samples (s : ParametricSurface) : List Sample :=
  (List.range s.rows).flatMap fun (n : ℕ) => (List.range s.columns).flatMap fun (m : ℕ) =>
    s.cellSamples (s.m_startangle.1 + s.anglespan * m) (s.m_startangle.2 + s.anglespan * n)

/-- The interval of the surface is a rectangle of cells. -/
structure Regular (s : ParametricSurface) : Prop where
  span : 0 < s.anglespan
  width : s.m_startangle.1 ≤ s.m_endangle.1
  height : s.m_startangle.2 ≤ s.m_endangle.2
  divides_width : s.anglespan ∣ s.m_endangle.1 - s.m_startangle.1
  divides_height : s.anglespan ∣ s.m_endangle.2 - s.m_startangle.2

/-! ## The loops -/

/-- When each round appends to both buffers, so does the loop. -/
theorem foldl_append (l : List ℕ) (body : ℕ → Buffers α → Buffers α) (f g : ℕ → List α)
    (hbody : ∀ m b, body m b = ⟨b.vertices ++ f m, b.texturecorrd ++ g m⟩) (b : Buffers α) :
    l.foldl (fun b m => body m b) b =
      ⟨b.vertices ++ l.flatMap f, b.texturecorrd ++ l.flatMap g⟩ := by
  induction l generalizing b with
  | nil => simp
  | cons m l ih =>
    rw [List.foldl_cons, ih, hbody]
    simp only [List.flatMap_cons, List.append_assoc]

section Fills
variable {s : ParametricSurface} (h : s.Regular)
include h

end Fills

/-! ## What is written -/

end ParametricSurface

end Jagles
