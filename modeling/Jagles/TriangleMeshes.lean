import Mathlib.Tactic

set_option autoImplicit false
set_option linter.dupNamespace false

/-!
# Meshes of triangles

A triangle is the set of its points' barycentric coordinates. A box is cut into two
triangles along a diagonal, and a grid of boxes into two triangles a cell.
-/
namespace Jagles.TriangleMeshes

variable {K : Type*} [Field K] [LinearOrder K] [IsStrictOrderedRing K]

structure Triangle (K : Type*) where
  a : K × K
  b : K × K
  c : K × K
  deriving DecidableEq

namespace Triangle

/-- `u`, `v` and `w` are coordinates of the point in the triangle. -/
structure Barycentric (t : Triangle K) (u v w : K) (p : K × K) : Prop where
  sum : u + v + w = 1
  fst : p.1 = u * t.a.1 + v * t.b.1 + w * t.c.1
  snd : p.2 = u * t.a.2 + v * t.b.2 + w * t.c.2

def Covers (t : Triangle K) (p : K × K) : Prop :=
  ∃ u v w, 0 ≤ u ∧ 0 ≤ v ∧ 0 ≤ w ∧ t.Barycentric u v w p

/-- The corners are in the box. -/
def Within (lo hi : K × K) (t : Triangle K) : Prop :=
  t.a ∈ Set.Icc lo hi ∧ t.b ∈ Set.Icc lo hi ∧ t.c ∈ Set.Icc lo hi

instance (lo hi : K × K) : DecidablePred (Within lo hi) := fun t => by
  unfold Within
  infer_instance

end Triangle
open Triangle

/-- The half of the box of side `s` with corner `hi` that has this corner. -/
def upper (s : K) (hi : K × K) : Triangle K := ⟨hi, (hi.1 - s, hi.2), (hi.1, hi.2 - s)⟩

/-- The other half. -/
def lower (s : K) (hi : K × K) : Triangle K :=
  ⟨(hi.1, hi.2 - s), (hi.1 - s, hi.2), (hi.1 - s, hi.2 - s)⟩

section Halves
variable {s u v w : K} {hi p : K × K}

/-- The two triangles of a cell. -/
def pair (s : K) (hi : K × K) : List (Triangle K) := [upper s hi, lower s hi]

omit [LinearOrder K] [IsStrictOrderedRing K] in
theorem mem_pair {t : Triangle K} : t ∈ pair s hi ↔ t = upper s hi ∨ t = lower s hi := by
  simp only [pair, List.mem_cons, List.not_mem_nil, or_false]

end Halves

/-! ## Grids -/

/-- The upper right corner of a cell of the grid that starts at `lo`. -/
def corner (s : K) (lo : K × K) (i j : ℕ) : K × K := (lo.1 + s * (i + 1), lo.2 + s * (j + 1))

/-- The cells row by row. -/
def grid (s : K) (lo : K × K) (m n : ℕ) : List (Triangle K) :=
  (List.range n).flatMap fun j => (List.range m).flatMap fun i => pair s (corner s lo i j)

section Grids
variable {s : K} {lo : K × K} {m n : ℕ}

end Grids

end Jagles.TriangleMeshes
