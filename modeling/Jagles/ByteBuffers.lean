import Mathlib.Tactic

set_option autoImplicit false
set_option linter.dupNamespace false

/-!
# Buffers with a position

A buffer of a fixed number of elements that is written at its position, which each write
moves forward. A write that does not fit is refused as a whole.
-/
namespace Jagles.ByteBuffers

variable {α : Type*}

structure ByteBuffer (α : Type*) (capacity : ℕ) where
  array : List α
  position : ℕ
  length_array : array.length = capacity
  position_le : position ≤ capacity

namespace ByteBuffer
variable {capacity : ℕ}

def allocate (capacity : ℕ) (a : α) : ByteBuffer α capacity where
  array := List.replicate capacity a
  position := 0
  length_array := List.length_replicate
  position_le := Nat.zero_le capacity

/-- `position(0)` -/
def restart (b : ByteBuffer α capacity) : ByteBuffer α capacity where
  array := b.array
  position := 0
  length_array := b.length_array
  position_le := Nat.zero_le capacity

theorem length_splice (b : ByteBuffer α capacity) (src : List α)
    (h : b.position + src.length ≤ capacity) :
    (b.array.take b.position ++ src ++ b.array.drop (b.position + src.length)).length =
      capacity := by
  simp only [List.length_append, List.length_take, List.length_drop, b.length_array]
  omega

/-- `put`, or none when there is an overflow. -/
def put (b : ByteBuffer α capacity) (src : List α) : Option (ByteBuffer α capacity) :=
  if h : b.position + src.length ≤ capacity then
    some
      { array := b.array.take b.position ++ src ++ b.array.drop (b.position + src.length)
        position := b.position + src.length
        length_array := b.length_splice src h
        position_le := h }
  else none

/-- What has been written in front of the position. -/
def written (b : ByteBuffer α capacity) : List α := b.array.take b.position

theorem put_eq_none {b : ByteBuffer α capacity} {src : List α}
    (h : capacity < b.position + src.length) : b.put src = none :=
  dif_neg (not_le.mpr h)

/-- A write that fits is appended to what has been written. -/
theorem exists_put {b : ByteBuffer α capacity} {src : List α}
    (h : b.position + src.length ≤ capacity) :
    ∃ c, b.put src = some c ∧ c.position = b.position + src.length ∧
      c.written = b.written ++ src := by
  refine ⟨_, dif_pos h, rfl, ?_⟩
  have hlen : (b.array.take b.position ++ src).length = b.position + src.length := by
    rw [List.length_append, List.length_take, b.length_array, min_eq_left b.position_le]
  exact List.take_left' hlen

/-- A buffer that is full holds what has been written. -/
theorem array_of_full {b : ByteBuffer α capacity} (h : b.position = capacity) :
    b.array = b.written :=
  (List.take_of_length_le (b.length_array.trans h.symm).le).symm

@[simp] theorem restart_position (b : ByteBuffer α capacity) : b.restart.position = 0 := rfl

@[simp] theorem restart_written (b : ByteBuffer α capacity) : b.restart.written = [] := rfl

end ByteBuffer

end Jagles.ByteBuffers
