import Mathlib.Tactic

set_option autoImplicit false
set_option linter.dupNamespace false

/-!
# Pipelines

Numbered things pass from stage to stage, each stage lower than the one before. `S i a` says
that `a` is at stage `i`. As long as only the least of a stage goes on, whatever is at a lower
stage is less than whatever is at a higher one.
-/
namespace Jagles.Pipelines

variable {α : Type*} [Preorder α] {S T : ℕ → α → Prop} {l : ℕ} {p : α}

def Below (S : ℕ → α → Prop) : Prop := ∀ i j a b, i < j → S i a → S j b → a < b

theorem Below.mono (h : Below S) (hT : ∀ i a, T i a → S i a) : Below T :=
  fun i j a b hij ha hb => h i j a b hij (hT i a ha) (hT j b hb)

/-- The least thing of a stage goes on to the next one. -/
theorem Below.move (h : Below S) (hp : S (l + 1) p)
    (hT : ∀ i a, T i a → S i a ∨ i = l ∧ a = p) (hleast : ∀ b, T (l + 1) b → p < b) :
    Below T := by
  intro i j a b hij ha hb
  rcases hT i a ha with hold | ⟨rfl, rfl⟩
  · rcases hT j b hb with hold' | ⟨rfl, rfl⟩
    · exact h i j a b hij hold hold'
    · exact h i (j + 1) a b (by omega) hold hp
  · rcases Nat.eq_or_lt_of_le hij with rfl | hlt
    · exact hleast b hb
    · rcases hT j b hb with hold' | ⟨rfl, -⟩
      · exact h (i + 1) j a b hlt hp hold'
      · omega

/-- Something new, greater than all the rest, enters at the highest stage. -/
theorem Below.enter (h : Below S) (hT : ∀ i a, T i a → S i a ∨ i = l ∧ a = p)
    (hnew : ∀ i a, S i a → a < p) (htop : ∀ j b, S j b → j ≤ l) : Below T := by
  intro i j a b hij ha hb
  rcases hT j b hb with hold | ⟨rfl, rfl⟩
  · have hj := htop j b hold
    rcases hT i a ha with hold' | ⟨rfl, -⟩
    · exact h i j a b hij hold' hold
    · omega
  · rcases hT i a ha with hold | ⟨rfl, -⟩
    · exact hnew i a hold
    · omega

end Jagles.Pipelines
