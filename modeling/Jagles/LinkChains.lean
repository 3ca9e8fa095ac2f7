import Mathlib.Tactic

set_option autoImplicit false
set_option linter.dupNamespace false

/-!
# Chains of links

`next a` is where the link at `a` leads, or `none` at an end. Following the
links is deterministic, so from one start there is at most one end, and a set
that every link stays in and that has no end is never left.
-/
namespace Jagles.LinkChains

variable {α : Type*} {next : α → Option α}

inductive Chain (next : α → Option α) : α → ℕ → α → Prop where
  | nil (a : α) : Chain next a 0 a
  | cons {a b c : α} {n : ℕ} (h : next a = some b) (tail : Chain next b n c) :
      Chain next a (n + 1) c

def Visits (next : α → Option α) (a b : α) : Prop := ∃ n, Chain next a n b

theorem Visits.refl (a : α) : Visits next a a := ⟨0, .nil a⟩

theorem Chain.trans {a b c : α} {n k : ℕ} (h : Chain next a n b) (h' : Chain next b k c) :
    Chain next a (n + k) c := by
  induction h with
  | nil _ => rwa [Nat.zero_add]
  | cons hs _ ih =>
    rw [Nat.add_right_comm]
    exact .cons hs (ih h')

theorem Chain.snoc {a b c : α} {n : ℕ} (h : Chain next a n b) (hs : next b = some c) :
    Chain next a (n + 1) c :=
  h.trans (.cons hs (.nil c))

theorem Visits.snoc {a b c : α} (h : Visits next a b) (hs : next b = some c) :
    Visits next a c := by
  obtain ⟨n, h⟩ := h
  exact ⟨n + 1, h.snoc hs⟩

/-- A set that the links do not leave holds everything visited from it. -/
theorem Chain.closed {S : α → Prop} (stay : ∀ a b, S a → next a = some b → S b) {a b : α} {n : ℕ}
    (h : Chain next a n b) (ha : S a) : S b := by
  induction h with
  | nil _ => exact ha
  | cons hs _ ih => exact ih (stay _ _ ha hs)

theorem Visits.closed {S : α → Prop} (stay : ∀ a b, S a → next a = some b → S b) {a b : α}
    (h : Visits next a b) (ha : S a) : S b := by
  obtain ⟨_, h⟩ := h
  exact h.closed stay ha

/-- Two chains from one start go the same way: the longer one goes on where the
shorter one stops. -/
theorem Chain.rest {a b c : α} {n k : ℕ} (h : Chain next a n b) (h' : Chain next a k c)
    (hle : n ≤ k) : Chain next b (k - n) c := by
  induction h generalizing k with
  | nil _ => exact h'
  | cons hs _ ih =>
    cases h' with
    | nil _ => omega
    | cons hs' tail =>
      obtain rfl := Option.some.inj (hs.symm.trans hs')
      rw [Nat.add_sub_add_right]
      exact ih tail (by omega)

theorem Chain.end_unique {a b c : α} {n k : ℕ} (h : Chain next a n b) (hb : next b = none)
    (h' : Chain next a k c) (hc : next c = none) : n = k ∧ b = c := by
  wlog hle : n ≤ k generalizing b c n k
  · obtain ⟨rfl, rfl⟩ := this h' hc h hb (by omega)
    exact ⟨rfl, rfl⟩
  · have more := h.rest h' hle
    generalize hd : k - n = d at more
    cases more with
    | nil _ => exact ⟨by omega, rfl⟩
    | cons hs _ => simp [hb] at hs

/-- In a set where every place has a link that stays in it, the links never end. -/
theorem Chain.no_end {S : α → Prop} (goes : ∀ a, S a → ∃ b, next a = some b ∧ S b) {a b : α}
    {n : ℕ} (h : Chain next a n b) (ha : S a) : next b ≠ none := by
  have hb : S b := by
    refine h.closed (fun c d hc hs => ?_) ha
    obtain ⟨e, he, hS⟩ := goes c hc
    obtain rfl := Option.some.inj (hs.symm.trans he)
    exact hS
  obtain ⟨c, hc, -⟩ := goes b hb
  simp [hc]

end Jagles.LinkChains
