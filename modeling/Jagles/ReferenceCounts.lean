import Mathlib.Tactic
import Mathlib.Data.Fintype.Card

set_option autoImplicit false
set_option linter.dupNamespace false

/-!
# Objects with a reference count

`ptr` gives the object that each client points to, if any, and `cell` the objects
that are alive. An object counts its holders when `uses` is their number; it is
alive exactly while it has one.
-/
namespace Jagles.ReferenceCounts

variable {C K Obj : Type*} [Fintype C] [DecidableEq C] [DecidableEq K]

def holders (ptr : C → Option K) (k : K) : Finset C := Finset.univ.filter fun c => ptr c = some k

structure Counted (uses : Obj → ℤ) (ptr : C → Option K) (cell : K → Option Obj) : Prop where
  count : ∀ k o, cell k = some o → uses o = (holders ptr k).card
  alive : ∀ k, (cell k).isSome = true ↔ (holders ptr k).Nonempty

/-- An object never counts fewer than its holders, and what is held is alive. -/
structure Covered (uses : Obj → ℤ) (ptr : C → Option K) (cell : K → Option Obj) : Prop where
  count : ∀ k o, cell k = some o → (holders ptr k).card ≤ uses o
  alive : ∀ k, (holders ptr k).Nonempty → (cell k).isSome = true

section Holders
variable {ptr : C → Option K} {c : C} {k : K}

omit [DecidableEq C] in
@[simp] theorem mem_holders : c ∈ holders ptr k ↔ ptr c = some k := by
  simp [holders]

theorem holders_take :
    holders (Function.update ptr c (some k)) k = insert c (holders ptr k) := by
  ext x
  by_cases hx : x = c
  · simp [hx]
  · simp [hx]

theorem holders_drop :
    holders (Function.update ptr c none) k = (holders ptr k).erase c := by
  ext x
  by_cases hx : x = c
  · simp [hx]
  · simp [hx]

theorem holders_take_other {j : K} (h : ptr c = none) (hj : j ≠ k) :
    holders (Function.update ptr c (some k)) j = holders ptr j := by
  ext x
  by_cases hx : x = c
  · simp [hx, h, hj.symm]
  · simp [hx]

theorem holders_drop_other {j : K} (h : ptr c = some k) (hj : j ≠ k) :
    holders (Function.update ptr c none) j = holders ptr j := by
  ext x
  by_cases hx : x = c
  · simp [hx, h, hj.symm]
  · simp [hx]

theorem holders_update_subset {j : K} {r : Option K} (hr : r ≠ some j) :
    holders (Function.update ptr c r) j ⊆ holders ptr j := by
  intro x hx
  by_cases hxc : x = c
  · rw [mem_holders, hxc, Function.update_self] at hx
    exact absurd hx hr
  · rw [mem_holders, Function.update_of_ne hxc] at hx
    exact mem_holders.mpr hx

end Holders

namespace Counted
variable {uses : Obj → ℤ} {ptr : C → Option K} {cell : K → Option Obj} {c : C} {k : K} {o o' : Obj}

omit [DecidableEq C] in
theorem change {ptr' : C → Option K} {x : Option Obj} (h : Counted uses ptr cell)
    (hother : ∀ j, j ≠ k → holders ptr' j = holders ptr j)
    (hcount : ∀ o, x = some o → uses o = (holders ptr' k).card)
    (halive : x.isSome = true ↔ (holders ptr' k).Nonempty) :
    Counted uses ptr' (Function.update cell k x) := by
  constructor
  · intro j y hy
    by_cases hj : j = k
    · subst hj
      rw [Function.update_self] at hy
      exact hcount y hy
    · rw [Function.update_of_ne hj] at hy
      rw [hother j hj]
      exact h.count j y hy
  · intro j
    by_cases hj : j = k
    · subst hj
      rw [Function.update_self]
      exact halive
    · rw [Function.update_of_ne hj, hother j hj]
      exact h.alive j

omit [DecidableEq C] in
theorem modify (h : Counted uses ptr cell) (hk : cell k = some o) (huses : uses o' = uses o) :
    Counted uses ptr (Function.update cell k (some o')) := by
  apply h.change
  · exact fun _ _ => rfl
  · intro y hy
    obtain rfl := Option.some.inj hy
    rw [huses]
    exact h.count k o hk
  · rw [← h.alive, hk]
    rfl

theorem join (h : Counted uses ptr cell) (hc : ptr c = none) (hk : cell k = some o)
    (huses : uses o' = uses o + 1) :
    Counted uses (Function.update ptr c (some k)) (Function.update cell k (some o')) := by
  have hnew : c ∉ holders ptr k := by simp [hc]
  apply h.change
  · exact fun j hj => holders_take_other hc hj
  · intro y hy
    obtain rfl := Option.some.inj hy
    rw [huses, h.count k o hk, holders_take, Finset.card_insert_of_notMem hnew]
    push_cast
    rfl
  · simp [holders_take]

theorem create (h : Counted uses ptr cell) (hc : ptr c = none) (hk : cell k = none)
    (huses : uses o' = 1) :
    Counted uses (Function.update ptr c (some k)) (Function.update cell k (some o')) := by
  have hempty : holders ptr k = ∅ := by
    rw [← Finset.not_nonempty_iff_eq_empty, ← h.alive, hk]
    simp
  apply h.change
  · exact fun j hj => holders_take_other hc hj
  · intro y hy
    obtain rfl := Option.some.inj hy
    rw [huses, holders_take, hempty]
    simp
  · simp [holders_take]

theorem card_erase (h : Counted uses ptr cell) (hc : ptr c = some k) (hk : cell k = some o) :
    (((holders ptr k).erase c).card : ℤ) = uses o - 1 := by
  have hmem : c ∈ holders ptr k := mem_holders.mpr hc
  have hcard := Finset.card_erase_add_one hmem
  have hcount := h.count k o hk
  omega

theorem leave (h : Counted uses ptr cell) (hc : ptr c = some k) (hk : cell k = some o)
    (hmany : 1 < uses o) (huses : uses o' = uses o - 1) :
    Counted uses (Function.update ptr c none) (Function.update cell k (some o')) := by
  have hcard := h.card_erase hc hk
  apply h.change
  · exact fun j hj => holders_drop_other hc hj
  · intro y hy
    obtain rfl := Option.some.inj hy
    rw [holders_drop, huses, hcard]
  · have hpos : 0 < ((holders ptr k).erase c).card := by omega
    rw [holders_drop, ← Finset.card_pos]
    simp [hpos]

/-- With one use left the client is the only holder. -/
theorem last_iff (h : Counted uses ptr cell) (hc : ptr c = some k) (hk : cell k = some o) :
    uses o ≤ 1 ↔ holders ptr k = {c} := by
  have hcard := h.card_erase hc hk
  have hmem : c ∈ holders ptr k := mem_holders.mpr hc
  constructor
  · intro hlast
    have hempty : (holders ptr k).erase c = ∅ := by
      rw [← Finset.card_eq_zero]
      omega
    rw [← Finset.insert_erase hmem, hempty]
    rfl
  · intro honly
    rw [h.count k o hk, honly]
    simp

theorem close (h : Counted uses ptr cell) (hc : ptr c = some k) (hk : cell k = some o)
    (hlast : uses o ≤ 1) :
    Counted uses (Function.update ptr c none) (Function.update cell k none) := by
  apply h.change
  · exact fun j hj => holders_drop_other hc hj
  · intro y hy
    cases hy
  · rw [holders_drop, (h.last_iff hc hk).mp hlast]
    simp

end Counted

namespace Covered
variable {uses : Obj → ℤ} {ptr : C → Option K} {cell : K → Option Obj} {c : C} {k : K} {o o' : Obj}

omit [DecidableEq C] in
theorem change {ptr' : C → Option K} {x : Option Obj} (h : Covered uses ptr cell)
    (hother : ∀ j, j ≠ k → holders ptr' j ⊆ holders ptr j)
    (hcount : ∀ o, x = some o → (holders ptr' k).card ≤ uses o)
    (halive : (holders ptr' k).Nonempty → x.isSome = true) :
    Covered uses ptr' (Function.update cell k x) := by
  constructor
  · intro j y hy
    by_cases hj : j = k
    · subst hj
      rw [Function.update_self] at hy
      exact hcount y hy
    · rw [Function.update_of_ne hj] at hy
      have hle := Finset.card_le_card (hother j hj)
      have hold := h.count j y hy
      omega
  · intro j hj'
    by_cases hj : j = k
    · subst hj
      rw [Function.update_self]
      exact halive hj'
    · rw [Function.update_of_ne hj]
      exact h.alive j (hj'.mono (hother j hj))

omit [DecidableEq C] in
theorem modify (h : Covered uses ptr cell) (hk : cell k = some o) (huses : uses o' = uses o) :
    Covered uses ptr (Function.update cell k (some o')) := by
  apply h.change
  · exact fun _ _ => subset_rfl
  · intro y hy
    obtain rfl := Option.some.inj hy
    rw [huses]
    exact h.count k o hk
  · exact fun _ => rfl

theorem join (h : Covered uses ptr cell) (hk : cell k = some o) (huses : uses o' = uses o + 1) :
    Covered uses (Function.update ptr c (some k)) (Function.update cell k (some o')) := by
  apply h.change
  · intro j hj
    exact holders_update_subset (fun heq => hj (Option.some.inj heq).symm)
  · intro y hy
    obtain rfl := Option.some.inj hy
    have hcard := Finset.card_insert_le c (holders ptr k)
    have hcount := h.count k o hk
    rw [holders_take, huses]
    omega
  · exact fun _ => rfl

theorem create (h : Covered uses ptr cell) (hk : cell k = none) (huses : uses o' = 1) :
    Covered uses (Function.update ptr c (some k)) (Function.update cell k (some o')) := by
  have hempty : holders ptr k = ∅ := by
    rw [← Finset.not_nonempty_iff_eq_empty]
    intro hheld
    have halive := h.alive k hheld
    rw [hk] at halive
    cases halive
  apply h.change
  · intro j hj
    exact holders_update_subset (fun heq => hj (Option.some.inj heq).symm)
  · intro y hy
    obtain rfl := Option.some.inj hy
    rw [huses, holders_take, hempty]
    simp
  · exact fun _ => rfl

theorem card_erase_le (h : Covered uses ptr cell) (hc : ptr c = some k) (hk : cell k = some o) :
    (((holders ptr k).erase c).card : ℤ) ≤ uses o - 1 := by
  have hcard := Finset.card_erase_add_one (mem_holders.mpr hc)
  have hcount := h.count k o hk
  omega

theorem leave (h : Covered uses ptr cell) (hc : ptr c = some k) (hk : cell k = some o)
    (huses : uses o' = uses o - 1) :
    Covered uses (Function.update ptr c none) (Function.update cell k (some o')) := by
  apply h.change
  · exact fun j _ => holders_update_subset (by simp)
  · intro y hy
    obtain rfl := Option.some.inj hy
    rw [holders_drop, huses]
    exact h.card_erase_le hc hk
  · exact fun _ => rfl

theorem close (h : Covered uses ptr cell) (hc : ptr c = some k) (hk : cell k = some o)
    (hlast : uses o ≤ 1) :
    Covered uses (Function.update ptr c none) (Function.update cell k none) := by
  apply h.change
  · exact fun j _ => holders_update_subset (by simp)
  · intro y hy
    cases hy
  · intro hheld
    have hcard := h.card_erase_le hc hk
    rw [holders_drop, ← Finset.card_pos] at hheld
    omega

theorem drop (h : Covered uses ptr cell) : Covered uses (Function.update ptr c none) cell := by
  have hsub : ∀ j, holders (Function.update ptr c none) j ⊆ holders ptr j :=
    fun j => holders_update_subset (by simp)
  constructor
  · intro j y hy
    have hle := Finset.card_le_card (hsub j)
    have hcount := h.count j y hy
    omega
  · exact fun j hj => h.alive j (hj.mono (hsub j))

end Covered
end Jagles.ReferenceCounts
