import Mathlib.Tactic

set_option autoImplicit false
set_option linter.dupNamespace false

/-!
# Singly linked cells on a heap

A heap maps the addresses in use to cells of a datum and a pointer. A segment is a
chain of cells from one pointer to another, given with the addresses it goes through;
it depends on the cells at these addresses only.
-/
namespace Jagles.LinkedCells

structure Cell (α : Type*) where
  data : α
  next : Option ℕ

structure Heap (α : Type*) where
  cell : ℕ → Option (Cell α)
  used : List ℕ

variable {α : Type*}

namespace Heap

def empty : Heap α := ⟨fun _ => none, []⟩

def allocate (h : Heap α) (a : ℕ) (c : Cell α) : Heap α :=
  ⟨Function.update h.cell a (some c), a :: h.used⟩

def set (h : Heap α) (a : ℕ) (c : Cell α) : Heap α :=
  { h with cell := Function.update h.cell a (some c) }

def free (h : Heap α) (a : ℕ) : Heap α := ⟨Function.update h.cell a none, h.used.erase a⟩

def Listed (h : Heap α) : Prop := ∀ a c, h.cell a = some c → a ∈ h.used

variable {h : Heap α} {a : ℕ} {c : Cell α}

@[simp] theorem cell_allocate_self : (h.allocate a c).cell a = some c := Function.update_self ..

@[simp] theorem cell_set_self : (h.set a c).cell a = some c := Function.update_self ..

theorem cell_allocate_of_ne {b : ℕ} (hb : b ≠ a) : (h.allocate a c).cell b = h.cell b :=
  Function.update_of_ne hb ..

theorem cell_set_of_ne {b : ℕ} (hb : b ≠ a) : (h.set a c).cell b = h.cell b :=
  Function.update_of_ne hb ..

theorem cell_free_of_ne {b : ℕ} (hb : b ≠ a) : (h.free a).cell b = h.cell b :=
  Function.update_of_ne hb ..

theorem Listed.allocate (hl : h.Listed) : (h.allocate a c).Listed := by
  intro b d hb
  by_cases hba : b = a
  · rw [hba]
    exact List.mem_cons_self
  · rw [cell_allocate_of_ne hba] at hb
    exact List.mem_cons_of_mem _ (hl b d hb)

theorem Listed.set (hl : h.Listed) (ha : a ∈ h.used) : (h.set a c).Listed := by
  intro b d hb
  by_cases hba : b = a
  · rw [hba]
    exact ha
  · rw [cell_set_of_ne hba] at hb
    exact hl b d hb

theorem Listed.free (hl : h.Listed) : (h.free a).Listed := by
  intro b d hb
  by_cases hba : b = a
  · subst hba
    have hgone : (h.free b).cell b = none := Function.update_self ..
    rw [hgone] at hb
    cases hb
  · rw [cell_free_of_ne hba] at hb
    exact (List.mem_erase_of_ne hba).mpr (hl b d hb)

end Heap

inductive Segment (h : Heap α) : Option ℕ → List (ℕ × α) → Option ℕ → Prop where
  | nil (p : Option ℕ) : Segment h p [] p
  | cons {a : ℕ} {v : α} {n q : Option ℕ} {l : List (ℕ × α)} (cell : h.cell a = some ⟨v, n⟩)
      (tail : Segment h n l q) : Segment h (some a) ((a, v) :: l) q

variable {h h' : Heap α} {p q : Option ℕ} {l : List (ℕ × α)}

theorem Segment.append {m : Option ℕ} {l' : List (ℕ × α)} (s : Segment h p l m)
    (s' : Segment h m l' q) : Segment h p (l ++ l') q := by
  induction s with
  | nil _ => exact s'
  | cons cell _ ih => exact .cons cell (ih s')

theorem Segment.split {l' : List (ℕ × α)} (s : Segment h p (l ++ l') q) :
    ∃ m, Segment h p l m ∧ Segment h m l' q := by
  induction l generalizing p with
  | nil => exact ⟨p, .nil p, s⟩
  | cons c l ih =>
    cases s with
    | cons cell tail =>
      obtain ⟨m, hl, hl'⟩ := ih tail
      exact ⟨m, .cons cell hl, hl'⟩

/-- A segment only looks at its own cells. -/
theorem Segment.frame (s : Segment h p l q)
    (heq : ∀ a ∈ l.map Prod.fst, h'.cell a = h.cell a) : Segment h' p l q := by
  induction s with
  | nil p => exact .nil p
  | @cons a v n q l cell _ ih =>
    refine .cons (n := n) ?_ (ih fun b hb => heq b (List.mem_cons_of_mem _ hb))
    rw [heq a List.mem_cons_self, cell]

theorem Segment.eq_none (s : Segment h none l q) : l = [] ∧ q = none := by
  cases s with
  | nil => exact ⟨rfl, rfl⟩

theorem Segment.used (s : Segment h p l q) (hl : h.Listed) : ∀ a ∈ l.map Prod.fst, a ∈ h.used := by
  induction s with
  | nil _ => simp
  | cons cell _ ih =>
    intro b hb
    cases List.mem_cons.mp hb with
    | inl hba =>
      rw [hba]
      exact hl _ _ cell
    | inr hrest => exact ih b hrest

section Relinking
variable {a b t : ℕ} {v w : α} {post : List (ℕ × α)}

/-- The pointer before a cell is led past it, and the cell is freed. -/
theorem Segment.unlink (s : Segment h p (l ++ (b, w) :: (a, v) :: post) q)
    (hn : ((l ++ (b, w) :: (a, v) :: post).map Prod.fst).Nodup) :
    ∃ n, h.cell a = some ⟨v, n⟩ ∧ h.cell b = some ⟨w, some a⟩ ∧
      Segment ((h.set b ⟨w, n⟩).free a) p (l ++ (b, w) :: post) q := by
  simp only [List.map_append, List.map_cons, List.nodup_append, List.nodup_cons,
    List.mem_cons, not_or] at hn
  obtain ⟨-, ⟨⟨hba, hb⟩, ha, -⟩, hdis⟩ := hn
  obtain ⟨m, hfront, hrest⟩ := s.split
  cases hrest with
  | cons cellb hrest =>
    cases hrest with
    | @cons _ _ n _ _ cella tail =>
      have hcell (x : ℕ) (hxa : x ≠ a) (hxb : x ≠ b) :
          ((h.set b ⟨w, n⟩).free a).cell x = h.cell x := by
        rw [Heap.cell_free_of_ne hxa, Heap.cell_set_of_ne hxb]
      refine ⟨n, cella, cellb, (hfront.frame fun x hx => ?_).append (.cons (n := n) ?_
        (tail.frame fun x hx => ?_))⟩
      · exact hcell x (hdis x hx a (.inr (.inl rfl))) (hdis x hx b (.inl rfl))
      · rw [Heap.cell_free_of_ne hba, Heap.cell_set_self]
      · refine hcell x ?_ ?_
        · rintro rfl
          exact ha hx
        · rintro rfl
          exact hb hx

/-- A new cell is led in behind another one. -/
theorem Segment.link (s : Segment h p (l ++ (b, w) :: post) q)
    (hn : ((l ++ (b, w) :: post).map Prod.fst).Nodup)
    (ht : t ∉ (l ++ (b, w) :: post).map Prod.fst) (v : α) :
    ∃ n, h.cell b = some ⟨w, n⟩ ∧
      Segment ((h.set t ⟨v, n⟩).set b ⟨w, some t⟩) p (l ++ (b, w) :: (t, v) :: post) q := by
  simp only [List.map_append, List.map_cons, List.nodup_append, List.nodup_cons,
    List.mem_append, List.mem_cons, not_or] at hn ht
  obtain ⟨-, ⟨hb, -⟩, hdis⟩ := hn
  obtain ⟨htl, htb, htp⟩ := ht
  obtain ⟨m, hfront, hrest⟩ := s.split
  cases hrest with
  | @cons _ _ n _ _ cell tail =>
    have hcell (x : ℕ) (hxt : x ≠ t) (hxb : x ≠ b) :
        ((h.set t ⟨v, n⟩).set b ⟨w, some t⟩).cell x = h.cell x := by
      rw [Heap.cell_set_of_ne hxb, Heap.cell_set_of_ne hxt]
    refine ⟨n, cell, (hfront.frame fun x hx => ?_).append (.cons (n := some t)
      Heap.cell_set_self (.cons (n := n) ?_ (tail.frame fun x hx => ?_)))⟩
    · refine hcell x ?_ (hdis x hx b (.inl rfl))
      rintro rfl
      exact htl hx
    · rw [Heap.cell_set_of_ne htb, Heap.cell_set_self]
    · refine hcell x ?_ ?_
      · rintro rfl
        exact htp hx
      · rintro rfl
        exact hb hx

end Relinking

end Jagles.LinkedCells
