import Jagles.LinkedList
import Jagles.TaskQueue

set_option autoImplicit false
set_option linter.dupNamespace false

/-!
# The linked list refines a sequence

`Holds` gives the items of a list with their addresses. Each loop is followed along the
chain, and each member does to the chain what `Sequence` does to the data, or stops at a
null pointer.
-/
namespace Jagles
open LinkedCells

namespace LinkedList
variable {α : Type}

@[simp] theorem ok_bind {β γ : Type} (x : β) (f : β → Except Stop γ) :
    (Except.ok x >>= f) = f x := rfl

@[simp] theorem error_bind {β γ : Type} (e : Stop) (f : β → Except Stop γ) :
    ((Except.error e : Except Stop β) >>= f) = .error e := rfl

theorem deref_eq {h : Heap α} {a : ℕ} {c : Cell α} (hc : h.cell a = some c) :
    deref h (some a) = .ok c := by
  simp only [deref, hc]

section Loops
variable {h : Heap α} {p q : Option ℕ} {l : List (ℕ × α)}

theorem lengthLoop_eq (s : Segment h p l none) {fuel : ℕ} (hf : l.length ≤ fuel) (len : ℤ) :
    lengthLoop h fuel len p = .ok (len + l.length) := by
  induction l generalizing p fuel len with
  | nil =>
    cases s
    simp [lengthLoop]
  | cons c l ih =>
    cases s with
    | cons cell tail =>
      rw [List.length_cons] at hf
      obtain ⟨n, rfl⟩ : ∃ n, fuel = n + 1 := ⟨fuel - 1, by omega⟩
      simp only [lengthLoop, deref_eq cell, ok_bind]
      rw [ih tail (by omega), List.length_cons]
      congr 1
      push_cast
      ring

theorem walk_eq (s : Segment h p l q) (i : ℤ) : walk h l.length i p = .ok (q, i + l.length) := by
  induction s generalizing i with
  | nil _ => simp [walk]
  | cons cell _ ih =>
    simp only [List.length_cons, walk, deref_eq cell, ok_bind]
    rw [ih]
    congr 2
    push_cast
    ring

theorem walk_past (s : Segment h p l none) {n : ℕ} (hn : l.length < n) (i : ℤ) :
    walk h n i p = .ok (none, i + l.length) := by
  induction l generalizing p n i with
  | nil =>
    cases s
    obtain ⟨n, rfl⟩ : ∃ m, n = m + 1 := ⟨n - 1, by simp at hn; omega⟩
    simp [walk]
  | cons c l ih =>
    cases s with
    | cons cell tail =>
      rw [List.length_cons] at hn
      obtain ⟨n, rfl⟩ : ∃ m, n = m + 1 := ⟨n - 1, by omega⟩
      simp only [walk, deref_eq cell, ok_bind]
      rw [ih tail (by omega), List.length_cons]
      congr 2
      push_cast
      ring

theorem searchLoop_eq [DecidableEq α] (s : Segment h p l none) (v : α) {fuel : ℕ}
    (hf : l.length ≤ fuel) (k : ℤ) : searchLoop h v fuel k p =
      .ok (match (l.map Prod.snd).idxOf? v with | some i => k + i | none => -1) := by
  induction l generalizing p fuel k with
  | nil =>
    cases s
    simp [searchLoop]
  | cons c l ih =>
    cases s with
    | @cons a w _ _ _ cell tail =>
      rw [List.length_cons] at hf
      obtain ⟨n, rfl⟩ : ∃ n, fuel = n + 1 := ⟨fuel - 1, by omega⟩
      simp only [searchLoop, deref_eq cell, ok_bind, List.map_cons, List.idxOf?_cons]
      by_cases hw : w = v
      · simp [hw]
      · rw [if_neg hw, ih tail (by omega), if_neg (by simpa using hw)]
        cases (l.map Prod.snd).idxOf? v with
        | none => rfl
        | some i =>
          simp only [Option.map_some]
          congr 1
          push_cast
          ring

theorem removeLoop_eq {a : ℕ} {v : α} (s : Segment h p (l ++ [(a, v)]) q) (prev : Option ℕ) :
    removeLoop h (l.length + 1) prev p = .ok (some (some a, q)) := by
  induction l generalizing p prev with
  | nil =>
    cases s with
    | cons cell tail =>
      cases tail
      simp [removeLoop, deref_eq cell]
  | cons c l ih =>
    cases s with
    | cons cell tail =>
      simp only [List.length_cons, removeLoop, deref_eq cell, ok_bind]
      exact ih tail _

theorem removeLoop_past (s : Segment h p l none) {n : ℕ} (hn : l.length < n) (prev : Option ℕ) :
    removeLoop h n prev p = .ok none := by
  induction l generalizing p n prev with
  | nil =>
    cases s
    obtain ⟨n, rfl⟩ : ∃ m, n = m + 1 := ⟨n - 1, by simp at hn; omega⟩
    rfl
  | cons c l ih =>
    cases s with
    | cons cell tail =>
      rw [List.length_cons] at hn
      obtain ⟨n, rfl⟩ : ∃ m, n = m + 1 := ⟨n - 1, by omega⟩
      simp only [removeLoop, deref_eq cell, ok_bind]
      exact ih tail (by omega) _

/-- The loop of `insert` stops at its bound or at the last item. -/
theorem insertLoop_eq {pre post : List (ℕ × α)} {a b : ℕ} {w : α} {bound : Option ℕ}
    (s : Segment h (some a) (pre ++ (b, w) :: post) none) {fuel : ℕ} (hf : pre.length < fuel)
    (hb : bound = some pre.length ∨ post = [] ∧ ∀ n ∈ bound, pre.length ≤ n) :
    insertLoop h fuel bound a = .ok b := by
  obtain ⟨fuel, rfl⟩ : ∃ n, fuel = n + 1 := ⟨fuel - 1, by omega⟩
  induction pre generalizing a bound fuel with
  | nil =>
    cases s with
    | @cons _ _ n _ _ cell tail =>
      simp only [insertLoop, deref_eq cell, ok_bind]
      rcases hb with rfl | ⟨rfl, -⟩
      · cases n <;> rfl
      · cases tail
        rfl
  | cons c pre ih =>
    cases s with
    | @cons _ _ n _ _ cell tail =>
      simp only [insertLoop, deref_eq cell, ok_bind]
      rw [List.length_cons] at hf hb
      obtain ⟨fuel, rfl⟩ : ∃ n, fuel = n + 1 := ⟨fuel - 1, by omega⟩
      obtain ⟨d, rfl⟩ : ∃ d, n = some d := by
        cases n with
        | none => simpa using tail.eq_none.1
        | some d => exact ⟨d, rfl⟩
      rcases bound with _ | _ | m
      · refine ih tail (.inr ?_) fuel (by omega)
        rcases hb with hb | hb
        · cases hb
        · exact ⟨hb.1, by simp⟩
      · rcases hb with hb | hb
        · simp at hb
        · have := hb.2 0 rfl
          omega
      · refine ih tail ?_ fuel (by omega)
        rcases hb with hb | hb
        · left
          simpa using hb
        · have := hb.2 (m + 1) rfl
          exact .inr ⟨hb.1, by simp; omega⟩

end Loops

/-- The items of the list, with their addresses. -/
structure Holds (l : LinkedList α) (cells : List (ℕ × α)) : Prop where
  chain : Segment l.heap l.header cells none
  nodup : (cells.map Prod.fst).Nodup
  listed : l.heap.Listed

def Represents (l : LinkedList α) (xs : List α) : Prop :=
  ∃ cells, Holds l cells ∧ cells.map Prod.snd = xs

theorem create_represents : (create : LinkedList α).Represents [] := by
  refine ⟨[], ⟨.nil _, List.nodup_nil, ?_⟩, rfl⟩
  intro a c hc
  cases hc

namespace Holds
variable {l : LinkedList α} {cells pre post : List (ℕ × α)} {a : ℕ} {v : α}

theorem header_eq_none (hl : Holds l cells) : l.header = none ↔ cells = [] := by
  constructor
  · intro h
    have hc := hl.chain
    rw [h] at hc
    exact hc.eq_none.1
  · rintro rfl
    have hc := hl.chain
    cases h : l.header with
    | none => rfl
    | some a =>
      rw [h] at hc
      cases hc

theorem at_eq (hl : Holds l (pre ++ (a, v) :: post)) : l.at pre.length = .ok (some v) := by
  obtain ⟨m, hpre, hpost⟩ := hl.chain.split
  have hne : l.header ≠ none := by
    rw [ne_eq, hl.header_eq_none]
    simp
  cases hpost with
  | cons cell tail =>
    unfold LinkedList.at
    rw [if_neg (by omega), if_neg hne, Int.toNat_natCast, walk_eq hpre]
    simp [deref_eq cell]

theorem at_length (hl : Holds l cells) (hne : cells ≠ []) :
    l.at cells.length = .error .nullPointer := by
  unfold LinkedList.at
  rw [if_neg (by omega), if_neg (by rw [hl.header_eq_none]; exact hne), Int.toNat_natCast,
    walk_eq hl.chain]
  simp [deref]

theorem at_past (hl : Holds l cells) {k : ℤ} (hk : (cells.length : ℤ) < k) :
    l.at k = .ok none := by
  unfold LinkedList.at
  rw [if_neg (by omega)]
  split
  · rfl
  · rw [walk_past hl.chain (by omega)]
    simp only [ok_bind]
    rw [if_pos (by omega)]

theorem remove_eq (hl : Holds l (pre ++ (a, v) :: post)) :
    ∃ l', l.remove pre.length = .ok l' ∧ Holds l' (pre ++ post) := by
  have hchain := hl.chain
  have hnodup := hl.nodup
  have hsub : ((pre ++ post).map Prod.fst).Nodup :=
    hnodup.sublist ((List.Sublist.append_left (List.sublist_cons_self _ _) _).map _)
  unfold LinkedList.remove
  rw [if_neg (by omega), Int.toNat_natCast]
  rcases List.eq_nil_or_concat pre with rfl | ⟨front, ⟨b, w⟩, rfl⟩
  · rw [List.nil_append] at hchain hnodup
    rw [List.map_cons, List.nodup_cons] at hnodup
    generalize l.header = header at hchain
    cases hchain with
    | cons cell tail =>
      simp only [List.length_nil, removeLoop, ok_bind, deref_eq cell]
      refine ⟨_, rfl, ?_, hsub, hl.listed.free⟩
      exact tail.frame fun x hx => Heap.cell_free_of_ne (by rintro rfl; exact hnodup.1 hx)
  · rw [List.concat_eq_append, List.append_assoc, List.singleton_append] at *
    obtain ⟨n, cella, cellb, hnew⟩ := hchain.unlink hnodup
    rw [List.append_cons] at hchain
    obtain ⟨m, hfront, hrest⟩ := hchain.split
    cases hrest with
    | cons =>
      rw [List.length_append, List.length_singleton, removeLoop_eq hfront]
      simp only [ok_bind, deref_eq cella, deref_eq cellb, Option.getD_some]
      exact ⟨_, rfl, hnew, hsub, (hl.listed.set (hl.listed b _ cellb)).free⟩

theorem remove_length (hl : Holds l cells) : l.remove cells.length = .error .nullPointer := by
  unfold LinkedList.remove
  rw [if_neg (by omega), Int.toNat_natCast]
  rcases List.eq_nil_or_concat cells with rfl | ⟨front, ⟨b, w⟩, rfl⟩
  · rw [hl.header_eq_none.mpr rfl]
    simp [removeLoop, deref]
  · rw [List.concat_eq_append] at *
    rw [List.length_append, List.length_singleton, removeLoop_eq hl.chain]
    simp [deref]

theorem remove_past (hl : Holds l cells) {k : ℤ} (hk : (cells.length : ℤ) < k) :
    l.remove k = .ok l := by
  unfold LinkedList.remove
  rw [if_neg (by omega), removeLoop_past hl.chain (by omega)]
  rfl

theorem insert_nil (hl : Holds l []) (fuel t : ℕ) (k : ℤ) (v : α) :
    ∃ l', l.insert fuel t k v = .ok l' ∧ Holds l' [(t, v)] := by
  unfold LinkedList.insert
  rw [hl.header_eq_none.mpr rfl]
  refine ⟨_, rfl, ?_, by simp, hl.listed.allocate⟩
  exact .cons Heap.cell_allocate_self (.nil none)

theorem insert_eq {fuel t : ℕ} {k : ℤ} {b : ℕ} {w : α} (hl : Holds l (pre ++ (b, w) :: post))
    (ht : t ∉ l.heap.used) (hf : pre.length < fuel) (v : α)
    (hk : k = pre.length ∨ post = [] ∧ (k < 0 ∨ (pre.length : ℤ) ≤ k)) :
    ∃ l', l.insert fuel t k v = .ok l' ∧ Holds l' (pre ++ (b, w) :: (t, v) :: post) := by
  have hused := hl.chain.used hl.listed
  have hfresh : t ∉ (pre ++ (b, w) :: post).map Prod.fst := fun h => ht (hused t h)
  have halloc : Segment (l.heap.allocate t ⟨v, none⟩) l.header (pre ++ (b, w) :: post) none :=
    hl.chain.frame fun x hx => Heap.cell_allocate_of_ne (by rintro rfl; exact hfresh hx)
  obtain ⟨n, cell, hnew⟩ := halloc.link hl.nodup hfresh v
  obtain ⟨a, ha⟩ : ∃ a, l.header = some a := by
    cases h : l.header with
    | some a => exact ⟨a, rfl⟩
    | none => simp [hl.header_eq_none] at h
  have hloop : insertLoop (l.heap.allocate t ⟨v, none⟩) fuel
      (if k < 0 then none else some k.toNat) a = .ok b := by
    rw [ha] at halloc
    refine insertLoop_eq halloc hf ?_
    rcases hk with rfl | ⟨rfl, hk⟩
    · left
      rw [if_neg (by omega), Int.toNat_natCast]
    · refine .inr ⟨rfl, ?_⟩
      intro i hi
      split at hi
      · cases hi
      · simp only [Option.mem_def, Option.some.injEq] at hi
        omega
  have hperm : ((pre ++ (b, w) :: (t, v) :: post).map Prod.fst).Perm
      (t :: (pre ++ (b, w) :: post).map Prod.fst) := by
    simp only [List.map_append, List.map_cons]
    exact (List.Perm.append_left _ (List.Perm.swap _ _ _)).trans List.perm_middle
  unfold LinkedList.insert
  simp only [ha, hloop, ok_bind, deref_eq cell]
  rw [ha] at hnew
  refine ⟨_, rfl, hnew, ?_, ?_⟩
  · rw [hperm.nodup_iff]
    exact List.nodup_cons.mpr ⟨hfresh, hl.nodup⟩
  · refine (hl.listed.allocate.set List.mem_cons_self).set ?_
    exact List.mem_cons_of_mem _ (hused b (by simp))

end Holds

theorem split_at {cells : List (ℕ × α)} {n : ℕ} (hn : n < cells.length) :
    ∃ pre a v post, cells = pre ++ (a, v) :: post ∧ pre.length = n := by
  refine ⟨cells.take n, cells[n].1, cells[n].2, cells.drop (n + 1), ?_, ?_⟩
  · rw [Prod.mk.eta, ← List.drop_eq_getElem_cons hn, List.take_append_drop]
  · rw [List.length_take]
    omega

section Refinement
variable {l : LinkedList α} {xs : List α}

theorem at_refines (hl : Represents l xs) {k : ℤ} (hk : Sequence.InRange xs (.at k)) :
    l.at k = .ok (if k < 0 then none else xs[k.toNat]?) := by
  obtain ⟨cells, hc, rfl⟩ := hl
  by_cases hneg : k < 0
  · rw [if_pos hneg, LinkedList.at, if_pos hneg]
  rw [if_neg hneg]
  obtain ⟨n, rfl⟩ : ∃ n : ℕ, k = n := ⟨k.toNat, by omega⟩
  rw [Int.toNat_natCast]
  rcases lt_trichotomy n cells.length with hlt | heq | hgt
  · obtain ⟨pre, a, v, post, rfl, rfl⟩ := split_at hlt
    rw [hc.at_eq, List.map_append, List.getElem?_append_right (by simp)]
    simp
  · rcases hk with hnil | hne
    · obtain rfl : cells = [] := by simpa using hnil
      simp [LinkedList.at, hc.header_eq_none.mpr rfl]
    · exact absurd (by simp [heq]) hne
  · rw [hc.at_past (by omega), List.getElem?_eq_none (by simp; omega)]

theorem at_stops (hl : Represents l xs) {k : ℤ} (hk : ¬ Sequence.InRange xs (.at k)) :
    l.at k = .error .nullPointer := by
  obtain ⟨cells, hc, rfl⟩ := hl
  simp only [Sequence.InRange, ne_eq, not_or, not_not, List.length_map, List.map_eq_nil_iff] at hk
  rw [hk.2]
  exact hc.at_length hk.1

theorem remove_refines (hl : Represents l xs) {k : ℤ} (hk : k ≠ xs.length) :
    ∃ l', l.remove k = .ok l' ∧ Represents l' (if k < 0 then xs else xs.eraseIdx k.toNat) := by
  obtain ⟨cells, hc, rfl⟩ := hl
  by_cases hneg : k < 0
  · rw [if_pos hneg, LinkedList.remove, if_pos hneg]
    exact ⟨l, rfl, cells, hc, rfl⟩
  rw [if_neg hneg]
  obtain ⟨n, rfl⟩ : ∃ n : ℕ, k = n := ⟨k.toNat, by omega⟩
  rw [Int.toNat_natCast]
  rcases lt_trichotomy n cells.length with hlt | heq | hgt
  · obtain ⟨pre, a, v, post, rfl, rfl⟩ := split_at hlt
    obtain ⟨l', hl', hholds⟩ := hc.remove_eq
    refine ⟨l', hl', _, hholds, ?_⟩
    rw [List.map_append, List.map_append, List.eraseIdx_append_of_length_le (by simp)]
    simp
  · exact absurd (by simp [heq]) hk
  · refine ⟨l, hc.remove_past (by omega), cells, hc, ?_⟩
    rw [List.eraseIdx_of_length_le (by simp; omega)]

theorem remove_stops (hl : Represents l xs) : l.remove xs.length = .error .nullPointer := by
  obtain ⟨cells, hc, rfl⟩ := hl
  rw [List.length_map]
  exact hc.remove_length

theorem insert_refines (hl : Represents l xs) {fuel t : ℕ} (hf : xs.length < fuel)
    (ht : t ∉ l.heap.used) (k : ℤ) (v : α) :
    ∃ l', l.insert fuel t k v = .ok l' ∧ Represents l' (Sequence.insert xs k v) := by
  obtain ⟨cells, hc, rfl⟩ := hl
  rw [List.length_map] at hf
  by_cases hnil : cells = []
  · subst hnil
    obtain ⟨l', hl', hholds⟩ := hc.insert_nil fuel t k v
    exact ⟨l', hl', _, hholds, by simp [Sequence.insert]⟩
  have hpos : 0 < cells.length := List.length_pos_of_ne_nil hnil
  -- the item behind which the new one goes
  have hn : (if k < 0 then cells.length - 1 else min k.toNat (cells.length - 1)) < cells.length := by
    split <;> omega
  obtain ⟨pre, b, w, post, rfl, hpre⟩ := split_at hn
  rw [List.length_append, List.length_cons] at hpre hf
  obtain ⟨l', hl', hholds⟩ := hc.insert_eq ht (show pre.length < fuel by omega) v (k := k) (by
    by_cases hneg : k < 0
    · rw [if_pos hneg] at hpre
      exact .inr ⟨List.eq_nil_of_length_eq_zero (by omega), .inl hneg⟩
    · rw [if_neg hneg] at hpre
      by_cases hlast : k.toNat = pre.length
      · left
        omega
      · exact .inr ⟨List.eq_nil_of_length_eq_zero (by omega), .inr (by omega)⟩)
  refine ⟨l', hl', _, hholds, ?_⟩
  have hcut : (if k < 0 then ((pre ++ (b, w) :: post).map Prod.snd).length
      else min k.toNat (((pre ++ (b, w) :: post).map Prod.snd).length - 1) + 1) =
        ((pre ++ [(b, w)]).map Prod.snd).length := by
    simp only [List.length_map, List.length_append, List.length_cons, List.length_nil]
    split at hpre
    · rw [if_pos ‹_›]
      omega
    · rw [if_neg ‹_›]
      omega
  have hsplit : (pre ++ (b, w) :: post).map Prod.snd =
      (pre ++ [(b, w)]).map Prod.snd ++ post.map Prod.snd := by simp
  unfold Sequence.insert
  simp only [hcut]
  rw [hsplit, List.take_left, List.drop_left]
  simp

section Runs
variable [DecidableEq α] {new : List ℕ → ℕ} {fuel : ℕ}

theorem step_refines (hnew : ∀ used, new used ∉ used) (hl : Represents l xs)
    (hf : xs.length < fuel) {op : Op α} (hop : Sequence.InRange xs op) :
    ∃ l', step new fuel l op = .ok (l', (Sequence.step xs op).2) ∧
      Represents l' (Sequence.step xs op).1 := by
  cases op with
  | isEmpty =>
    refine ⟨l, ?_, hl⟩
    obtain ⟨cells, hc, rfl⟩ := hl
    simp only [step, Sequence.step, LinkedList.isEmpty]
    cases hcells : cells with
    | nil => simp [hc.header_eq_none.mpr hcells]
    | cons c cells' =>
      have hne : l.header ≠ none := by
        rw [ne_eq, hc.header_eq_none, hcells]
        simp
      simpa [Option.isSome_iff_ne_none] using hne
  | length =>
    refine ⟨l, ?_, hl⟩
    obtain ⟨cells, hc, rfl⟩ := hl
    rw [List.length_map] at hf
    simp only [step, Sequence.step, LinkedList.length, lengthLoop_eq hc.chain hf.le, zero_add,
      List.length_map]
    rfl
  | «at» k =>
    refine ⟨l, ?_, hl⟩
    simp only [step, Sequence.step, at_refines hl hop]
    rfl
  | search v =>
    refine ⟨l, ?_, hl⟩
    obtain ⟨cells, hc, rfl⟩ := hl
    rw [List.length_map] at hf
    simp only [step, Sequence.step, LinkedList.search, searchLoop_eq hc.chain v hf.le,
      Sequence.search, zero_add]
    rfl
  | remove k =>
    obtain ⟨l', hl', hrep⟩ := remove_refines hl hop
    refine ⟨l', ?_, hrep⟩
    simp only [step, hl']
    rfl
  | insert k v =>
    obtain ⟨l', hl', hrep⟩ := insert_refines hl hf (hnew l.heap.used) k v
    refine ⟨l', ?_, hrep⟩
    simp only [step, hl']
    rfl

theorem step_stops (hl : Represents l xs) {op : Op α} (hop : ¬ Sequence.InRange xs op) :
    step new fuel l op = .error .nullPointer := by
  cases op with
  | «at» k =>
    simp only [step, at_stops hl hop]
    rfl
  | remove k =>
    obtain rfl : k = xs.length := by simpa [Sequence.InRange] using hop
    simp only [step, remove_stops hl]
    rfl
  | isEmpty | length | search | insert => exact absurd trivial hop

theorem Sequence.step_length (xs : List α) (op : Op α) :
    (Sequence.step xs op).1.length ≤ xs.length + 1 := by
  cases op with
  | remove k =>
    simp only [Sequence.step]
    split
    · omega
    · have := List.length_eraseIdx_le xs k.toNat
      omega
  | insert k v =>
    simp only [Sequence.step, Sequence.insert, List.length_append, List.length_cons,
      List.length_take, List.length_drop]
    omega
  | isEmpty | length | «at» | search => exact Nat.le_succ _

/-- A run of calls goes through with the answers of the sequence, and leaves a list that
holds it, exactly when every call is in range. -/
theorem list_refines_sequence (hnew : ∀ used, new used ∉ used) {ops : List (Op α)}
    (hl : Represents l xs) (hf : xs.length + ops.length < fuel) :
    (∃ l', run new fuel l ops = .ok (l', (Sequence.run xs ops).2) ∧
      Represents l' (Sequence.run xs ops).1) ↔ Sequence.AllInRange xs ops := by
  induction ops generalizing l xs with
  | nil => exact ⟨fun _ => trivial, fun _ => ⟨l, rfl, hl⟩⟩
  | cons op ops ih =>
    rw [List.length_cons] at hf
    have hlen := Sequence.step_length xs op
    by_cases hop : Sequence.InRange xs op
    · obtain ⟨l₁, hstep, hl₁⟩ := step_refines hnew hl (show xs.length < fuel by omega) hop
      have hrest := ih hl₁ (by omega)
      constructor
      · rintro ⟨l', hrun, hrep⟩
        refine ⟨hop, hrest.mp ⟨l', ?_, hrep⟩⟩
        simp only [run, hstep, ok_bind] at hrun
        cases htail : run new fuel l₁ ops with
        | error e =>
          rw [htail] at hrun
          cases hrun
        | ok r =>
          rw [htail] at hrun
          simp only [ok_bind, Sequence.run, Except.ok.injEq, Prod.mk.injEq, List.cons.injEq,
            true_and] at hrun
          rw [← hrun.1, ← hrun.2]
      · rintro ⟨-, hall⟩
        obtain ⟨l', hrun, hrep⟩ := hrest.mpr hall
        refine ⟨l', ?_, hrep⟩
        simp only [run, hstep, ok_bind, hrun, Sequence.run]
    · constructor
      · rintro ⟨l', hrun, -⟩
        simp only [run, step_stops hl hop, error_bind] at hrun
        cases hrun
      · exact fun hall => absurd hall.1 hop

end Runs

def nextAddress (used : List ℕ) : ℕ := used.foldr max 0 + 1

theorem nextAddress_free (used : List ℕ) : nextAddress used ∉ used := by
  have hle (a : ℕ) (ha : a ∈ used) : a ≤ used.foldr max 0 := by
    induction used with
    | nil => cases ha
    | cons b used ih =>
      rw [List.foldr_cons]
      cases List.mem_cons.mp ha with
      | inl hab => omega
      | inr hin => exact (ih hin).trans (le_max_right _ _)
  intro h
  have := hle _ h
  unfold nextAddress at this
  omega

theorem list_refines_sequence_five_calls : ∃ l',
    run nextAddress 6 create [.insert (-1) 4, .insert 0 6, .at 1, .remove 0, .at 7] =
      .ok (l', [.done, .done, .item (some 6), .done, .item none]) ∧ Represents l' [6] :=
  (list_refines_sequence nextAddress_free create_represents (by decide)).mpr (by decide)

/-- The index behind the last item leads to a null pointer, in `at` and in `remove`. -/
theorem length_follows_null_pointer :
    run nextAddress 3 create [.insert (-1) 4, .at 1] = .error .nullPointer ∧
    run nextAddress 3 create [.insert (-1) 4, .remove 1] = .error .nullPointer ∧
    run nextAddress 3 (create : LinkedList ℕ) [.remove 0] = .error .nullPointer :=
  ⟨rfl, rfl, rfl⟩

theorem insertAfter_eq (v : α) (xs : List α) (n : ℕ) : TaskQueue.insertAfter v xs n =
    xs.take (min n (xs.length - 1) + 1) ++ v :: xs.drop (min n (xs.length - 1) + 1) := by
  induction xs, n using TaskQueue.insertAfter.induct with
  | case1 => simp [TaskQueue.insertAfter]
  | case2 => simp [TaskQueue.insertAfter]
  | case3 => simp [TaskQueue.insertAfter]
  | case4 x y xs n ih =>
    rw [TaskQueue.insertAfter, ih]
    have hmin : min (n + 1) ((x :: y :: xs).length - 1) =
        min n ((y :: xs).length - 1) + 1 := by
      simp only [List.length_cons]
      omega
    rw [hmin]
    simp

/-- The queue of the commands inserts as the linked list does. -/
theorem queue_insert (xs : List α) (k : ℤ) (v : α) :
    TaskQueue.insert xs k v = Sequence.insert xs k v := by
  unfold TaskQueue.insert Sequence.insert
  rw [insertAfter_eq]
  split
  · cases xs <;> simp
  · rfl

end Refinement

end LinkedList
end Jagles
