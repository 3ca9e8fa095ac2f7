import Mathlib.Tactic

set_option autoImplicit false
set_option linter.dupNamespace false

/-!
# Computations with the accesses they make

A traced computation gives its value together with the places it has read or written, in
order. Sequencing appends the accesses, and a search goes no further than what it finds. All
accesses of a computation lie in a region when those of its parts do.
-/
namespace Jagles.AccessTraces

structure Traced (Place Value : Type) where
  value : Value
  accesses : List Place

variable {Place α β σ : Type}

namespace Traced

instance : Monad (Traced Place) where
  pure a := ⟨a, []⟩
  bind t f := ⟨(f t.value).value, t.accesses ++ (f t.value).accesses⟩

/-- One read. -/
def read (place : Place) (value : α) : Traced Place α := ⟨value, [place]⟩

/-- One write, which leaves the memory `value`. -/
def write (place : Place) (value : α) : Traced Place α := ⟨value, [place]⟩

/-- A value made of several places. -/
def readAll (places : List Place) (value : α) : Traced Place α := ⟨value, places⟩

@[simp] theorem value_pure (a : α) : (pure a : Traced Place α).value = a := rfl

@[simp] theorem value_bind (t : Traced Place α) (f : α → Traced Place β) :
    (t >>= f).value = (f t.value).value := rfl

@[simp] theorem value_read (place : Place) (a : α) : (read place a).value = a := rfl

@[simp] theorem value_readAll (places : List Place) (a : α) : (readAll places a).value = a := rfl

/-- Every access is in the region. -/
def Within (region : Place → Prop) (t : Traced Place α) : Prop := ∀ place ∈ t.accesses, region place

variable {region : Place → Prop}

@[simp] theorem within_pure_iff (a : α) : (pure a : Traced Place α).Within region ↔ True :=
  iff_of_true (fun _ h => nomatch h) trivial

@[simp] theorem within_read_iff {place : Place} {a : α} :
    (read place a).Within region ↔ region place := List.forall_mem_singleton

@[simp] theorem within_write_iff {place : Place} {a : α} :
    (write place a).Within region ↔ region place := List.forall_mem_singleton

@[simp] theorem within_readAll_iff {places : List Place} {a : α} :
    (readAll places a).Within region ↔ ∀ place ∈ places, region place := Iff.rfl

@[simp] theorem within_bind_iff {t : Traced Place α} {f : α → Traced Place β} :
    (t >>= f).Within region ↔ t.Within region ∧ (f t.value).Within region := List.forall_mem_append

theorem within_pure (a : α) : (pure a : Traced Place α).Within region :=
  (within_pure_iff a).mpr trivial

theorem within_read {place : Place} (h : region place) (a : α) : (read place a).Within region :=
  within_read_iff.mpr h

theorem Within.bind {t : Traced Place α} {f : α → Traced Place β} (ht : t.Within region)
    (hf : (f t.value).Within region) : (t >>= f).Within region := within_bind_iff.mpr ⟨ht, hf⟩

@[simp] theorem within_map_iff {t : Traced Place α} {f : α → β} :
    (f <$> t).Within region ↔ t.Within region :=
  within_bind_iff.trans (and_iff_left (within_pure _))

end Traced
open Traced

section Loops
variable {region : Place → Prop}

theorem value_anyM (p : α → Traced Place Bool) (l : List α) :
    (l.anyM p).value = l.any fun a => (p a).value := by
  induction l with
  | nil => rfl
  | cons a l ih =>
    simp only [List.anyM, value_bind, List.any_cons, ← ih]
    cases (p a).value with
    | true => rfl
    | false => rfl

theorem within_anyM {p : α → Traced Place Bool} {l : List α}
    (h : ∀ a ∈ l, (p a).Within region) : (l.anyM p).Within region := by
  induction l with
  | nil => exact within_pure _
  | cons a l ih =>
    refine (h a List.mem_cons_self).bind ?_
    cases (p a).value with
    | true => exact within_pure _
    | false => exact ih fun b hb => h b (List.mem_cons_of_mem a hb)

theorem value_findM? (p : α → Traced Place Bool) (l : List α) :
    (l.findM? p).value = l.find? fun a => (p a).value := by
  induction l with
  | nil => rfl
  | cons a l ih =>
    simp only [List.findM?, value_bind, List.find?_cons, ← ih]
    cases (p a).value with
    | true => rfl
    | false => rfl

theorem within_findM? {p : α → Traced Place Bool} {l : List α}
    (h : ∀ a ∈ l, (p a).Within region) : (l.findM? p).Within region := by
  induction l with
  | nil => exact within_pure _
  | cons a l ih =>
    refine (h a List.mem_cons_self).bind ?_
    cases (p a).value with
    | true => exact within_pure _
    | false => exact ih fun b hb => h b (List.mem_cons_of_mem a hb)

theorem value_foldlM (f : σ → α → Traced Place σ) (l : List α) (s : σ) :
    (l.foldlM f s).value = l.foldl (fun s a => (f s a).value) s := by
  induction l generalizing s with
  | nil => rfl
  | cons a l ih => exact ih (f s a).value

/-- A loop with an invariant stays in the region when each of its passes does. -/
theorem within_foldlM {f : σ → α → Traced Place σ} {l : List α} {s : σ} (I : σ → Prop)
    (keep : ∀ s, I s → ∀ a ∈ l, I (f s a).value)
    (h : ∀ s, I s → ∀ a ∈ l, (f s a).Within region) (hs : I s) : (l.foldlM f s).Within region := by
  induction l generalizing s with
  | nil => exact within_pure _
  | cons a l ih =>
    refine (h s hs a List.mem_cons_self).bind (ih ?_ ?_ ?_)
    · exact fun s hs b hb => keep s hs b (List.mem_cons_of_mem a hb)
    · exact fun s hs b hb => h s hs b (List.mem_cons_of_mem a hb)
    · exact keep s hs a List.mem_cons_self

/-- A loop whose passes access places that do not depend on the state is in the region
exactly when each of them is. -/
theorem within_foldlM_iff {f : σ → α → Traced Place σ} {l : List α} {P : α → Prop}
    (h : ∀ a ∈ l, ∀ s, (f s a).Within region ↔ P a) (s : σ) :
    (l.foldlM f s).Within region ↔ ∀ a ∈ l, P a := by
  induction l generalizing s with
  | nil => exact iff_of_true (within_pure _) (fun _ ha => nomatch ha)
  | cons a l ih =>
    rw [List.foldlM_cons, within_bind_iff, h a List.mem_cons_self, List.forall_mem_cons,
      ih fun b hb => h b (List.mem_cons_of_mem a hb)]

end Loops

end Jagles.AccessTraces
