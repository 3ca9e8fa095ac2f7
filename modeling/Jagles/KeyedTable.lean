import Mathlib.Tactic

set_option autoImplicit false
set_option linter.dupNamespace false

/-!
# Tables searched by their first match

A table is a list of records that is searched from the front. While no two records
have the same key, the first match is the only one, and removing the first match of
a predicate that singles out one record removes every match.
-/
namespace Jagles.KeyedTable

variable {Rec Key : Type*} [DecidableEq Key] (key : Rec → Key)

def lookup (t : List Rec) (k : Key) : Option Rec := t.find? fun r => decide (key r = k)

/-- No two records have the same key. -/
def DistinctKeys (t : List Rec) : Prop := (t.map key).Nodup

variable {key} {t : List Rec} {k : Key}

omit [DecidableEq Key] in
theorem DistinctKeys.sublist {t' : List Rec} (h : DistinctKeys key t) (hs : t'.Sublist t) :
    DistinctKeys key t' := List.Nodup.sublist (hs.map key) h

omit [DecidableEq Key] in
theorem DistinctKeys.inj (h : DistinctKeys key t) {r r' : Rec} (hr : r ∈ t) (hr' : r' ∈ t)
    (hk : key r = key r') : r = r' := by
  exact List.inj_on_of_nodup_map h hr hr' hk

theorem lookup_mem {r : Rec} (h : lookup key t k = some r) : r ∈ t ∧ key r = k := by
  refine ⟨List.mem_of_find?_eq_some h, ?_⟩
  have hk := List.find?_some h
  exact of_decide_eq_true hk

theorem lookup_cons (r : Rec) (k : Key) :
    lookup key (r :: t) k = if key r = k then some r else lookup key t k := by
  unfold lookup
  rw [List.find?_cons]
  by_cases hk : key r = k <;> simp [hk]

theorem lookup_eq_none : lookup key t k = none ↔ ∀ r ∈ t, key r ≠ k := by
  unfold lookup
  rw [List.find?_eq_none]
  simp

theorem DistinctKeys.lookup_eq (h : DistinctKeys key t) {r : Rec} (hr : r ∈ t)
    (hk : key r = k) : lookup key t k = some r := by
  cases hl : lookup key t k with
  | none => exact absurd hk (lookup_eq_none.mp hl r hr)
  | some r' =>
    obtain ⟨hmem, hk'⟩ := lookup_mem hl
    rw [h.inj hmem hr (hk'.trans hk.symm)]

theorem lookup_snoc (r : Rec) (k : Key) :
    lookup key (t ++ [r]) k = (lookup key t k).or (if key r = k then some r else none) := by
  unfold lookup
  rw [List.find?_append]
  by_cases hk : key r = k
  · simp [hk]
  · simp [hk]

theorem DistinctKeys.snoc (h : DistinctKeys key t) {r : Rec} (hr : lookup key t (key r) = none) :
    DistinctKeys key (t ++ [r]) := by
  unfold DistinctKeys at *
  rw [List.map_append, List.map_singleton]
  apply List.nodup_append.mpr
  refine ⟨h, List.nodup_singleton _, ?_⟩
  intro a ha b hb hab
  rw [List.mem_singleton] at hb
  obtain ⟨r', hr', hk⟩ := List.mem_map.mp ha
  exact lookup_eq_none.mp hr r' hr' (hk.trans (hab.trans hb))

/-- Taking out what is found under a key takes out that record and no other. -/
theorem perm_eraseP {r : Rec} (h : lookup key t k = some r) :
    t.Perm (r :: t.eraseP fun r => decide (key r = k)) := by
  obtain ⟨hk, before, after, rfl, hbefore⟩ := List.find?_eq_some_iff_append.mp h
  have herase : (before ++ r :: after).eraseP (fun r => decide (key r = k)) = before ++ after := by
    rw [List.eraseP_append_right _ fun x hx => by simpa using hbefore x hx,
      List.eraseP_cons_of_pos (p := fun r => decide (key r = k)) hk]
  rw [herase]
  exact List.perm_middle

/-- Only what has the key is taken out under it. -/
theorem key_of_perm_eraseP {r : Rec} (h : t.Perm (r :: t.eraseP fun r => decide (key r = k))) :
    key r = k := by
  rcases List.exists_or_eq_self_of_eraseP (fun r => decide (key r = k)) t with
    hsame | ⟨x, before, after, -, hx, ht, herase⟩
  · rw [hsame] at h
    have hlen := h.length_eq
    rw [List.length_cons] at hlen
    omega
  · rw [herase, ht] at h
    have hx' : (x :: (before ++ after)).Perm (r :: (before ++ after)) :=
      List.perm_middle.symm.trans h
    have hsame : x ::ₘ (↑(before ++ after) : Multiset Rec) = r ::ₘ ↑(before ++ after) :=
      Multiset.coe_eq_coe.mpr hx'
    obtain rfl := (Multiset.cons_inj_left _).mp hsame
    exact of_decide_eq_true hx

/-- Taking out a record with another key is not seen under this one. -/
theorem lookup_eraseP {p : Rec → Bool} (h : ∀ r, p r = true → key r ≠ k) :
    lookup key (t.eraseP p) k = lookup key t k := by
  induction t with
  | nil => rfl
  | cons r t ih =>
    cases hp : p r with
    | true => rw [List.eraseP_cons_of_pos hp, lookup_cons, if_neg (h r hp)]
    | false => rw [List.eraseP_cons_of_neg (by simp [hp]), lookup_cons, lookup_cons, ih]

omit [DecidableEq Key] in
theorem eraseP_eq_filter {p : Rec → Bool} (hd : t.Nodup)
    (h : ∀ r ∈ t, ∀ r' ∈ t, p r = true → p r' = true → r = r') :
    t.eraseP p = t.filter fun r => !p r := by
  induction t with
  | nil => rfl
  | cons r t ih =>
    obtain ⟨hr, ht⟩ := List.nodup_cons.mp hd
    have hrest : ∀ r ∈ t, ∀ r' ∈ t, p r = true → p r' = true → r = r' :=
      fun a ha b hb => h a (List.mem_cons_of_mem _ ha) b (List.mem_cons_of_mem _ hb)
    cases hp : p r with
    | false =>
      rw [List.eraseP_cons_of_neg (by simp [hp]), List.filter_cons_of_pos (by simp [hp]),
        ih ht hrest]
    | true =>
      rw [List.eraseP_cons_of_pos hp, List.filter_cons_of_neg (by simp [hp])]
      symm
      apply List.filter_eq_self.mpr
      intro r' hr'
      by_contra hn
      have hsame := h r List.mem_cons_self r' (List.mem_cons_of_mem _ hr') hp (by simpa using hn)
      exact hr (hsame ▸ hr')

omit [DecidableEq Key] in
theorem DistinctKeys.nodup (h : DistinctKeys key t) : t.Nodup := List.Nodup.of_map key h

theorem lookup_filter (h : DistinctKeys key t) (p : Rec → Bool) (k : Key) :
    lookup key (t.filter p) k = (lookup key t k).filter p := by
  have h' : DistinctKeys key (t.filter p) := h.sublist List.filter_sublist
  cases hl : lookup key t k with
  | none =>
    rw [lookup_eq_none] at hl
    rw [Option.filter_none, lookup_eq_none]
    exact fun r hr => hl r (List.mem_of_mem_filter hr)
  | some r =>
    obtain ⟨hmem, hk⟩ := lookup_mem hl
    cases hp : p r with
    | true =>
      rw [h'.lookup_eq (List.mem_filter.mpr ⟨hmem, hp⟩) hk, Option.filter_some, hp]
      rfl
    | false =>
      rw [Option.filter_some, hp, lookup_eq_none.mpr]
      · rfl
      · intro r' hr' hk'
        obtain ⟨hmem', hp'⟩ := List.mem_filter.mp hr'
        rw [h.inj hmem' hmem (hk'.trans hk.symm), hp] at hp'
        cases hp'

section Rewriting
variable {g : Rec → Rec} (hg : ∀ r, key (g r) = key r)
include hg

theorem lookup_map (k : Key) : lookup key (t.map g) k = (lookup key t k).map g := by
  unfold lookup
  rw [List.find?_map]
  simp only [Function.comp_def, hg]

omit [DecidableEq Key] in
theorem map_key_modify (i : ℕ) : (t.modify i g).map key = t.map key := by
  induction t generalizing i with
  | nil => simp
  | cons r t ih =>
    cases i with
    | zero => simp [hg]
    | succ i => simp [ih]

omit [DecidableEq Key] in
theorem DistinctKeys.modify (h : DistinctKeys key t) (i : ℕ) :
    DistinctKeys key (t.modify i g) := by
  unfold DistinctKeys at *
  rwa [map_key_modify hg]

theorem lookup_modify (h : DistinctKeys key t) {i : ℕ} {r : Rec} (hr : t[i]? = some r) (k : Key) :
    lookup key (t.modify i g) k = if key r = k then some (g r) else lookup key t k := by
  induction t generalizing i with
  | nil => simp at hr
  | cons x t ih =>
    obtain ⟨hx, ht⟩ := List.nodup_cons.mp h
    cases i with
    | zero =>
      obtain rfl : x = r := by simpa using hr
      by_cases hk : key x = k
      · simp [lookup, hg, hk]
      · simp [lookup, hg, hk]
    | succ i =>
      have hr : t[i]? = some r := by simpa using hr
      have hrest := ih ht hr
      have hne : key x ≠ key r := by
        intro he
        exact hx (he ▸ List.mem_map_of_mem (List.mem_of_getElem? hr))
      unfold lookup at hrest ⊢
      rw [List.modify_succ_cons, List.find?_cons, List.find?_cons, hrest]
      by_cases hk : key x = k
      · have hother : key r ≠ k := fun he => hne (hk.trans he.symm)
        simp [hk, hother]
      · simp [hk]

end Rewriting

end Jagles.KeyedTable
