import Mathlib.Tactic

set_option autoImplicit false
set_option linter.dupNamespace false

/-!
# Scanning lines for an edge

Each line is scanned up to its first hit, and the edge is the best of these. When the lines
are scanned in the order in which values are better, no hit is better than the edge.
-/
namespace Jagles.EdgeScans

variable {α β : Type*}

/-- The best of `edge` and of what is found first on each line. -/
def scan (R : α → α → Prop) [DecidableRel R] (lines : List β) (firstIn : β → Option α)
    (edge : α) : α :=
  lines.foldl (fun edge line =>
    match firstIn line with
    | some v => if R v edge then v else edge
    | none => edge) edge

/-- `e` is `edge` or one of the values, and none of them is better. -/
structure EdgeOf (R : α → α → Prop) (edge : α) (values : α → Prop) (e : α) : Prop where
  start : ¬ R edge e
  best : ∀ v, values v → ¬ R v e
  attained : e = edge ∨ values e

variable {R : α → α → Prop}

theorem find?_first {l : List α} (hl : l.Pairwise R) {p : α → Bool} {v : α}
    (h : l.find? p = some v) {x : α} (hx : x ∈ l) (hp : p x = true) : x = v ∨ R v x := by
  obtain ⟨_, before, after, rfl, hbefore⟩ := List.find?_eq_some_iff_append.mp h
  rcases List.mem_append.mp hx with hx | hx
  · exact absurd hp (by simpa using hbefore x hx)
  · rcases List.mem_cons.mp hx with rfl | hx
    · exact .inl rfl
    · exact .inr (List.rel_of_pairwise_cons (List.pairwise_append.mp hl).2.1 hx)

theorem EdgeOf.congr {edge e : α} {values values' : α → Prop} (h : EdgeOf R edge values e)
    (hv : ∀ v, values v ↔ values' v) : EdgeOf R edge values' e :=
  ⟨h.start, fun v hv' => h.best v ((hv v).mpr hv'), h.attained.imp_right (hv e).mp⟩

variable [IsStrictTotalOrder α R]

/-- The edge of what comes after a value, from the better one of that and the start. -/
theorem EdgeOf.cons [DecidableRel R] {edge first e : α} {values : α → Prop}
    (h : EdgeOf R (if R first edge then first else edge) values e) :
    EdgeOf R edge (fun v => v = first ∨ values v) e := by
  by_cases hbetter : R first edge
  · rw [if_pos hbetter] at h
    refine ⟨fun he => h.start (IsTrans.trans _ _ _ hbetter he), ?_, ?_⟩
    · rintro v (rfl | hv)
      · exact h.start
      · exact h.best v hv
    · exact .inr h.attained
  · rw [if_neg hbetter] at h
    refine ⟨h.start, ?_, h.attained.imp_right .inr⟩
    rintro v (rfl | hv)
    · intro he
      rcases trichotomous_of R v edge with hlt | heq | hgt
      · exact hbetter hlt
      · exact h.start (heq ▸ he)
      · exact h.start (IsTrans.trans _ _ _ hgt he)
    · exact h.best v hv

/-- A value that is not behind the start makes the edge a value. -/
theorem EdgeOf.mem {edge e v : α} {values : α → Prop} (h : EdgeOf R edge values e)
    (hv : values v) (hedge : ¬ R edge v) : values e := by
  rcases h.attained with rfl | hmem
  · rcases trichotomous_of R v e with hlt | heq | hgt
    · exact absurd hlt (h.best v hv)
    · exact heq ▸ hv
    · exact absurd hgt hedge
  · exact hmem

theorem scan_edgeOf [DecidableRel R] (lines : List β) (firstIn : β → Option α) (edge : α) :
    EdgeOf R edge (fun v => ∃ line ∈ lines, firstIn line = some v)
      (scan R lines firstIn edge) := by
  induction lines generalizing edge with
  | nil => exact ⟨irrefl edge, fun v ⟨_, hline, _⟩ => (nomatch hline), .inl rfl⟩
  | cons line lines ih =>
    cases hfirst : firstIn line with
    | none =>
      have hscan : scan R (line :: lines) firstIn edge = scan R lines firstIn edge := by
        simp only [scan, List.foldl_cons, hfirst]
      rw [hscan]
      exact (ih edge).congr fun v => by simp [hfirst]
    | some first =>
      have hscan : scan R (line :: lines) firstIn edge =
          scan R lines firstIn (if R first edge then first else edge) := by
        simp only [scan, List.foldl_cons, hfirst]
      rw [hscan]
      exact (ih _).cons.congr fun v => by simp [hfirst, eq_comm]

/-- When each line is searched in the order of `R`, no hit of any line is better than the
edge. -/
theorem scan_find?_edgeOf [DecidableRel R] (lines : List β) (along : List α)
    (halong : along.Pairwise R) (p : β → α → Bool) (edge : α) :
    EdgeOf R edge (fun v => v ∈ along ∧ ∃ line ∈ lines, p line v = true)
      (scan R lines (fun line => along.find? (p line)) edge) := by
  have h := scan_edgeOf (R := R) lines (fun line => along.find? (p line)) edge
  refine ⟨h.start, ?_, h.attained.imp_right ?_⟩
  · rintro v ⟨hv, line, hline, hp⟩
    obtain ⟨first, hfirst⟩ : ∃ first, along.find? (p line) = some first :=
      Option.isSome_iff_exists.mp (List.find?_isSome.mpr ⟨v, hv, hp⟩)
    have hbest := h.best first ⟨line, hline, hfirst⟩
    rcases find?_first halong hfirst hv hp with rfl | hlater
    · exact hbest
    · exact fun hv' => hbest (IsTrans.trans _ _ _ hlater hv')
  · rintro ⟨line, hline, hfound⟩
    exact ⟨List.mem_of_find?_eq_some hfound, line, hline, List.find?_some hfound⟩

section Bounds
variable [LinearOrder α] {edge e v : α} {values : α → Prop}

theorem EdgeOf.isLeast (h : EdgeOf (· < ·) edge values e) (hv : values v) (hedge : v ≤ edge) :
    IsLeast {x | values x} e :=
  ⟨h.mem hv hedge.not_gt, fun x hx => not_lt.mp (h.best x hx)⟩

theorem EdgeOf.isGreatest (h : EdgeOf (· > ·) edge values e) (hv : values v) (hedge : edge ≤ v) :
    IsGreatest {x | values x} e :=
  ⟨h.mem hv hedge.not_gt, fun x hx => not_lt.mp (h.best x hx)⟩

end Bounds

end Jagles.EdgeScans
