import Jagles.GuardedRuns

set_option autoImplicit false
set_option linter.dupNamespace false

/-!
# Split screens (`NormalScreen`)

The four calls without animation that change the split mode, the page, the selection and
the number of panes, with the flags of the 36 panes. The position and the scale that
`SetSplitPosition` gives a pane are left out.
-/
namespace Jagles

structure NormalScreen where
  allPage : ℤ
  mCurrentMode : Fin 7
  mCurrentPage : ℤ
  mSelectIndex : ℤ
  Visible : ℤ → Bool
  mIsSelected : ℤ → Bool

namespace NormalScreen

/-- The `count` column of `SplitMode`. -/
def splitCount : Fin 7 → ℕ := ![1, 4, 6, 8, 9, 13, 16]

def count (s : NormalScreen) : ℕ := splitCount s.mCurrentMode

def getAllPage (s : NormalScreen) : ℤ :=
  let pc := s.allPage.tdiv s.count
  if s.allPage.tmod s.count ≠ 0 then pc + 1 else pc

/-- The loop over the panes of a page that starts at `base`, left at the first index over 35. -/
def paneLoop (value : Bool) (base : ℤ) : List ℕ → (ℤ → Bool) → ℤ → Bool
  | [], v => v
  | j :: js, v =>
    if base + j > 35 then v else paneLoop value base js (Function.update v (base + j) value)

/-- The loop of `SetSelected` over the panes below `allPage`. -/
def clearLoop : ℕ → (ℤ → Bool) → ℤ → Bool
  | 0, v => v
  | n + 1, v => Function.update (clearLoop n v) n false

def setPageVisible (value : Bool) (s : NormalScreen) : NormalScreen :=
  { s with Visible := paneLoop value (s.mCurrentPage * s.count) (List.range s.count) s.Visible }

def setSplitPosition (s : NormalScreen) : NormalScreen := setPageVisible true s

def setPage (s : NormalScreen) (index : ℤ) : NormalScreen :=
  if index < 0 ∨ index ≥ s.getAllPage then s
  else setSplitPosition { setPageVisible false s with mCurrentPage := index }

def setSplit (s : NormalScreen) (index : Fin 7) : NormalScreen :=
  let s := { setPageVisible false s with mCurrentMode := index }
  let page := s.mSelectIndex.tdiv s.count
  setPage { s with mCurrentPage := page } page

def setSelected (s : NormalScreen) (value : Bool) (index : ℤ) : NormalScreen :=
  { s with
    mIsSelected := Function.update (clearLoop s.allPage.toNat s.mIsSelected) index value
    Visible :=
      if s.mCurrentMode = 0 then Function.update (clearLoop s.allPage.toNat s.Visible) index true
      else s.Visible
    mSelectIndex := index }

def setAllPage (s : NormalScreen) (allPage : ℤ) : NormalScreen := { s with allPage }

/-- The constructor. A new pane is visible; the loop hides all but the first. -/
def create : NormalScreen :=
  let s := setSplitPosition
    { allPage := 36
      mCurrentMode := 0
      mCurrentPage := 0
      mSelectIndex := 0
      Visible := fun i => decide (i ≤ splitCount 0 - 1)
      mIsSelected := fun _ => false }
  { s with mIsSelected := Function.update s.mIsSelected 0 true }

inductive Call where
  | setSplit (index : Fin 7)
  | setPage (index : ℤ)
  | setSelected (index : ℤ)
  | setAllPage (n : ℤ)

def step (s : NormalScreen) : Call → NormalScreen
  | .setSplit index => s.setSplit index
  | .setPage index => s.setPage index
  | .setSelected index => s.setSelected true index
  | .setAllPage n => s.setAllPage n

/-- What the callers promise. -/
def Legal (s : NormalScreen) : Call → Prop
  | .setSelected index => 0 ≤ index ∧ index < s.allPage
  | .setAllPage n => 1 ≤ n ∧ n ≤ 36
  | _ => True

/-- `page` is a page of the current split, and the visible panes are its panes below
`allPage`. -/
structure PageShown (s : NormalScreen) : Prop where
  page_nonneg : 0 ≤ s.mCurrentPage
  page_lt : s.mCurrentPage < s.getAllPage
  select_nonneg : 0 ≤ s.mSelectIndex
  select_lt : s.mSelectIndex < s.allPage
  visible : ∀ i, 0 ≤ i → i < 36 → (s.Visible i = true ↔
    i < s.allPage ∧ ∃ j : ℕ, j < s.count ∧ i = s.mCurrentPage * s.count + j)

/-- One past the last pane that `setSplitPosition` shows on a page. -/
def pageEnd (mode : Fin 7) (page : ℤ) : ℤ := min 36 ((page + 1) * splitCount mode)

/-- The condition on one call: the page that a split or a page call goes to ends below
`allPage`, a pane that is selected alone is the current page, and a new number of panes
leaves the page, the selection and the panes of the page in place. -/
def Fits (s : NormalScreen) : Call → Prop
  | .setSplit index =>
    pageEnd index (s.mSelectIndex / splitCount index) ≤ s.allPage
  | .setPage index =>
    index < 0 ∨ s.getAllPage ≤ index ∨ pageEnd s.mCurrentMode index ≤ s.allPage
  | .setSelected index => s.mCurrentMode = 0 → index = s.mCurrentPage
  | .setAllPage n =>
    s.mCurrentPage * s.count < n ∧ s.mSelectIndex < n ∧
      min n ((s.mCurrentPage + 1) * s.count) = min s.allPage ((s.mCurrentPage + 1) * s.count)

def AllLegal : NormalScreen → List Call → Prop
  | _, [] => True
  | s, c :: cs => Legal s c ∧ AllLegal (step s c) cs

def AllFit : NormalScreen → List Call → Prop
  | _, [] => True
  | s, c :: cs => Fits s c ∧ AllFit (step s c) cs

instance (s : NormalScreen) : (c : Call) → Decidable (Legal s c)
  | .setSplit _ | .setPage _ => isTrue trivial
  | .setSelected index => inferInstanceAs (Decidable (0 ≤ index ∧ index < s.allPage))
  | .setAllPage n => inferInstanceAs (Decidable (1 ≤ n ∧ n ≤ 36))

instance (s : NormalScreen) : (c : Call) → Decidable (Fits s c)
  | .setSplit index =>
    inferInstanceAs (Decidable (pageEnd index (s.mSelectIndex / splitCount index) ≤ s.allPage))
  | .setPage index => inferInstanceAs (Decidable
      (index < 0 ∨ s.getAllPage ≤ index ∨ pageEnd s.mCurrentMode index ≤ s.allPage))
  | .setSelected index => inferInstanceAs (Decidable (s.mCurrentMode = 0 → index = s.mCurrentPage))
  | .setAllPage n => inferInstanceAs (Decidable (s.mCurrentPage * s.count < n ∧ s.mSelectIndex < n ∧
      min n ((s.mCurrentPage + 1) * s.count) = min s.allPage ((s.mCurrentPage + 1) * s.count)))

instance : (s : NormalScreen) → (cs : List Call) → Decidable (AllLegal s cs)
  | _, [] => isTrue trivial
  | s, c :: cs =>
    have := instDecidableAllLegal (step s c) cs
    inferInstanceAs (Decidable (Legal s c ∧ AllLegal (step s c) cs))

instance : (s : NormalScreen) → (cs : List Call) → Decidable (AllFit s cs)
  | _, [] => isTrue trivial
  | s, c :: cs =>
    have := instDecidableAllFit (step s c) cs
    inferInstanceAs (Decidable (Fits s c ∧ AllFit (step s c) cs))

theorem splitCount_pos (m : Fin 7) : 0 < splitCount m := by
  fin_cases m <;> decide

theorem paneLoop_apply (value : Bool) (base : ℤ) (j n : ℕ) (v : ℤ → Bool) (i : ℤ) :
    paneLoop value base (List.range' j n) v i =
      if base + j ≤ i ∧ i < base + j + n ∧ i ≤ 35 then value else v i := by
  induction n generalizing j v with
  | zero =>
    rw [if_neg (by omega)]
    rfl
  | succ n ih =>
    simp only [List.range'_succ, paneLoop]
    split
    · rw [if_neg (by omega)]
    · rw [ih]
      by_cases hi : i = base + j
      · subst hi
        simp only [Function.update_self]
        rw [if_neg (by omega), if_pos (by omega)]
      · rw [Function.update_of_ne hi]
        refine if_congr ?_ rfl rfl
        omega

theorem clearLoop_apply (n : ℕ) (v : ℤ → Bool) (i : ℤ) :
    clearLoop n v i = if 0 ≤ i ∧ i < n then false else v i := by
  induction n with
  | zero =>
    rw [if_neg (by omega)]
    rfl
  | succ n ih =>
    simp only [clearLoop]
    by_cases hi : i = n
    · subst hi
      rw [Function.update_self, if_pos (by omega)]
    · rw [Function.update_of_ne hi, ih]
      refine if_congr ?_ rfl rfl
      omega

section Pages
variable {s : NormalScreen}

/-- The last page is the one that holds the last pane. -/
theorem lt_getAllPage (h : 0 ≤ s.allPage) (page : ℤ) :
    page < s.getAllPage ↔ page * s.count < s.allPage := by
  have hc : (0 : ℤ) < s.count := by exact_mod_cast splitCount_pos s.mCurrentMode
  have hsplit := Int.mul_ediv_add_emod s.allPage s.count
  rw [mul_comm] at hsplit
  have hlt := Int.emod_lt_of_pos s.allPage hc
  simp only [getAllPage, Int.tdiv_eq_ediv_of_nonneg h, Int.tmod_eq_emod_of_nonneg h]
  split
  · rename_i hr
    have := Int.emod_nonneg s.allPage hc.ne'
    rw [Int.lt_add_one_iff]
    constructor
    · intro hp
      have := mul_le_mul_of_nonneg_right hp hc.le
      omega
    · intro hp
      exact (Int.le_ediv_iff_mul_le hc).mpr hp.le
  · rename_i hr
    constructor
    · intro hp
      have := mul_lt_mul_of_pos_right hp hc
      omega
    · intro hp
      by_contra hge
      have := mul_le_mul_of_nonneg_right (not_lt.mp hge) hc.le
      omega

theorem setPageVisible_apply (value : Bool) (s : NormalScreen) (i : ℤ) :
    (setPageVisible value s).Visible i =
      if s.mCurrentPage * s.count ≤ i ∧ i < (s.mCurrentPage + 1) * s.count ∧ i ≤ 35
        then value else s.Visible i := by
  simp only [setPageVisible, List.range_eq_range', paneLoop_apply]
  refine if_congr ?_ rfl rfl
  rw [add_one_mul]
  simp

/-- `Visible` of a shown page, in terms of the bounds of the page. -/
theorem pane_iff (s : NormalScreen) (i : ℤ) :
    (∃ j : ℕ, j < s.count ∧ i = s.mCurrentPage * s.count + j) ↔
      s.mCurrentPage * s.count ≤ i ∧ i < (s.mCurrentPage + 1) * s.count := by
  rw [add_one_mul]
  constructor
  · rintro ⟨j, hj, rfl⟩
    omega
  · rintro ⟨h, h'⟩
    exact ⟨(i - s.mCurrentPage * s.count).toNat, by omega, by omega⟩

def AllHidden (s : NormalScreen) : Prop := ∀ i, 0 ≤ i → i < 36 → s.Visible i = false

theorem PageShown.hide (h : PageShown s) : AllHidden (setPageVisible false s) := by
  intro i h0 h36
  rw [setPageVisible_apply]
  split
  · rfl
  · rename_i hout
    have hv := h.visible i h0 h36
    rw [pane_iff] at hv
    cases hi : s.Visible i with
    | false => rfl
    | true =>
      obtain ⟨-, hp, hp'⟩ := hv.mp hi
      exact absurd ⟨hp, hp', by omega⟩ hout

theorem AllHidden.hide (h : AllHidden s) : AllHidden (setPageVisible false s) := by
  intro i h0 h36
  rw [setPageVisible_apply, h i h0 h36, ite_self]

/-- Showing a page from a hidden screen is right exactly when the panes shown are all
below `allPage`. -/
theorem setSplitPosition_shown (h : AllHidden s) (hn : 0 ≤ s.allPage) (hp : 0 ≤ s.mCurrentPage)
    (hlt : s.mCurrentPage < s.getAllPage) (hs : 0 ≤ s.mSelectIndex)
    (hs' : s.mSelectIndex < s.allPage) :
    PageShown (setSplitPosition s) ↔ pageEnd s.mCurrentMode s.mCurrentPage ≤ s.allPage := by
  have hv : ∀ i, 0 ≤ i → i < 36 → ((setSplitPosition s).Visible i = true ↔
      s.mCurrentPage * s.count ≤ i ∧ i < (s.mCurrentPage + 1) * s.count) := by
    intro i h0 h36
    rw [setSplitPosition, setPageVisible_apply, h i h0 h36]
    simp only [Bool.if_false_right, Bool.and_true, decide_eq_true_eq]
    omega
  have hfirst := (lt_getAllPage hn s.mCurrentPage).mp hlt
  rw [pageEnd, ← count]
  constructor
  · intro hshown
    by_contra hover
    -- the pane `allPage` itself is shown
    have hvis := (hv s.allPage hn (by omega)).mpr ⟨by omega, by omega⟩
    have hbelow := ((hshown.visible s.allPage hn (by omega)).mp hvis).1
    exact lt_irrefl _ hbelow
  · intro hend
    refine ⟨hp, hlt, hs, hs', ?_⟩
    intro i h0 h36
    rw [hv i h0 h36, pane_iff]
    change _ ↔ i < s.allPage ∧ s.mCurrentPage * s.count ≤ i ∧ i < (s.mCurrentPage + 1) * s.count
    omega

/-- The number of panes lies in the range that `SetAllPage` is called with. -/
def Sized (s : NormalScreen) : Prop := 1 ≤ s.allPage ∧ s.allPage ≤ 36

theorem setPage_shown_iff (h : PageShown s) (hn : Sized s) (index : ℤ) :
    PageShown (s.setPage index) ↔ Fits s (.setPage index) := by
  simp only [setPage, Fits]
  split
  · rename_i hout
    refine iff_of_true h ?_
    omega
  · rename_i hin
    rw [setSplitPosition_shown (s := { setPageVisible false s with mCurrentPage := index })
      h.hide (by exact zero_le_one.trans hn.1) (by exact not_lt.mp fun hlt => hin (.inl hlt))
      (by exact not_le.mp fun hle => hin (.inr hle)) h.select_nonneg h.select_lt]
    change pageEnd s.mCurrentMode index ≤ s.allPage ↔ _
    omega

/-- The page of the selected pane. -/
theorem select_page (h : PageShown s) (hn : Sized s) (index : Fin 7) :
    0 ≤ s.mSelectIndex / splitCount index ∧
      s.mSelectIndex / splitCount index < { s with mCurrentMode := index }.getAllPage := by
  have hc : (0 : ℤ) < splitCount index := by exact_mod_cast splitCount_pos index
  refine ⟨Int.ediv_nonneg h.select_nonneg hc.le, ?_⟩
  rw [lt_getAllPage (by exact zero_le_one.trans hn.1)]
  calc s.mSelectIndex / splitCount index * splitCount index
      ≤ s.mSelectIndex := Int.ediv_mul_le _ hc.ne'
    _ < s.allPage := h.select_lt

theorem setSplit_shown_iff (h : PageShown s) (hn : Sized s) (index : Fin 7) :
    PageShown (s.setSplit index) ↔ Fits s (.setSplit index) := by
  obtain ⟨hp, hlt⟩ := select_page h hn index
  let u : NormalScreen :=
    { setPageVisible false s with
      mCurrentMode := index
      mCurrentPage := s.mSelectIndex / splitCount index }
  have hu : s.setSplit index = u.setPage (s.mSelectIndex / splitCount index) := by
    simp only [setSplit, count, setPageVisible, Int.tdiv_eq_ediv_of_nonneg h.select_nonneg]
    rfl
  have hidden : AllHidden (setPageVisible false u) := AllHidden.hide (s := u) h.hide
  have hpc : u.getAllPage = { s with mCurrentMode := index }.getAllPage := rfl
  rw [hu, setPage, if_neg (by omega)]
  exact setSplitPosition_shown (s := setPageVisible false u) hidden
    (by exact zero_le_one.trans hn.1) hp hlt h.select_nonneg h.select_lt

theorem setSelected_shown_iff (h : PageShown s) (hn : Sized s) {index : ℤ}
    (hl : Legal s (.setSelected index)) :
    PageShown (s.setSelected true index) ↔ Fits s (.setSelected index) := by
  obtain ⟨hi, hi'⟩ := hl
  have hn' := hn.2
  by_cases hm : s.mCurrentMode = 0
  · have hv : ∀ i, 0 ≤ i → i < 36 →
        ((s.setSelected true index).Visible i = true ↔ i = index) := by
      intro i h0 h36
      simp only [setSelected, if_pos hm]
      by_cases he : i = index
      · simp [he]
      · rw [Function.update_of_ne he, clearLoop_apply]
        split
        · simp [he]
        · refine iff_of_false ?_ he
          intro hvis
          have := ((h.visible i h0 h36).mp hvis).1
          omega
    have hc : s.count = 1 := by
      rw [count, hm]
      rfl
    have hpage := (lt_getAllPage (s := s) (by have := hn.1; omega) s.mCurrentPage).mp h.page_lt
    rw [hc] at hpage
    have hp := h.page_nonneg
    constructor
    · intro hshown _
      have := (hshown.visible index hi (by omega)).mp ((hv index hi (by omega)).mpr rfl)
      rw [pane_iff] at this
      change _ ∧ s.mCurrentPage * s.count ≤ index ∧ index < (s.mCurrentPage + 1) * s.count at this
      rw [hc] at this
      omega
    · intro hfit
      have he : index = s.mCurrentPage := hfit hm
      refine ⟨h.page_nonneg, h.page_lt, hi, hi', ?_⟩
      intro i h0 h36
      rw [hv i h0 h36, pane_iff]
      change _ ↔ i < s.allPage ∧ s.mCurrentPage * s.count ≤ i ∧ i < (s.mCurrentPage + 1) * s.count
      rw [hc]
      omega
  · refine iff_of_true ⟨h.page_nonneg, h.page_lt, hi, hi', ?_⟩ (fun hz => absurd hz hm)
    intro i h0 h36
    simp only [setSelected, if_neg hm]
    exact h.visible i h0 h36

theorem setAllPage_shown_iff (h : PageShown s) (hn : Sized s) {n : ℤ}
    (hl : Legal s (.setAllPage n)) :
    PageShown (s.setAllPage n) ↔ Fits s (.setAllPage n) := by
  obtain ⟨h1, h36⟩ := hl
  have hs36 := hn.2
  have hpage := (lt_getAllPage (s := s) (by have := hn.1; omega) s.mCurrentPage).mp h.page_lt
  have hpage' := lt_getAllPage (s := s.setAllPage n) (by change 0 ≤ n; omega) s.mCurrentPage
  change _ ↔ s.mCurrentPage * s.count < n at hpage'
  have hbase : 0 ≤ s.mCurrentPage * s.count := mul_nonneg h.page_nonneg (by omega)
  have hend : (s.mCurrentPage + 1) * s.count = s.mCurrentPage * s.count + s.count :=
    add_one_mul _ _
  have hc : 0 < s.count := splitCount_pos _
  simp only [Fits]
  constructor
  · intro hshown
    have hsame : ∀ i, 0 ≤ i → i < 36 → s.mCurrentPage * s.count ≤ i →
        i < (s.mCurrentPage + 1) * s.count → (i < s.allPage ↔ i < n) := by
      intro i h0 hi hp hp'
      have hold := h.visible i h0 hi
      have hnew := hshown.visible i h0 hi
      rw [pane_iff] at hold hnew
      change s.Visible i = true ↔ i < n ∧ s.mCurrentPage * s.count ≤ i ∧
        i < (s.mCurrentPage + 1) * s.count at hnew
      rw [hold] at hnew
      constructor
      · exact fun hlt => (hnew.mp ⟨hlt, hp, hp'⟩).1
      · exact fun hlt => (hnew.mpr ⟨hlt, hp, hp'⟩).1
    have hfirst := hpage'.mp hshown.page_lt
    refine ⟨hfirst, hshown.select_lt, ?_⟩
    -- the first pane that only one of the two numbers cuts off
    rcases lt_trichotomy n s.allPage with hlt | heq | hgt
    · by_contra hne
      have := hsame n (by omega) (by omega) hfirst.le (by omega)
      omega
    · rw [heq]
    · by_contra hne
      have := hsame s.allPage (by omega) (by omega) hpage.le (by omega)
      omega
  · rintro ⟨hfirst, hsel, hmin⟩
    refine ⟨h.page_nonneg, hpage'.mpr hfirst, h.select_nonneg, hsel, ?_⟩
    intro i h0 hi
    have hold := h.visible i h0 hi
    rw [pane_iff] at hold ⊢
    change s.Visible i = true ↔ i < n ∧ s.mCurrentPage * s.count ≤ i ∧
      i < (s.mCurrentPage + 1) * s.count
    rw [hold]
    omega

end Pages

theorem create_shown : PageShown create := by
  refine ⟨by decide, by decide, by decide, by decide, ?_⟩
  intro i h0 h36
  have hloop : create.Visible i =
      if 0 * 1 ≤ i ∧ i < (0 + 1) * 1 ∧ i ≤ 35 then true else decide (i ≤ 1 - 1) :=
    setPageVisible_apply true
      { create with Visible := fun i => decide (i ≤ splitCount 0 - 1) } i
  have hv : create.Visible i = true ↔ i = 0 := by
    rw [hloop]
    split
    · exact iff_of_true rfl (by omega)
    · rw [decide_eq_true_eq]
      omega
  rw [hv, pane_iff]
  change _ ↔ i < 36 ∧ 0 * 1 ≤ i ∧ i < (0 + 1) * 1
  omega

theorem create_sized : Sized create := ⟨by decide, by decide⟩

theorem step_shown_iff {s : NormalScreen} (h : PageShown s) (hn : Sized s) {c : Call}
    (hl : Legal s c) : PageShown (step s c) ↔ Fits s c := by
  cases c with
  | setSplit index => exact setSplit_shown_iff h hn index
  | setPage index => exact setPage_shown_iff h hn index
  | setSelected index => exact setSelected_shown_iff h hn hl
  | setAllPage n => exact setAllPage_shown_iff h hn hl

theorem setPage_allPage (s : NormalScreen) (index : ℤ) : (s.setPage index).allPage = s.allPage := by
  simp only [setPage]
  split <;> rfl

theorem step_sized {s : NormalScreen} (hn : Sized s) {c : Call} (hl : Legal s c) :
    Sized (step s c) := by
  cases c with
  | setSplit index =>
    simp only [Sized, step, setSplit, setPage_allPage]
    exact hn
  | setPage index => simpa only [Sized, step, setPage_allPage] using hn
  | setSelected index => exact hn
  | setAllPage n => exact hl

theorem run_shown_iff {s : NormalScreen} (h : PageShown s) (hn : Sized s) {calls : List Call}
    (hl : AllLegal s calls) :
    (∀ pre, pre <+: calls → PageShown (pre.foldl step s)) ↔ AllFit s calls := by
  induction calls generalizing s with
  | nil =>
    refine iff_of_true ?_ trivial
    intro pre hpre
    rw [List.prefix_nil.mp hpre]
    exact h
  | cons c calls ih =>
    obtain ⟨hc, hrest⟩ := hl
    have hone := step_shown_iff h hn hc
    constructor
    · intro hall
      have hstep : PageShown (step s c) := hall [c] (by simp)
      refine ⟨hone.mp hstep, (ih hstep (step_sized hn hc) hrest).mp ?_⟩
      intro pre hpre
      exact hall (c :: pre) (List.cons_prefix_cons.mpr ⟨rfl, hpre⟩)
    · rintro ⟨hfit, hfits⟩ pre hpre
      have hstep := hone.mpr hfit
      cases pre with
      | nil => exact h
      | cons c' pre =>
        obtain ⟨rfl, htail⟩ := List.cons_prefix_cons.mp hpre
        exact (ih hstep (step_sized hn hc) hrest).mpr hfits pre htail

/-- Along every sequence of legal calls the page invariant holds in all states reached
exactly when every call fits. -/
theorem page_shown_iff_all_fit (calls : List Call) (hl : AllLegal create calls) :
    (∀ pre, pre <+: calls → PageShown (pre.foldl step create)) ↔ AllFit create calls :=
  run_shown_iff create_shown create_sized hl

def fiveCalls : List Call :=
  [.setSplit 1, .setPage 2, .setSelected 9, .setAllPage 24, .setSplit 0]

theorem page_shown_five_calls : AllLegal create fiveCalls ∧ AllFit create fiveCalls ∧
    ∀ pre, pre <+: fiveCalls → PageShown (pre.foldl step create) := by
  have hl : AllLegal create fiveCalls := by decide
  have hf : AllFit create fiveCalls := by decide
  exact ⟨hl, hf, (page_shown_iff_all_fit fiveCalls hl).mpr hf⟩

/-- Selecting a pane of the undivided screen shows it and leaves the page where it was. -/
theorem select_leaves_page : ¬ ∀ calls, AllLegal create calls →
    ∀ pre, pre <+: calls → PageShown (pre.foldl step create) := by
  intro hall
  have h := hall [.setSelected 2] (by decide) _ (List.prefix_refl _)
  obtain ⟨-, j, hj, he⟩ := (h.visible 2 (by decide) (by decide)).mp (by decide)
  change j < 1 at hj
  change (2 : ℤ) = 0 * 1 + j at he
  omega

end NormalScreen
end Jagles
