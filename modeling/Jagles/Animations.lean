import Jagles.GuardedRuns

set_option autoImplicit false
set_option linter.dupNamespace false

/-!
# The animations (`ParametricManager`)

`_Ani` is walked by the animation thread and changed by `StartAnimation`, `StopAnimation` and
`ClearAnimation`, all under `_AniLock`. The thread gives the lock back while the `OnEnd` of a
finished animation runs; then the calls of the other threads, and those that the callback makes
itself, get in. What a call does under the lock is one step. Each animation has a serial
number; an address may be used again after `free`. Positions and the drawing are left out.
-/
namespace Jagles.Animations
open GuardedRuns

structure JA_Animation where
  serial : ℕ
  _obj : ℕ
  index : ℤ
  _step : ℤ
  _stepcount : ℤ
  _isLoop : Bool
  OnEnd : Bool
  deriving DecidableEq

/-- A pointer in `_Ani` or in a caller's hands, with the animation it was made for. -/
structure Handle where
  ptr : ℕ
  serial : ℕ
  deriving DecidableEq

/-- The animation thread: outside `AnimationOperator`, in its loop with `n` items to go, or in
the `OnEnd` of the item at `i`. -/
inductive Pc where
  | idle
  | loop (n : ℕ)
  | ending (i : ℕ) (ani : Handle)
  deriving DecidableEq

/-- `removed` and `freed` pair the animation that was meant with the one that was hit.
`crashed` is set by the use of a null pointer and by the use or the `free` of memory that is
free. -/
structure ParametricManager where
  _Ani : List Handle
  heap : ℕ → Option JA_Animation
  starting : List Handle
  made : ℕ
  pc : Pc
  removed : List (ℕ × ℕ)
  freed : List (ℕ × ℕ)
  crashed : Bool

namespace ParametricManager

def create : ParametricManager := ⟨[], fun _ => none, [], 0, .idle, [], [], false⟩

def crash (s : ParametricManager) : ParametricManager := { s with crashed := true }

/-- `_Ani.remove(i)`, which follows the null pointer behind the last item. -/
def remove (s : ParametricManager) (i : ℕ) (ani : Handle) : ParametricManager :=
  match s._Ani[i]? with
  | some h => { s with _Ani := s._Ani.eraseIdx i, removed := s.removed ++ [(ani.serial, h.serial)] }
  | none => if i = s._Ani.length then s.crash else s

def free (s : ParametricManager) (ani : Handle) : ParametricManager :=
  match s.heap ani.ptr with
  | some a => { s with
      heap := Function.update s.heap ani.ptr none
      freed := s.freed ++ [(ani.serial, a.serial)] }
  | none => s.crash

/-- `ani->_obj->SetIsAnimation(..); _Ani.remove(i); free(ani);` -/
def drop (s : ParametricManager) (i : ℕ) (ani : Handle) : ParametricManager :=
  match s.heap ani.ptr with
  | some _ => (s.remove i ani).free ani
  | none => s.crash

/-- One pass of `AnimationOperator` for the item at `i`, up to `OnEnd` if there is one. -/
def animate (s : ParametricManager) (i : ℕ) : ParametricManager :=
  match s._Ani[i]? with
  | none => s.crash
  | some ani =>
    match s.heap ani.ptr with
    | none => s.crash
    | some a =>
      let a := { a with _stepcount := a._stepcount + 1 }
      let s := { s with heap := Function.update s.heap ani.ptr (some a) }
      if a._stepcount ≥ a._step ∧ a._isLoop = false then
        if a.OnEnd then { s with pc := .ending i ani }
        else { s.drop i ani with pc := .loop i }
      else { s with pc := .loop i }

/-- `StopAnimation(pHandle)`: the item is searched by its address. -/
def stopAnimation (s : ParametricManager) (ani : Handle) : ParametricManager :=
  match s._Ani.findIdx? fun h => decide (h.ptr = ani.ptr) with
  | some index => s.drop index ani
  | none => s

/-- The loop of both `ClearAnimation`, over the first `n` items from the last to the first. -/
def clearLoop (value : JA_Animation → Bool) (s : ParametricManager) : ℕ → ParametricManager
  | 0 => s
  | i + 1 =>
    match s._Ani[i]? with
    | none => s.crash
    | some ani =>
      match s.heap ani.ptr with
      | none => s.crash
      | some a => clearLoop value (if value a then s.drop i ani else s) i

/-- `ClearAnimation()`; `loadings` are the objects that `GetLoading` returns. -/
def clearAnimation (s : ParametricManager) (loadings : List ℕ) : ParametricManager :=
  s.clearLoop (fun a => !loadings.contains a._obj) s._Ani.length

/-- `ClearAnimation(index)`. -/
def clearAnimationAt (s : ParametricManager) (index : ℤ) : ParametricManager :=
  s.clearLoop (fun a => decide (a.index = index)) s._Ani.length

/-- The animation thread holds `_AniLock`. -/
def locked (s : ParametricManager) : Bool :=
  match s.pc with
  | .loop _ => true
  | .idle | .ending _ _ => false

end ParametricManager

/-- `malloc` and `insert` are the two halves of `StartAnimation`. `operate`, `pass` and
`leaveOnEnd` are steps of the animation thread. -/
inductive Act where
  | malloc (ptr : ℕ) (a : JA_Animation)
  | insert (ani : Handle)
  | stopAnimation (ani : Handle)
  | clearAnimation (loadings : List ℕ)
  | clearAnimationAt (index : ℤ)
  | operate
  | pass
  | leaveOnEnd

def step (s : ParametricManager) : Act → Option ParametricManager
  | .malloc ptr a =>
    match s.heap ptr with
    | some _ => none
    | none => some { s with
        heap := Function.update s.heap ptr (some { a with serial := s.made, _stepcount := 0 })
        starting := s.starting ++ [⟨ptr, s.made⟩]
        made := s.made + 1 }
  | .insert ani =>
    if s.locked = false ∧ ani ∈ s.starting then
      some { s with _Ani := s._Ani ++ [ani], starting := s.starting.erase ani }
    else none
  | .stopAnimation ani => if s.locked then none else some (s.stopAnimation ani)
  | .clearAnimation loadings => if s.locked then none else some (s.clearAnimation loadings)
  | .clearAnimationAt index => if s.locked then none else some (s.clearAnimationAt index)
  | .operate =>
    match s.pc with
    | .idle => some { s with pc := .loop s._Ani.length }
    | .loop _ | .ending _ _ => none
  | .pass =>
    match s.pc with
    | .loop 0 => some { s with pc := .idle }
    | .loop (i + 1) => some (s.animate i)
    | .idle | .ending _ _ => none
  | .leaveOnEnd =>
    match s.pc with
    | .ending i ani => some { s.drop i ani with pc := .loop i }
    | .idle | .loop _ => none

/-- Nothing has gone wrong: every removal and every `free` hits the animation it is meant for,
what is removed is freed, every animation that was made is waiting to be inserted, in `_Ani`
or removed, and only once in all, and the items of `_Ani` are alive. -/
structure Intact (s : ParametricManager) : Prop where
  running : s.crashed = false
  removes : ∀ p ∈ s.removed, p.1 = p.2
  frees : s.freed = s.removed
  once : (s._Ani.map Handle.serial ++ s.starting.map Handle.serial ++
    s.removed.map Prod.snd).Perm (List.range s.made)
  alive : ∀ h ∈ s._Ani, ∃ a, s.heap h.ptr = some a ∧ a.serial = h.serial

/-- While an `OnEnd` runs for the item at `i`, nothing up to `i` may be taken out. -/
def KeepsWindow (takes : ℕ → Bool) : Pc → Prop
  | .ending i _ => ∀ k < i + 1, takes k = false
  | .idle | .loop _ => True

/-- The animation of the item at `k` has the property. -/
def ParametricManager.anyAt (s : ParametricManager) (value : JA_Animation → Bool) (k : ℕ) : Bool :=
  ((s._Ani[k]?).bind fun h => s.heap h.ptr).any value

/-- The condition on one call: it takes nothing out that the animation thread counts on, and
the handle of `StopAnimation` is not an old one whose address a newer animation has. -/
def Allowed (s : ParametricManager) : Act → Prop
  | .stopAnimation ani =>
    (∀ h ∈ s._Ani, h.ptr = ani.ptr → h = ani) ∧
      KeepsWindow (fun k => (s._Ani[k]?).any fun h => decide (h.ptr = ani.ptr)) s.pc
  | .clearAnimation loadings => KeepsWindow (s.anyAt fun a => !loadings.contains a._obj) s.pc
  | .clearAnimationAt index => KeepsWindow (s.anyAt fun a => decide (a.index = index)) s.pc
  | _ => True

instance (takes : ℕ → Bool) : (pc : Pc) → Decidable (KeepsWindow takes pc)
  | .ending i _ => inferInstanceAs (Decidable (∀ k < i + 1, takes k = false))
  | .idle | .loop _ => isTrue trivial

instance (s : ParametricManager) : (act : Act) → Decidable (Allowed s act)
  | .stopAnimation ani => inferInstanceAs (Decidable ((∀ h ∈ s._Ani, h.ptr = ani.ptr → h = ani) ∧
      KeepsWindow (fun k => (s._Ani[k]?).any fun h => decide (h.ptr = ani.ptr)) s.pc))
  | .clearAnimation loadings =>
    inferInstanceAs (Decidable (KeepsWindow (s.anyAt fun a => !loadings.contains a._obj) s.pc))
  | .clearAnimationAt index =>
    inferInstanceAs (Decidable (KeepsWindow (s.anyAt fun a => decide (a.index = index)) s.pc))
  | .malloc _ _ | .insert _ | .operate | .pass | .leaveOnEnd => isTrue trivial

section Ledger
variable {s : ParametricManager}

/-- `Intact`, with the animations alive that are not yet inserted. -/
structure Sound (s : ParametricManager) : Prop extends Intact s where
  waiting : ∀ h ∈ s.starting, ∃ a, s.heap h.ptr = some a ∧ a.serial = h.serial

theorem create_sound : Sound .create := by
  refine ⟨⟨rfl, ?_, rfl, .refl _, ?_⟩, ?_⟩ <;>
    · intro x hx
      cases hx

theorem perm_eraseIdx {l : List Handle} {i : ℕ} {ani : Handle} (hi : l[i]? = some ani) :
    l.Perm (ani :: l.eraseIdx i) := by
  induction l generalizing i with
  | nil => simp at hi
  | cons x l ih =>
    cases i with
    | zero =>
      obtain rfl : x = ani := by simpa using hi
      exact .refl _
    | succ i =>
      have hi : l[i]? = some ani := by simpa using hi
      exact ((ih hi).cons x).trans (.swap ani x _)

/-- Taking an item out of `_Ani` into the removed ones keeps the ledger. -/
theorem Intact.taken (hs : Intact s) {i : ℕ} {ani : Handle} (hi : s._Ani[i]? = some ani) :
    ((s._Ani.eraseIdx i).map Handle.serial ++ s.starting.map Handle.serial ++
      (s.removed ++ [(ani.serial, ani.serial)]).map Prod.snd).Perm (List.range s.made) := by
  refine List.Perm.trans ?_ hs.once
  rw [List.map_append, List.map_singleton, ← List.append_assoc]
  refine (List.perm_append_singleton _ _).trans ?_
  rw [List.append_assoc, List.append_assoc, ← List.cons_append]
  exact ((perm_eraseIdx hi).map Handle.serial).symm.append_right _

/-- No other animation has the address of an item of `_Ani`. -/
theorem Sound.ptr_ne (hs : Sound s) {i : ℕ} {ani h : Handle} (hi : s._Ani[i]? = some ani)
    (hh : h ∈ s._Ani.eraseIdx i ∨ h ∈ s.starting) : h.ptr ≠ ani.ptr := by
  intro hptr
  obtain ⟨a, ha, hserial⟩ := hs.alive ani (List.mem_of_getElem? hi)
  obtain ⟨b, hb, hserial'⟩ : ∃ a, s.heap h.ptr = some a ∧ a.serial = h.serial := by
    rcases hh with hmem | hmem
    · exact hs.alive h (List.mem_of_mem_eraseIdx hmem)
    · exact hs.waiting h hmem
  have hsame : h.serial = ani.serial := by
    rw [hptr, ha] at hb
    cases hb
    exact hserial'.symm.trans hserial
  -- both would stand in the ledger with one number
  have hnodup := (hs.toIntact.taken hi).nodup_iff.mpr List.nodup_range
  rw [List.map_append, List.map_singleton, ← List.append_assoc, List.nodup_append] at hnodup
  refine hnodup.2.2 h.serial ?_ ani.serial (by simp) hsame
  rcases hh with hmem | hmem
  · simp only [List.mem_append, List.mem_map]
    exact .inl (.inl ⟨h, hmem, rfl⟩)
  · simp only [List.mem_append, List.mem_map]
    exact .inl (.inr ⟨h, hmem, rfl⟩)

theorem Sound.drop_eq (hs : Sound s) {i : ℕ} {ani : Handle} (hi : s._Ani[i]? = some ani) :
    s.drop i ani =
      { s with
        _Ani := s._Ani.eraseIdx i
        heap := Function.update s.heap ani.ptr none
        removed := s.removed ++ [(ani.serial, ani.serial)]
        freed := s.freed ++ [(ani.serial, ani.serial)] } := by
  obtain ⟨a, ha, hserial⟩ := hs.alive ani (List.mem_of_getElem? hi)
  simp only [ParametricManager.drop, ParametricManager.remove, ParametricManager.free, ha, hi,
    hserial]

theorem Sound.drop (hs : Sound s) {i : ℕ} {ani : Handle} (hi : s._Ani[i]? = some ani) :
    Sound (s.drop i ani) := by
  have hother : ∀ h, h ∈ s._Ani.eraseIdx i ∨ h ∈ s.starting →
      Function.update s.heap ani.ptr none h.ptr = s.heap h.ptr := by
    intro h hh
    exact Function.update_of_ne (hs.ptr_ne hi hh) _ _
  rw [hs.drop_eq hi]
  refine ⟨⟨hs.running, ?_, ?_, hs.toIntact.taken hi, ?_⟩, ?_⟩
  · intro p hp
    rcases List.mem_append.mp hp with hold | hnew
    · exact hs.removes p hold
    · obtain rfl := List.mem_singleton.mp hnew
      rfl
  · change s.freed ++ _ = s.removed ++ _
    rw [hs.frees]
  · intro h hh
    change ∃ a, Function.update s.heap ani.ptr none h.ptr = some a ∧ _
    rw [hother h (.inl hh)]
    exact hs.alive h (List.mem_of_mem_eraseIdx hh)
  · intro h hh
    change ∃ a, Function.update s.heap ani.ptr none h.ptr = some a ∧ _
    rw [hother h (.inr hh)]
    exact hs.waiting h hh

theorem Sound.setPc (hs : Sound s) (pc : Pc) : Sound { s with pc := pc } :=
  ⟨⟨hs.running, hs.removes, hs.frees, hs.once, hs.alive⟩, hs.waiting⟩

/-- A change of an animation in place. -/
theorem Sound.touch (hs : Sound s) {ptr : ℕ} {a b : JA_Animation} (ha : s.heap ptr = some a)
    (hb : b.serial = a.serial) : Sound { s with heap := Function.update s.heap ptr (some b) } := by
  have hkeep : ∀ h : Handle, (∃ x, s.heap h.ptr = some x ∧ x.serial = h.serial) →
      ∃ x, Function.update s.heap ptr (some b) h.ptr = some x ∧ x.serial = h.serial := by
    rintro h ⟨x, hx, hserial⟩
    by_cases hptr : h.ptr = ptr
    · rw [hptr, ha] at hx
      cases hx
      exact ⟨b, by rw [hptr, Function.update_self], hb.trans hserial⟩
    · exact ⟨x, by rw [Function.update_of_ne hptr]; exact hx, hserial⟩
  exact ⟨⟨hs.running, hs.removes, hs.frees, hs.once, fun h hh => hkeep h (hs.alive h hh)⟩,
    fun h hh => hkeep h (hs.waiting h hh)⟩

theorem Sound.malloc (hs : Sound s) {ptr : ℕ} (hfree : s.heap ptr = none) (a : JA_Animation)
    (ha : a.serial = s.made) :
    Sound { s with
      heap := Function.update s.heap ptr (some a)
      starting := s.starting ++ [⟨ptr, s.made⟩]
      made := s.made + 1 } := by
  have hkeep : ∀ h : Handle, (∃ x, s.heap h.ptr = some x ∧ x.serial = h.serial) →
      ∃ x, Function.update s.heap ptr (some a) h.ptr = some x ∧ x.serial = h.serial := by
    rintro h ⟨x, hx, hserial⟩
    have hptr : h.ptr ≠ ptr := by
      intro hptr
      rw [hptr, hfree] at hx
      cases hx
    exact ⟨x, by rw [Function.update_of_ne hptr]; exact hx, hserial⟩
  refine ⟨⟨hs.running, hs.removes, hs.frees, ?_, fun h hh => hkeep h (hs.alive h hh)⟩, ?_⟩
  · rw [List.range_succ]
    refine List.Perm.trans ?_ (hs.once.append_right [s.made])
    simp only [List.map_append, List.map_singleton, List.append_assoc]
    refine List.Perm.append_left _ (List.Perm.append_left _ ?_)
    exact List.perm_append_comm
  · intro h hh
    rcases List.mem_append.mp hh with hold | hnew
    · exact hkeep h (hs.waiting h hold)
    · obtain rfl := List.mem_singleton.mp hnew
      exact ⟨a, Function.update_self .., ha⟩

theorem Sound.insert (hs : Sound s) {ani : Handle} (hani : ani ∈ s.starting) :
    Sound { s with _Ani := s._Ani ++ [ani], starting := s.starting.erase ani } := by
  refine ⟨⟨hs.running, hs.removes, hs.frees, ?_, ?_⟩, ?_⟩
  · refine List.Perm.trans ?_ hs.once
    simp only [List.map_append, List.map_singleton, List.append_assoc]
    refine List.Perm.append_left _ ?_
    rw [← List.append_assoc]
    exact ((List.perm_cons_erase hani).map Handle.serial).symm.append_right _
  · intro h hh
    rcases List.mem_append.mp hh with hold | hnew
    · exact hs.alive h hold
    · obtain rfl := List.mem_singleton.mp hnew
      exact hs.waiting h hani
  · intro h hh
    exact hs.waiting h (List.mem_of_mem_erase hh)

end Ledger

section Window
variable {s : ParametricManager} {i : ℕ} {ani : Handle}

theorem drop_getElem? (hs : Sound s) {k : ℕ} {h : Handle} (hk : s._Ani[k]? = some h)
    (hi : i < k) : (s.drop k h)._Ani[i]? = s._Ani[i]? := by
  rw [hs.drop_eq hk]
  exact List.getElem?_eraseIdx_of_lt hi

theorem drop_pc (hs : Sound s) {k : ℕ} {h : Handle} (hk : s._Ani[k]? = some h) :
    (s.drop k h).pc = s.pc := by
  rw [hs.drop_eq hk]

/-- What is gone after a drop had no say in the window. -/
theorem drop_at (hs : Sound s) {k : ℕ} {h : Handle} (hk : s._Ani[k]? = some h) {j : ℕ}
    (hj : j < k) {value : JA_Animation → Bool} (hv : s.anyAt value j = false) :
    (s.drop k h).anyAt value j = false := by
  unfold ParametricManager.anyAt at hv ⊢
  rw [drop_getElem? hs hk hj]
  cases he : s._Ani[j]? with
  | none => rfl
  | some x =>
    rw [he] at hv
    simp only [Option.bind_some] at hv ⊢
    rw [hs.drop_eq hk]
    by_cases hptr : x.ptr = h.ptr
    · simp [hptr]
    · simpa [Function.update_of_ne hptr] using hv

theorem clearLoop_sound (value : JA_Animation → Bool) {n : ℕ} (hs : Sound s)
    (hn : n ≤ s._Ani.length) :
    Sound (s.clearLoop value n) ∧ (s.clearLoop value n).pc = s.pc := by
  induction n generalizing s with
  | zero => exact ⟨hs, rfl⟩
  | succ n ih =>
    obtain ⟨x, hk⟩ : ∃ x, s._Ani[n]? = some x := ⟨_, List.getElem?_eq_getElem hn⟩
    obtain ⟨a, ha, -⟩ := hs.alive x (List.mem_of_getElem? hk)
    simp only [ParametricManager.clearLoop, hk, ha]
    cases value a with
    | false => exact ih hs (Nat.le_of_succ_le hn)
    | true =>
      have hlen : n ≤ (s.drop n x)._Ani.length := by
        rw [hs.drop_eq hk, List.length_eraseIdx_of_lt hn]
        omega
      obtain ⟨hsound, hpc⟩ := ih (hs.drop hk) hlen
      exact ⟨hsound, hpc.trans (drop_pc hs hk)⟩

/-- The items up to `i` stay when the loop takes none of them. -/
theorem clearLoop_window (value : JA_Animation → Bool) {n : ℕ} (hs : Sound s)
    (hn : n ≤ s._Ani.length) (hkeep : ∀ k < i + 1, s.anyAt value k = false) :
    (s.clearLoop value n)._Ani[i]? = s._Ani[i]? := by
  induction n generalizing s with
  | zero => rfl
  | succ n ih =>
    obtain ⟨x, hk⟩ : ∃ x, s._Ani[n]? = some x := ⟨_, List.getElem?_eq_getElem hn⟩
    obtain ⟨a, ha, -⟩ := hs.alive x (List.mem_of_getElem? hk)
    simp only [ParametricManager.clearLoop, hk, ha]
    cases hv : value a with
    | false => exact ih hs (Nat.le_of_succ_le hn) hkeep
    | true =>
      have hlt : i < n := by
        by_contra hge
        have := hkeep n (by omega)
        simp [ParametricManager.anyAt, hk, ha, hv] at this
      have hlen : n ≤ (s.drop n x)._Ani.length := by
        rw [hs.drop_eq hk, List.length_eraseIdx_of_lt hn]
        omega
      refine (ih (hs.drop hk) hlen ?_).trans (drop_getElem? hs hk hlt)
      intro k hk'
      exact drop_at hs hk (by omega) (hkeep k hk')

/-- The animation thread counts on the items it has not come to, and on the one whose `OnEnd`
runs. -/
def InPlace (s : ParametricManager) : Prop :=
  match s.pc with
  | .idle => True
  | .loop n => n ≤ s._Ani.length
  | .ending i ani => s._Ani[i]? = some ani

theorem inPlace_of_window {t : ParametricManager} (hl : s.locked = false) (hp : InPlace s)
    (hpc : t.pc = s.pc) (hkeep : ∀ i ani, s.pc = .ending i ani → t._Ani[i]? = s._Ani[i]?) :
    InPlace t := by
  unfold InPlace at hp ⊢
  rw [hpc]
  cases hs : s.pc with
  | idle => trivial
  | loop n =>
    rw [ParametricManager.locked, hs] at hl
    cases hl
  | ending i ani =>
    rw [hs] at hp
    exact (hkeep i ani hs).trans hp

theorem stopAnimation_sound (hs : Sound s) (hl : s.locked = false) (hp : InPlace s)
    (ha : Allowed s (.stopAnimation ani)) :
    Sound (s.stopAnimation ani) ∧ InPlace (s.stopAnimation ani) := by
  obtain ⟨hfresh, hwindow⟩ := ha
  unfold ParametricManager.stopAnimation
  cases hf : s._Ani.findIdx? fun h => decide (h.ptr = ani.ptr) with
  | none => exact ⟨hs, hp⟩
  | some k =>
    obtain ⟨hlt, hptr, -⟩ := List.findIdx?_eq_some_iff_getElem.mp hf
    have hk : s._Ani[k]? = some ani := by
      rw [List.getElem?_eq_getElem hlt, hfresh _ (List.getElem_mem hlt) (of_decide_eq_true hptr)]
    refine ⟨hs.drop hk, inPlace_of_window hl hp (drop_pc hs hk) ?_⟩
    intro i x hpc
    refine drop_getElem? hs hk ?_
    by_contra hge
    rw [hpc] at hwindow
    have := hwindow k (by omega)
    simp [hk] at this

theorem clear_sound (value : JA_Animation → Bool) (hs : Sound s) (hl : s.locked = false)
    (hp : InPlace s) (hw : KeepsWindow (s.anyAt value) s.pc) :
    Sound (s.clearLoop value s._Ani.length) ∧ InPlace (s.clearLoop value s._Ani.length) := by
  obtain ⟨hsound, hpc⟩ := clearLoop_sound value hs le_rfl
  refine ⟨hsound, inPlace_of_window hl hp hpc ?_⟩
  intro i x hend
  rw [hend] at hw
  exact clearLoop_window value hs le_rfl hw

theorem animate_sound (hs : Sound s) (hi : i < s._Ani.length) :
    Sound (s.animate i) ∧ InPlace (s.animate i) := by
  obtain ⟨x, hk⟩ : ∃ x, s._Ani[i]? = some x := ⟨_, List.getElem?_eq_getElem hi⟩
  obtain ⟨a, ha, -⟩ := hs.alive x (List.mem_of_getElem? hk)
  have htouch := hs.touch (b := { a with _stepcount := a._stepcount + 1 }) ha rfl
  simp only [ParametricManager.animate, hk, ha]
  split
  · split
    · exact ⟨htouch.setPc _, hk⟩
    · refine ⟨(htouch.drop hk).setPc _, ?_⟩
      rw [htouch.drop_eq hk]
      change i ≤ (s._Ani.eraseIdx i).length
      rw [List.length_eraseIdx_of_lt hi]
      omega
  · exact ⟨htouch.setPc _, hi.le⟩

end Window

theorem step_sound {s t : ParametricManager} {act : Act} (hs : Sound s) (hp : InPlace s)
    (ha : Allowed s act) (h : step s act = some t) : Sound t ∧ InPlace t := by
  cases act with
  | malloc ptr a =>
    simp only [step] at h
    split at h
    · cases h
    · rename_i hfree
      cases h
      exact ⟨hs.malloc hfree _ rfl, hp⟩
  | insert ani =>
    simp only [step] at h
    split at h
    · rename_i hcond
      cases h
      refine ⟨hs.insert hcond.2, inPlace_of_window hcond.1 hp rfl ?_⟩
      intro i x hpc
      rw [InPlace, hpc] at hp
      exact List.getElem?_append_left (List.getElem?_eq_some_iff.mp hp).1
    · cases h
  | stopAnimation ani =>
    simp only [step] at h
    split at h
    · cases h
    · rename_i hl
      cases h
      exact stopAnimation_sound hs (Bool.eq_false_iff.mpr hl) hp ha
  | clearAnimation loadings =>
    simp only [step] at h
    split at h
    · cases h
    · rename_i hl
      cases h
      exact clear_sound _ hs (Bool.eq_false_iff.mpr hl) hp ha
  | clearAnimationAt index =>
    simp only [step] at h
    split at h
    · cases h
    · rename_i hl
      cases h
      exact clear_sound _ hs (Bool.eq_false_iff.mpr hl) hp ha
  | operate =>
    simp only [step] at h
    split at h
    · cases h
      exact ⟨hs.setPc _, le_rfl⟩
    · cases h
    · cases h
  | pass =>
    simp only [step] at h
    split at h
    · cases h
      exact ⟨hs.setPc _, trivial⟩
    · rename_i i hpc
      cases h
      rw [InPlace, hpc] at hp
      exact animate_sound hs hp
    · cases h
    · cases h
  | leaveOnEnd =>
    simp only [step] at h
    split at h
    · rename_i i ani hpc
      cases h
      rw [InPlace, hpc] at hp
      refine ⟨(hs.drop hp).setPc _, ?_⟩
      rw [hs.drop_eq hp]
      change i ≤ (s._Ani.eraseIdx i).length
      have hlt := (List.getElem?_eq_some_iff.mp hp).1
      rw [List.length_eraseIdx_of_lt hlt]
      omega
    · cases h
    · cases h

/-- In every run in which no call takes an animation out under the feet of an `OnEnd` and no
`StopAnimation` comes with an old handle, the list of animations stays intact. -/
theorem animations_intact (acts : List Act) (s : ParametricManager)
    (h : Run step Allowed .create acts s) : Intact s := by
  have hboth : Sound s ∧ InPlace s := by
    refine h.invariant (fun s => Sound s ∧ InPlace s) ?_ ⟨create_sound, trivial⟩
    rintro s act t ⟨hs, hp⟩ ha hstep
    exact step_sound hs hp ha hstep
  exact hboth.1.toIntact

/-- An animation that ends at its first pass and has an `OnEnd`, or one that goes on. -/
def brief : JA_Animation := ⟨0, 1, 0, 1, 0, false, true⟩

def lasting : JA_Animation := ⟨0, 2, 0, 100, 0, false, false⟩

/-- Three animations, the middle one brief, up to the `OnEnd` of that one. -/
def upToOnEnd : List Act :=
  [.malloc 1 lasting, .insert ⟨1, 0⟩, .malloc 2 brief, .insert ⟨2, 1⟩, .malloc 3 lasting,
    .insert ⟨3, 2⟩, .operate, .pass, .pass]

theorem animations_intact_stop_behind : ∃ s,
    Run step Allowed .create
      (upToOnEnd ++ [.stopAnimation ⟨3, 2⟩, .malloc 3 lasting, .insert ⟨3, 3⟩, .leaveOnEnd, .pass]) s ∧
    s._Ani = [⟨1, 0⟩, ⟨3, 3⟩] ∧ Intact s := by
  obtain ⟨s, hrun, hani⟩ : ∃ s, Run step Allowed .create
      (upToOnEnd ++ [.stopAnimation ⟨3, 2⟩, .malloc 3 lasting, .insert ⟨3, 3⟩, .leaveOnEnd, .pass]) s ∧
      s._Ani = [⟨1, 0⟩, ⟨3, 3⟩] := exists_run (by decide +kernel)
  exact ⟨s, hrun, hani, animations_intact _ s hrun⟩

/-- The first animation is stopped while the `OnEnd` of the second runs. The third is then
taken out in the place of the second, which stays in the list after its `free`. -/
theorem stop_in_onEnd_removes_another : ¬ ∀ acts s,
    Run step (fun _ _ => True) .create acts s → Intact s := by
  intro hall
  obtain ⟨s, hrun, hani, hheap⟩ : ∃ s, Run step (fun _ _ => True) .create
      (upToOnEnd ++ [.stopAnimation ⟨1, 0⟩, .leaveOnEnd]) s ∧
      s._Ani = [⟨2, 1⟩] ∧ s.heap 2 = none := exists_run (by decide +kernel)
  obtain ⟨a, ha, -⟩ := (hall _ s hrun).alive ⟨2, 1⟩ (by rw [hani]; exact List.mem_singleton_self _)
  rw [hheap] at ha
  cases ha

end Jagles.Animations
