import Jagles.MotionTracking

set_option autoImplicit false
set_option linter.dupNamespace false

/-!
# The life of a tracked frame

What one bitmap does to a frame depends on whether one of its objects updates the frame.
Along a run, a frame is dropped at the first bitmap that makes more than `mDropSecond`
bitmaps in a row without an update.
-/
namespace Jagles.MotionTracking
open KeyedTable GuardedRuns

variable {s t : GPUMotionTracking} {px : Bitmap} {id : ℕ}

/-- The frames have different numbers, all of frames that have been made. -/
structure WellTracked (s : GPUMotionTracking) : Prop where
  distinct : DistinctKeys TrackingFrame.id s.mTrackingFrame
  made : ∀ k ∈ s.mTrackingFrame.map TrackingFrame.id, k < s.created

/-- The frame has been updated or made by the bitmap at hand. -/
def Fresh (s : GPUMotionTracking) (id : ℕ) : Prop :=
  ∃ f, tracked s id = some f ∧ f._update = true ∧ f._skipupdatecount = 0

theorem WellTracked.tracked_eq_none (h : WellTracked s) (hid : s.created ≤ id) :
    tracked s id = none := by
  apply lookup_eq_none.mpr
  intro f hf he
  have := h.made f.id (List.mem_map_of_mem hf)
  omega

theorem WellTracked.lt_of_tracked (h : WellTracked s) {f : TrackingFrame}
    (hf : tracked s id = some f) : id < s.created := by
  obtain ⟨hmem, hid⟩ := lookup_mem hf
  exact hid ▸ h.made f.id (List.mem_map_of_mem hmem)

theorem WellTracked.clearUpdates (h : WellTracked s) : WellTracked s.clearUpdates := by
  have hkeys : s.clearUpdates.mTrackingFrame.map TrackingFrame.id =
      s.mTrackingFrame.map TrackingFrame.id := by
    simp [GPUMotionTracking.clearUpdates, Function.comp_def]
  refine ⟨?_, ?_⟩
  · unfold DistinctKeys
    rw [hkeys]
    exact h.distinct
  · rw [hkeys]
    exact h.made

theorem tracked_clearUpdates (s : GPUMotionTracking) (id : ℕ) :
    tracked s.clearUpdates id = (tracked s id).map fun f => { f with _update := false } :=
  lookup_map (g := fun f : TrackingFrame => { f with _update := false }) (fun _ => rfl) id

/-- The frame after an update from an object. -/
def moved (px : Bitmap) (o f : TrackingFrame) : TrackingFrame :=
  remeasure px (f.updatefrom o.resizeFrame)

theorem moved_id (px : Bitmap) (o f : TrackingFrame) : (moved px o f).id = f.id := rfl

/-- What one object does: it updates the frame it meets first, or becomes a frame. -/
theorem matchObject_cases (px : Bitmap) (s : GPUMotionTracking) (o : TrackingFrame) :
    s.matchObject px o = s ∧ updates s o = none ∨
    (∃ i f, s.mTrackingFrame[i]? = some f ∧ updates s o = some f.id ∧
      s.matchObject px o = { s with mTrackingFrame := s.mTrackingFrame.modify i (moved px o) }) ∨
    updates s o = none ∧ s.matchObject px o =
      { s with
        mTrackingFrame := s.mTrackingFrame ++ [moved px o (.create s.created)]
        created := s.created + 1 } := by
  simp only [GPUMotionTracking.matchObject, updates, intersectFrame]
  rw [List.find?_eq_bind_findIdx?_getElem?]
  split
  · cases hi : s.mTrackingFrame.findIdx? fun f => f.intersect o.resizeFrame with
    | none => exact .inr (.inr ⟨rfl, rfl⟩)
    | some i =>
      obtain ⟨hlt, -⟩ := List.findIdx?_eq_some_iff_getElem.mp hi
      exact .inr (.inl ⟨i, _, List.getElem?_eq_getElem hlt, by simp [hlt], rfl⟩)
  · exact .inl ⟨rfl, rfl⟩

theorem WellTracked.matchObject (h : WellTracked s) (px : Bitmap) (o : TrackingFrame) :
    WellTracked (s.matchObject px o) := by
  rcases matchObject_cases px s o with ⟨he, -⟩ | ⟨i, f, hf, -, he⟩ | ⟨-, he⟩
  · rw [he]
    exact h
  · rw [he]
    refine ⟨h.distinct.modify (moved_id px o) i, ?_⟩
    rw [map_key_modify (moved_id px o)]
    exact h.made
  · rw [he]
    refine ⟨h.distinct.snoc (h.tracked_eq_none le_rfl), ?_⟩
    intro k hk
    rw [List.map_append, List.mem_append] at hk
    rcases hk with hold | hnew
    · exact Nat.lt_succ_of_lt (h.made k hold)
    · obtain rfl := List.mem_singleton.mp hnew
      exact Nat.lt_succ_self _

/-- What the matching leaves alone. -/
structure SameSettings (s t : GPUMotionTracking) : Prop where
  mObjectSize : t.mObjectSize = s.mObjectSize
  mDropSecond : t.mDropSecond = s.mDropSecond
  calls : t.calls = s.calls
  created : s.created ≤ t.created

theorem SameSettings.trans {u : GPUMotionTracking} (h : SameSettings s t) (h' : SameSettings t u) :
    SameSettings s u :=
  ⟨h'.mObjectSize.trans h.mObjectSize, h'.mDropSecond.trans h.mDropSecond,
    h'.calls.trans h.calls, h.created.trans h'.created⟩

theorem matchObject_settings (px : Bitmap) (s : GPUMotionTracking) (o : TrackingFrame) :
    SameSettings s (s.matchObject px o) := by
  rcases matchObject_cases px s o with ⟨he, -⟩ | ⟨i, f, hf, -, he⟩ | ⟨-, he⟩
  · rw [he]
    exact ⟨rfl, rfl, rfl, le_rfl⟩
  · rw [he]
    exact ⟨rfl, rfl, rfl, le_rfl⟩
  · rw [he]
    exact ⟨rfl, rfl, rfl, Nat.le_succ _⟩

/-- A frame that an object updates is fresh. -/
theorem matchObject_updates (h : WellTracked s) {o : TrackingFrame} (hu : updates s o = some id) :
    Fresh (s.matchObject px o) id := by
  rcases matchObject_cases px s o with ⟨-, hn⟩ | ⟨i, f, hf, hsome, he⟩ | ⟨hn, -⟩
  · rw [hn] at hu
    cases hu
  · obtain rfl : f.id = id := Option.some.inj (hsome.symm.trans hu)
    refine ⟨moved px o f, ?_, rfl, rfl⟩
    rw [he]
    refine (lookup_modify (moved_id px o) h.distinct hf f.id).trans ?_
    rw [if_pos rfl]
  · rw [hn] at hu
    cases hu

/-- A frame that it does not update stays as it is. -/
theorem matchObject_other (h : WellTracked s) {o : TrackingFrame} (hu : updates s o ≠ some id)
    (hid : id < s.created) : tracked (s.matchObject px o) id = tracked s id := by
  rcases matchObject_cases px s o with ⟨he, -⟩ | ⟨i, f, hf, hsome, he⟩ | ⟨-, he⟩
  · rw [he]
  · have hne : f.id ≠ id := by
      rintro rfl
      exact hu hsome
    rw [he]
    refine (lookup_modify (moved_id px o) h.distinct hf id).trans ?_
    rw [if_neg hne]
    rfl
  · rw [he]
    refine (lookup_snoc _ id).trans ?_
    rw [if_neg (by change s.created ≠ id; omega), Option.or_none]
    rfl

/-- A frame that it makes is fresh. -/
theorem matchObject_makes (h : WellTracked s) {o : TrackingFrame} (hid : s.created ≤ id)
    (hid' : id < (s.matchObject px o).created) : Fresh (s.matchObject px o) id := by
  rcases matchObject_cases px s o with ⟨he, -⟩ | ⟨i, f, hf, -, he⟩ | ⟨-, he⟩
  · rw [he] at hid'
    omega
  · rw [he] at hid'
    change id < s.created at hid'
    omega
  · rw [he] at hid' ⊢
    obtain rfl : id = s.created := by
      change id < s.created + 1 at hid'
      omega
    refine ⟨moved px o (.create s.created), ?_, rfl, rfl⟩
    refine (lookup_snoc _ _).trans ?_
    rw [if_pos (by rfl), show lookup _ s.mTrackingFrame _ = none from h.tracked_eq_none le_rfl]
    rfl

theorem Fresh.matchObject (hf : Fresh s id) (h : WellTracked s) (o : TrackingFrame) :
    Fresh (s.matchObject px o) id := by
  by_cases hu : updates s o = some id
  · exact matchObject_updates h hu
  · obtain ⟨f, hf', hup, hskip⟩ := hf
    refine ⟨f, ?_, hup, hskip⟩
    rw [matchObject_other h hu (h.lt_of_tracked hf')]
    exact hf'

section Objects
variable (px)

def matchAll (s : GPUMotionTracking) (os : List TrackingFrame) : GPUMotionTracking :=
  os.foldl (GPUMotionTracking.matchObject px) s

theorem WellTracked.matchAll (h : WellTracked s) (os : List TrackingFrame) :
    WellTracked (matchAll px s os) := by
  induction os generalizing s with
  | nil => exact h
  | cons o os ih => exact ih (h.matchObject px o)

theorem matchAll_settings (s : GPUMotionTracking) (os : List TrackingFrame) :
    SameSettings s (matchAll px s os) := by
  induction os generalizing s with
  | nil => exact ⟨rfl, rfl, rfl, le_rfl⟩
  | cons o os ih => exact (matchObject_settings px s o).trans (ih _)

theorem Fresh.matchAll (hf : Fresh s id) (h : WellTracked s) (os : List TrackingFrame) :
    Fresh (matchAll px s os) id := by
  induction os generalizing s with
  | nil => exact hf
  | cons o os ih => exact ih (hf.matchObject h o) (h.matchObject px o)

theorem matchAll_updates (h : WellTracked s) {os : List TrackingFrame}
    (hu : id ∈ updatedBy px s os) : Fresh (matchAll px s os) id := by
  induction os generalizing s with
  | nil => cases hu
  | cons o os ih =>
    rcases List.mem_append.mp hu with hhere | hlater
    · exact (matchObject_updates h (Option.mem_toList.mp hhere)).matchAll px (h.matchObject px o) os
    · exact ih (h.matchObject px o) hlater

theorem matchAll_other (h : WellTracked s) {os : List TrackingFrame}
    (hu : id ∉ updatedBy px s os) (hid : id < s.created) :
    tracked (matchAll px s os) id = tracked s id := by
  induction os generalizing s with
  | nil => rfl
  | cons o os ih =>
    simp only [updatedBy, List.mem_append, Option.mem_toList, not_or] at hu
    have hlt := lt_of_lt_of_le hid (matchObject_settings px s o).created
    exact (ih (h.matchObject px o) hu.2 hlt).trans (matchObject_other h hu.1 hid)

theorem not_mem_updatedBy (h : WellTracked s) (hid : id < s.created) (hn : tracked s id = none)
    (os : List TrackingFrame) : id ∉ updatedBy px s os := by
  induction os generalizing s with
  | nil => simp [updatedBy]
  | cons o os ih =>
    have hu : updates s o ≠ some id := by
      intro hu
      rcases matchObject_cases px s o with ⟨-, hn'⟩ | ⟨i, f, hf, hsome, -⟩ | ⟨hn', -⟩
      · rw [hn'] at hu
        cases hu
      · obtain rfl : f.id = id := Option.some.inj (hsome.symm.trans hu)
        exact lookup_eq_none.mp hn f (List.mem_of_getElem? hf) rfl
      · rw [hn'] at hu
        cases hu
    have hlt := lt_of_lt_of_le hid (matchObject_settings px s o).created
    have hrest := ih (h.matchObject px o) hlt ((matchObject_other h hu hid).trans hn)
    simp only [updatedBy, List.mem_append, Option.mem_toList, not_or]
    exact ⟨hu, hrest⟩

theorem matchAll_makes (h : WellTracked s) {os : List TrackingFrame} (hid : s.created ≤ id)
    (hid' : id < (matchAll px s os).created) : Fresh (matchAll px s os) id := by
  induction os generalizing s with
  | nil =>
    change id < s.created at hid'
    omega
  | cons o os ih =>
    by_cases hlt : id < (s.matchObject px o).created
    · exact (matchObject_makes h hid hlt).matchAll px (h.matchObject px o) os
    · exact ih (h.matchObject px o) (not_lt.mp hlt) hid'

end Objects

/-- The calls among these that report the removal of a frame. -/
def removalsIn (calls : List Call) (id : ℕ) : ℕ :=
  calls.countP fun c => decide (c.id = id ∧ c.del = true)

section Sweep
variable {drop : ℤ} {i : Input} {n : ℕ} {f : TrackingFrame} {k : Option TrackingFrame}
  {c : List Call}

theorem sweepFrame_id (h : sweepFrame drop i n f = some (k, c)) :
    (∀ f' ∈ k, f'.id = f.id) ∧ ∀ x ∈ c, x.id = f.id := by
  simp only [sweepFrame] at h
  split at h
  · split at h
    · cases h
      simp
    · cases h
      refine ⟨?_, by simp [call]⟩
      intro f' hf'
      split at hf'
      · cases hf'
      · cases hf'
        rfl
  · split at h
    · split at h
      · cases h
      · cases h
        simp [call]
    · cases h
      simp

theorem sweepFrame_updated (id : ℕ) (hk : Keeps i) (hf : f._update = true)
    (h : sweepFrame drop i n f = some (k, c)) :
    (∃ index, k = some { f with _index := index }) ∧ removalsIn c id = 0 := by
  unfold sweepFrame at h
  rw [if_pos hf] at h
  split at h
  · cases h
    exact ⟨⟨f._index, rfl⟩, rfl⟩
  · rename_i answer hcb
    cases h
    refine ⟨⟨answer false n, ?_⟩, by simp [removalsIn, call]⟩
    rw [if_neg (not_lt.mpr (hk answer hcb n))]

theorem sweepFrame_kept (id : ℕ) (hf : f._update = false) (hs : f._skipupdatecount + 1 ≤ drop)
    (h : sweepFrame drop i n f = some (k, c)) :
    k = some { f with _skipupdatecount := f._skipupdatecount + 1 } ∧ removalsIn c id = 0 := by
  simp only [sweepFrame, hf, Bool.false_eq_true, if_false] at h
  rw [if_neg (not_lt.mpr hs)] at h
  cases h
  exact ⟨by rw [hf], rfl⟩

theorem sweepFrame_dropped (hf : f._update = false) (hs : drop < f._skipupdatecount + 1)
    (h : sweepFrame drop i n f = some (k, c)) : k = none ∧ removalsIn c f.id = 1 := by
  simp only [sweepFrame, hf, Bool.false_eq_true, if_false] at h
  rw [if_pos hs] at h
  split at h
  · cases h
  · cases h
    exact ⟨rfl, by simp [removalsIn, call]⟩

theorem sweep_cons {fs kept : List TrackingFrame} {calls : List Call}
    (h : sweep drop i (f :: fs) = some (kept, calls)) :
    ∃ kept' calls' k c, sweep drop i fs = some (kept', calls') ∧
      sweepFrame drop i calls'.length f = some (k, c) ∧ kept = k.toList ++ kept' ∧
      calls = calls' ++ c := by
  simp only [sweep, Option.bind_eq_bind, Option.bind_eq_some_iff, Prod.exists] at h
  obtain ⟨kept', calls', hrest, k, c, hf, he⟩ := h
  cases he
  exact ⟨kept', calls', k, c, hrest, hf, rfl, rfl⟩

theorem sweep_sublist {fs kept : List TrackingFrame} {calls : List Call}
    (h : sweep drop i fs = some (kept, calls)) :
    (kept.map TrackingFrame.id).Sublist (fs.map TrackingFrame.id) := by
  induction fs generalizing kept calls with
  | nil =>
    cases h
    exact .refl _
  | cons f fs ih =>
    obtain ⟨kept', calls', k, c, hrest, hf, rfl, -⟩ := sweep_cons h
    cases hk : k with
    | none => exact (ih hrest).cons _
    | some f' =>
      have hid := (sweepFrame_id hf).1 f' (by rw [hk]; rfl)
      simp only [Option.toList_some, List.singleton_append, List.map_cons, hid]
      exact (ih hrest).cons_cons _

/-- Every frame has its own pass, and the calls for it are made there. -/
theorem sweep_lookup {fs kept : List TrackingFrame} {calls : List Call}
    (hd : DistinctKeys TrackingFrame.id fs) (h : sweep drop i fs = some (kept, calls)) (id : ℕ) :
    match lookup TrackingFrame.id fs id with
    | none => lookup TrackingFrame.id kept id = none ∧ removalsIn calls id = 0
    | some f => ∃ n k c, sweepFrame drop i n f = some (k, c) ∧
        lookup TrackingFrame.id kept id = k ∧ removalsIn calls id = removalsIn c id := by
  induction fs generalizing kept calls with
  | nil =>
    cases h
    exact ⟨rfl, rfl⟩
  | cons f fs ih =>
    obtain ⟨kept', calls', k, c, hrest, hf, rfl, rfl⟩ := sweep_cons h
    obtain ⟨hnew, hd'⟩ := List.nodup_cons.mp hd
    obtain ⟨hkid, hcid⟩ := sweepFrame_id hf
    have hih := ih hd' hrest
    have hcount : removalsIn (calls' ++ c) id = removalsIn calls' id + removalsIn c id :=
      List.countP_append
    rw [lookup_cons, hcount]
    by_cases hid : f.id = id
    · subst hid
      have habsent : lookup TrackingFrame.id fs f.id = none := by
        apply lookup_eq_none.mpr
        intro f' hf' he
        exact hnew (he ▸ List.mem_map_of_mem hf')
      rw [habsent] at hih
      rw [if_pos rfl]
      refine ⟨_, k, c, hf, ?_, by rw [hih.2, Nat.zero_add]⟩
      cases k with
      | none => exact hih.1
      | some f' =>
        rw [Option.toList_some, List.singleton_append, lookup_cons, if_pos (hkid f' rfl)]
    · have hsame : lookup TrackingFrame.id (k.toList ++ kept') id =
          lookup TrackingFrame.id kept' id := by
        cases k with
        | none => rfl
        | some f' =>
          rw [Option.toList_some, List.singleton_append, lookup_cons,
            if_neg (by rw [hkid f' rfl]; exact hid)]
      have hnone : removalsIn c id = 0 := by
        apply List.countP_eq_zero.mpr
        intro x hx
        simp [hcid x hx, hid]
      rw [if_neg hid, hsame, hnone, Nat.add_zero]
      exact hih

end Sweep

section Bitmaps
variable {i : Input}

/-- The frames after the loop over the objects. -/
def matched (s : GPUMotionTracking) (i : Input) : GPUMotionTracking :=
  matchAll i.mPixelsBuffer s.clearUpdates (objects i.mPixelsBuffer).reverse

theorem matched_settings (s : GPUMotionTracking) (i : Input) : SameSettings s (matched s i) := by
  obtain ⟨h1, h2, h3, h4⟩ :=
    matchAll_settings i.mPixelsBuffer s.clearUpdates (objects i.mPixelsBuffer).reverse
  exact ⟨h1, h2, h3, h4⟩

theorem WellTracked.matched (h : WellTracked s) (i : Input) : WellTracked (matched s i) :=
  h.clearUpdates.matchAll _ _

theorem detectTracking_eq (hd : detectTracking s i = some t) :
    ∃ kept calls, sweep s.mDropSecond i (matched s i).mTrackingFrame = some (kept, calls) ∧
      t = { matched s i with mTrackingFrame := kept, calls := s.calls ++ calls } := by
  obtain ⟨-, hdrop, hcalls, -⟩ := matched_settings s i
  change (sweep (matched s i).mDropSecond i (matched s i).mTrackingFrame).bind _ = some t at hd
  obtain ⟨⟨kept, calls⟩, hsweep, he⟩ := Option.bind_eq_some_iff.mp hd
  rw [hdrop] at hsweep
  cases he
  exact ⟨kept, calls, hsweep, by rw [← hcalls]; rfl⟩

theorem detectTracking_settings (hd : detectTracking s i = some t) :
    t.mDropSecond = s.mDropSecond ∧ s.created ≤ t.created := by
  obtain ⟨kept, calls, -, rfl⟩ := detectTracking_eq hd
  exact ⟨(matched_settings s i).mDropSecond, (matched_settings s i).created⟩

theorem WellTracked.detectTracking (h : WellTracked s) (hd : detectTracking s i = some t) :
    WellTracked t := by
  obtain ⟨kept, calls, hsweep, rfl⟩ := detectTracking_eq hd
  have hm := h.matched i
  have hsub := sweep_sublist hsweep
  exact ⟨List.Nodup.sublist hsub hm.distinct, fun k hk => hm.made k (hsub.subset hk)⟩

/-- The pass of the last loop that decides over a frame. -/
theorem detectTracking_tracked (h : WellTracked s) (hd : detectTracking s i = some t) (id : ℕ) :
    match tracked (matched s i) id with
    | none => tracked t id = none ∧ removals t id = removals s id
    | some f => ∃ n k c, sweepFrame s.mDropSecond i n f = some (k, c) ∧ tracked t id = k ∧
        removals t id = removals s id + removalsIn c id := by
  obtain ⟨kept, calls, hsweep, rfl⟩ := detectTracking_eq hd
  have hpass := sweep_lookup (h.matched i).distinct hsweep id
  have hcount : (s.calls ++ calls).countP (fun c => decide (c.id = id ∧ c.del = true)) =
      removals s id + removalsIn calls id := List.countP_append
  unfold tracked
  split at hpass
  · refine ⟨hpass.1, hcount.trans ?_⟩
    rw [hpass.2, Nat.add_zero]
  · obtain ⟨n, k, c, hf, hk, hc⟩ := hpass
    refine ⟨n, k, c, hf, hk, hcount.trans ?_⟩
    rw [hc]

/-- A frame that is updated or made is kept, and no removal is reported. -/
theorem detectTracking_fresh (h : WellTracked s) (hk : Keeps i) (hd : detectTracking s i = some t)
    (hf : Fresh (matched s i) id) : Fresh t id ∧ removals t id = removals s id := by
  obtain ⟨f, hf, hup, hskip⟩ := hf
  have hpass := detectTracking_tracked h hd id
  rw [hf] at hpass
  obtain ⟨n, k, c, hsweep, hkept, hcount⟩ := hpass
  obtain ⟨⟨index, rfl⟩, hnone⟩ := sweepFrame_updated id hk hup hsweep
  rw [hnone, Nat.add_zero] at hcount
  exact ⟨⟨_, hkept, hup, hskip⟩, hcount⟩

theorem matched_missed (h : WellTracked s) (hid : id < s.created) (hu : id ∉ updated s i) :
    tracked (matched s i) id = (tracked s id).map fun f => { f with _update := false } := by
  rw [← tracked_clearUpdates]
  exact matchAll_other _ h.clearUpdates hu hid

/-- A frame that is not updated waits, or is dropped with one report. -/
theorem detectTracking_missed (h : WellTracked s) (hd : detectTracking s i = some t)
    {f : TrackingFrame} (hf : tracked s id = some f) (hu : id ∉ updated s i) :
    (f._skipupdatecount + 1 ≤ s.mDropSecond →
      tracked t id = some
          { f with _update := false, _skipupdatecount := f._skipupdatecount + 1 } ∧
        removals t id = removals s id) ∧
    (s.mDropSecond < f._skipupdatecount + 1 →
      tracked t id = none ∧ removals t id = removals s id + 1) := by
  have hfid := (lookup_mem hf).2
  have hpass := detectTracking_tracked h hd id
  rw [matched_missed h (h.lt_of_tracked hf) hu, hf, Option.map_some] at hpass
  obtain ⟨n, k, c, hsweep, hkept, hcount⟩ := hpass
  constructor
  · intro hle
    obtain ⟨rfl, hnone⟩ := sweepFrame_kept (f := { f with _update := false }) id rfl hle hsweep
    rw [hnone, Nat.add_zero] at hcount
    exact ⟨hkept, hcount⟩
  · intro hlt
    obtain ⟨rfl, hone⟩ := sweepFrame_dropped (f := { f with _update := false }) rfl hlt hsweep
    rw [show removalsIn c id = 1 from hfid ▸ hone] at hcount
    exact ⟨hkept, hcount⟩

/-- A frame that has been dropped does not come back. -/
theorem detectTracking_absent (h : WellTracked s) (hd : detectTracking s i = some t)
    (hid : id < s.created) (hn : tracked s id = none) :
    tracked t id = none ∧ removals t id = removals s id := by
  have hu : id ∉ updated s i := by
    refine not_mem_updatedBy _ h.clearUpdates hid ?_ _
    rw [tracked_clearUpdates, hn]
    rfl
  have hpass := detectTracking_tracked h hd id
  rw [matched_missed h hid hu, hn] at hpass
  exact hpass

/-- A `NULL` callback is not called in a bitmap that gets through. -/
theorem detectTracking_silent (hnull : i.OnMotionTracking = none)
    (hd : detectTracking s i = some t) : t.calls = s.calls := by
  obtain ⟨kept, calls, hsweep, rfl⟩ := detectTracking_eq hd
  have hnone : ∀ {fs kept calls}, sweep s.mDropSecond i fs = some (kept, calls) → calls = [] := by
    intro fs
    induction fs with
    | nil =>
      intro kept calls h
      cases h
      rfl
    | cons f fs ih =>
      intro kept calls h
      obtain ⟨kept', calls', k, c, hrest, hf, -, rfl⟩ := sweep_cons h
      rw [ih hrest, List.nil_append]
      simp only [sweepFrame, hnull] at hf
      split at hf
      · cases hf
        rfl
      · split at hf
        · cases hf
        · cases hf
          rfl
  rw [hnone hsweep, List.append_nil]

/-- With a callback every bitmap gets through. -/
theorem detectTracking_isSome {answer : Bool → ℕ → ℤ} (s : GPUMotionTracking)
    (hset : i.OnMotionTracking = some answer) : ∃ t, detectTracking s i = some t := by
  have hsweep : ∀ (drop : ℤ) (fs : List TrackingFrame), ∃ r, sweep drop i fs = some r := by
    intro drop fs
    induction fs with
    | nil => exact ⟨_, rfl⟩
    | cons f fs ih =>
      obtain ⟨⟨kept, calls⟩, hrest⟩ := ih
      have hframe : ∃ r, sweepFrame drop i calls.length f = some r := by
        simp only [sweepFrame, hset]
        split
        · exact ⟨_, rfl⟩
        · split <;> exact ⟨_, rfl⟩
      obtain ⟨⟨k, c⟩, hframe⟩ := hframe
      exact ⟨(k.toList ++ kept, calls ++ c), by simp [sweep, hrest, hframe]⟩
  obtain ⟨⟨kept, calls⟩, hr⟩ := hsweep (matched s i).mDropSecond (matched s i).mTrackingFrame
  refine ⟨{ matched s i with mTrackingFrame := kept, calls := (matched s i).calls ++ calls }, ?_⟩
  change (sweep (matched s i).mDropSecond i (matched s i).mTrackingFrame).bind _ = _
  rw [hr]
  rfl

end Bitmaps

/-- Where a frame number stands: the frame is tracked, it has been dropped with one report,
or it has not been made yet. An updated frame has waited for no bitmap. -/
inductive Fate (s : GPUMotionTracking) (id : ℕ) : Prop where
  | alive (f : TrackingFrame) (here : tracked s id = some f) (waited : 0 ≤ f._skipupdatecount)
      (updated : f._update = true → f._skipupdatecount = 0) (silent : removals s id = 0)
  | gone (made : id < s.created) (absent : tracked s id = none) (reported : removals s id = 1)
  | unmade (later : s.created ≤ id) (silent : removals s id = 0)

structure Accounted (s : GPUMotionTracking) : Prop where
  well : WellTracked s
  fate : ∀ id, Fate s id

theorem create_accounted (mObjectSize mDropSecond : ℤ) :
    Accounted (.create mObjectSize mDropSecond) := by
  refine ⟨⟨List.nodup_nil, ?_⟩, ?_⟩
  · intro k hk
    cases hk
  · intro id
    exact .unmade (Nat.zero_le id) rfl

theorem Fresh.fate (h : Fresh s id) (hs : removals s id = 0) : Fate s id := by
  obtain ⟨f, hf, -, hskip⟩ := h
  exact .alive f hf hskip.ge (fun _ => hskip) hs

theorem Fate.detectTracking {i : Input} (h : Fate s id) (hw : WellTracked s) (hk : Keeps i)
    (hd : detectTracking s i = some t) : Fate t id := by
  have hle := (detectTracking_settings hd).2
  cases h with
  | alive f here waited updated silent =>
    by_cases hu : id ∈ MotionTracking.updated s i
    · obtain ⟨hfresh, hsame⟩ :=
        detectTracking_fresh hw hk hd (matchAll_updates _ hw.clearUpdates hu)
      exact hfresh.fate (hsame.trans silent)
    · obtain ⟨hwaits, hdrops⟩ := detectTracking_missed hw hd here hu
      rcases le_or_gt (f._skipupdatecount + 1) s.mDropSecond with hwait | hdrop
      · obtain ⟨hkept, hsame⟩ := hwaits hwait
        refine .alive _ hkept (by change 0 ≤ f._skipupdatecount + 1; omega) ?_ (hsame.trans silent)
        intro hup
        cases hup
      · obtain ⟨hgone, hone⟩ := hdrops hdrop
        exact .gone (lt_of_lt_of_le (hw.lt_of_tracked here) hle) hgone (by omega)
  | gone made absent reported =>
    obtain ⟨hnone, hsame⟩ := detectTracking_absent hw hd made absent
    exact .gone (lt_of_lt_of_le made hle) hnone (hsame.trans reported)
  | unmade later silent =>
    have hcreated : t.created = (matched s i).created := by
      obtain ⟨kept, calls, -, rfl⟩ := detectTracking_eq hd
      rfl
    by_cases hnew : id < t.created
    · have hfresh : Fresh (matched s i) id :=
        matchAll_makes _ hw.clearUpdates later (hcreated ▸ hnew)
      obtain ⟨hfresh, hsame⟩ := detectTracking_fresh hw hk hd hfresh
      exact hfresh.fate (hsame.trans silent)
    · have hpass := detectTracking_tracked hw hd id
      rw [(hw.matched i).tracked_eq_none (hcreated ▸ not_lt.mp hnew)] at hpass
      exact .unmade (not_lt.mp hnew) (hpass.2.trans silent)

theorem Accounted.detectTracking {i : Input} (a : Accounted s) (hk : Keeps i)
    (hd : detectTracking s i = some t) : Accounted t :=
  ⟨a.well.detectTracking hd, fun id => (a.fate id).detectTracking a.well hk hd⟩

/-- Bitmaps in a row that do not update the frame. -/
def Missing (id : ℕ) (s : GPUMotionTracking) (i : Input) : Prop := Keeps i ∧ id ∉ updated s i

theorem run_absent {is : List Input} (h : Run detectTracking (Missing id) s is t)
    (hw : WellTracked s) (hid : id < s.created) (hn : tracked s id = none) :
    tracked t id = none ∧ removals t id = removals s id := by
  induction h with
  | nil s => exact ⟨hn, rfl⟩
  | cons hc hs _ ih =>
    obtain ⟨hnone, hsame⟩ := detectTracking_absent hw hs hid hn
    obtain ⟨hend, hrest⟩ := ih (hw.detectTracking hs)
      (lt_of_lt_of_le hid (detectTracking_settings hs).2) hnone
    exact ⟨hend, hrest.trans hsame⟩

/-- The frame is kept while it has waited for at most `mDropSecond` bitmaps, and the next
one drops it with one report. -/
theorem run_missed {is : List Input} (h : Run detectTracking (Missing id) s is t)
    (hw : WellTracked s) {f : TrackingFrame} (hf : tracked s id = some f) :
    (is = [] ∨ f._skipupdatecount + is.length ≤ s.mDropSecond →
      (tracked t id).isSome ∧ removals t id = removals s id) ∧
    (is ≠ [] ∧ s.mDropSecond < f._skipupdatecount + is.length →
      tracked t id = none ∧ removals t id = removals s id + 1) := by
  induction h generalizing f with
  | nil s => simp [hf]
  | @cons s u t i is hc hs tail ih =>
    obtain ⟨hwaits, hdrops⟩ := detectTracking_missed hw hs hf hc.2
    have hlen : (i :: is).length = is.length + 1 := rfl
    rcases le_or_gt (f._skipupdatecount + 1) s.mDropSecond with hwait | hdrop
    · obtain ⟨hkept, hsame⟩ := hwaits hwait
      obtain ⟨hwait', hdrop'⟩ := ih (hw.detectTracking hs) hkept
      rw [(detectTracking_settings hs).1, hsame] at hwait' hdrop'
      change _ ∨ f._skipupdatecount + 1 + _ ≤ _ → _ at hwait'
      change _ ∧ _ < f._skipupdatecount + 1 + _ → _ at hdrop'
      constructor
      · rintro (hnil | hle)
        · cases hnil
        · exact hwait' (.inr (by omega))
      · rintro ⟨-, hlt⟩
        refine hdrop' ⟨?_, by omega⟩
        rintro rfl
        simp only [List.length_nil] at hlen
        omega
    · obtain ⟨hgone, hone⟩ := hdrops hdrop
      obtain ⟨hend, hrest⟩ := run_absent tail (hw.detectTracking hs)
        (lt_of_lt_of_le (hw.lt_of_tracked hf) (detectTracking_settings hs).2) hgone
      constructor
      · rintro (hnil | hle)
        · cases hnil
        · omega
      · intro _
        exact ⟨hend, hrest.trans hone⟩

/-- In every state reached: a bitmap with an object that meets a frame first updates it; a
frame that has just been updated or made is kept through `mDropSecond` bitmaps without an
update and dropped by the next one, with one report; a `NULL` callback is not called; and
with a callback every bitmap gets through. -/
theorem tracked_frame_lifecycle (mObjectSize mDropSecond : ℤ) (is : List Input)
    (s : GPUMotionTracking)
    (hs : Run detectTracking (fun _ i => Keeps i) (.create mObjectSize mDropSecond) is s)
    (f : TrackingFrame) (hf : f ∈ s.mTrackingFrame) :
    (∀ i t, Keeps i → detectTracking s i = some t → f.id ∈ updated s i →
      (∃ f' ∈ t.mTrackingFrame, f'.id = f.id ∧ f'._update = true) ∧ removals t f.id = 0) ∧
    (f._update = true → ∀ js t, Run detectTracking (Missing f.id) s js t →
      (js.length ≤ mDropSecond.toNat →
        (∃ f' ∈ t.mTrackingFrame, f'.id = f.id) ∧ removals t f.id = 0) ∧
      (mDropSecond.toNat < js.length →
        (∀ f' ∈ t.mTrackingFrame, f'.id ≠ f.id) ∧ removals t f.id = 1)) ∧
    (∀ i t, i.OnMotionTracking = none → detectTracking s i = some t → t.calls = s.calls) ∧
    (∀ i answer, i.OnMotionTracking = some answer → ∃ t, detectTracking s i = some t) := by
  obtain ⟨a, hdrop⟩ : Accounted s ∧ s.mDropSecond = mDropSecond := by
    refine hs.invariant (fun s => Accounted s ∧ s.mDropSecond = mDropSecond) ?_
      ⟨create_accounted _ _, rfl⟩
    rintro s i t ⟨a, hdrop⟩ hk hd
    exact ⟨a.detectTracking hk hd, (detectTracking_settings hd).1.trans hdrop⟩
  have htracked : tracked s f.id = some f := a.well.distinct.lookup_eq hf rfl
  obtain ⟨hskip, hsilent⟩ :
      (f._update = true → f._skipupdatecount = 0) ∧ removals s f.id = 0 := by
    cases a.fate f.id with
    | alive f' here _ updated silent =>
      obtain rfl : f = f' := Option.some.inj (htracked.symm.trans here)
      exact ⟨updated, silent⟩
    | gone _ absent _ => rw [htracked] at absent; cases absent
    | unmade later _ =>
      rw [a.well.tracked_eq_none later] at htracked
      cases htracked
  refine ⟨?_, ?_, fun i t hnull hd => detectTracking_silent hnull hd,
    fun i answer hset => detectTracking_isSome s hset⟩
  · intro i t hk hd hu
    obtain ⟨⟨f', hf', hup, -⟩, hsame⟩ :=
      detectTracking_fresh a.well hk hd (matchAll_updates _ a.well.clearUpdates hu)
    obtain ⟨hmem, hid⟩ := lookup_mem hf'
    exact ⟨⟨f', hmem, hid, hup⟩, hsame.trans hsilent⟩
  · intro hup js t hrun
    obtain ⟨hwaits, hdrops⟩ := run_missed hrun a.well htracked
    rw [hskip hup, hdrop, hsilent] at hwaits hdrops
    constructor
    · intro hle
      obtain ⟨hsome, hnone⟩ := hwaits (by
        rcases js with _ | ⟨j, js⟩
        · exact .inl rfl
        · right
          rw [List.length_cons] at hle ⊢
          omega)
      obtain ⟨f', hf'⟩ := Option.isSome_iff_exists.mp hsome
      obtain ⟨hmem, hid⟩ := lookup_mem hf'
      exact ⟨⟨f', hmem, hid⟩, hnone⟩
    · intro hlt
      obtain ⟨hgone, hone⟩ := hdrops ⟨by rintro rfl; simp at hlt, by omega⟩
      exact ⟨lookup_eq_none.mp hgone, hone⟩

def spot (x y : ℤ) : Bitmap := fun i j => decide (x ≤ i ∧ i < x + 4 ∧ y ≤ j ∧ j < y + 4)

/-- Two objects that are twelve columns apart. -/
def twoSpots : Input := ⟨fun i j => spot 10 10 i j || spot 22 10 i j, 0, some fun _ _ => 0⟩

/-- One object between them. -/
def midSpot : Input := ⟨spot 16 10, 0, some fun _ _ => 0⟩

theorem twoSpots_keeps : Keeps twoSpots := by
  intro answer he n
  cases he
  exact le_rfl

theorem tracked_frame_two_spots : ∃ s f,
    Run detectTracking (fun _ i => Keeps i) (.create 10 85) [twoSpots] s ∧
    f ∈ s.mTrackingFrame ∧ f._update = true ∧
    ∀ js t, Run detectTracking (Missing f.id) s js t →
      (js.length ≤ 85 → (∃ f' ∈ t.mTrackingFrame, f'.id = f.id) ∧ removals t f.id = 0) ∧
      (85 < js.length → (∀ f' ∈ t.mTrackingFrame, f'.id ≠ f.id) ∧ removals t f.id = 1) := by
  have hfirst : (detectTracking (.create 10 85) twoSpots).any (fun s =>
      decide (∃ f ∈ s.mTrackingFrame, f._update = true)) = true := by decide +kernel
  obtain ⟨s, hstep, hfound⟩ := (Option.any_eq_true _ _).mp hfirst
  obtain ⟨f, hf, hup⟩ := of_decide_eq_true hfound
  have hrun : Run detectTracking (fun _ i => Keeps i) (.create 10 85) [twoSpots] s :=
    .cons twoSpots_keeps hstep (.nil s)
  exact ⟨s, f, hrun, hf, hup, (tracked_frame_lifecycle 10 85 [twoSpots] s hrun f hf).2.1 hup⟩

/-- An object that meets two frames updates only the first of them. -/
theorem object_updates_one_frame : ¬ ∀ is s,
    Run detectTracking (fun _ i => Keeps i) (.create 10 85) is s →
    ∀ f ∈ s.mTrackingFrame, ∀ i t, Keeps i → detectTracking s i = some t →
      (∃ o ∈ objects i.mPixelsBuffer, s.mObjectSize ≤ o._area ∧
        f.intersect o.resizeFrame = true) →
      ∃ f' ∈ t.mTrackingFrame, f'.id = f.id ∧ f'._update = true := by
  intro hall
  have hboth : (detectTracking (.create 10 85) twoSpots).any (fun s =>
      (detectTracking s midSpot).any fun t => decide (∃ f ∈ s.mTrackingFrame,
        (∃ o ∈ objects midSpot.mPixelsBuffer, s.mObjectSize ≤ o._area ∧
          f.intersect o.resizeFrame = true) ∧
        ∀ f' ∈ t.mTrackingFrame, f'.id = f.id → f'._update = false)) = true := by
    decide +kernel
  obtain ⟨s, hstep, hnext⟩ := (Option.any_eq_true _ _).mp hboth
  obtain ⟨t, hstep', hmiss⟩ := (Option.any_eq_true _ _).mp hnext
  obtain ⟨f, hf, hmeets, hleft⟩ := of_decide_eq_true hmiss
  have hkeeps : Keeps midSpot := twoSpots_keeps
  obtain ⟨f', hf', hid, hup⟩ :=
    hall _ s (.cons twoSpots_keeps hstep (.nil s)) f hf midSpot t hkeeps hstep' hmeets
  rw [hleft f' hf' hid] at hup
  cases hup

end Jagles.MotionTracking
