import Jagles.MotionCoverage
import Jagles.MotionTrackingLifecycle
import Jagles.ViewModes

set_option autoImplicit false
set_option linter.dupNamespace false

/-!
# The slots of tracked frames (`OnMotionTracking` of `GLVideoDisplay.cpp`)

The display gives each tracked frame one of five slots. The callback takes a free slot for
a new frame before it looks at the screen mode, and a frame that it refuses after that is
dropped without a callback that gives the slot back.
-/
namespace Jagles.MotionTracking
open KeyedTable GuardedRuns ViewModes

/-- `mTracingIndex`, marked where a slot is used. -/
abbrev Slots := Fin 5 → Bool

/-- What a callback finds: whether there are a manager and its surface, and the screen mode. -/
structure Screen where
  present : Bool
  mode : ℤ

def GetTrackingCanUse (mTracingIndex : Slots) : Slots × ℤ :=
  match (List.finRange 5).find? fun i => !mTracingIndex i with
  | some i => (Function.update mTracingIndex i true, i.val)
  | none => (mTracingIndex, -1)

def canupdate (mode lindex scrnindex : ℤ) : Bool :=
  decide (scrnindex = 0 ∧
    (mode = SCRN_HEMISPHERE ∧ lindex = 0 ∨
      mode = SCRN_FOUR ∧ lindex ≥ 0 ∧ lindex < 4 ∨
      mode = SCRN_THREE ∧ lindex ≥ 0 ∧ lindex < 2 ∨
      mode = SCRN_SIX ∧ lindex ≥ 0 ∧ lindex < 5 ∨
      mode = SCRN_FOUREX ∧ lindex ≥ 0 ∧ lindex ≤ 1))

/-- The slots after the callback and its answer. It has no result where it writes to a slot
that there is not. -/
def OnMotionTracking (d : Screen) (mTracingIndex : Slots) (index scrnindex : ℤ) (del : Bool) :
    Option (Slots × ℤ) :=
  if d.present = false then some (mTracingIndex, -1)
  else if del then
    if h : 0 ≤ index ∧ index < 5 then
      some (Function.update mTracingIndex ⟨index.toNat, by omega⟩ false, -1)
    else none
  else
    let (mTracingIndex, lindex) :=
      if index = -1 then GetTrackingCanUse mTracingIndex else (mTracingIndex, index)
    if index = -1 ∧ lindex < 0 then some (mTracingIndex, -1)
    else some (mTracingIndex, if canupdate d.mode lindex scrnindex then lindex else -1)

/-- A call with its answer and the slots it leaves. -/
structure Served where
  call : Call
  answer : ℤ
  mTracingIndex : Slots

def serve (d : Screen) (mTracingIndex : Slots) (c : Call) : Option Served :=
  (OnMotionTracking d mTracingIndex c.index c.scrnindex c.del).map fun r => ⟨c, r.2, r.1⟩

section code
variable (mDropSecond scrnindex : ℤ)

def serveFrame (d : Screen) (mTracingIndex : Slots) (f : TrackingFrame) :
    Option (Option TrackingFrame × Slots × List Served) :=
  if f._update then
    (serve d mTracingIndex (call f scrnindex false)).map fun r =>
      let f := { f with _index := r.answer }
      (if f._index < 0 then none else some f, r.mTracingIndex, [r])
  else
    let f := { f with _skipupdatecount := f._skipupdatecount + 1 }
    if f._skipupdatecount > mDropSecond then
      (serve d mTracingIndex (call f scrnindex true)).map fun r => (none, r.mTracingIndex, [r])
    else some (some f, mTracingIndex, [])

/-- The last loop of `DetectTracking`, from the last frame to the first. `screen` is what each
callback finds. -/
def serveFrames (screen : ℕ → Screen) :
    List TrackingFrame → Slots → Option (List TrackingFrame × Slots × List Served)
  | [], mTracingIndex => some ([], mTracingIndex, [])
  | f :: fs, mTracingIndex => do
    let (kept, mTracingIndex, served) ← serveFrames screen fs mTracingIndex
    let (f, mTracingIndex, r) ←
      serveFrame mDropSecond scrnindex (screen served.length) mTracingIndex f
    some (f.toList ++ kept, mTracingIndex, served ++ r)

end code

/-- The display with its tracking; `served` collects the callbacks. -/
structure TrackingDisplay where
  mTracking : GPUMotionTracking
  mTracingIndex : Slots
  served : List Served

def TrackingDisplay.create (mObjectSize mDropSecond : ℤ) : TrackingDisplay :=
  ⟨.create mObjectSize mDropSecond, fun _ => false, []⟩

/-- A bitmap, the screen it is for, and what each callback finds. -/
structure Arrival where
  mPixelsBuffer : Bitmap
  scrnindex : ℤ
  screen : ℕ → Screen

namespace TrackingDisplay

/-- The tracking after the objects of the bitmap are matched. -/
def matched (s : TrackingDisplay) (a : Arrival) : GPUMotionTracking :=
  matchAll a.mPixelsBuffer s.mTracking.clearUpdates (objects a.mPixelsBuffer).reverse

def serving (s : TrackingDisplay) (a : Arrival) :
    Option (List TrackingFrame × Slots × List Served) :=
  serveFrames s.mTracking.mDropSecond a.scrnindex a.screen (s.matched a).mTrackingFrame
    s.mTracingIndex

def detectTracking (s : TrackingDisplay) (a : Arrival) : Option TrackingDisplay :=
  (s.serving a).map fun r =>
    { mTracking :=
        { s.matched a with
          mTrackingFrame := r.1
          calls := s.mTracking.calls ++ r.2.2.map Served.call }
      mTracingIndex := r.2.1
      served := s.served ++ r.2.2 }

end TrackingDisplay

/-! ## The callback as one of the tracking -/

section Answers
variable {drop scrnindex : ℤ} {screen : ℕ → Screen}

theorem serveFrame_sweepFrame {i : Input} {answer : Bool → ℕ → ℤ} (n : ℕ) {d : Screen}
    {slots slots' : Slots} {f : TrackingFrame} {k : Option TrackingFrame} {r : List Served}
    (hi : i.OnMotionTracking = some answer)
    (h : serveFrame drop i.scrnindex d slots f = some (k, slots', r))
    (ha : ∀ x ∈ r.head?, answer false n = x.answer) :
    sweepFrame drop i n f = some (k, r.map Served.call) := by
  simp only [serveFrame, sweepFrame, hi] at h ⊢
  by_cases hupdate : f._update = true
  · rw [if_pos hupdate] at h ⊢
    obtain ⟨x, hx, he⟩ := Option.map_eq_some_iff.mp h
    obtain ⟨y, -, rfl⟩ := Option.map_eq_some_iff.mp hx
    cases he
    rw [ha _ rfl]
    rfl
  rw [if_neg hupdate] at h ⊢
  by_cases hskip : f._skipupdatecount + 1 > drop
  · rw [if_pos hskip] at h ⊢
    obtain ⟨x, hx, he⟩ := Option.map_eq_some_iff.mp h
    obtain ⟨y, -, rfl⟩ := Option.map_eq_some_iff.mp hx
    cases he
    rfl
  · rw [if_neg hskip] at h ⊢
    cases h
    rfl

theorem serveFrames_cons {fs kept : List TrackingFrame} {f : TrackingFrame} {slots slots' : Slots}
    {served : List Served}
    (h : serveFrames drop scrnindex screen (f :: fs) slots = some (kept, slots', served)) :
    ∃ kept₁ slots₁ served₁ k r,
      serveFrames drop scrnindex screen fs slots = some (kept₁, slots₁, served₁) ∧
      serveFrame drop scrnindex (screen served₁.length) slots₁ f = some (k, slots', r) ∧
      kept = k.toList ++ kept₁ ∧ served = served₁ ++ r := by
  simp only [serveFrames, Option.bind_eq_bind, Option.bind_eq_some_iff, Prod.exists] at h
  obtain ⟨kept₁, slots₁, served₁, hrest, k, slots₂, r, hf, he⟩ := h
  cases he
  exact ⟨kept₁, slots₁, served₁, k, r, hrest, hf, rfl, rfl⟩

/-- The loop is that of the tracking with the answers that the display gives. -/
theorem serveFrames_sweep (px : Bitmap) {answer : Bool → ℕ → ℤ} {fs kept : List TrackingFrame}
    {slots slots' : Slots} {served : List Served}
    (h : serveFrames drop scrnindex screen fs slots = some (kept, slots', served))
    (ha : ∀ n x, served[n]? = some x → answer false n = x.answer) :
    sweep drop ⟨px, scrnindex, some answer⟩ fs = some (kept, served.map Served.call) := by
  induction fs generalizing kept slots' served with
  | nil =>
    cases h
    rfl
  | cons f fs ih =>
    obtain ⟨kept₁, slots₁, served₁, k, r, hrest, hf, rfl, rfl⟩ := serveFrames_cons h
    have hsweep := ih hrest fun n x hx => by
      refine ha n x ?_
      rw [List.getElem?_append_left (List.getElem?_eq_some_iff.mp hx).1, hx]
    have hframe := serveFrame_sweepFrame (i := ⟨px, scrnindex, some answer⟩) served₁.length rfl hf
      fun x hx => by
        refine ha _ x ?_
        rw [List.getElem?_append_right le_rfl, Nat.sub_self, ← List.head?_eq_getElem?]
        exact hx
    simp only [sweep, hsweep, Option.bind_eq_bind, Option.bind_some, List.length_map, hframe,
      List.map_append]

/-- One bitmap is one of the tracking, with a callback that gives the answers of the display. -/
theorem detectTracking_answers {s t : TrackingDisplay} {a : Arrival}
    (h : s.detectTracking a = some t) :
    ∃ answer,
      MotionTracking.detectTracking s.mTracking ⟨a.mPixelsBuffer, a.scrnindex, some answer⟩ =
        some t.mTracking := by
  obtain ⟨⟨kept, slots, served⟩, hserve, rfl⟩ := Option.map_eq_some_iff.mp h
  let answer : Bool → ℕ → ℤ := fun _ n => (served[n]?.map Served.answer).getD (-1)
  have hsweep := serveFrames_sweep a.mPixelsBuffer hserve fun n x hx => show answer false n = _ by
    simp [answer, hx]
  obtain ⟨-, hdrop, hcalls, -⟩ :=
    matched_settings s.mTracking ⟨a.mPixelsBuffer, a.scrnindex, some answer⟩
  refine ⟨answer, ?_⟩
  change (sweep (s.matched a).mDropSecond _ (s.matched a).mTrackingFrame).bind _ = _
  have hdrop' : (s.matched a).mDropSecond = s.mTracking.mDropSecond := hdrop
  have hcalls' : (s.matched a).calls = s.mTracking.calls := hcalls
  rw [hdrop', hsweep, Option.bind_some, ← hcalls']
  rfl

end Answers

/-! ## Owners of slots -/

/-- One of the frames has the slot. -/
def Has (fs : List TrackingFrame) (k : Fin 5) : Prop := ∃ f ∈ fs, f._index = k.val

/-- The frame is new, or it has a slot that is marked. -/
def Held (slots : Slots) (f : TrackingFrame) : Prop :=
  f._index = -1 ∧ f._update = true ∨ ∃ k : Fin 5, f._index = k.val ∧ slots k = true

/-- The frames before the last loop: no two of them have the same slot. -/
structure Ready (fs : List TrackingFrame) (slots : Slots) : Prop where
  held : ∀ f ∈ fs, Held slots f
  distinct : (fs.map TrackingFrame._index).Pairwise fun a b => a = b → a = -1

section Fine
variable (drop scrnindex : ℤ)

/-- No slot is lost in the pass of the frame: a slot that it has, or that is free for it, is in
a pane of the screen, and there is a manager when the frame has one. -/
def Fine (d : Screen) (slots : Slots) (f : TrackingFrame) : Prop :=
  if f._update then
    if f._index = -1 then d.present = true →
      ∀ k ∈ (List.finRange 5).find? fun i => !slots i, canupdate d.mode k.val scrnindex = true
    else d.present = true ∧ canupdate d.mode f._index scrnindex = true
  else f._skipupdatecount + 1 > drop → d.present = true

def AllFine (screen : ℕ → Screen) : List TrackingFrame → Slots → Prop
  | [], _ => True
  | f :: fs, slots => AllFine screen fs slots ∧
      ∀ r ∈ serveFrames drop scrnindex screen fs slots,
        Fine drop scrnindex (screen r.2.2.length) r.2.1 f

instance (d : Screen) (slots : Slots) (f : TrackingFrame) :
    Decidable (Fine drop scrnindex d slots f) := by
  unfold Fine
  infer_instance

instance AllFine.decidable (screen : ℕ → Screen) : (fs : List TrackingFrame) → (slots : Slots) →
    Decidable (AllFine drop scrnindex screen fs slots)
  | [], _ => .isTrue trivial
  | f :: fs, slots =>
    have := AllFine.decidable screen fs slots
    inferInstanceAs (Decidable (AllFine drop scrnindex screen fs slots ∧
      ∀ r ∈ serveFrames drop scrnindex screen fs slots,
        Fine drop scrnindex (screen r.2.2.length) r.2.1 f))

end Fine

/-- What becomes of a frame and its slot. -/
inductive Outcome (slots : Slots) (f : TrackingFrame) : Option TrackingFrame → Slots → Prop where
  | kept {f' : TrackingFrame} (k : Fin 5) (hk : f._index = k.val) (hk' : f'._index = k.val) :
    Outcome slots f (some f') slots
  | taken {f' : TrackingFrame} (k : Fin 5) (hnew : f._index = -1) (hfree : slots k = false)
    (hk : f'._index = k.val) : Outcome slots f (some f') (Function.update slots k true)
  | released (k : Fin 5) (hk : f._index = k.val) :
    Outcome slots f none (Function.update slots k false)
  | refused (hnew : f._index = -1) : Outcome slots f none slots

/-- The frame is dropped and a slot stays marked. -/
inductive Lost (slots : Slots) (f : TrackingFrame) : Option TrackingFrame → Slots → Prop where
  | held (k : Fin 5) (hk : f._index = k.val) : Lost slots f none slots
  | given (k : Fin 5) (hnew : f._index = -1) (hfree : slots k = false) :
    Lost slots f none (Function.update slots k true)

/-- The calls that report a removal are for the slot of the frame, and clear it if the pass is
fine. -/
def Clears (fine : Prop) (served : List Served) : Prop :=
  ∀ x ∈ served, x.call.del = true →
    ∃ k : Fin 5, x.call.index = k.val ∧ (fine → x.mTracingIndex k = false)

structure Pass (fine : Prop) (slots : Slots) (f : TrackingFrame)
    (r : Option TrackingFrame × Slots × List Served) : Prop where
  outcome : fine → Outcome slots f r.1 r.2.1
  lost : ¬ fine → Lost slots f r.1 r.2.1
  clears : Clears fine r.2.2

section Passes
variable {drop scrnindex : ℤ} {d : Screen} {slots : Slots} {f : TrackingFrame}

theorem OnMotionTracking_absent (hp : d.present = false) (index : ℤ) (del : Bool) :
    OnMotionTracking d slots index scrnindex del = some (slots, -1) := if_pos hp

theorem OnMotionTracking_full (hp : d.present = true) {index : ℤ} (hnew : index = -1)
    (hfull : (List.finRange 5).find? (fun i => !slots i) = none) :
    OnMotionTracking d slots index scrnindex false = some (slots, -1) := by
  simp [OnMotionTracking, hp, hnew, GetTrackingCanUse, hfull]

theorem OnMotionTracking_given (hp : d.present = true) {index : ℤ} (hnew : index = -1)
    {k : Fin 5} (hk : (List.finRange 5).find? (fun i => !slots i) = some k) :
    OnMotionTracking d slots index scrnindex false =
      some (Function.update slots k true,
        if canupdate d.mode k.val scrnindex then (k.val : ℤ) else -1) := by
  simp [OnMotionTracking, hp, hnew, GetTrackingCanUse, hk]

theorem OnMotionTracking_has (hp : d.present = true) {index : ℤ} {k : Fin 5}
    (hk : index = k.val) : OnMotionTracking d slots index scrnindex false =
      some (slots, if canupdate d.mode k.val scrnindex then (k.val : ℤ) else -1) := by
  have hne : (k.val : ℤ) ≠ -1 := by omega
  subst hk
  simp [OnMotionTracking, hp, hne]

theorem OnMotionTracking_del (hp : d.present = true) {index : ℤ} {k : Fin 5}
    (hk : index = k.val) : OnMotionTracking d slots index scrnindex true =
      some (Function.update slots k false, -1) := by
  subst hk
  have hlt : (k.val : ℤ) < 5 := by exact_mod_cast k.isLt
  simp [OnMotionTracking, hp, hlt]

theorem serveFrame_updated (hupdate : f._update = true) {slots' : Slots} {answer : ℤ}
    (h : OnMotionTracking d slots f._index scrnindex false = some (slots', answer)) :
    serveFrame drop scrnindex d slots f =
      some (if answer < 0 then none else some { f with _index := answer }, slots',
        [⟨call f scrnindex false, answer, slots'⟩]) := by
  simp [serveFrame, hupdate, serve, call, h]

theorem serveFrame_dropped (hupdate : f._update = false) (hskip : f._skipupdatecount + 1 > drop)
    {slots' : Slots} {answer : ℤ}
    (h : OnMotionTracking d slots f._index scrnindex true = some (slots', answer)) :
    serveFrame drop scrnindex d slots f =
      some (none, slots',
        [⟨call { f with _skipupdatecount := f._skipupdatecount + 1 } scrnindex true,
          answer, slots'⟩]) := by
  simp [serveFrame, hupdate, hskip, serve, call, h]

theorem serveFrame_left (hupdate : f._update = false) (hskip : ¬ f._skipupdatecount + 1 > drop) :
    serveFrame drop scrnindex d slots f =
      some (some { f with _skipupdatecount := f._skipupdatecount + 1 }, slots, []) := by
  simp [serveFrame, hupdate, hskip]

theorem clears_update {fine : Prop} {answer : ℤ} {slots' : Slots} :
    Clears fine [⟨call f scrnindex false, answer, slots'⟩] := by
  intro x hx hdel
  obtain rfl := List.mem_singleton.mp hx
  cases hdel

/-- A new frame gets the first free slot, before the mode is looked at. -/
theorem pass_new (hupdate : f._update = true) (hnew : f._index = -1) :
    ∃ r, serveFrame drop scrnindex d slots f = some r ∧
      Pass (Fine drop scrnindex d slots f) slots f r := by
  have hfine : Fine drop scrnindex d slots f ↔ (d.present = true →
      ∀ k ∈ (List.finRange 5).find? fun i => !slots i,
        canupdate d.mode k.val scrnindex = true) := by
    rw [Fine, if_pos hupdate, if_pos hnew]
  rw [hfine]
  cases hp : d.present with
  | false =>
    refine ⟨_, serveFrame_updated hupdate (OnMotionTracking_absent hp _ _), ?_, ?_, clears_update⟩
    · intro _
      exact .refused hnew
    · intro hlost
      exact absurd (fun h => by cases h) hlost
  | true =>
    cases hk : (List.finRange 5).find? fun i => !slots i with
    | none =>
      refine ⟨_, serveFrame_updated hupdate (OnMotionTracking_full hp hnew hk), ?_, ?_,
        clears_update⟩
      · intro _
        exact .refused hnew
      · intro hlost
        exact absurd (fun _ k hk => by cases hk) hlost
    | some k =>
      have hfree : slots k = false := by simpa using List.find?_some hk
      refine ⟨_, serveFrame_updated hupdate (OnMotionTracking_given hp hnew hk), ?_, ?_,
        clears_update⟩
      · intro hok
        have hcan := hok rfl k rfl
        simp only [hcan, if_true, show ¬ (k.val : ℤ) < 0 by omega, if_false]
        exact .taken k hnew hfree rfl
      · intro hlost
        have hcan : canupdate d.mode k.val scrnindex = false := by
          refine Bool.eq_false_iff.mpr fun hcan => hlost fun _ j hj => ?_
          obtain rfl := Option.some.inj hj
          exact hcan
        simp only [hcan]
        exact .given k hnew hfree

/-- A frame with a slot that is updated keeps it, or is dropped without giving it back. -/
theorem pass_updated (hupdate : f._update = true) {k : Fin 5} (hk : f._index = k.val) :
    ∃ r, serveFrame drop scrnindex d slots f = some r ∧
      Pass (Fine drop scrnindex d slots f) slots f r := by
  have hne : f._index ≠ -1 := by omega
  have hfine : Fine drop scrnindex d slots f ↔
      d.present = true ∧ canupdate d.mode k.val scrnindex = true := by
    rw [Fine, if_pos hupdate, if_neg hne, hk]
  rw [hfine]
  cases hp : d.present with
  | false =>
    refine ⟨_, serveFrame_updated hupdate (OnMotionTracking_absent hp _ _), ?_, ?_,
      clears_update⟩
    · intro hok
      cases hok.1
    · intro _
      exact .held k hk
  | true =>
    refine ⟨_, serveFrame_updated hupdate (OnMotionTracking_has hp hk), ?_, ?_,
      clears_update⟩
    · intro hok
      simp only [hok.2, if_true, show ¬ (k.val : ℤ) < 0 by omega, if_false]
      exact .kept k hk rfl
    · intro hlost
      have hcan : canupdate d.mode k.val scrnindex = false :=
        Bool.eq_false_iff.mpr fun hcan => hlost ⟨rfl, hcan⟩
      simp only [hcan]
      exact .held k hk

/-- One that is not updated keeps it, or gives it back when it is dropped. -/
theorem pass_missed (hupdate : f._update = false) {k : Fin 5} (hk : f._index = k.val) :
    ∃ r, serveFrame drop scrnindex d slots f = some r ∧
      Pass (Fine drop scrnindex d slots f) slots f r := by
  have hfine : Fine drop scrnindex d slots f ↔
      (f._skipupdatecount + 1 > drop → d.present = true) := by
    rw [Fine, hupdate]
    exact Iff.rfl
  rw [hfine]
  by_cases hskip : f._skipupdatecount + 1 > drop
  · cases hp : d.present with
    | false =>
      refine ⟨_, serveFrame_dropped hupdate hskip (OnMotionTracking_absent hp _ _), ?_, ?_, ?_⟩
      · intro hok
        cases hok hskip
      · intro _
        exact .held k hk
      · intro x hx _
        obtain rfl := List.mem_singleton.mp hx
        exact ⟨k, hk, fun hok => by cases hok hskip⟩
    | true =>
      refine ⟨_, serveFrame_dropped hupdate hskip (OnMotionTracking_del hp hk), ?_, ?_, ?_⟩
      · intro _
        exact .released k hk
      · intro hlost
        exact absurd (fun _ => rfl) hlost
      · intro x hx _
        obtain rfl := List.mem_singleton.mp hx
        exact ⟨k, hk, fun _ => Function.update_self _ _ _⟩
  · refine ⟨_, serveFrame_left hupdate hskip, ?_, ?_, fun _ hx => absurd hx List.not_mem_nil⟩
    · intro _
      exact .kept k hk hk
    · intro hlost
      exact absurd (fun h => absurd h hskip) hlost

theorem Held.pass (drop scrnindex : ℤ) (d : Screen) (h : Held slots f) :
    ∃ r, serveFrame drop scrnindex d slots f = some r ∧
      Pass (Fine drop scrnindex d slots f) slots f r := by
  rcases h with ⟨hnew, hupdate⟩ | ⟨k, hk, -⟩
  · exact pass_new hupdate hnew
  · cases hupdate : f._update with
    | true => exact pass_updated hupdate hk
    | false => exact pass_missed hupdate hk

end Passes

/-! ## A loop over the frames -/

/-- What the loop makes of the frames and of the slots, and that no slot is lost. Slots of
others stay as they are. -/
structure Tracks (fine : Prop) (fs : List TrackingFrame) (slots : Slots)
    (kept : List TrackingFrame) (slots' : Slots) : Prop where
  live : ∀ f ∈ kept, ∃ k : Fin 5, f._index = k.val ∧ slots' k = true
  distinct : (kept.map TrackingFrame._index).Nodup
  others : ∀ k, slots k = true → ¬ Has fs k → slots' k = true ∧ ¬ Has kept k
  lossless : fine ↔ ∀ k, slots' k = true → Has kept k ∨ slots k = true ∧ ¬ Has fs k

theorem has_cons_iff {f : TrackingFrame} {fs : List TrackingFrame} {k : Fin 5} :
    Has (f :: fs) k ↔ f._index = k.val ∨ Has fs k := by
  simp [Has]

theorem index_inj {f : TrackingFrame} {j k : Fin 5} (hj : f._index = j.val)
    (hk : f._index = k.val) : j = k := by
  have hcast := hj.symm.trans hk
  exact Fin.ext (by exact_mod_cast hcast)

section Loop
variable {fine p : Prop} {fs kept : List TrackingFrame} {slots slots' : Slots}
  {f f' : TrackingFrame} {k : Fin 5}

theorem has_iff_of_new (hnew : f._index = -1) (j : Fin 5) : Has (f :: fs) j ↔ Has fs j := by
  rw [has_cons_iff, or_iff_right]
  omega

theorem has_iff_of_slot (hk : f._index = k.val) (j : Fin 5) :
    Has (f :: fs) j ↔ j = k ∨ Has fs j := by
  rw [has_cons_iff]
  refine or_congr_left ⟨fun hj => index_inj hj hk, ?_⟩
  rintro rfl
  exact hk

theorem nodup_cons_of_slot (h : Tracks fine fs slots kept slots') (hk : f'._index = k.val)
    (hnot : ¬ Has kept k) : ((f' :: kept).map TrackingFrame._index).Nodup := by
  refine List.nodup_cons.mpr ⟨fun hmem => hnot ?_, h.distinct⟩
  obtain ⟨g, hg, heq⟩ := List.mem_map.mp hmem
  exact ⟨g, hg, heq.trans hk⟩

/-- A frame keeps the slot that it has. -/
theorem Tracks.keep (h : Tracks fine fs slots kept slots') (hmark : slots k = true)
    (hnot : ¬ Has fs k) (hk : f._index = k.val) (hk' : f'._index = k.val) :
    Tracks fine (f :: fs) slots (f' :: kept) slots' := by
  obtain ⟨hmark', hnot'⟩ := h.others k hmark hnot
  refine ⟨fun g hg => ?_, nodup_cons_of_slot h hk' hnot', fun j hj hother => ?_, ?_⟩
  · rcases List.mem_cons.mp hg with rfl | hold
    · exact ⟨k, hk', hmark'⟩
    · exact h.live g hold
  · rw [has_iff_of_slot hk, not_or] at hother
    rw [has_iff_of_slot hk', not_or]
    obtain ⟨hj', hnone⟩ := h.others j hj hother.2
    exact ⟨hj', hother.1, hnone⟩
  · rw [h.lossless]
    refine forall_congr' fun j => imp_congr_right fun hj => ?_
    rw [has_iff_of_slot hk, has_iff_of_slot hk', not_or]
    by_cases hjk : j = k
    · subst hjk
      exact iff_of_true (.inr ⟨hmark, hnot⟩) (.inl (.inl rfl))
    · simp [hjk]

/-- A new frame takes a free slot. -/
theorem Tracks.take (h : Tracks fine fs slots kept slots') (hnew : f._index = -1)
    (hfree : slots' k = false) (hk' : f'._index = k.val) :
    Tracks fine (f :: fs) slots (f' :: kept) (Function.update slots' k true) := by
  have hnot' : ¬ Has kept k := by
    rintro ⟨g, hg, hgk⟩
    obtain ⟨j, hj, hmark⟩ := h.live g hg
    rw [index_inj hj hgk, hfree] at hmark
    cases hmark
  have hslots : ∀ j, slots' j = true → Function.update slots' k true j = true := by
    intro j hj
    by_cases hjk : j = k
    · rw [hjk, Function.update_self]
    · rwa [Function.update_of_ne hjk]
  refine ⟨fun g hg => ?_, nodup_cons_of_slot h hk' hnot', fun j hj hother => ?_, ?_⟩
  · rcases List.mem_cons.mp hg with rfl | hold
    · exact ⟨k, hk', Function.update_self _ _ _⟩
    · obtain ⟨j, hj, hmark⟩ := h.live g hold
      exact ⟨j, hj, hslots j hmark⟩
  · rw [has_iff_of_new hnew] at hother
    obtain ⟨hj', hnone⟩ := h.others j hj hother
    refine ⟨hslots j hj', ?_⟩
    rw [has_iff_of_slot hk', not_or]
    refine ⟨?_, hnone⟩
    rintro rfl
    rw [hfree] at hj'
    cases hj'
  · rw [h.lossless]
    refine forall_congr' fun j => ?_
    rw [has_iff_of_new hnew, has_iff_of_slot hk']
    by_cases hjk : j = k
    · subst hjk
      exact iff_of_true (fun hj => by rw [hfree] at hj; cases hj) (fun _ => .inl (.inl rfl))
    · rw [Function.update_of_ne hjk]
      simp [hjk]

/-- A frame is dropped and its slot given back. -/
theorem Tracks.release (h : Tracks fine fs slots kept slots') (hmark : slots k = true)
    (hnot : ¬ Has fs k) (hk : f._index = k.val) :
    Tracks fine (f :: fs) slots kept (Function.update slots' k false) := by
  obtain ⟨hmark', hnot'⟩ := h.others k hmark hnot
  refine ⟨fun g hg => ?_, h.distinct, fun j hj hother => ?_, ?_⟩
  · obtain ⟨j, hj, hslot⟩ := h.live g hg
    refine ⟨j, hj, ?_⟩
    rw [Function.update_of_ne, hslot]
    rintro rfl
    exact hnot' ⟨g, hg, hj⟩
  · rw [has_iff_of_slot hk, not_or] at hother
    rw [Function.update_of_ne hother.1]
    exact h.others j hj hother.2
  · rw [h.lossless]
    refine forall_congr' fun j => ?_
    rw [has_iff_of_slot hk, not_or]
    by_cases hjk : j = k
    · subst hjk
      rw [Function.update_self]
      exact iff_of_true (fun _ => .inr ⟨hmark, hnot⟩) (fun hj => by cases hj)
    · rw [Function.update_of_ne hjk]
      simp [hjk]

/-- A new frame gets no slot and is dropped. -/
theorem Tracks.refuse (h : Tracks fine fs slots kept slots') (hnew : f._index = -1) :
    Tracks fine (f :: fs) slots kept slots' := by
  have hhas : ∀ j, Has (f :: fs) j ↔ Has fs j := has_iff_of_new hnew
  refine ⟨h.live, h.distinct, fun j hj hother => ?_, ?_⟩
  · rw [hhas] at hother
    exact h.others j hj hother
  · simp only [hhas]
    exact h.lossless

/-- A frame is dropped and its slot stays marked. -/
theorem Tracks.loseSlot (h : Tracks fine fs slots kept slots') (hmark : slots k = true)
    (hnot : ¬ Has fs k) (hk : f._index = k.val) : Tracks False (f :: fs) slots kept slots' := by
  obtain ⟨hmark', hnot'⟩ := h.others k hmark hnot
  refine ⟨h.live, h.distinct, fun j hj hother => ?_, ?_⟩
  · rw [has_iff_of_slot hk, not_or] at hother
    exact h.others j hj hother.2
  · refine ⟨False.elim, fun hall => ?_⟩
    rcases hall k hmark' with hkept | ⟨-, hother⟩
    · exact hnot' hkept
    · exact hother ((has_iff_of_slot hk k).mpr (.inl rfl))

/-- A new frame is given a slot and dropped. -/
theorem Tracks.loseGiven (h : Tracks fine fs slots kept slots') (hnew : f._index = -1)
    (hfree : slots' k = false) :
    Tracks False (f :: fs) slots kept (Function.update slots' k true) := by
  have hhas : ∀ j, Has (f :: fs) j ↔ Has fs j := has_iff_of_new hnew
  have hslots : ∀ j, slots' j = true → Function.update slots' k true j = true := by
    intro j hj
    by_cases hjk : j = k
    · rw [hjk, Function.update_self]
    · rwa [Function.update_of_ne hjk]
  refine ⟨fun g hg => ?_, h.distinct, fun j hj hother => ?_, ?_⟩
  · obtain ⟨j, hj, hmark⟩ := h.live g hg
    exact ⟨j, hj, hslots j hmark⟩
  · rw [hhas] at hother
    obtain ⟨hj', hnone⟩ := h.others j hj hother
    exact ⟨hslots j hj', hnone⟩
  · refine ⟨False.elim, fun hall => ?_⟩
    rcases hall k (Function.update_self _ _ _) with ⟨g, hg, hgk⟩ | ⟨hk, hother⟩
    · obtain ⟨j, hj, hmark⟩ := h.live g hg
      rw [index_inj hj hgk, hfree] at hmark
      cases hmark
    · rw [hhas] at hother
      rw [(h.others k hk hother).1] at hfree
      cases hfree

end Loop

theorem Ready.slot {fs : List TrackingFrame} {f : TrackingFrame} {slots : Slots} {k : Fin 5}
    (h : Ready (f :: fs) slots) (hk : f._index = k.val) : slots k = true ∧ ¬ Has fs k := by
  constructor
  · rcases h.held f List.mem_cons_self with ⟨hnew, -⟩ | ⟨j, hj, hmark⟩
    · omega
    · rwa [index_inj hk hj]
  · rintro ⟨g, hg, hgk⟩
    have hnew := (List.pairwise_cons.mp h.distinct).1 g._index (List.mem_map_of_mem hg)
      (hk.trans hgk.symm)
    omega

theorem Ready.tail {fs : List TrackingFrame} {f : TrackingFrame} {slots : Slots}
    (h : Ready (f :: fs) slots) : Ready fs slots :=
  ⟨fun g hg => h.held g (List.mem_cons_of_mem f hg), (List.pairwise_cons.mp h.distinct).2⟩

/-- The loop ends, and it loses no slot exactly if every pass of it is fine. -/
theorem serveFrames_tracks (drop scrnindex : ℤ) (screen : ℕ → Screen) {fs : List TrackingFrame}
    {slots : Slots} (h : Ready fs slots) :
    ∃ kept slots' served, serveFrames drop scrnindex screen fs slots = some (kept, slots', served) ∧
      Tracks (AllFine drop scrnindex screen fs slots) fs slots kept slots' ∧
      Clears (AllFine drop scrnindex screen fs slots) served := by
  induction fs with
  | nil =>
    refine ⟨[], slots, [], rfl, ⟨fun _ hf => absurd hf List.not_mem_nil, List.nodup_nil,
      fun k hk hnone => ⟨hk, hnone⟩, ?_⟩, fun _ hx => absurd hx List.not_mem_nil⟩
    exact iff_of_true trivial fun k hk => .inr ⟨hk, fun ⟨_, hf, _⟩ => absurd hf List.not_mem_nil⟩
  | cons f fs ih =>
    obtain ⟨kept, slots₁, served, hrest, htracks, hclears⟩ := ih h.tail
    have hheld : Held slots₁ f := by
      rcases h.held f List.mem_cons_self with hnew | ⟨k, hk, -⟩
      · exact .inl hnew
      · obtain ⟨hmark, hnot⟩ := h.slot hk
        exact .inr ⟨k, hk, (htracks.others k hmark hnot).1⟩
    obtain ⟨⟨k, slots₂, r⟩, hframe, hpass⟩ := hheld.pass drop scrnindex
      (screen served.length)
    have hfine : AllFine drop scrnindex screen (f :: fs) slots ↔
        AllFine drop scrnindex screen fs slots ∧
          Fine drop scrnindex (screen served.length) slots₁ f := by
      rw [AllFine, hrest]
      simp
    refine ⟨k.toList ++ kept, slots₂, served ++ r, ?_, ?_, ?_⟩
    · simp only [serveFrames, hrest, Option.bind_eq_bind, Option.bind_some, hframe]
    · rw [hfine]
      by_cases hok : Fine drop scrnindex (screen served.length) slots₁ f
      · rw [and_iff_left hok]
        cases hpass.outcome hok with
        | kept k hk hk' => exact htracks.keep (h.slot hk).1 (h.slot hk).2 hk hk'
        | taken k hnew hfree hk' => exact htracks.take hnew hfree hk'
        | released k hk => exact htracks.release (h.slot hk).1 (h.slot hk).2 hk
        | refused hnew => exact htracks.refuse hnew
      · rw [iff_false_intro hok, and_false]
        cases hpass.lost hok with
        | held k hk => exact htracks.loseSlot (h.slot hk).1 (h.slot hk).2 hk
        | given k hnew hfree => exact htracks.loseGiven hnew hfree
    · intro x hx hdel
      rw [hfine]
      rcases List.mem_append.mp hx with hold | hnew
      · obtain ⟨k, hk, hclear⟩ := hclears x hold hdel
        exact ⟨k, hk, fun hall => hclear hall.1⟩
      · obtain ⟨k, hk, hclear⟩ := hpass.clears x hnew hdel
        exact ⟨k, hk, fun hall => hclear hall.2⟩

/-! ## Before the loop -/

theorem has_iff_mem {fs : List TrackingFrame} {k : Fin 5} :
    Has fs k ↔ (k.val : ℤ) ∈ fs.map TrackingFrame._index := by
  simp [Has]

/-- An object updates a frame, which keeps its slot, or makes a new one, which has none. -/
theorem Ready.matchObject {s : GPUMotionTracking} {slots : Slots}
    (h : Ready s.mTrackingFrame slots) (px : Bitmap) (o : TrackingFrame) :
    Ready (s.matchObject px o).mTrackingFrame slots ∧
      ∀ k, Has (s.matchObject px o).mTrackingFrame k ↔ Has s.mTrackingFrame k := by
  rcases matchObject_cases px s o with ⟨he, -⟩ | ⟨i, f, hf, -, he⟩ | ⟨-, he⟩
  · rw [he]
    exact ⟨h, fun k => Iff.rfl⟩
  · rw [he]
    have hindex : (s.mTrackingFrame.modify i (moved px o)).map TrackingFrame._index =
        s.mTrackingFrame.map TrackingFrame._index :=
      map_key_modify (show ∀ g, (moved px o g)._index = g._index from fun _ => rfl) i
    refine ⟨⟨fun g hg => ?_, by rw [hindex]; exact h.distinct⟩,
      fun k => by rw [has_iff_mem, hindex, has_iff_mem]⟩
    rcases mem_modify hg with hold | ⟨g, hold, rfl⟩
    · exact h.held g hold
    · rcases h.held g hold with ⟨hnew, -⟩ | hslot
      · exact .inl ⟨hnew, rfl⟩
      · exact .inr hslot
  · rw [he]
    refine ⟨⟨fun g hg => ?_, ?_⟩, fun k => ?_⟩
    · rcases List.mem_append.mp hg with hold | hnew
      · exact h.held g hold
      · obtain rfl := List.mem_singleton.mp hnew
        exact .inl ⟨rfl, rfl⟩
    · rw [List.map_append, List.pairwise_append]
      refine ⟨h.distinct, List.pairwise_singleton _ _, fun a _ b hb hab => ?_⟩
      exact hab.trans (List.mem_singleton.mp hb)
    · rw [has_iff_mem, has_iff_mem, List.map_append, List.mem_append, or_iff_left]
      intro hk
      have hnew : (k.val : ℤ) = -1 := List.mem_singleton.mp hk
      omega

theorem Ready.matchAll {s : GPUMotionTracking} {slots : Slots} (h : Ready s.mTrackingFrame slots)
    (px : Bitmap) (os : List TrackingFrame) :
    Ready (matchAll px s os).mTrackingFrame slots ∧
      ∀ k, Has (matchAll px s os).mTrackingFrame k ↔ Has s.mTrackingFrame k := by
  induction os generalizing s with
  | nil => exact ⟨h, fun k => Iff.rfl⟩
  | cons o os ih =>
    obtain ⟨hnext, hsame⟩ := h.matchObject px o
    obtain ⟨hall, hrest⟩ := ih hnext
    exact ⟨hall, fun k => (hrest k).trans (hsame k)⟩

/-! ## Runs -/

/-- In every run the tracked frames have different slots, and these are marked. -/
structure Live (s : TrackingDisplay) : Prop where
  live : ∀ f ∈ s.mTracking.mTrackingFrame, ∃ k : Fin 5, f._index = k.val ∧ s.mTracingIndex k = true
  distinct : (s.mTracking.mTrackingFrame.map TrackingFrame._index).Nodup

/-- The marked slots are those of the tracked frames, no two of them have the same, and every
deletion has cleared one of the five. -/
structure Owned (s : TrackingDisplay) : Prop where
  marked : ∀ k, s.mTracingIndex k = true ↔ Has s.mTracking.mTrackingFrame k
  distinct : (s.mTracking.mTrackingFrame.map TrackingFrame._index).Nodup
  deletions : ∀ x ∈ s.served, x.call.del = true →
    ∃ k : Fin 5, x.call.index = k.val ∧ x.mTracingIndex k = false

/-- No pass of the last loop loses a slot. -/
def Meets (s : TrackingDisplay) (a : Arrival) : Prop :=
  AllFine s.mTracking.mDropSecond a.scrnindex a.screen (s.matched a).mTrackingFrame s.mTracingIndex

instance (s : TrackingDisplay) (a : Arrival) : Decidable (Meets s a) :=
  AllFine.decidable _ _ _ _ _

section Runs
variable {s t : TrackingDisplay} {a : Arrival}

theorem Live.ready (h : Live s) (a : Arrival) :
    Ready (s.matched a).mTrackingFrame s.mTracingIndex ∧
      ∀ k, Has (s.matched a).mTrackingFrame k ↔ Has s.mTracking.mTrackingFrame k := by
  have hindex : s.mTracking.clearUpdates.mTrackingFrame.map TrackingFrame._index =
      s.mTracking.mTrackingFrame.map TrackingFrame._index := by
    simp [GPUMotionTracking.clearUpdates, Function.comp_def]
  have hclear : Ready s.mTracking.clearUpdates.mTrackingFrame s.mTracingIndex := by
    refine ⟨fun f hf => ?_, ?_⟩
    · obtain ⟨g, hg, rfl⟩ := List.mem_map.mp hf
      exact .inr (h.live g hg)
    · rw [hindex]
      exact h.distinct.imp fun hne heq => absurd heq hne
  obtain ⟨hready, hsame⟩ := hclear.matchAll a.mPixelsBuffer (objects a.mPixelsBuffer).reverse
  refine ⟨hready, fun k => (hsame k).trans ?_⟩
  rw [has_iff_mem, hindex, has_iff_mem]

theorem Live.serving (h : Live s) (a : Arrival) : ∃ kept slots served,
    s.serving a = some (kept, slots, served) ∧
      Tracks (Meets s a) (s.matched a).mTrackingFrame s.mTracingIndex kept slots ∧
      Clears (Meets s a) served :=
  serveFrames_tracks _ _ _ (h.ready a).1

theorem Live.detectTracking (h : Live s) (hd : s.detectTracking a = some t) : Live t := by
  obtain ⟨kept, slots, served, hserve, htracks, -⟩ := h.serving a
  rw [TrackingDisplay.detectTracking, hserve] at hd
  obtain rfl := Option.some.inj hd
  exact ⟨htracks.live, htracks.distinct⟩

theorem Live.owned_iff (h : Live s) (ho : Owned s) (hd : s.detectTracking a = some t) :
    Owned t ↔ Meets s a := by
  obtain ⟨kept, slots, served, hserve, htracks, hclears⟩ := h.serving a
  have hhas := (h.ready a).2
  rw [TrackingDisplay.detectTracking, hserve] at hd
  obtain rfl := Option.some.inj hd
  constructor
  · intro hnext
    exact htracks.lossless.mpr fun k hk => .inl ((hnext.marked k).mp hk)
  · intro hmeets
    refine ⟨fun k => ⟨fun hk => ?_, ?_⟩, htracks.distinct, fun x hx hdel => ?_⟩
    · rcases htracks.lossless.mp hmeets k hk with hkept | ⟨hmark, hother⟩
      · exact hkept
      · exact absurd ((hhas k).mpr ((ho.marked k).mp hmark)) hother
    · rintro ⟨f, hf, hfk⟩
      obtain ⟨j, hj, hmark⟩ := htracks.live f hf
      rwa [index_inj hfk hj]
    · rcases List.mem_append.mp hx with hold | hnew
      · exact ho.deletions x hold hdel
      · obtain ⟨k, hk, hclear⟩ := hclears x hnew hdel
        exact ⟨k, hk, hclear hmeets⟩

/-- In every run no callback writes to a slot that there is not, and the slots are owned by the
tracked frames as long as no pass loses one. -/
theorem slots_owned_throughout_iff {mObjectSize mDropSecond : ℤ} {arrivals : List Arrival}
    (h : Run TrackingDisplay.detectTracking (fun _ _ => True)
      (.create mObjectSize mDropSecond) arrivals s) :
    (∀ a, (s.detectTracking a).isSome = true) ∧
    (Throughout TrackingDisplay.detectTracking Owned (.create mObjectSize mDropSecond) arrivals s ↔
      Run TrackingDisplay.detectTracking Meets (.create mObjectSize mDropSecond) arrivals s) := by
  have hstart : Live (.create mObjectSize mDropSecond) :=
    ⟨fun _ hf => absurd hf List.not_mem_nil, List.nodup_nil⟩
  have keep : ∀ s a t, Live s → True → TrackingDisplay.detectTracking s a = some t → Live t :=
    fun s a t hs _ hd => hs.detectTracking hd
  refine ⟨fun a => ?_, h.throughout_iff keep (fun s a t hs ho _ hd => hs.owned_iff ho hd) hstart ?_⟩
  · obtain ⟨kept, slots, served, hserve, -⟩ := (h.invariant Live keep hstart).serving a
    rw [TrackingDisplay.detectTracking, hserve]
    rfl
  · refine ⟨fun k => iff_of_false ?_ ?_, List.nodup_nil, fun _ hx => absurd hx List.not_mem_nil⟩
    · exact Bool.false_ne_true
    · rintro ⟨f, hf, -⟩
      exact absurd hf List.not_mem_nil

end Runs

/-- One object, for a screen with four panes. -/
def fourPanes : Arrival := ⟨spot 10 10, 0, fun _ => ⟨true, SCRN_FOUR⟩⟩

theorem slots_owned_four_panes : ∃ s,
    Throughout TrackingDisplay.detectTracking Owned (.create 10 85) [fourPanes, fourPanes] s ∧
      s.mTracingIndex 0 = true ∧ s.served.length = 2 := by
  obtain ⟨s, hrun, hslot⟩ : ∃ s,
      Run TrackingDisplay.detectTracking Meets (.create 10 85) [fourPanes, fourPanes] s ∧
      s.mTracingIndex 0 = true ∧ s.served.length = 2 := exists_run (by decide +kernel)
  exact ⟨s, (slots_owned_throughout_iff (hrun.weaken fun _ _ _ => trivial)).2.mpr hrun, hslot⟩

/-- The same object for the second screen, which shows no tracked frames. -/
def secondScreen : Arrival := { fourPanes with scrnindex := 1 }

/-- The callback marks a slot for the object and refuses it. -/
theorem slots_not_owned : ¬ ∀ arrivals s,
    Run TrackingDisplay.detectTracking (fun _ _ => True) (.create 10 85) arrivals s → Owned s := by
  intro hall
  obtain ⟨s, hrun, hslot, hnone⟩ : ∃ s,
      Run TrackingDisplay.detectTracking (fun _ _ => True) (.create 10 85) [secondScreen] s ∧
      s.mTracingIndex 0 = true ∧ s.mTracking.mTrackingFrame.length = 0 :=
    exists_run (by decide +kernel)
  obtain ⟨f, hf, -⟩ := ((hall _ s hrun).marked 0).mp hslot
  rw [List.eq_nil_of_length_eq_zero hnone] at hf
  cases hf

end Jagles.MotionTracking
