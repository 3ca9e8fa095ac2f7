import Mathlib.Order.Lattice
import Mathlib.Data.List.Forall2
import Mathlib.Algebra.Order.Ring.Int

set_option autoImplicit false
set_option linter.dupNamespace false

/-!
# The pace of a local movie

`SpeedControlCallback`, and `PreRenderClass` of `MediaMoviePlayer`, which is the same code, hold
each frame back until it is due.
-/
namespace Jagles.FramePacing

def ONE_MILLION : ℤ := 1000000

/-- The clock of the thread in microseconds: how far it goes on from a reading while the thread is
to sleep for a time. It may wake early or late. -/
structure Timer where
  sleep : ℤ → ℤ → ℤ
  lasts : ∀ nowUsec sleepTimeUsec, 0 < sleepTimeUsec → 0 < sleep nowUsec sleepTimeUsec

/-- The loop that waits: the reading of the clock with which it is left. -/
def Timer.hold (timer : Timer) (desiredUsec nowUsec : ℤ) : ℤ :=
  if nowUsec < desiredUsec - 100 then
    timer.hold desiredUsec (nowUsec + timer.sleep nowUsec (min (desiredUsec - nowUsec) 500000))
  else nowUsec
termination_by (desiredUsec - nowUsec).toNat
decreasing_by
  have hlasts := timer.lasts nowUsec (min (desiredUsec - nowUsec) 500000) (by omega)
  omega

structure SpeedControl where
  mPrevPresentUsec : ℤ := 0
  mPrevMonoUsec : ℤ := 0
  mFixedFrameDurationUsec : ℤ := 0
  mLoopReset : Bool := false

namespace SpeedControl

def setFixedPlaybackRate (s : SpeedControl) (fps : ℤ) : SpeedControl :=
  { s with mFixedFrameDurationUsec := ONE_MILLION.tdiv fps }

def resetPosition (s : SpeedControl) : SpeedControl := { s with mPrevMonoUsec := 0 }

def loopReset (s : SpeedControl) : SpeedControl := { s with mLoopReset := true }

def frameDelta (s : SpeedControl) (presentationTimeUsec : ℤ) : ℤ :=
  let frameDelta := if s.mFixedFrameDurationUsec ≠ 0 then s.mFixedFrameDurationUsec
    else presentationTimeUsec - s.mPrevPresentUsec
  if frameDelta < 0 then 0
  else if frameDelta > 10 * ONE_MILLION then 5 * ONE_MILLION
  else frameDelta

/-- With the reading of the clock at the call, and with it the one at the return. -/
def preRender (timer : Timer) (s : SpeedControl) (presentationTimeUsec nowUsec : ℤ) :
    SpeedControl × ℤ :=
  if s.mPrevMonoUsec = 0 then
    ({ s with mPrevMonoUsec := nowUsec, mPrevPresentUsec := presentationTimeUsec }, nowUsec)
  else
    let s := if s.mLoopReset then
        { s with mPrevPresentUsec := presentationTimeUsec - ONE_MILLION / 30, mLoopReset := false }
      else s
    let frameDelta := s.frameDelta presentationTimeUsec
    ({ s with
      mPrevMonoUsec := s.mPrevMonoUsec + frameDelta
      mPrevPresentUsec := s.mPrevPresentUsec + frameDelta },
      timer.hold (s.mPrevMonoUsec + frameDelta) nowUsec)

end SpeedControl

/-- A frame comes from the decoder some time after the one before was let go, and the movie may have
been begun again in between. -/
structure Frame where
  presentationTimeUsec : ℤ
  gap : ℕ
  looped : Bool := false

/-- When each frame came and when it was let go. -/
def play (timer : Timer) : SpeedControl → ℤ → List Frame → List (ℤ × ℤ)
  | _, _, [] => []
  | s, nowUsec, f :: fs =>
    let s := if f.looped then s.loopReset else s
    let shown := s.preRender timer f.presentationTimeUsec (nowUsec + f.gap)
    (nowUsec + f.gap, shown.2) :: play timer shown.1 shown.2 fs

/-- When a frame is due, from when the frame before was due and the latest time seen so far: at a
fixed rate, or as far after it as its time is, or a thirtieth of a second when the movie begins
again. A frame whose time is not a new one is due at once. -/
def Frame.due (f : Frame) (fixed due latest : ℤ) : ℤ :=
  if fixed ≠ 0 then due + fixed
  else if f.looped then due + ONE_MILLION / 30
  else due + (max latest f.presentationTimeUsec - latest)

def Frame.latest (f : Frame) (latest : ℤ) : ℤ :=
  if f.looped then f.presentationTimeUsec else max latest f.presentationTimeUsec

def dues (fixed : ℤ) : ℤ → ℤ → List Frame → List ℤ
  | _, _, [] => []
  | due, latest, f :: fs =>
    f.due fixed due latest :: dues fixed (f.due fixed due latest) (f.latest latest) fs

/-- No frame is more than ten seconds later than all before it. -/
def Steady (fixed : ℤ) : ℤ → List Frame → Prop
  | _, [] => True
  | latest, f :: fs =>
    (fixed = 0 → f.looped ∨ f.presentationTimeUsec - latest ≤ 10 * ONE_MILLION) ∧
      Steady fixed (f.latest latest) fs

variable (timer : Timer) {late : ℤ}

/-- Never more than a hundred microseconds early, and late by one sleep at most. -/
theorem hold_spec {timer : Timer} (hlate : ∀ now asked, timer.sleep now asked ≤ asked + late)
    (desired now : ℤ) : desired - 100 ≤ timer.hold desired now ∧
      timer.hold desired now ≤ max now (desired + late) := by
  induction now using Timer.hold.induct timer desired with
  | case1 now hlt ih =>
    rw [Timer.hold, if_pos hlt]
    have hsleep := hlate now (min (desired - now) 500000)
    omega
  | case2 now hge =>
    rw [Timer.hold, if_neg hge]
    omega

/-- The state between two frames: when the last one was due, and the latest time so far. -/
structure Paced (fixed due latest : ℤ) (s : SpeedControl) : Prop where
  mono : s.mPrevMonoUsec = due
  present : fixed = 0 → s.mPrevPresentUsec = latest
  rate : s.mFixedFrameDurationUsec = fixed
  looped : s.mLoopReset = false

/-- How far a frame is after the one before it. -/
def elapsed (fixed latest p : ℤ) : ℤ := max 0 (if fixed ≠ 0 then fixed else p - latest)

section
variable {fixed due latest p : ℤ} {s : SpeedControl}

theorem Paced.frameDelta (h : Paced fixed due latest s) (hfixed : fixed ≤ 10 * ONE_MILLION)
    (hp : fixed = 0 → p - latest ≤ 10 * ONE_MILLION) : s.frameDelta p = elapsed fixed latest p := by
  have hdelta : (if s.mFixedFrameDurationUsec ≠ 0 then s.mFixedFrameDurationUsec
      else p - s.mPrevPresentUsec) = if fixed ≠ 0 then fixed else p - latest := by
    rw [h.rate]
    split_ifs with hf
    · rfl
    · rw [h.present (not_not.mp hf)]
  have hmost : (if fixed ≠ 0 then fixed else p - latest) ≤ 10 * ONE_MILLION := by
    split_ifs with hf
    · exact hfixed
    · exact hp (not_not.mp hf)
  unfold SpeedControl.frameDelta elapsed
  rw [hdelta]
  generalize (if fixed ≠ 0 then fixed else p - latest) = delta at hmost ⊢
  simp only
  split_ifs <;> omega

theorem Paced.advance (h : Paced fixed due latest s) (delta : ℤ) :
    Paced fixed (due + delta) (latest + delta)
      { s with
        mPrevMonoUsec := s.mPrevMonoUsec + delta
        mPrevPresentUsec := s.mPrevPresentUsec + delta } :=
  ⟨by rw [h.mono], fun hf => by rw [h.present hf], h.rate, h.looped⟩

/-- A frame of a movie that goes on. -/
theorem Paced.preRender (h : Paced fixed due latest s) (hdue : 0 < due)
    (hfixed : fixed ≤ 10 * ONE_MILLION) (hp : fixed = 0 → p - latest ≤ 10 * ONE_MILLION)
    (now : ℤ) : ∃ t, s.preRender timer p now = (t, timer.hold (due + elapsed fixed latest p) now) ∧
      Paced fixed (due + elapsed fixed latest p) (latest + elapsed fixed latest p) t := by
  have hmono : s.mPrevMonoUsec ≠ 0 := by rw [h.mono]; omega
  have hloop : ¬ s.mLoopReset = true := by rw [h.looped]; simp
  refine ⟨_, ?_, h.advance _⟩
  unfold SpeedControl.preRender
  rw [if_neg hmono]
  simp only [if_neg hloop, h.frameDelta hfixed hp, h.mono]

/-- The first frame of a movie that begins again: it counts as a thirtieth of a second after the
last one. -/
theorem Paced.preRender_looped (h : Paced fixed due latest s) (hdue : 0 < due)
    (hfixed : fixed ≤ 10 * ONE_MILLION) (now : ℤ) :
    ∃ t, s.loopReset.preRender timer p now =
        (t, timer.hold (due + elapsed fixed (p - ONE_MILLION / 30) p) now) ∧
      Paced fixed (due + elapsed fixed (p - ONE_MILLION / 30) p)
        (p - ONE_MILLION / 30 + elapsed fixed (p - ONE_MILLION / 30) p) t := by
  have hready : Paced fixed due (p - ONE_MILLION / 30)
      { s with mPrevPresentUsec := p - ONE_MILLION / 30, mLoopReset := false } :=
    ⟨h.mono, fun _ => rfl, h.rate, rfl⟩
  have hthird : p - (p - ONE_MILLION / 30) ≤ 10 * ONE_MILLION := by unfold ONE_MILLION; omega
  have hmono : s.loopReset.mPrevMonoUsec ≠ 0 := by change s.mPrevMonoUsec ≠ 0; rw [h.mono]; omega
  have hloop : s.loopReset.mLoopReset = true := rfl
  refine ⟨_, ?_, hready.advance _⟩
  unfold SpeedControl.preRender
  rw [if_neg hmono]
  simp only [if_pos hloop]
  rw [← hready.frameDelta (p := p) hfixed (fun _ => hthird)]
  rw [← h.mono]
  rfl

end

theorem le_due {fixed : ℤ} (hfixed : 0 ≤ fixed) (f : Frame) (due latest : ℤ) :
    due ≤ f.due fixed due latest := by
  have hthird : ONE_MILLION / 30 = 33333 := rfl
  unfold Frame.due
  rw [hthird]
  split_ifs <;> omega

/-- What a frame does to the state: the schedule goes on, whenever the frame came. -/
theorem Paced.shown {fixed due latest : ℤ} {s : SpeedControl} {f : Frame}
    (h : Paced fixed due latest s) (hdue : 0 < due) (hfixed : 0 ≤ fixed)
    (hmost : fixed ≤ 10 * ONE_MILLION)
    (hsteady : fixed = 0 → f.looped ∨ f.presentationTimeUsec - latest ≤ 10 * ONE_MILLION)
    (now : ℤ) : ∃ t, (if f.looped then s.loopReset else s).preRender timer
        f.presentationTimeUsec now = (t, timer.hold (f.due fixed due latest) now) ∧
      Paced fixed (f.due fixed due latest) (f.latest latest) t := by
  have hthird : ONE_MILLION / 30 = 33333 := rfl
  cases hf : f.looped with
  | false =>
    have hnext : due + elapsed fixed latest f.presentationTimeUsec = f.due fixed due latest := by
      simp only [elapsed, Frame.due, hf, Bool.false_eq_true, if_false]
      split_ifs <;> omega
    obtain ⟨t, hshown, ht⟩ := h.preRender timer hdue hmost
      (fun h0 => (hsteady h0).resolve_left (by simp [hf])) now
    rw [hnext] at hshown ht
    refine ⟨t, hshown, ht.mono, fun h0 => ?_, ht.rate, ht.looped⟩
    rw [ht.present h0]
    simp only [elapsed, Frame.latest, h0, hf, Bool.false_eq_true, if_false, ne_eq,
      not_true_eq_false]
    omega
  | true =>
    have hnext : due + elapsed fixed (f.presentationTimeUsec - ONE_MILLION / 30)
        f.presentationTimeUsec = f.due fixed due latest := by
      simp only [elapsed, Frame.due, hf, hthird, if_true]
      split_ifs <;> omega
    obtain ⟨t, hshown, ht⟩ := h.preRender_looped timer hdue hmost now
    rw [hnext] at hshown ht
    refine ⟨t, hshown, ht.mono, fun h0 => ?_, ht.rate, ht.looped⟩
    rw [ht.present h0]
    simp only [elapsed, Frame.latest, h0, hf, hthird, if_true, ne_eq, not_true_eq_false, if_false]
    omega

/-- Every frame is let go at most a hundred microseconds before it is due and, if it came in time,
at most one oversleeping after it: whatever the frames before it were late by is not passed
on. -/
theorem play_on_schedule {timer : Timer}
    (hlate : ∀ now asked, timer.sleep now asked ≤ asked + late) {fixed : ℤ} (hfixed : 0 ≤ fixed)
    (hmost : fixed ≤ 10 * ONE_MILLION) (fs : List Frame) :
    ∀ {due latest : ℤ} {s : SpeedControl} (now : ℤ), Paced fixed due latest s → 0 < due →
      Steady fixed latest fs →
      List.Forall₂ (fun shown due => due - 100 ≤ shown.2 ∧ shown.2 ≤ max shown.1 (due + late))
        (play timer s now fs) (dues fixed due latest fs) := by
  induction fs with
  | nil => intro due latest s now h hdue hsteady; exact .nil
  | cons f fs ih =>
    intro due latest s now h hdue hsteady
    obtain ⟨hstep, hrest⟩ := hsteady
    obtain ⟨t, hshown, ht⟩ := h.shown timer hdue hfixed hmost hstep (now + f.gap)
    have hle := le_due hfixed f due latest
    have hpos : 0 < f.due fixed due latest := by omega
    simp only [play, dues, hshown]
    exact .cons (hold_spec hlate _ _) (ih _ ht hpos hrest)

/-- The first frame after a reset is let go when it comes, and each frame after it when it is due
from then, without drift: within a hundred microseconds before that and one oversleeping after it,
or when it comes if that is later. -/
theorem paced_without_drift {timer : Timer}
    (hlate : ∀ now asked, timer.sleep now asked ≤ asked + late) {s : SpeedControl} {now : ℤ}
    {f : Frame} {fs : List Frame}
    (hfixed : 0 ≤ s.mFixedFrameDurationUsec)
    (hmost : s.mFixedFrameDurationUsec ≤ 10 * ONE_MILLION) (hloop : s.mLoopReset = false)
    (hfirst : f.looped = false) (hclock : 0 < now + f.gap)
    (hsteady : Steady s.mFixedFrameDurationUsec f.presentationTimeUsec fs) :
    ∃ rest, play timer s.resetPosition now (f :: fs) = (now + f.gap, now + f.gap) :: rest ∧
      List.Forall₂ (fun shown due => due - 100 ≤ shown.2 ∧ shown.2 ≤ max shown.1 (due + late))
        rest (dues s.mFixedFrameDurationUsec (now + f.gap) f.presentationTimeUsec fs) := by
  have hlatched : Paced s.mFixedFrameDurationUsec (now + f.gap) f.presentationTimeUsec
      { s.resetPosition with
        mPrevMonoUsec := now + f.gap, mPrevPresentUsec := f.presentationTimeUsec } :=
    ⟨rfl, fun _ => rfl, rfl, hloop⟩
  refine ⟨_, ?_, play_on_schedule hlate hfixed hmost fs (now + f.gap) hlatched hclock hsteady⟩
  simp only [play, hfirst]
  rfl

/-- The second frame comes late and the third is on time again; the fourth has an old time. -/
theorem paced_without_drift_late : ∃ rest, play ⟨fun _ asked => asked, fun _ _ h => h⟩
      ({} : SpeedControl).resetPosition 1000
      [⟨0, 500, false⟩, ⟨40000, 70000, false⟩, ⟨80000, 2000, false⟩, ⟨60000, 3000, false⟩] =
        (1500, 1500) :: rest ∧
      List.Forall₂ (fun shown due => due - 100 ≤ shown.2 ∧ shown.2 ≤ max shown.1 (due + 0))
        rest [41500, 81500, 81500] :=
  paced_without_drift (fun _ _ => by simp) (by decide) (by decide) rfl rfl (by decide)
    ⟨fun _ => .inr (by decide), fun _ => .inr (by decide), fun _ => .inr (by decide), trivial⟩

/-- A movie without a new beginning and without a fixed rate: a frame is due when the latest time so
far says. -/
theorem dues_latest (fs : List Frame) (hloop : ∀ f ∈ fs, f.looped = false) :
    ∀ (due latest : ℤ) (i : ℕ) (hi : i < (dues 0 due latest fs).length),
      (dues 0 due latest fs).get ⟨i, hi⟩ = due +
        (((fs.take (i + 1)).map Frame.presentationTimeUsec).foldl max latest - latest) := by
  induction fs with
  | nil => intro due latest i hi; cases hi
  | cons f fs ih =>
    intro due latest i hi
    have hf := hloop f (List.mem_cons_self ..)
    have hdue : f.due 0 due latest = due + (max latest f.presentationTimeUsec - latest) := by
      simp [Frame.due, hf]
    have hlatest : f.latest latest = max latest f.presentationTimeUsec := by
      simp [Frame.latest, hf]
    cases i with
    | zero => simp [dues, hdue]
    | succ i =>
      have hrest := ih (fun g hg => hloop g (List.mem_cons_of_mem _ hg)) (f.due 0 due latest)
        (f.latest latest) i (by simpa [dues] using hi)
      change (dues 0 (f.due 0 due latest) (f.latest latest) fs).get ⟨i, _⟩ = _
      rw [hrest, hdue, hlatest, List.take_succ_cons, List.map_cons, List.foldl_cons]
      omega

end Jagles.FramePacing
