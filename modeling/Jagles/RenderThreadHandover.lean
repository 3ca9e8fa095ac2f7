import Jagles.RenderThreadInvariant

set_option autoImplicit false
set_option linter.dupNamespace false

/-!
# What a caller may rely on when its call comes back

After `surfaceDestroyed` and `onPause` the drawing thread holds no surface and draws nothing until
the surface is given back or the thread is resumed; after `requestExitAndWait` it does nothing any
more. Queued events are run in their order.
-/
namespace Jagles.RenderThread
open Throwing GLThread GuardedRuns

variable {Runnable : Type*} {s t u : GLThread Runnable} {a : Answers} {c : Call}
  {l : Label Runnable} {ls ks : List (Label Runnable)}

/-- What a call asks for. -/
def Fields.requests (f : Fields Runnable) : Call → Prop
  | .surfaceCreated => f.mHasSurface = true
  | .surfaceDestroyed => f.mHasSurface = false
  | .onPause => f.mRequestPaused = true
  | .onResume => f.mRequestPaused = false
  | .requestExitAndWait => f.mShouldExit = true
  | .onWindowResize _ _ | .requestRenderAndWait => True

theorem Fields.requests_congr {f g : Fields Runnable} (hs : g.mHasSurface = f.mHasSurface)
    (hp : g.mRequestPaused = f.mRequestPaused) (hx : g.mShouldExit = f.mShouldExit)
    (h : f.requests c) : g.requests c := by
  cases c <;> simp only [Fields.requests] at h ⊢ <;> simp_all

/-- The drawing thread leaves the requests to the callers. -/
structure Obeys (s t : GLThread Runnable) : Prop where
  client : t.client = s.client
  mShouldExit : t.fields.mShouldExit = s.fields.mShouldExit
  mRequestPaused : t.fields.mRequestPaused = s.fields.mRequestPaused
  mHasSurface : t.fields.mHasSurface = s.fields.mHasSurface

theorem Frame.obeys (h : Frame s t) : Obeys s t :=
  ⟨h.client, h.mShouldExit, h.mRequestPaused, h.mHasSurface⟩

theorem Obeys.trans (h : Obeys s t) (h' : Obeys t u) : Obeys s u := by
  constructor <;> grind -linarith [Obeys]

theorem Advances.obeys (h : Advances a s t) : Obeys s t := by
  cases h with
  | turned hpc ht =>
    cases ht with
    | exit => exact ⟨rfl, rfl, rfl, rfl⟩
    | event => exact ⟨rfl, rfl, rfl, rfl⟩
    | sleep hexit hq ht hu => exact ht.toFrame.obeys.trans hu.toFrame.obeys
    | take hexit hq ht hu => exact ht.toFrame.obeys.trans hu.toFrame.obeys
  | threw hpc ht => exact ht.toFrame.obeys.trans ⟨rfl, rfl, rfl, rfl⟩
  | released hpc ht => exact ht.toFrame.obeys.trans ⟨rfl, rfl, rfl, rfl⟩
  | _ => constructor <;> grind -linarith [act, goTo, told, notifyAll, destroySurfaceImp, afterSwap]

/-- What a call in progress has asked for still stands: only one call waits at a time. -/
def Asked (s : GLThread Runnable) : Prop := ∀ c, s.client = some c → s.fields.requests c

theorem enter_requests (c : Call) (s : GLThread Runnable) : (s.enter c).fields.requests c := by
  cases c <;> simp [enter, notifyAll, Fields.requests]

@[simp] theorem loop_fields : (s.loop c).fields = s.fields := by
  unfold loop
  split <;> rfl

theorem loop_client {d : Call} (h : (s.loop c).client = some d) : d = c := by
  unfold loop at h
  split at h <;> simp_all

theorem Asked.kept (h : Asked s) (hs : Invariant s) (ht : step s l = some t) : Asked t := by
  intro c hc
  cases l with
  | draw a =>
    have hobeys := (hs.advances ht).obeys
    have hreq := h c (hobeys.client ▸ hc)
    exact Fields.requests_congr hobeys.mHasSurface hobeys.mRequestPaused hobeys.mShouldExit hreq
  | call d =>
    simp only [step, call] at ht
    split at ht
    · obtain rfl := Option.some.inj ht
      obtain rfl := loop_client hc
      rw [loop_fields]
      exact enter_requests c s
    · cases ht
  | wake =>
    simp only [step, wake] at ht
    split at ht
    · rename_i d hd
      split at ht
      · cases ht
      · obtain rfl := Option.some.inj ht
        obtain rfl := loop_client hc
        rw [loop_fields]
        exact h c hd
    · cases ht
  | _ =>
    simp only [step] at ht
    have hreq : s.client = some c → s.fields.requests c := h c
    have hc' : s.client = some c := by
      grind -linarith [notifyAll, setRenderMode, queueEvent, resizeWithin]
    refine Fields.requests_congr ?_ ?_ ?_ (hreq hc') <;>
      grind -linarith [notifyAll, setRenderMode, queueEvent, resizeWithin]

theorem reaches_asked (h : Reaches ls s) : Asked s := by
  obtain ⟨preserve, hrun⟩ := h
  refine (hrun.invariant (fun s => Invariant s ∧ Asked s)
    (fun _ _ _ hs _ ht => ⟨hs.1.kept ht, hs.2.kept hs.1 ht⟩) ⟨Invariant.start preserve, ?_⟩).2
  rintro c ⟨⟩

/-! ## Without a surface -/

/-- The calls that take the surface away from the thread. -/
def Call.withdraws : Call → Bool
  | .surfaceDestroyed | .onPause => true
  | _ => false

/-- The call that gives back what such a call has taken away. -/
def Call.reopens : Call → Call
  | .surfaceDestroyed => .surfaceCreated
  | .onPause => .onResume
  | c => c

/-- The thread holds no surface and must not take one. -/
structure Vacant (c : Call) (s : GLThread Runnable) : Prop where
  requests : s.fields.requests c
  surface : s.fields.mHaveEglSurface = false
  stage : s.pc.stage = 0

/-- Neither without a surface of the view nor while paused is the thread ready to draw. -/
theorem not_ready (hc : c.withdraws) (h : Updated s t) (hreq : s.fields.requests c) :
    t.fields.readyToDraw = false := by
  have hpaused := h.mPaused
  have hhas := h.mHasSurface
  cases c <;> simp only [Call.withdraws, Fields.requests, Bool.false_eq_true] at hc hreq <;>
    simp [Fields.readyToDraw, hpaused, hhas, hreq]

theorem no_surface_when_updated (hc : c.withdraws) (h : Updated s t) (hu : Sleeps t u)
    (hreq : s.fields.requests c) : u.fields.mHaveEglSurface = false := by
  have hpaused := hu.mPaused.trans h.mPaused
  have hwait := hu.mWaitingForSurface.trans h.mWaitingForSurface
  have hsound := hu.sound
  obtain ⟨-, -, -, -, -, -, -, hw, hp⟩ := hsound
  cases c <;> simp only [Call.withdraws, Fields.requests, Bool.false_eq_true] at hc hreq <;>
    grind -linarith

theorem Vacant.advance (hc : c.withdraws) (h : Vacant c s) (ha : Advances a s t) :
    Vacant c t ∧ t.drawn = s.drawn := by
  have hobeys := ha.obeys
  have hreq := Fields.requests_congr hobeys.mHasSurface hobeys.mRequestPaused hobeys.mShouldExit
    h.requests
  have hstage := h.stage
  have hsurf := h.surface
  cases ha with
  | turned hpc ht =>
    cases ht with
    | exit => exact ⟨⟨hreq, hsurf, rfl⟩, rfl⟩
    | event => exact ⟨⟨hreq, hsurf, rfl⟩, rfl⟩
    | sleep hexit hq ht hu =>
      have hsleep := hu.pc
      exact ⟨⟨hreq, no_surface_when_updated hc ht hu h.requests, by rw [hsleep]; rfl⟩,
        hu.drawn.trans ht.drawn⟩
    | take hexit hq ht hu =>
      have hready := hu.readyToDraw
      rw [not_ready hc ht h.requests] at hready
      cases hready
  | threw hpc ht => exact ⟨⟨hreq, ht.surface, rfl⟩, ht.drawn⟩
  | released hpc ht => exact ⟨⟨hreq, ht.surface, rfl⟩, ht.drawn⟩
  | ran event pc hpc hto =>
    refine ⟨⟨hreq, hsurf, ?_⟩, rfl⟩
    rcases hto with rfl | rfl <;> rfl
  | exits hpc => exact ⟨⟨hreq, hsurf, rfl⟩, rfl⟩
  | surfaceIsNew pc hpc => simp [hpc, Pc.stage] at hstage
  | swapped lost hpc => simp [hpc, Pc.stage] at hstage
  | _ hpc => simp [hpc, Pc.stage] at hstage

/-- Only the call that gives the surface back changes what has been asked for. -/
theorem requests_kept (hc : c.withdraws) (h : s.fields.requests c) (ht : step s l = some t)
    (hl : l ≠ .call c.reopens) (hs : Invariant s) : t.fields.requests c := by
  cases l with
  | draw a =>
    have hobeys := (hs.advances ht).obeys
    exact Fields.requests_congr hobeys.mHasSurface hobeys.mRequestPaused hobeys.mShouldExit h
  | call d =>
    simp only [step, call] at ht
    split at ht
    · obtain rfl := Option.some.inj ht
      rw [loop_fields]
      cases c <;> simp only [Call.withdraws, Bool.false_eq_true] at hc <;> cases d <;>
        simp_all [Fields.requests, enter, notifyAll, Call.reopens]
    · cases ht
  | wake =>
    simp only [step, wake] at ht
    split at ht
    · split at ht
      · cases ht
      · obtain rfl := Option.some.inj ht
        rwa [loop_fields]
    · cases ht
  | _ =>
    simp only [step] at ht
    refine Fields.requests_congr ?_ ?_ ?_ h <;>
      grind -linarith [notifyAll, setRenderMode, queueEvent, resizeWithin]

theorem Vacant.kept (hc : c.withdraws) (h : Vacant c s) (hs : Invariant s)
    (hl : l ≠ .call c.reopens) (ht : step s l = some t) : Vacant c t ∧ t.drawn = s.drawn := by
  have hreq := requests_kept hc h.requests ht hl hs
  cases l with
  | draw a => exact h.advance hc (hs.advances ht)
  | _ =>
    have hasks := step_asks (by rintro a ⟨⟩) ht
    exact ⟨⟨hreq, hasks.mHaveEglSurface.trans h.surface, hasks.pc ▸ h.stage⟩,
      congrArg (List.filter Act.draws) hasks.acts⟩

/-- A step with which a call comes back. -/
structure Returns (c : Call) (s : GLThread Runnable) (l : Label Runnable) (t : GLThread Runnable) :
    Prop where
  step : step s l = some t
  client : t.client = none
  call : l = .call c ∨ l = .wake ∧ s.client = some c

theorem loop_returns (h : (s.loop c).client = none) : s.fields.waitsIn c = false := by
  cases hw : s.fields.waitsIn c with
  | false => rfl
  | true => simp [loop, hw] at h

theorem Returns.requests (h : Returns c s l t) (hs : Asked s) :
    t.fields.requests c ∧ t.fields.waitsIn c = false := by
  have ht := h.step
  have hclient := h.client
  rcases h.call with rfl | ⟨rfl, hc⟩
  · simp only [RenderThread.step, GLThread.call] at ht
    split at ht
    · obtain rfl := Option.some.inj ht
      rw [loop_fields]
      exact ⟨enter_requests c s, loop_returns hclient⟩
    · cases ht
  · simp only [RenderThread.step, wake, hc] at ht
    split at ht
    · cases ht
    · obtain rfl := Option.some.inj ht
      rw [loop_fields]
      exact ⟨hs c hc, loop_returns hclient⟩

theorem Returns.vacant (hc : c.withdraws) (h : Returns c s l t) (hs : Asked s) (ht : Invariant t) :
    Vacant c t := by
  obtain ⟨hreq, hwaits⟩ := h.requests hs
  have hsurface := ht.surface
  have hgone := ht.gone
  have hexited := ht.exited
  have hwait := ht.sound.waiting
  have hpaused := ht.sound.paused
  have hsurf : t.fields.mHaveEglSurface = false := by
    cases c <;> simp only [Call.withdraws, Fields.waitsIn, Bool.false_eq_true] at hc hwaits <;>
      grind -linarith
  exact ⟨hreq, hsurf, by grind -linarith⟩

/-- When `surfaceDestroyed` or `onPause` has come back, the thread holds no surface and draws
nothing, and so in every state until the surface is given back or the thread is resumed. -/
theorem surface_withdrawn (hc : c.withdraws) (h : Reaches ls s) (hret : Returns c s l t)
    (hrun : Run step (fun _ l => l ≠ .call c.reopens) t ks u) :
    u.fields.mHaveEglSurface = false ∧ u.mEglHelper.mEglSurface = false ∧ u.pc.stage = 0 ∧
      u.drawn = t.drawn := by
  have ht := (reaches_invariant h).kept hret.step
  have hvacant := hret.vacant hc (reaches_asked h) ht
  obtain ⟨hu, hvu, hdrawn⟩ := hrun.invariant
    (fun x => Invariant x ∧ Vacant c x ∧ x.drawn = t.drawn)
    (fun x l y hx hl hy => by
      obtain ⟨hvacant, hdrawn⟩ := hx.2.1.kept hc hx.1 hl hy
      exact ⟨hx.1.kept hy, hvacant, hdrawn.trans hx.2.2⟩) ⟨ht, hvacant, rfl⟩
  refine ⟨hvu.surface, ?_, hvu.stage, hdrawn⟩
  have := hu.sound.surface
  have := hvu.surface
  grind -linarith

theorem surface_withdrawn_destroyed :
    ∃ s t u : GLThread ℕ, Returns .surfaceDestroyed s .wake t ∧ t.mEglHelper.mEglContext = true ∧
      Run step (fun _ l => l ≠ .call .surfaceCreated) t [.requestRender, .draw {}] u ∧
      u.fields.mHaveEglSurface = false ∧ u.mEglHelper.mEglSurface = false ∧ u.pc.stage = 0 ∧
      u.drawn = t.drawn := by
  obtain ⟨s, hrun, hs⟩ : ∃ s : GLThread ℕ, Run step (fun _ _ => True) (setRenderer false)
      (oneFrame ++ [.call .surfaceDestroyed, .draw {}]) s ∧
      s.client = some .surfaceDestroyed ∧ ((step s .wake).any fun t : GLThread ℕ =>
        decide (t.client = none) && t.mEglHelper.mEglContext &&
          ((step t .requestRender).any fun u : GLThread ℕ => (step u (.draw {})).isSome)) = true :=
    exists_run (by decide +kernel)
  obtain ⟨hclient, hany⟩ := hs
  obtain ⟨t, ht, hrest⟩ := (Option.any_eq_true _ _).mp hany
  simp only [Bool.and_eq_true, decide_eq_true_eq] at hrest
  obtain ⟨⟨hnone, hcontext⟩, hu⟩ := hrest
  obtain ⟨x, hx, hu⟩ := (Option.any_eq_true _ _).mp hu
  obtain ⟨u, hu⟩ := Option.isSome_iff_exists.mp hu
  have hret : Returns .surfaceDestroyed s .wake t := ⟨ht, hnone, .inr ⟨rfl, hclient⟩⟩
  have hrun' : Run step (fun _ l => l ≠ .call .surfaceCreated) t [.requestRender, .draw {}] u :=
    .cons (by simp) hx (.cons (by simp) hu (.nil u))
  exact ⟨s, t, u, hret, hcontext, hrun', surface_withdrawn rfl ⟨false, hrun⟩ hret hrun'⟩

/-! ## After the exit -/

/-- On the way out everything is given up, when no `destroyContext` fails. -/
def Exits (s : GLThread Runnable) : Prop :=
  s.pc = .exiting ∨ s.pc = .exited → s.fields.mHaveEglContext = false

/-- The context can be destroyed whenever the thread asks for it. -/
def Label.destroys : Label Runnable → Bool
  | .draw a => a.destroyContext
  | _ => true

theorem Exits.advance (h : Exits s) (ha : Advances a s t) (hd : a.destroyContext) : Exits t := by
  intro ht
  cases ha with
  | turned hpc hturn =>
    cases hturn with
    | exit => simp at ht
    | event => simp at ht
    | sleep hexit hq htt hu => simp [hu.pc] at ht
    | take hexit hq htt hu => simp [hu.pc] at ht
  | threw hpc hleft => simp [goTo] at ht
  | released hpc hleft hctx => exact hctx hd
  | exits hpc => exact h (.inl hpc)
  | _ =>
    exfalso
    revert ht
    grind -linarith [goTo, afterSwap]

theorem Exits.kept (h : Exits s) (hs : Invariant s) (hl : l.destroys) (ht : step s l = some t) :
    Exits t := by
  cases l with
  | draw a => exact h.advance (hs.advances ht) hl
  | _ =>
    have hasks := step_asks (by rintro a ⟨⟩) ht
    intro hpc
    rw [hasks.mHaveEglContext]
    exact h (hasks.pc ▸ hpc)

/-- A thread that has exited does nothing any more. -/
theorem exited_kept (hs : s.pc = .exited) (ht : step s l = some t) :
    t.pc = .exited ∧ t.acts = s.acts := by
  cases l with
  | draw a => simp [step, advance, hs] at ht
  | _ =>
    have hasks := step_asks (by rintro a ⟨⟩) ht
    exact ⟨hasks.pc.trans hs, hasks.acts⟩

/-- When `requestExitAndWait` has come back, every context and every surface that was made has been
destroyed, and nothing is asked of EGL, of the renderer or of a queued event any more. -/
theorem exit_releases {preserve : Bool}
    (hrun : Run step (fun _ l => l.destroys) (setRenderer preserve) ls s)
    (hl : l.destroys) (hret : Returns .requestExitAndWait s l t) (hview : t.view.isSome)
    (hafter : Run step (fun _ _ => True) t ks u) :
    u.acts = t.acts ∧
      ∃ ph, phase u.acts = some ph ∧ ph.context = false ∧ ph.surface = false := by
  have hall := hrun.invariant (fun s => Invariant s ∧ Shown s ∧ Exits s)
    (fun _ _ _ hs hl ht => ⟨hs.1.kept ht, hs.2.1.kept hs.1 ht, hs.2.2.kept hs.1 hl ht⟩)
    ⟨Invariant.start preserve, Shown.start preserve, by rintro (h | h) <;> cases h⟩
  have hstep := hret.step
  have hinv := hall.1.kept hstep
  have hexits := hall.2.2.kept hall.1 hl hstep
  obtain ⟨ph, hph, -, -, hsurf, hctx, -, -⟩ := (hall.2.1.kept hall.1 hstep).rendered
  have hreach : Reaches ls s := ⟨preserve, hrun.weaken fun _ _ _ => trivial⟩
  have hwaits := (hret.requests (reaches_asked hreach)).2
  have hexited : t.pc = .exited := hinv.exited.mp (by simpa [Fields.waitsIn] using hwaits)
  have hu := hafter.invariant (fun x => x.pc = .exited ∧ x.acts = t.acts)
    (fun x l y hx _ hy => by
      obtain ⟨hpc, hacts⟩ := exited_kept hx.1 hy
      exact ⟨hpc, hacts.trans hx.2⟩) ⟨hexited, rfl⟩
  have hnone := hinv.gone (.inr hexited)
  have hsurface := hinv.sound.surface
  have hcontext := hinv.sound.context
  have hleft := hexits (.inr hexited)
  exact ⟨hu.2, ph, hu.2 ▸ hph, by grind -linarith, by grind -linarith⟩

theorem exit_releases_oneFrame :
    ∃ s t : GLThread ℕ, Returns .requestExitAndWait s .wake t ∧ t.acts.length = 10 ∧
      ∃ ph, phase t.acts = some ph ∧ ph.context = false ∧ ph.surface = false := by
  obtain ⟨s, hrun, hclient, hany⟩ : ∃ s : GLThread ℕ,
      Run step (fun _ l => l.destroys) (setRenderer false)
        (oneFrame ++ [.call .requestExitAndWait, .draw {}, .draw {}, .draw {}]) s ∧
      s.client = some .requestExitAndWait ∧ ((step s .wake).any fun t : GLThread ℕ =>
        decide (t.client = none) && t.view.isSome && decide (t.acts.length = 10)) = true :=
    exists_run (by decide +kernel)
  obtain ⟨t, ht, hrest⟩ := (Option.any_eq_true _ _).mp hany
  simp only [Bool.and_eq_true, decide_eq_true_eq] at hrest
  obtain ⟨⟨hnone, hview⟩, hacts⟩ := hrest
  have hret : Returns .requestExitAndWait s .wake t := ⟨ht, hnone, .inr ⟨rfl, hclient⟩⟩
  exact ⟨s, t, hret, hacts, (exit_releases hrun rfl hret hview (.nil t)).2⟩

/-! ## Events -/

/-- The event that the thread is running. -/
def Pc.running : Pc Runnable → List Runnable
  | .event e => [e]
  | _ => []

def Label.event : Label Runnable → List Runnable
  | .queueEvent r => [r]
  | _ => []

/-- The events in their order: those that have been run, the one that is being run, and those that
wait. -/
def GLThread.events (s : GLThread Runnable) : List Runnable :=
  s.ran.reverse ++ s.pc.running ++ s.fields.mEventQueue

/-- A step that is not about an event. -/
theorem events_same (hs : s.pc.running = []) (ht : t.pc.running = [])
    (hqueue : t.fields.mEventQueue = s.fields.mEventQueue) (hran : t.ran = s.ran) :
    t.events = s.events := by
  unfold GLThread.events
  rw [hqueue, hran, ht, hs]

theorem Advances.events (ha : Advances a s t) : t.events = s.events := by
  cases ha with
  | turned hpc ht =>
    have hrun : s.pc.running = [] := by rcases hpc with hpc | hpc <;> rw [hpc] <;> rfl
    cases ht with
    | exit => exact events_same hrun rfl rfl rfl
    | event hexit event rest hq =>
      unfold GLThread.events
      rw [hrun, hq]
      simp [Pc.running, GLThread.ran]
    | sleep hexit hq htt hu =>
      have hframe := htt.toFrame.trans hu.toFrame
      exact events_same hrun (by rw [hu.pc]; rfl) hframe.mEventQueue hframe.ran
    | take hexit hq htt hu =>
      have hframe := htt.toFrame.trans hu.toFrame
      exact events_same hrun (by rw [hu.pc]; rfl) hframe.mEventQueue hframe.ran
  | threw hpc ht =>
    have hrun : s.pc.running = [] := by rcases hpc with hpc | hpc <;> rw [hpc] <;> rfl
    exact events_same hrun rfl ht.mEventQueue ht.ran
  | released hpc ht => exact events_same (by rw [hpc]; rfl) rfl ht.mEventQueue ht.ran
  | ran event pc hpc hto =>
    rcases hto with rfl | rfl <;>
      simp [GLThread.events, hpc, Pc.running, goTo, act, GLThread.ran, Act.event]
  | surfaceIsNew pc hpc hc hview hto =>
    have hto' : pc.running = [] := by rcases hto with rfl | rfl <;> rfl
    refine events_same (by rw [hpc]; rfl) hto' ?_ ?_ <;>
      grind -linarith [goTo, act, destroySurfaceImp, GLThread.ran, Act.event]
  | swapped lost hpc =>
    refine events_same (by rw [hpc]; rfl) ?_ ?_ ?_ <;>
      grind -linarith [goTo, act, afterSwap, GLThread.ran, Act.event, Pc.running]
  | _ hpc =>
    refine events_same (by rw [hpc]; rfl) ?_ ?_ ?_ <;>
      grind -linarith [goTo, act, told, destroySurfaceImp, afterSwap, notifyAll, GLThread.ran,
        Act.event, Pc.running]

theorem enter_mEventQueue (c : Call) (s : GLThread Runnable) :
    (s.enter c).fields.mEventQueue = s.fields.mEventQueue := by
  cases c <;> rfl

theorem step_events (hs : Invariant s) (ht : step s l = some t) :
    t.events = s.events ++ l.event := by
  cases l with
  | draw a =>
    rw [(hs.advances ht).events]
    exact (List.append_nil _).symm
  | queueEvent r =>
    obtain rfl := Option.some.inj ht
    simp [GLThread.events, queueEvent, notifyAll, ran, Label.event]
  | _ =>
    have hasks := step_asks (by rintro a ⟨⟩) ht
    have hran : t.ran = s.ran := congrArg (List.filterMap Act.event) hasks.acts
    have hqueue : t.fields.mEventQueue = s.fields.mEventQueue := by
      simp only [step] at ht
      grind -linarith [call, wake, enter_mEventQueue, loop_fields, notifyAll, setRenderMode,
        resizeWithin]
    simp [GLThread.events, hasks.pc, hran, hqueue, Label.event]

/-- Events are run in the order in which they were queued, each once and none left out, whatever
else happens; `getQueueCount` counts those of them that have not been begun. -/
theorem events_in_order (h : Reaches ls s) :
    s.ran.reverse ++ s.pc.running ++ s.fields.mEventQueue = ls.flatMap Label.event := by
  obtain ⟨preserve, hrun⟩ := h
  have hall : ∀ {x y : GLThread Runnable} {ks : List (Label Runnable)},
      Run step (fun _ _ => True) x ks y → Invariant x →
        y.events = x.events ++ ks.flatMap Label.event := by
    intro x y ks hrun
    induction hrun with
    | nil x => simp
    | cons _ hx _ ih =>
      intro hinv
      rw [ih (hinv.kept hx), step_events hinv hx, List.append_assoc, List.flatMap_cons]
  exact hall hrun (Invariant.start preserve)

theorem events_in_order_oneFrame :
    ∃ t : GLThread ℕ, Reaches (oneFrame ++ [.queueEvent 8, .queueEvent 9, .draw {}]) t ∧
      t.ran = [7] ∧ t.fields.mEventQueue = [9] ∧
      t.ran.reverse ++ t.pc.running ++ t.fields.mEventQueue = [7, 8, 9] := by
  obtain ⟨t, hrun, hran, hqueue⟩ : ∃ t : GLThread ℕ,
      Run step (fun _ _ => True) (setRenderer false)
        (oneFrame ++ [.queueEvent 8, .queueEvent 9, .draw {}]) t ∧
      t.ran = [7] ∧ t.fields.mEventQueue = [9] := exists_run (by decide +kernel)
  exact ⟨t, ⟨false, hrun⟩, hran, hqueue, events_in_order ⟨false, hrun⟩⟩

end Jagles.RenderThread
