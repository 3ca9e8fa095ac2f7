import Jagles.RenderThreadSteps

set_option autoImplicit false
set_option linter.dupNamespace false

/-!
# The invariants of the drawing thread

The flags agree at each point of a frame, and EGL and the renderer are asked for things in the order
that they rely on.
-/
namespace Jagles.RenderThread
open Throwing GLThread

variable {Runnable : Type*} {s t u : GLThread Runnable} {p : Bool} {a : Answers}

/-! ## The flags -/

theorem Sound.goTo (h : Sound p s) (pc : Pc Runnable) : Sound p (s.goTo pc) := { h with }

theorem Sound.told (h : Sound p s) (x : Act Runnable) : Sound p (s.told x) := by
  unfold GLThread.told
  split
  · exact { h with }
  · exact h

/-- Between two frames. -/
theorem Invariant.idle (h : Sound false s) (hpc : s.pc.stage = 0)
    (hgone : s.pc = .exiting ∨ s.pc = .exited → s.fields.mHaveEglSurface = false)
    (hexited : s.fields.mExited ↔ s.pc = .exited) : Invariant s := by
  constructor <;> grind -linarith

/-- What the flags are before the thread goes on with the part of the frame that has this number. -/
structure Ready (stage : ℕ) (s : GLThread Runnable) : Prop where
  surface : 1 ≤ stage → s.fields.mHaveEglSurface
  created : 2 ≤ stage → s.mEglHelper.mEglSurface
  createEglSurface : 3 ≤ stage → s.locals.createEglSurface = false
  createEglContext : 4 ≤ stage → s.locals.createEglContext = false
  sizeChanged : 5 ≤ stage → s.locals.sizeChanged = false

theorem Invariant.goTo (h : Sound false s) (hx : s.fields.mExited = false) (pc : Pc Runnable)
    (hpc : pc ≠ .exiting ∧ pc ≠ .exited) (hr : Ready pc.stage s) : Invariant (s.goTo pc) where
  sound := h.goTo pc
  surface := hr.surface
  created := hr.created
  createEglSurface := hr.createEglSurface
  createEglContext := hr.createEglContext
  sizeChanged := hr.sizeChanged
  gone hgone := absurd hgone (not_or.mpr hpc)
  exited := by
    change s.fields.mExited = true ↔ pc = .exited
    simp [hx, hpc.2]

theorem Ready.zero (s : GLThread Runnable) : Ready 0 s := by
  constructor <;> omega

theorem Invariant.cleanup (h : Sound false s) (hx : s.fields.mExited = false) :
    Invariant (s.goTo .cleanup) :=
  Invariant.goTo h hx .cleanup (by simp) (Ready.zero s)

theorem Invariant.afterSwap (h : Sound false s) (hx : s.fields.mExited = false) :
    Invariant s.afterSwap := by
  unfold GLThread.afterSwap
  split
  · refine Invariant.goTo (s := { s with
        locals.doRenderNotification := true
        locals.wantRenderNotification := false }) ?_ hx .monitor (by simp) (Ready.zero _)
    exact { h with }
  · exact Invariant.goTo h hx .monitor (by simp) (Ready.zero s)

theorem Sound.surfaceIsNew (h : Sound false s) (hhave : s.fields.mHaveEglSurface)
    (hc : s.locals.createEglSurface) :
    Sound false ({ s.destroySurfaceImp with mEglHelper.mEglSurface := true }.act
      .createWindowSurface) := by
  obtain ⟨hcs, hctx, hcfg, hsurf, hcre, hsc, hsize, hwait, hpaused⟩ := h
  constructor <;> grind -linarith [act, destroySurfaceImp]

theorem Sound.surfaceIsNull (h : Sound false s) (hc : s.locals.createEglSurface) :
    Sound false s.destroySurfaceImp := by
  obtain ⟨hcs, hctx, hcfg, hsurf, hcre, hsc, hsize, hwait, hpaused⟩ := h
  constructor <;> grind -linarith [act, destroySurfaceImp]

/-- The surface is there, so the flag that asks for one goes. -/
theorem Sound.surfaceCreated (h : Sound false s) (hsurf : s.mEglHelper.mEglSurface) :
    Sound false { s with
      fields.mFinishedCreatingEglSurface := true
      locals.createEglSurface := false }.notifyAll := by
  obtain ⟨hcs, hctx, hcfg, hsurf', hcre, hsc, hsize, hwait, hpaused⟩ := h
  constructor <;> grind -linarith [notifyAll]

theorem Sound.sizeIsNew (h : Sound false s) (hc : s.locals.createEglSurface = false) :
    Sound false { s with locals.sizeChanged := false } := by
  obtain ⟨hcs, hctx, hcfg, hsurf, hcre, hsc, hsize, hwait, hpaused⟩ := h
  constructor <;> grind -linarith

theorem Invariant.exits (h : Invariant s) (hpc : s.pc = .exiting) :
    Invariant ({ s with fields.mExited := true }.notifyAll.goTo .exited) :=
  Invariant.idle { h.sound with } rfl (fun _ => h.gone (.inl hpc))
    (by simp [GLThread.goTo, notifyAll])

theorem Invariant.ready (h : Invariant s) {pc : Pc Runnable} (hpc : s.pc = pc) :
    Ready pc.stage s := by
  subst hpc
  exact ⟨h.surface, h.created, h.createEglSurface, h.createEglContext, h.sizeChanged⟩

theorem Invariant.running (h : Invariant s) {pc : Pc Runnable} (hpc : s.pc = pc)
    (hne : pc ≠ .exited := by simp) : s.fields.mExited = false := by
  have hx := h.exited
  rw [hpc] at hx
  simpa [hne] using hx

theorem Invariant.turned (h : Invariant s) (hx : s.fields.mExited = false) (ht : Turned s t) :
    Invariant t := by
  cases ht with
  | exit hexit =>
    exact Invariant.idle (h.sound.goTo .cleanup) rfl (by grind -linarith) (by grind -linarith)
  | event hexit event rest hq =>
    obtain ⟨hcs, hctx, hcfg, hsurf, hcre, hsc, hsize, hwait, hpaused⟩ := h.sound
    exact Invariant.idle (by constructor <;> grind -linarith) rfl (by grind -linarith)
      (by grind -linarith)
  | sleep hexit hq ht hu =>
    have hsleep := hu.pc
    have hexited : t.fields.mExited = s.fields.mExited := hu.mExited.trans ht.mExited
    exact Invariant.idle hu.sound (by rw [hsleep]; rfl) (by grind -linarith) (by grind -linarith)
  | take hexit hq ht hu =>
    have hsurf := hu.mHaveEglSurface
    have htake := hu.pc
    have hexited : t.fields.mExited = s.fields.mExited := hu.mExited.trans ht.mExited
    refine ⟨hu.sound, ?_, ?_, ?_, ?_, ?_, ?_, ?_⟩ <;> simp only [htake, Pc.stage] <;>
      grind -linarith

theorem Invariant.advance (h : Invariant s) (ha : Advances a s t) : Invariant t := by
  have hs := h.sound
  cases ha with
  | turned hpc ht => exact h.turned (by rcases hpc with hpc | hpc <;> exact h.running hpc) ht
  | threw hpc ht =>
    have hexited := ht.mExited
    refine Invariant.cleanup ht.sound ?_
    rcases hpc with hpc | hpc <;> rw [hexited, h.running hpc]
  | released hpc ht _ =>
    have hexited := ht.mExited
    have hsurf := ht.surface
    refine Invariant.idle (ht.sound.goTo _) rfl (fun _ => hsurf) ?_
    simp [GLThread.goTo, hexited, h.running hpc]
  | ran event pc hpc hto =>
    have hs' : Sound false (s.act (.run event)) := { hs with }
    rcases hto with rfl | rfl
    · exact Invariant.goTo hs' (h.running hpc) .monitor (by simp) (Ready.zero _)
    · exact Invariant.cleanup hs' (h.running hpc)
  | exits hpc => exact h.exits hpc
  | surfaceIsOld hpc hc =>
    have hsurface := (h.ready hpc).surface (by simp [Pc.stage])
    exact Invariant.goTo hs (h.running hpc) .createGL (by simp)
      ⟨fun _ => hsurface, fun _ => hs.created hsurface (by simp [hc]), fun _ => hc,
        by simp [Pc.stage], by simp [Pc.stage]⟩
  | surfaceIsNew pc hpc hc hview hto =>
    have hsurface := (h.ready hpc).surface (by simp [Pc.stage])
    have hs' := hs.surfaceIsNew hsurface hc
    have hexited := h.running hpc
    refine Invariant.goTo hs' (by grind -linarith [destroySurfaceImp, act]) pc ?_ ?_
    · rcases hto with rfl | rfl <;> simp
    · rcases hto with rfl | rfl <;>
        exact ⟨fun _ => hs'.surface rfl, fun _ => rfl, by simp [Pc.stage], by simp [Pc.stage],
          by simp [Pc.stage]⟩
  | surfaceIsNull hpc hc =>
    have hsurface := (h.ready hpc).surface (by simp [Pc.stage])
    have hexited := h.running hpc
    refine Invariant.goTo (hs.surfaceIsNull hc) (by grind -linarith [destroySurfaceImp, act])
      .surfaceFailed
      (by simp) ?_
    exact ⟨fun _ => by grind -linarith [destroySurfaceImp, act], by simp [Pc.stage],
      by simp [Pc.stage],
      by simp [Pc.stage], by simp [Pc.stage]⟩
  | surfaceCreated hpc =>
    have hr := h.ready hpc
    have hsurf := hr.created (by simp [Pc.stage])
    exact Invariant.goTo (hs.surfaceCreated hsurf) (h.running hpc) .createGL (by simp)
      ⟨fun _ => hr.surface (by simp [Pc.stage]), fun _ => hsurf, fun _ => rfl,
        by simp [Pc.stage], by simp [Pc.stage]⟩
  | surfaceFailed hpc =>
    refine Invariant.goTo ?_ ?_ .monitor (by simp) (Ready.zero _)
    · exact { hs with }
    · exact h.running hpc
  | contextIsOld hpc hc =>
    obtain ⟨hsurface, hsurf, hces, -, -⟩ := h.ready hpc
    refine Invariant.goTo ?_ ?_ .onSurfaceChanged (by simp) ?_
    · exact { hs with }
    · exact h.running hpc
    · exact ⟨fun _ => hsurface (by simp [Pc.stage]), fun _ => hsurf (by simp [Pc.stage]),
        fun _ => hces (by simp [Pc.stage]), fun _ => hc, by simp [Pc.stage]⟩
  | contextIsNew hpc hc =>
    obtain ⟨hsurface, hsurf, hces, -, -⟩ := h.ready hpc
    have hexited := h.running hpc
    have hs' : Sound false { s with locals.createGlInterface := false } := { hs with }
    refine Invariant.goTo ?_ ?_ .onSurfaceChanged (by simp) ?_
    · exact { hs'.told .onSurfaceCreated with }
    · grind -linarith [told, act]
    · constructor <;> grind -linarith [told, act, Pc.stage]
  | contextThrew hpc hc hview => exact Invariant.cleanup { hs with } (h.running hpc)
  | sizeIsOld hpc hc =>
    obtain ⟨hsurface, hsurf, hces, hcec, -⟩ := h.ready hpc
    exact Invariant.goTo hs (h.running hpc) .onDrawFrame (by simp)
      ⟨fun _ => hsurface (by simp [Pc.stage]), fun _ => hsurf (by simp [Pc.stage]),
        fun _ => hces (by simp [Pc.stage]), fun _ => hcec (by simp [Pc.stage]), fun _ => hc⟩
  | sizeIsNew hpc hc =>
    obtain ⟨hsurface, hsurf, hces, hcec, -⟩ := h.ready hpc
    have hexited := h.running hpc
    refine Invariant.goTo ((hs.told _).sizeIsNew ?_) (by grind -linarith [told, act]) .onDrawFrame
      (by simp) ?_
    · grind -linarith [told, act, Pc.stage]
    · constructor <;> grind -linarith [told, act, Pc.stage]
  | sizeThrew hpc hc hview => exact Invariant.cleanup { hs with } (h.running hpc)
  | drawn hpc =>
    obtain ⟨hsurface, hsurf, hces, hcec, hsized⟩ := h.ready hpc
    have hexited := h.running hpc
    refine Invariant.goTo (hs.told _) (by grind -linarith [told, act]) .swap (by simp) ?_
    constructor <;> grind -linarith [told, act, Pc.stage]
  | drawThrew hpc hview => exact Invariant.cleanup { hs with } (h.running hpc)
  | swapped lost hpc =>
    exact Invariant.afterSwap { hs with } (h.running hpc)
  | swapFails hpc =>
    obtain ⟨hsurface, hsurf, hces, hcec, hsized⟩ := h.ready hpc
    refine Invariant.goTo ?_ ?_ .swapFailed (by simp) ?_
    · exact { hs with }
    · exact h.running hpc
    · exact ⟨hsurface, hsurf, hces, hcec, hsized⟩
  | swapFailed hpc => exact Invariant.afterSwap { hs with } (h.running hpc)
theorem Invariant.kept {l : Label Runnable} (h : Invariant s) (ht : step s l = some t) :
    Invariant t := by
  cases l with
  | draw a => exact h.advance (h.advances ht)
  | _ => exact h.asks (step_asks (by rintro a ⟨⟩) ht)

theorem Invariant.start (preserve : Bool) :
    Invariant (setRenderer preserve : GLThread Runnable) := by
  refine Invariant.idle ?_ rfl ?_ ?_
  · constructor <;> simp [setRenderer]
  · rintro (h | h) <;> cases h
  · simp [setRenderer]

theorem Invariant.run {cond : GLThread Runnable → Label Runnable → Prop}
    {ls : List (Label Runnable)} (h : Invariant s) (hrun : GuardedRuns.Run step cond s ls t) :
    Invariant t :=
  hrun.invariant Invariant (fun _ _ _ hs _ ht => hs.kept ht) h

theorem reaches_invariant {ls : List (Label Runnable)} (h : Reaches ls s) : Invariant s := by
  obtain ⟨preserve, hrun⟩ := h
  exact (Invariant.start preserve).run hrun

/-! ## The order of the acts -/

/-- No method of the renderer has thrown, and the thread is not on its way out. -/
def Pc.alive : Pc Runnable → Bool
  | .cleanup | .exiting | .exited => false
  | _ => true

structure Shown (s : GLThread Runnable) : Prop where
  rendered : Rendered s.pc.alive s
  framed : 1 ≤ s.pc.stage → Framed s

theorem Rendered.dead {alive : Bool} (h : Rendered alive s) : Rendered false s := by
  obtain ⟨ph, hph, hsurf, hctx, hsurf', hctx', htold, hsize⟩ := h
  exact ⟨ph, hph, hsurf, hctx, hsurf', hctx', by grind -linarith, by grind -linarith⟩

theorem Rendered.goTo {alive : Bool} (h : Rendered alive s) (pc : Pc Runnable) (beta : Bool)
    (hb : beta → alive) : Rendered beta (s.goTo pc) := by
  have hsame : Rendered alive (s.goTo pc) := Rendered.same (s := s) rfl h
  cases beta with
  | false => exact hsame.dead
  | true => exact hb rfl ▸ hsame

theorem Act.follow_frame {x : Act Runnable} {ph ph' : Phase} (h : x.follow ph = some ph')
    (hx : ∀ w h, x ≠ .take w h) : ph'.frame = ph.frame := by
  cases x <;> simp only [Act.follow] at h <;> grind -linarith

theorem Framed.act {x : Act Runnable} (h : Framed s) (hx : ∀ w h, x ≠ .take w h)
    (hacts : t.acts = x :: s.acts) (hw : t.locals.w = s.locals.w)
    (hh : t.locals.h = s.locals.h) : Framed t := by
  intro ph' hph'
  rw [hacts] at hph'
  obtain ⟨ph, hph, hfollow⟩ := Option.bind_eq_some_iff.mp hph'
  rw [Act.follow_frame hfollow hx, h ph hph, hw, hh]

theorem Framed.same (h : Framed s) (hacts : t.acts = s.acts) (hw : t.locals.w = s.locals.w)
    (hh : t.locals.h = s.locals.h) : Framed t := by
  intro ph hph
  rw [hw, hh]
  exact h ph (hacts ▸ hph)

theorem Shown.at (h : Shown s) {pc : Pc Runnable} (hpc : s.pc = pc) (halive : pc.alive = true) :
    Rendered true s := by
  have hr := h.rendered
  rwa [hpc, halive] at hr

theorem Shown.goTo (hr : Rendered true s) (hf : Framed s) (pc : Pc Runnable) : Shown (s.goTo pc) :=
  ⟨hr.goTo pc _ fun _ => rfl, fun _ => hf.same rfl rfl rfl⟩

theorem Shown.throw (hr : Rendered true s) : Shown (s.goTo .cleanup) :=
  ⟨hr.goTo .cleanup false (by simp), by simp [Pc.stage, GLThread.goTo]⟩

theorem Shown.afterSwap (hr : Rendered true s) : Shown s.afterSwap := by
  unfold GLThread.afterSwap
  split
  · exact ⟨Rendered.same (s := s) rfl hr, by simp [Pc.stage]⟩
  · exact ⟨hr.goTo .monitor true (fun _ => rfl), by simp [Pc.stage, GLThread.goTo]⟩

theorem Shown.turned (h : Shown s) (hpc : s.pc = .monitor ∨ s.pc = .waiting) (ht : Turned s t) :
    Shown t := by
  have hr : Rendered true s := by
    have := h.rendered
    rcases hpc with hpc | hpc <;> rwa [hpc] at this
  cases ht with
  | exit hexit => exact ⟨hr.goTo .cleanup false (by simp), by simp [Pc.stage]⟩
  | event hexit event rest hq =>
    exact ⟨Rendered.same (s := s) rfl hr, by simp [Pc.stage]⟩
  | sleep hexit hq ht hu =>
    have hsleep := hu.pc
    exact ⟨by rw [hsleep]; exact hu.rendered _ (ht.rendered _ hr), by rw [hsleep]; simp [Pc.stage]⟩
  | take hexit hq ht hu =>
    have htake := hu.pc
    exact ⟨by rw [htake]; exact hu.rendered _ (ht.rendered _ hr),
      fun _ => hu.framed true (ht.rendered _ hr)⟩

/-- A surface that is there is destroyed before the new one is made. -/
theorem destroySurfaceImp_rendered {alive : Bool} (h : Rendered alive s) :
    Rendered alive s.destroySurfaceImp := by
  obtain ⟨ph, hph, hsurf, hctx, hsurf', hctx', htold, hsize⟩ := h
  by_cases hact : s.mEglHelper.mEglSurface && s.view.isSome
  · have hacts : s.destroySurfaceImp.acts = .destroySurface :: s.acts := by
      grind -linarith [destroySurfaceImp, act]
    refine ⟨{ ph with surface := false }, hacts ▸ phase_cons hph (if_pos (by grind -linarith)), ?_⟩
    constructor <;> grind -linarith [destroySurfaceImp, act]
  · refine ⟨ph, by grind -linarith [destroySurfaceImp, act], ?_⟩
    constructor <;> grind -linarith [destroySurfaceImp, act]

theorem destroySurfaceImp_framed (h : Framed s) : Framed s.destroySurfaceImp := by
  by_cases hact : s.mEglHelper.mEglSurface && s.view.isSome
  · exact h.act (x := .destroySurface) (by simp) (by grind -linarith [destroySurfaceImp, act])
      (by grind -linarith [destroySurfaceImp, act]) (by grind -linarith [destroySurfaceImp, act])
  · exact h.same (by grind -linarith [destroySurfaceImp, act])
      (by grind -linarith [destroySurfaceImp, act])
      (by grind -linarith [destroySurfaceImp, act])

theorem createWindowSurface_rendered (h : Rendered true s) (hctx : s.mEglHelper.mEglContext)
    (hsurf : s.mEglHelper.mEglSurface = false) (hview : s.view.isSome)
    (hsize : s.locals.sizeChanged) :
    Rendered true ({ s with mEglHelper.mEglSurface := true }.act .createWindowSurface) := by
  obtain ⟨ph, hph, hsurf', hctx', hsurf'', hctx'', htold, hsize'⟩ := h
  refine ⟨{ ph with surface := true, size := none },
    phase_cons hph (if_pos (by grind -linarith)), ?_⟩
  constructor <;> grind -linarith [act]

theorem onSurfaceCreated_rendered (h : Rendered true s) (hctx : s.mEglHelper.mEglContext)
    (hsurf : s.mEglHelper.mEglSurface) (hhave : s.fields.mHaveEglContext)
    (hc : s.locals.createEglContext) (hview : s.view.isSome) :
    Rendered true { s.act .onSurfaceCreated with locals.createEglContext := false } := by
  obtain ⟨ph, hph, hsurf', hctx', hsurf'', hctx'', htold, hsize⟩ := h
  refine ⟨{ ph with told := true }, phase_cons hph (if_pos (by grind -linarith)), ?_⟩
  constructor <;> grind -linarith [act]

theorem onSurfaceChanged_rendered (h : Rendered true s) (hctx : s.mEglHelper.mEglContext)
    (hsurf : s.mEglHelper.mEglSurface) (hhave : s.fields.mHaveEglContext)
    (hc : s.locals.createEglContext = false) (hview : s.view.isSome) :
    Rendered true { s.act (.onSurfaceChanged s.locals.w s.locals.h) with
      locals.sizeChanged := false } := by
  obtain ⟨ph, hph, hsurf', hctx', hsurf'', hctx'', htold, hsize⟩ := h
  refine ⟨{ ph with size := some (s.locals.w, s.locals.h) },
    phase_cons hph (if_pos (by grind -linarith)), ?_⟩
  constructor <;> grind -linarith [act]

theorem onDrawFrame_rendered (h : Rendered true s) (hf : Framed s) (hctx : s.mEglHelper.mEglContext)
    (hsurf : s.mEglHelper.mEglSurface) (hhave : s.fields.mHaveEglContext)
    (hc : s.locals.createEglContext = false) (hsc : s.locals.sizeChanged = false)
    (hview : s.view.isSome) : Rendered true (s.act .onDrawFrame) := by
  obtain ⟨ph, hph, hsurf', hctx', hsurf'', hctx'', htold, hsize⟩ := h
  have hframe := hf ph hph
  refine ⟨ph, phase_cons hph (if_pos (by grind -linarith)), ?_⟩
  constructor <;> grind -linarith [act]

theorem swap_rendered (h : Rendered true s) (hctx : s.mEglHelper.mEglContext)
    (hsurf : s.mEglHelper.mEglSurface) : Rendered true (s.act .swap) := by
  obtain ⟨ph, hph, hsurf', hctx', hsurf'', hctx'', htold, hsize⟩ := h
  refine ⟨ph, phase_cons hph (if_pos (by grind -linarith)), ?_⟩
  constructor <;> grind -linarith [act]

/-- A flag of what the renderer still has to be told does not count once the view is gone. -/
theorem Rendered.unseen (h : Rendered true s) (hview : s.view.isSome = false)
    (hacts : t.acts = s.acts) (hhelper : t.mEglHelper = s.mEglHelper) (hview' : t.view = s.view) :
    Rendered true t := by
  obtain ⟨ph, hph, hsurf', hctx', hsurf'', hctx'', htold, hsize⟩ := h
  refine ⟨ph, hacts ▸ hph, ?_⟩
  constructor <;> grind -linarith

theorem Shown.advance (h : Shown s) (hs : Invariant s) (ha : Advances a s t) : Shown t := by
  have hframed := h.framed
  have hr := h.rendered
  have hhave : s.fields.mHaveEglSurface → s.fields.mHaveEglContext := hs.sound.context_of_surface
  have hctx := hs.sound.context
  have hsurface := hs.surface
  have hcreated := hs.created
  have hcec := hs.createEglContext
  have hsized := hs.sizeChanged
  cases ha with
  | turned hpc ht => exact h.turned hpc ht
  | threw hpc ht =>
    exact ⟨(ht.rendered _ hr).goTo .cleanup false (by simp), by simp [Pc.stage, GLThread.goTo]⟩
  | released hpc ht _ =>
    exact ⟨(ht.rendered _ hr).goTo .exiting false (by simp), by simp [Pc.stage, GLThread.goTo]⟩
  | exits hpc =>
    rw [hpc] at hr
    exact ⟨Rendered.same (s := s) rfl hr, by simp [Pc.stage, GLThread.goTo]⟩
  | ran event pc hpc hto =>
    rw [hpc] at hr
    obtain ⟨ph, hph, hsurf, hctx, hsurf', hctx', htold, hsize⟩ := hr
    have hrun : Rendered true (s.act (.run event)) :=
      ⟨ph, phase_cons hph rfl, hsurf, hctx, hsurf', hctx', htold, hsize⟩
    refine ⟨hrun.goTo pc _ (fun _ => rfl), ?_⟩
    rcases hto with rfl | rfl <;> simp [Pc.stage, GLThread.goTo]
  | surfaceIsOld hpc hc =>
    have hstage : s.pc.stage = 1 := by rw [hpc]; rfl
    have hr : Rendered true s := h.at hpc rfl
    exact Shown.goTo hr (hframed (by omega)) _
  | surfaceIsNew pc hpc hc hview hto =>
    have hstage : s.pc.stage = 1 := by rw [hpc]; rfl
    have hr : Rendered true s := h.at hpc rfl
    have hr' := destroySurfaceImp_rendered hr
    have hf' := destroySurfaceImp_framed (hframed (by omega))
    have hsize := hs.sound.sizeChanged hc
    have hcontext := hhave (hsurface (by omega))
    refine Shown.goTo (createWindowSurface_rendered hr' ?_ ?_ ?_ ?_)
      (hf'.act (x := .createWindowSurface) (by simp) rfl rfl rfl) _ <;>
      grind -linarith [destroySurfaceImp, act]
  | surfaceIsNull hpc hc =>
    have hstage : s.pc.stage = 1 := by rw [hpc]; rfl
    have hr : Rendered true s := h.at hpc rfl
    exact Shown.goTo (destroySurfaceImp_rendered hr)
      (destroySurfaceImp_framed (hframed (by omega))) _
  | surfaceCreated hpc =>
    have hstage : s.pc.stage = 2 := by rw [hpc]; rfl
    have hr : Rendered true s := h.at hpc rfl
    refine Shown.goTo ?_ ?_ _
    · exact Rendered.same (s := s) rfl hr
    · exact (hframed (by omega)).same rfl rfl rfl
  | surfaceFailed hpc =>
    have hstage : s.pc.stage = 1 := by rw [hpc]; rfl
    have hr : Rendered true s := h.at hpc rfl
    refine Shown.goTo ?_ ?_ _
    · exact Rendered.same (s := s) rfl hr
    · exact (hframed (by omega)).same rfl rfl rfl
  | contextIsOld hpc hc =>
    have hstage : s.pc.stage = 3 := by rw [hpc]; rfl
    have hr : Rendered true s := h.at hpc rfl
    refine Shown.goTo ?_ ?_ _
    · exact Rendered.same (s := s) rfl hr
    · exact (hframed (by omega)).same rfl rfl rfl
  | contextIsNew hpc hc =>
    have hstage : s.pc.stage = 3 := by rw [hpc]; rfl
    have hr : Rendered true s := h.at hpc rfl
    have hcontext := hhave (hsurface (by omega))
    have hf := hframed (by omega)
    have hr' : Rendered true { s with locals.createGlInterface := false } :=
      Rendered.same (s := s) rfl hr
    unfold told
    by_cases hview : s.view.isSome
    · rw [if_pos hview]
      exact Shown.goTo (onSurfaceCreated_rendered hr' (hctx.trans hcontext)
        (hcreated (by omega)) hcontext hc hview)
        (hf.act (x := .onSurfaceCreated) (by simp) rfl rfl rfl) _
    · rw [if_neg hview]
      refine Shown.goTo ?_ ?_ _
      · exact hr'.unseen (Bool.eq_false_iff.mpr hview) rfl rfl rfl
      · exact hf.same rfl rfl rfl
  | contextThrew hpc hc hview =>
    have hstage : s.pc.stage = 3 := by rw [hpc]; rfl
    have hr : Rendered true s := h.at hpc rfl
    have hcontext := hhave (hsurface (by omega))
    have hr' : Rendered true { s with locals.createGlInterface := false } :=
      Rendered.same (s := s) rfl hr
    have hnew := onSurfaceCreated_rendered hr' (hctx.trans hcontext) (hcreated (by omega)) hcontext
      hc hview
    obtain ⟨ph, hph, hsurf, hctx, hsurf', hctx', -, -⟩ := hnew
    exact ⟨⟨ph, hph, hsurf, hctx, hsurf', hctx', by simp [GLThread.goTo, Pc.alive],
      by simp [GLThread.goTo, Pc.alive]⟩, by simp [Pc.stage, GLThread.goTo]⟩
  | sizeIsOld hpc hc =>
    have hstage : s.pc.stage = 4 := by rw [hpc]; rfl
    have hr : Rendered true s := h.at hpc rfl
    exact Shown.goTo hr (hframed (by omega)) _
  | sizeIsNew hpc hc =>
    have hstage : s.pc.stage = 4 := by rw [hpc]; rfl
    have hr : Rendered true s := h.at hpc rfl
    have hcontext := hhave (hsurface (by omega))
    have hf := hframed (by omega)
    unfold told
    by_cases hview : s.view.isSome
    · rw [if_pos hview]
      exact Shown.goTo (onSurfaceChanged_rendered hr (hctx.trans hcontext)
        (hcreated (by omega)) hcontext (hcec (by omega)) hview)
        (hf.act (x := .onSurfaceChanged s.locals.w s.locals.h) (by simp) rfl rfl rfl) _
    · rw [if_neg hview]
      refine Shown.goTo ?_ ?_ _
      · exact hr.unseen (Bool.eq_false_iff.mpr hview) rfl rfl rfl
      · exact hf.same rfl rfl rfl
  | sizeThrew hpc hc hview =>
    have hstage : s.pc.stage = 4 := by rw [hpc]; rfl
    have hr : Rendered true s := h.at hpc rfl
    have hcontext := hhave (hsurface (by omega))
    obtain ⟨ph, hph, hsurf, hctx, hsurf', hctx', -, -⟩ := onSurfaceChanged_rendered hr
      (hctx.trans hcontext) (hcreated (by omega)) hcontext (hcec (by omega)) hview
    exact ⟨⟨ph, hph, hsurf, hctx, hsurf', hctx', by simp [GLThread.goTo, Pc.alive],
      by simp [GLThread.goTo, Pc.alive]⟩, by simp [Pc.stage, GLThread.goTo]⟩
  | drawn hpc =>
    have hstage : s.pc.stage = 5 := by rw [hpc]; rfl
    have hr : Rendered true s := h.at hpc rfl
    have hcontext := hhave (hsurface (by omega))
    have hf := hframed (by omega)
    unfold told
    by_cases hview : s.view.isSome
    · rw [if_pos hview]
      exact Shown.goTo (onDrawFrame_rendered hr hf (hctx.trans hcontext)
        (hcreated (by omega)) hcontext (hcec (by omega)) (hsized (by omega)) hview)
        (hf.act (x := .onDrawFrame) (by simp) rfl rfl rfl) _
    · rw [if_neg hview]
      exact Shown.goTo hr hf _
  | drawThrew hpc hview =>
    have hstage : s.pc.stage = 5 := by rw [hpc]; rfl
    have hr : Rendered true s := h.at hpc rfl
    have hcontext := hhave (hsurface (by omega))
    exact Shown.throw (onDrawFrame_rendered hr (hframed (by omega)) (hctx.trans hcontext)
      (hcreated (by omega)) hcontext (hcec (by omega)) (hsized (by omega)) hview)
  | swapped lost hpc =>
    have hstage : s.pc.stage = 6 := by rw [hpc]; rfl
    have hr : Rendered true s := h.at hpc rfl
    have hcontext := hhave (hsurface (by omega))
    refine Shown.afterSwap ?_
    exact Rendered.same (s := s.act .swap) rfl
      (swap_rendered hr (hctx.trans hcontext) (hcreated (by omega)))
  | swapFails hpc =>
    have hstage : s.pc.stage = 6 := by rw [hpc]; rfl
    have hr : Rendered true s := h.at hpc rfl
    have hcontext := hhave (hsurface (by omega))
    exact Shown.goTo (swap_rendered hr (hctx.trans hcontext) (hcreated (by omega)))
      ((hframed (by omega)).act (x := .swap) (by simp) rfl rfl rfl) _
  | swapFailed hpc =>
    have hstage : s.pc.stage = 6 := by rw [hpc]; rfl
    have hr : Rendered true s := h.at hpc rfl
    refine Shown.afterSwap ?_
    exact Rendered.same (s := s) rfl hr

theorem Shown.asks (h : Shown s) (ha : Asks s t) : Shown t := by
  obtain ⟨⟨ph, hph, hsurf, hctx, hsurf', hctx', htold, hsize⟩, hframed⟩ := h
  have hview := ha.view
  refine ⟨⟨ph, ha.acts ▸ hph, ?_⟩, ?_⟩
  · rw [ha.pc]
    constructor <;> simp only [ha.mEglHelper, ha.locals, ha.mHaveEglContext] <;> grind -linarith
  · rw [ha.pc]
    exact fun hstage => (hframed hstage).same ha.acts (by rw [ha.locals]) (by rw [ha.locals])

theorem Shown.kept {l : Label Runnable} (h : Shown s) (hs : Invariant s)
    (ht : step s l = some t) : Shown t := by
  cases l with
  | draw a => exact h.advance hs (hs.advances ht)
  | _ => exact h.asks (step_asks (by rintro a ⟨⟩) ht)

theorem Shown.start (preserve : Bool) : Shown (setRenderer preserve : GLThread Runnable) := by
  refine ⟨⟨{}, rfl, ?_⟩, by simp [setRenderer, Pc.stage]⟩
  constructor <;> simp [setRenderer]

theorem reaches_shown {ls : List (Label Runnable)} (h : Reaches ls s) : Shown s := by
  obtain ⟨preserve, hrun⟩ := h
  exact (hrun.invariant (fun s => Invariant s ∧ Shown s)
    (fun _ _ _ hs _ ht => ⟨hs.1.kept ht, hs.2.kept hs.1 ht⟩)
    ⟨Invariant.start preserve, Shown.start preserve⟩).2

/-- In every run EGL and the renderer are asked for things in the order that they rely on: one
context at a time and one surface in it, `onSurfaceCreated` once for each context and
`onSurfaceChanged` after each surface before a frame is drawn on it, and every frame at the size
that the view had when the frame was begun. -/
theorem acts_follow_order {ls : List (Label Runnable)} (h : Reaches ls s) :
    (phase s.acts).isSome := by
  obtain ⟨ph, hph, -⟩ := (reaches_shown h).rendered
  rw [hph]
  rfl

/-- The view gets a surface of four by three pixels, an event and a frame. -/
def oneFrame : List (Label ℕ) :=
  [.draw {}, .call .surfaceCreated, .draw {}, .wake, .call (.onWindowResize 4 3), .queueEvent 7,
    .draw {}, .draw {}, .draw {}, .draw {}, .draw {}, .draw {}, .draw {}, .draw {}, .draw {}]

theorem acts_follow_order_oneFrame :
    ∃ t : GLThread ℕ, Reaches oneFrame t ∧ t.acts = [.swap, .onDrawFrame, .onSurfaceChanged 4 3,
      .onSurfaceCreated, .createWindowSurface, .take 4 3, .createContext, .run 7] ∧
      (phase t.acts).isSome := by
  obtain ⟨t, hrun, hacts⟩ : ∃ t,
      GuardedRuns.Run step (fun _ _ => True) (setRenderer false) oneFrame t ∧
      t.acts = [.swap, .onDrawFrame, .onSurfaceChanged 4 3, .onSurfaceCreated,
        .createWindowSurface, .take 4 3, .createContext, .run 7] :=
    GuardedRuns.exists_run (by decide +kernel)
  exact ⟨t, ⟨false, hrun⟩, hacts, acts_follow_order ⟨false, hrun⟩⟩

end Jagles.RenderThread
