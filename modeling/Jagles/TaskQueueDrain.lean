import Jagles.TaskQueueOrder

set_option autoImplicit false
set_option linter.dupNamespace false

/-!
# Shutting the task thread down

The loop ends when `mRunThread` is off and the queue was empty at its last sample.
The sample is older than the test, so the queue may have grown in between.
-/
namespace Jagles.TaskQueue
open CriticalSections GuardedRuns

variable {Args : Type*}

/-- The `cmdcount` with which the task thread will come to its next test, if it
has sampled it. -/
def Pc.count : Pc Args → Option ℕ
  | .sampled _ n | .executing _ n | .testing n => some n
  | .purging _ _ (.executing _ n) => some n
  | .exited => some 0
  | .idle | .adding _ | .added _ | .looking | .took _ | .purging _ _ .outside => none

/-- The condition on one step: `mRunThread` is not cleared while the task thread is
past a sample of zero and a command whose `AddCommand` has returned is queued. -/
def StopsClean (s : Tasks Args) : Act Args → Prop
  | .clearRun => (s.pc .task).count = some 0 → ∀ e ∈ s.completed, e ∉ s.mCommand
  | _ => True

structure Drained (s : Tasks Args) : Prop where
  added : ∀ th e, s.pc th = .added e → e ∈ s.enqueued.zipIdx
  completed : ∀ e ∈ s.completed, e ∈ s.enqueued.zipIdx
  due : ∀ e ∈ s.due, e ∈ s.enqueued.zipIdx
  sampled : (s.pc .task).count = some 0 → ∀ e ∈ s.due, e ∉ s.mCommand

theorem count_update {s t : Tasks Args} {th : Thread} {pc : Pc Args}
    (hpc : t.pc = Function.update s.pc th pc) (h : pc.count = (s.pc th).count) :
    (t.pc .task).count = (s.pc .task).count := by
  rw [hpc]
  by_cases ht : Thread.task = th
  · rw [← ht, Function.update_self, h, ht]
  · rw [Function.update_of_ne ht]

theorem added_update {s t : Tasks Args} {th : Thread} {pc : Pc Args}
    (hpc : t.pc = Function.update s.pc th pc) (h : ∀ e, pc ≠ .added e) {u : Thread}
    {e : Entry Args} (hu : t.pc u = .added e) : s.pc u = .added e := by
  rw [hpc] at hu
  by_cases hut : u = th
  · rw [hut, Function.update_self] at hu
    exact absurd hu (h e)
  · rwa [Function.update_of_ne hut] at hu

namespace Drained
variable {s t : Tasks Args} (d : Drained s)
include d

theorem quiet {th : Thread} {pc : Pc Args} (hpc : t.pc = Function.update s.pc th pc)
    (hadded : ∀ e, pc ≠ .added e) (hcount : pc.count = (s.pc th).count)
    (hq : t.mCommand ⊆ s.mCommand) (henq : t.enqueued = s.enqueued)
    (hcomp : t.completed = s.completed) (hdue : t.due = s.due) : Drained t := by
  refine ⟨?_, ?_, ?_, ?_⟩
  · intro u e hu
    rw [henq]
    exact d.added u e (added_update hpc hadded hu)
  · rw [hcomp, henq]
    exact d.completed
  · rw [hdue, henq]
    exact d.due
  · intro hzero e he hmem
    rw [count_update hpc hcount] at hzero
    rw [hdue] at he
    exact d.sampled hzero e he (hq hmem)

theorem fresh {pc : Pc Args} (hpc : t.pc = Function.update s.pc .task pc)
    (hadded : ∀ e, pc ≠ .added e) (hcount : pc.count = some 0 → t.mCommand = [])
    (henq : t.enqueued = s.enqueued) (hcomp : t.completed = s.completed) (hdue : t.due = s.due) :
    Drained t := by
  refine ⟨?_, ?_, ?_, ?_⟩
  · intro u e hu
    rw [henq]
    exact d.added u e (added_update hpc hadded hu)
  · rw [hcomp, henq]
    exact d.completed
  · rw [hdue, henq]
    exact d.due
  · intro hzero e _
    rw [hpc, Function.update_self] at hzero
    rw [hcount hzero]
    exact List.not_mem_nil

theorem addInsert {n : ℕ} {c : Command Args} :
    Drained { s.goto (.producer n) (.added (c, s.enqueued.length)) with
      mCommand := s.mCommand ++ [(c, s.enqueued.length)]
      enqueued := s.enqueued ++ [c] } := by
  have hzip : (s.enqueued ++ [c]).zipIdx = s.enqueued.zipIdx ++ [(c, s.enqueued.length)] := by
    rw [List.zipIdx_append]
    simp
  refine ⟨?_, ?_, ?_, ?_⟩
  · intro u e hu
    rw [hzip]
    by_cases hn : u = .producer n
    · rw [hn] at hu
      simp only [Tasks.goto, Function.update_self, Pc.added.injEq] at hu
      rw [← hu]
      exact List.mem_append_right _ (List.mem_singleton_self _)
    · simp only [Tasks.goto, Function.update_of_ne hn] at hu
      exact List.mem_append_left _ (d.added u e hu)
  · intro e he
    rw [hzip]
    exact List.mem_append_left _ (d.completed e he)
  · intro e he
    rw [hzip]
    exact List.mem_append_left _ (d.due e he)
  · intro hzero e he hmem
    have hold : (s.pc .task).count = some 0 := by
      simpa [Tasks.goto] using hzero
    cases List.mem_append.mp hmem with
    | inl h => exact d.sampled hold e he h
    | inr h =>
      -- a due entry was enqueued before this one
      have hlt : e.2 < s.enqueued.length := List.snd_lt_of_mem_zipIdx (d.due e he)
      rw [List.mem_singleton] at h
      rw [h] at hlt
      omega

theorem addUnlock {n : ℕ} {e : Entry Args} (hpc : s.pc (.producer n) = .added e) :
    Drained { s.unlock (.producer n) .idle with completed := s.completed ++ [e] } := by
  have hidle : (s.unlock (.producer n) .idle).pc = Function.update s.pc (.producer n) .idle := rfl
  refine ⟨?_, ?_, d.due, ?_⟩
  · intro u e' hu
    exact d.added u e' (added_update hidle (by simp) hu)
  · intro e' he'
    cases List.mem_append.mp he' with
    | inl h => exact d.completed e' h
    | inr h =>
      rw [List.mem_singleton] at h
      rw [h]
      exact d.added _ e hpc
  · intro hzero
    exact d.sampled (by simpa [Tasks.unlock, Tasks.goto] using hzero)

theorem step {a : Act Args} (hc : StopsClean s a) (h : Step s a t) : Drained t := by
  have refl : s.mCommand ⊆ s.mCommand := fun _ h => h
  cases h with
  | addLock hpc free =>
    exact d.quiet rfl (by simp) (by rw [hpc]; rfl) refl rfl rfl rfl
  | addInsert hpc => exact d.addInsert
  | addUnlock hpc => exact d.addUnlock hpc
  | taskLock hpc free => exact d.fresh rfl (by simp) (by simp [Pc.count]) rfl rfl rfl
  | taskTake hpc => exact d.fresh rfl (by simp) (by simp [Pc.count]) rfl rfl rfl
  | taskRemove hpc hq =>
    refine d.fresh rfl (by simp) ?_ rfl rfl rfl
    intro hzero
    exact List.length_eq_zero_iff.mp (by simpa [Pc.count] using hzero)
  | taskUnlock hpc => exact d.quiet rfl (by simp) (by rw [hpc]; rfl) refl rfl rfl rfl
  | taskFinish hpc => exact d.quiet rfl (by simp) (by rw [hpc]; rfl) refl rfl rfl rfl
  | taskExit hpc stopped => exact d.quiet rfl (by simp) (by rw [hpc]; rfl) refl rfl rfl rfl
  | taskLoop hpc => exact d.fresh rfl (by simp) (by simp [Pc.count]) rfl rfl rfl
  | @purgeLock th back hpc free =>
    refine d.quiet rfl (by simp) ?_ refl rfl rfl rfl
    rw [hpc]
    cases back <;> rfl
  | @purgeStep th i q back hpc =>
    refine d.quiet rfl (by simp) ?_ ?_ rfl rfl rfl
    · rw [hpc]
      cases back <;> rfl
    · exact (purgeAt_sublist s.mCommand i).subset
  | @purgeUnlock th q back hpc =>
    refine d.quiet rfl ?_ ?_ refl rfl rfl rfl
    · cases back <;> simp [Back.pc]
    · rw [hpc]
      cases back <;> rfl
  | clearRun running => exact ⟨d.added, d.completed, d.completed, hc⟩

omit d in
theorem start : Drained (start : Tasks Args) :=
  ⟨by simp [TaskQueue.start], by simp [TaskQueue.start], by simp [TaskQueue.start],
    by simp [TaskQueue.start]⟩

end Drained

/-- In every interleaving in which `mRunThread` is cleared as the condition asks, a
command whose `AddCommand` had returned by then has been executed or purged when the
task thread leaves its loop. -/
theorem drained_at_exit {s : Tasks Args} {acts : List (Act Args)}
    (run : Run step StopsClean start acts s) (hexit : s.pc .task = .exited) :
    ∀ e ∈ s.due, e ∉ s.mCommand ∧ (e ∈ s.executed ∨
      e.1.commandNo ≠ .CMD_CONNECT ∧ ∃ q ∈ s.purges, e ∈ q) := by
  have ac := account_run run
  have d : Drained s := run.invariant Drained
    (fun _ _ _ d hc h => d.step hc (step_cases h)) .start
  intro e he
  have hout := d.sampled (by rw [hexit]; rfl) e he
  refine ⟨hout, ?_⟩
  cases ac.cover e (d.due e he) with
  | inr h => exact .inr h
  | inl h =>
    have hhand : s.inHand = [] := by
      unfold Tasks.inHand
      rw [hexit]
      rfl
    unfold Tasks.held at h
    rw [hhand, List.append_nil] at h
    cases List.mem_append.mp h with
    | inl h => exact .inl h
    | inr h => exact absurd h hout

instance [DecidableEq Args] (s : Tasks Args) : (a : Act Args) → Decidable (StopsClean s a)
  | .clearRun => inferInstanceAs
    (Decidable ((s.pc .task).count = some 0 → ∀ e ∈ s.completed, e ∉ s.mCommand))
  | .addLock _ _ | .addInsert _ | .addUnlock _ | .taskLock | .taskTake | .taskRemove | .taskUnlock
  | .taskFinish | .taskTest | .purgeLock _ | .purgeStep _ | .purgeUnlock _ => isTrue trivial

def Tasks.hasExited (s : Tasks Args) : Bool :=
  match s.pc .task with
  | .exited => true
  | _ => false

theorem hasExited_iff (s : Tasks Args) : s.hasExited = true ↔ s.pc .task = .exited := by
  unfold Tasks.hasExited
  split <;> simp_all

theorem drained_at_exit_two_commands : ∃ s : Tasks Unit, Run step StopsClean start
    (addCall 0 ⟨.CMD_CONNECT, ()⟩ ++ addCall 1 ⟨.CMD_PTZSTOP, ()⟩ ++ [Act.clearRun] ++
      takeCommand ++ [Act.taskFinish, .taskTest] ++ takeCommand ++ [Act.taskFinish, .taskTest]) s ∧
    s.pc .task = .exited ∧
    s.due = [(⟨.CMD_CONNECT, ()⟩, 0), (⟨.CMD_PTZSTOP, ()⟩, 1)] ∧
    ∀ e ∈ s.due, e ∉ s.mCommand ∧ (e ∈ s.executed ∨
      e.1.commandNo ≠ .CMD_CONNECT ∧ ∃ q ∈ s.purges, e ∈ q) := by
  obtain ⟨s, run, hexit, hdue⟩ : ∃ s : Tasks Unit, Run step StopsClean start
      (addCall 0 ⟨.CMD_CONNECT, ()⟩ ++ addCall 1 ⟨.CMD_PTZSTOP, ()⟩ ++ [Act.clearRun] ++
        takeCommand ++ [Act.taskFinish, .taskTest] ++ takeCommand ++ [Act.taskFinish, .taskTest]) s ∧
      (s.hasExited = true ∧ s.due = [(⟨.CMD_CONNECT, ()⟩, 0), (⟨.CMD_PTZSTOP, ()⟩, 1)]) :=
    exists_run (by decide +kernel)
  rw [hasExited_iff] at hexit
  exact ⟨s, run, hexit, hdue, drained_at_exit run hexit⟩

/-- A command added while the last one is executed is lost when `mRunThread` is
cleared before the test. -/
theorem command_lost_at_exit : ¬ ∀ (s : Tasks Unit) (acts : List (Act Unit)),
    Run step (fun _ _ => True) start acts s → s.pc .task = .exited →
      ∀ e ∈ s.due, e ∉ s.mCommand ∧ (e ∈ s.executed ∨
        e.1.commandNo ≠ .CMD_CONNECT ∧ ∃ q ∈ s.purges, e ∈ q) := by
  intro claim
  obtain ⟨s, run, hexit, hdue, hqueue⟩ : ∃ s : Tasks Unit, Run step (fun _ _ => True) start
      (addCall 0 ⟨.CMD_CONNECT, ()⟩ ++ takeCommand ++ addCall 0 ⟨.CMD_PTZSTOP, ()⟩ ++
        [Act.clearRun, .taskFinish, .taskTest]) s ∧
      (s.hasExited = true ∧ (⟨.CMD_PTZSTOP, ()⟩, 1) ∈ s.due ∧
        (⟨.CMD_PTZSTOP, ()⟩, 1) ∈ s.mCommand) :=
    exists_run (by decide +kernel)
  rw [hasExited_iff] at hexit
  exact (claim s _ run hexit _ hdue).1 hqueue

end Jagles.TaskQueue
