import Jagles.TaskQueue

set_option autoImplicit false
set_option linter.dupNamespace false

/-!
# Order and drain of the command queue

Whoever is inside `mTaskLock` knows what the queue holds, since nobody else is.
From that every entry is accounted for: executed, in the task thread's hand, still
queued, or lost in a purge.
-/
namespace Jagles.TaskQueue
open CriticalSections GuardedRuns

variable {Args : Type*}

def Tasks.view (s : Tasks Args) : View Thread := ⟨s.owner, fun th => (s.pc th).inside⟩

section Turns
variable {s t : Tasks Args} {th : Thread} {pc : Pc Args}
  (hpc : t.pc = Function.update s.pc th pc)
include hpc

theorem view_update : t.view = ⟨t.owner, fun u => (Function.update s.pc th pc u).inside⟩ := by
  rw [Tasks.view, hpc]

theorem turn_keep (ho : t.owner = s.owner) (h : pc.inside = (s.pc th).inside) :
    Turn s.view t.view := by
  rw [view_update hpc, ho]
  exact Turn.goto h

theorem turn_lock (free : s.owner = none) (ho : t.owner = some th) (h : pc.inside = true) :
    Turn s.view t.view := by
  rw [view_update hpc, ho]
  exact Turn.acquire free h

theorem turn_unlock (hin : (s.pc th).inside = true) (ho : t.owner = none)
    (h : pc.inside = false) : Turn s.view t.view := by
  rw [view_update hpc, ho]
  exact Turn.give hin h

end Turns

theorem Back.pc_inside (b : Back Args) : b.pc.inside = false := by
  cases b <;> rfl

/-- Every step is a turn of its thread at `mTaskLock`. -/
theorem Step.turn {s t : Tasks Args} {a : Act Args} (h : Step s a t) : Turn s.view t.view := by
  cases h with
  | addLock hpc free => exact turn_lock rfl free rfl rfl
  | addInsert hpc => exact turn_keep rfl rfl (by rw [hpc]; rfl)
  | addUnlock hpc => exact turn_unlock rfl (by rw [hpc]; rfl) rfl rfl
  | taskLock hpc free => exact turn_lock rfl free rfl rfl
  | taskTake hpc => exact turn_keep rfl rfl (by rw [hpc]; rfl)
  | taskRemove hpc hq => exact turn_keep rfl rfl (by rw [hpc]; rfl)
  | taskUnlock hpc => exact turn_unlock rfl (by rw [hpc]; rfl) rfl rfl
  | taskFinish hpc => exact turn_keep rfl rfl (by rw [hpc]; rfl)
  | taskExit hpc stopped => exact turn_keep rfl rfl (by rw [hpc]; rfl)
  | taskLoop hpc => exact turn_keep rfl rfl (by rw [hpc]; rfl)
  | purgeLock hpc free => exact turn_lock rfl free rfl rfl
  | purgeStep hpc => exact turn_keep rfl rfl (by rw [hpc]; rfl)
  | purgeUnlock hpc => exact turn_unlock rfl (by rw [hpc]; rfl) rfl (Back.pc_inside _)
  | clearRun running => exact .keep _

/-- What a thread inside `mTaskLock` knows about the queue. -/
def Knows (s : Tasks Args) : Pc Args → Prop
  | .took e => e = s.mCommand.head?
  | .purging i q _ => i ≤ q.length ∧ s.mCommand = purgedDownTo q i ∧ q ∈ s.purges
  | _ => True

theorem knows_outside (s : Tasks Args) {pc : Pc Args} (h : pc.inside = false) : Knows s pc := by
  cases pc with
  | took e => cases h
  | purging i q back => cases h
  | _ => trivial

theorem Knows.same {s t : Tasks Args} {pc : Pc Args} (hq : t.mCommand = s.mCommand)
    (hp : s.purges ⊆ t.purges) (h : Knows s pc) : Knows t pc := by
  cases pc with
  | took e => exact h.trans (by rw [hq])
  | purging i q back => exact ⟨h.1, hq.trans h.2.1, hp h.2.2⟩
  | _ => trivial

/-- The entry the task thread has taken off the queue and not yet executed. -/
def Pc.hand : Pc Args → List (Entry Args)
  | .sampled e _ => e.toList
  | _ => []

def Tasks.inHand (s : Tasks Args) : List (Entry Args) := (s.pc .task).hand

/-- The entries that have not been purged, in their order. -/
def Tasks.held (s : Tasks Args) : List (Entry Args) := s.executed ++ s.inHand ++ s.mCommand

structure Account (s : Tasks Args) : Prop where
  exclusive : Exclusive s.view
  knows : ∀ th, Knows s (s.pc th)
  order : s.held.Sublist s.enqueued.zipIdx
  cover : ∀ e ∈ s.enqueued.zipIdx, e ∈ s.held ∨
    e.1.commandNo ≠ .CMD_CONNECT ∧ ∃ q ∈ s.purges, e ∈ q

theorem knows_update {s t : Tasks Args} (he : Exclusive s.view) {th : Thread} {pc : Pc Args}
    (hpc : t.pc = Function.update s.pc th pc) (hin : (s.pc th).inside = true)
    (hk : Knows t pc) (u : Thread) : Knows t (t.pc u) := by
  rw [hpc]
  by_cases hu : u = th
  · rw [hu, Function.update_self]
    exact hk
  · rw [Function.update_of_ne hu]
    apply knows_outside
    by_contra hcon
    have hou := (he u).mpr (by simpa [Tasks.view] using hcon)
    have hoth := (he th).mpr hin
    rw [hou] at hoth
    exact hu (Option.some.inj hoth)

theorem knows_update_same {s t : Tasks Args} (hall : ∀ u, Knows s (s.pc u)) {th : Thread}
    {pc : Pc Args} (hpc : t.pc = Function.update s.pc th pc) (hq : t.mCommand = s.mCommand)
    (hp : s.purges ⊆ t.purges) (hk : Knows t pc) (u : Thread) : Knows t (t.pc u) := by
  rw [hpc]
  by_cases hu : u = th
  · rw [hu, Function.update_self]
    exact hk
  · rw [Function.update_of_ne hu]
    exact (hall u).same hq hp

theorem inHand_update {s t : Tasks Args} {th : Thread} {pc : Pc Args}
    (hpc : t.pc = Function.update s.pc th pc) (h : pc.hand = (s.pc th).hand) :
    t.inHand = s.inHand := by
  unfold Tasks.inHand
  rw [hpc]
  by_cases ht : Thread.task = th
  · rw [← ht, Function.update_self, h, ht]
  · rw [Function.update_of_ne ht]

theorem Back.pc_hand (b : Back Args) : b.pc.hand = [] := by
  cases b <;> rfl

namespace Account
variable {s t : Tasks Args} (ac : Account s)
include ac

theorem same (hturn : Turn s.view t.view) (hk : ∀ u, Knows t (t.pc u)) (hheld : t.held = s.held)
    (henq : t.enqueued = s.enqueued) (hp : s.purges ⊆ t.purges) : Account t := by
  refine ⟨ac.exclusive.turn hturn, hk, ?_, ?_⟩
  · rw [hheld, henq]
    exact ac.order
  · intro e he
    rw [henq] at he
    rw [hheld]
    cases ac.cover e he with
    | inl h => exact .inl h
    | inr h =>
      obtain ⟨hne, q, hq, heq⟩ := h
      exact .inr ⟨hne, q, hp hq, heq⟩

theorem addInsert {n : ℕ} {c : Command Args} (hpc : s.pc (.producer n) = .adding c) :
    Account { s.goto (.producer n) (.added (c, s.enqueued.length)) with
      mCommand := s.mCommand ++ [(c, s.enqueued.length)]
      enqueued := s.enqueued ++ [c] } := by
  have hturn := (Step.addInsert hpc).turn
  have hin : (s.pc (.producer n)).inside = true := by rw [hpc]; rfl
  have hzip : (s.enqueued ++ [c]).zipIdx = s.enqueued.zipIdx ++ [(c, s.enqueued.length)] := by
    rw [List.zipIdx_append]
    simp
  have hheld : Tasks.held { s.goto (.producer n) (.added (c, s.enqueued.length)) with
      mCommand := s.mCommand ++ [(c, s.enqueued.length)]
      enqueued := s.enqueued ++ [c] } = s.held ++ [(c, s.enqueued.length)] := by
    have hh : Tasks.inHand { s.goto (.producer n) (.added (c, s.enqueued.length)) with
        mCommand := s.mCommand ++ [(c, s.enqueued.length)]
        enqueued := s.enqueued ++ [c] } = s.inHand :=
      inHand_update rfl (by rw [hpc]; rfl)
    unfold Tasks.held
    rw [hh]
    simp only [Tasks.goto, List.append_assoc]
  refine ⟨ac.exclusive.turn hturn, knows_update ac.exclusive rfl hin trivial, ?_, ?_⟩
  · rw [hheld, hzip]
    exact ac.order.append (List.Sublist.refl _)
  · intro e he
    rw [hzip] at he
    rw [hheld]
    cases List.mem_append.mp he with
    | inl hold =>
      cases ac.cover e hold with
      | inl h => exact .inl (List.mem_append_left _ h)
      | inr h => exact .inr h
    | inr hnew => exact .inl (List.mem_append_right _ hnew)

theorem purgeStep {th : Thread} {i : ℕ} {q : List (Entry Args)} {back : Back Args}
    (hpc : s.pc th = .purging (i + 1) q back) :
    Account { s.goto th (.purging i q back) with mCommand := purgeAt s.mCommand i } := by
  have hturn := (Step.purgeStep hpc).turn
  have hin : (s.pc th).inside = true := by rw [hpc]; rfl
  have hknow := ac.knows th
  rw [hpc] at hknow
  obtain ⟨hi, hq, hmem⟩ := hknow
  have hnew : purgeAt s.mCommand i = purgedDownTo q i := by
    rw [hq]
    exact purgeAt_purgedDownTo q (by omega)
  have hh : Tasks.inHand { s.goto th (.purging i q back) with
      mCommand := purgeAt s.mCommand i } = s.inHand := inHand_update rfl (by rw [hpc]; rfl)
  have hsub := purgeAt_sublist s.mCommand i
  refine ⟨ac.exclusive.turn hturn, ?_, ?_, ?_⟩
  · exact knows_update ac.exclusive rfl hin ⟨by omega, hnew, hmem⟩
  · unfold Tasks.held
    rw [hh]
    exact ((List.Sublist.refl _).append hsub).trans ac.order
  · intro e he
    unfold Tasks.held
    rw [hh]
    cases ac.cover e he with
    | inr h => exact .inr h
    | inl h =>
      rcases List.mem_append.mp h with hfront | hqueue
      · exact .inl (List.mem_append_left _ hfront)
      · by_cases hkeep : e ∈ purgeAt s.mCommand i
        · exact .inl (List.mem_append_right _ hkeep)
        · -- what the loop took out was in the queue at the start of the purge
          rw [hq] at hqueue
          rw [hnew] at hkeep
          have heq : e ∈ q := by
            cases List.mem_append.mp hqueue with
            | inl h => exact List.mem_of_mem_take h
            | inr h => exact List.mem_of_mem_drop (List.mem_of_mem_filter h)
          refine .inr ⟨fun hc => hkeep ?_, q, hmem, heq⟩
          have hk : keeps e = true := decide_eq_true hc
          have hsplit := List.take_append_drop i q
          rw [← hsplit] at heq
          cases List.mem_append.mp heq with
          | inl h => exact List.mem_append_left _ h
          | inr h => exact List.mem_append_right _ (List.mem_filter.mpr ⟨h, hk⟩)

/-- At the end of the loop of `DoDisconnect` the connects of the queue are left. -/
theorem purge_done {th : Thread} {q : List (Entry Args)} {back : Back Args}
    (hpc : s.pc th = .purging 0 q back) : s.mCommand = q.filter keeps := by
  have hknow := ac.knows th
  rw [hpc] at hknow
  obtain ⟨-, hq, -⟩ := hknow
  rw [hq]
  exact purgedDownTo_zero q

theorem taskRemove {e : Option (Entry Args)} {q : List (Entry Args)}
    (hpc : s.pc .task = .took e)
    (hq : q = if e.isSome then s.mCommand.eraseIdx 0 else s.mCommand) :
    Account { s.goto .task (.sampled e q.length) with mCommand := q } := by
  have hin : (s.pc .task).inside = true := by rw [hpc]; rfl
  have hknow := ac.knows .task
  rw [hpc] at hknow
  change e = s.mCommand.head? at hknow
  have hmove : e.toList ++ q = s.mCommand := by
    rw [hq, hknow]
    cases s.mCommand <;> rfl
  refine ac.same (Step.taskRemove hpc hq).turn ?_ ?_ rfl (fun _ h => h)
  · exact knows_update ac.exclusive rfl hin trivial
  · have hold : s.inHand = [] := by
      unfold Tasks.inHand
      rw [hpc]
      rfl
    have hnew : Tasks.inHand { s.goto .task (.sampled e q.length) with mCommand := q } =
        e.toList := by
      simp [Tasks.inHand, Tasks.goto, Pc.hand]
    unfold Tasks.held
    rw [hold, hnew, List.append_assoc, List.append_nil]
    exact congrArg (s.executed ++ ·) hmove

theorem quiet {th : Thread} {pc : Pc Args} (hturn : Turn s.view t.view)
    (hpc : t.pc = Function.update s.pc th pc) (hhand : pc.hand = (s.pc th).hand)
    (hk : Knows t pc) (hq : t.mCommand = s.mCommand) (hx : t.executed = s.executed)
    (henq : t.enqueued = s.enqueued) (hp : s.purges ⊆ t.purges) : Account t := by
  refine ac.same hturn (knows_update_same ac.knows hpc hq hp hk) ?_ henq hp
  unfold Tasks.held
  rw [inHand_update hpc hhand, hq, hx]

theorem taskUnlock {e : Option (Entry Args)} {cmdcount : ℕ}
    (hpc : s.pc .task = .sampled e cmdcount) :
    Account { s.unlock .task (.executing e cmdcount) with executed := s.executed ++ e.toList } := by
  refine ac.same (Step.taskUnlock hpc).turn ?_ ?_ rfl fun _ h => h
  · exact knows_update_same ac.knows rfl rfl (fun _ h => h) trivial
  · have hold : s.inHand = e.toList := by
      unfold Tasks.inHand
      rw [hpc]
      rfl
    have hnew : Tasks.inHand { s.unlock .task (.executing e cmdcount) with
        executed := s.executed ++ e.toList } = [] := by
      simp [Tasks.inHand, Tasks.unlock, Tasks.goto, Pc.hand]
    unfold Tasks.held
    rw [hold, hnew, List.append_nil]
    rfl

theorem step {a : Act Args} (h : Step s a t) : Account t := by
  have hturn := h.turn
  have refl : s.purges ⊆ s.purges := fun _ h => h
  cases h with
  | addLock hpc free => exact ac.quiet hturn rfl (by rw [hpc]; rfl) trivial rfl rfl rfl refl
  | addInsert hpc => exact ac.addInsert hpc
  | addUnlock hpc => exact ac.quiet hturn rfl (by rw [hpc]; rfl) trivial rfl rfl rfl refl
  | taskLock hpc free => exact ac.quiet hturn rfl (by rw [hpc]; rfl) trivial rfl rfl rfl refl
  | taskTake hpc => exact ac.quiet hturn rfl (by rw [hpc]; rfl) rfl rfl rfl rfl refl
  | taskRemove hpc hq => exact ac.taskRemove hpc hq
  | taskUnlock hpc => exact ac.taskUnlock hpc
  | taskFinish hpc => exact ac.quiet hturn rfl (by rw [hpc]; rfl) trivial rfl rfl rfl refl
  | taskExit hpc stopped => exact ac.quiet hturn rfl (by rw [hpc]; rfl) trivial rfl rfl rfl refl
  | taskLoop hpc => exact ac.quiet hturn rfl (by rw [hpc]; rfl) trivial rfl rfl rfl refl
  | purgeLock hpc free =>
    refine ac.quiet hturn rfl ?_ ?_ rfl rfl rfl (List.subset_append_left _ _)
    · rw [hpc, Back.pc_hand]
      rfl
    · refine ⟨le_refl _, ?_, List.mem_append_right _ (List.mem_singleton_self _)⟩
      exact (purgedDownTo_length s.mCommand).symm
  | purgeStep hpc => exact ac.purgeStep hpc
  | purgeUnlock hpc =>
    refine ac.quiet hturn rfl ?_ (knows_outside _ (Back.pc_inside _)) rfl rfl rfl refl
    rw [hpc, Back.pc_hand]
    rfl
  | clearRun running => exact ac.same hturn ac.knows rfl rfl refl

omit ac in
theorem start : Account (start : Tasks Args) where
  exclusive th := by simp [Tasks.view, TaskQueue.start, Pc.inside]
  knows _ := trivial
  order := List.Sublist.refl _
  cover e he := by simp [TaskQueue.start] at he

end Account

theorem account_run {cond : Tasks Args → Act Args → Prop} {s : Tasks Args}
    {acts : List (Act Args)} (run : Run step cond start acts s) : Account s :=
  run.invariant Account (fun _ _ _ ac _ h => ac.step (step_cases h)) .start

/-- In every interleaving the executed commands are a subsequence of the enqueued
ones, none twice, and a command that left the queue otherwise is not a connect and
was in the queue when a purge began. -/
theorem commands_in_order {s : Tasks Args} {acts : List (Act Args)}
    (run : Run step (fun _ _ => True) start acts s) :
    (s.executed.map Prod.fst).Sublist s.enqueued ∧ s.executed.Sublist s.enqueued.zipIdx ∧
      s.executed.Nodup ∧
      ∀ e ∈ s.enqueued.zipIdx, e ∉ s.executed → e ∉ s.inHand → e ∉ s.mCommand →
        e.1.commandNo ≠ .CMD_CONNECT ∧ ∃ q ∈ s.purges, e ∈ q := by
  have ac := account_run run
  have hsub : s.executed.Sublist s.enqueued.zipIdx := by
    have hfront : s.executed.Sublist s.held := by
      unfold Tasks.held
      rw [List.append_assoc]
      exact List.sublist_append_left _ _
    exact hfront.trans ac.order
  refine ⟨?_, hsub, ?_, ?_⟩
  · have hmap := hsub.map Prod.fst
    rwa [List.zipIdx_map_fst] at hmap
  · have hnodup : (s.enqueued.zipIdx).Nodup := by
      apply List.Nodup.of_map Prod.snd
      rw [List.zipIdx_map_snd]
      exact List.nodup_range'
    exact hnodup.sublist hsub
  · intro e he hx hh hq
    cases ac.cover e he with
    | inr h => exact h
    | inl h =>
      rcases List.mem_append.mp h with hfront | hqueue
      · rcases List.mem_append.mp hfront with hexec | hhand
        · exact absurd hexec hx
        · exact absurd hhand hh
      · exact absurd hqueue hq

def addCall (n : ℕ) (c : Command Args) : List (Act Args) := [.addLock n c, .addInsert n, .addUnlock n]

def takeCommand : List (Act Args) := [.taskLock, .taskTake, .taskRemove, .taskUnlock]

theorem commands_in_order_purge : ∃ s : Tasks Unit, Run step (fun _ _ => True) start
    (addCall 0 ⟨.CMD_DISCONNECT, ()⟩ ++ addCall 1 ⟨.CMD_PTZSTOP, ()⟩ ++
      addCall 0 ⟨.CMD_CONNECT, ()⟩ ++ takeCommand ++
      [.purgeLock .task, .purgeStep .task, .purgeStep .task, .purgeUnlock .task]) s ∧
    s.executed = [(⟨.CMD_DISCONNECT, ()⟩, 0)] ∧ s.mCommand = [(⟨.CMD_CONNECT, ()⟩, 2)] ∧
    (s.executed.map Prod.fst).Sublist s.enqueued := by
  obtain ⟨s, run, hx, hq⟩ : ∃ s : Tasks Unit, Run step (fun _ _ => True) start
      (addCall 0 ⟨.CMD_DISCONNECT, ()⟩ ++ addCall 1 ⟨.CMD_PTZSTOP, ()⟩ ++
        addCall 0 ⟨.CMD_CONNECT, ()⟩ ++ takeCommand ++
        [.purgeLock .task, .purgeStep .task, .purgeStep .task, .purgeUnlock .task]) s ∧
      (s.executed = [(⟨.CMD_DISCONNECT, ()⟩, 0)] ∧ s.mCommand = [(⟨.CMD_CONNECT, ()⟩, 2)]) :=
    exists_run (by decide +kernel)
  exact ⟨s, run, hx, hq, (commands_in_order run).1⟩

end Jagles.TaskQueue
