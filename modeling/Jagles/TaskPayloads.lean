import Jagles.TaskQueueOrder

set_option autoImplicit false
set_option linter.dupNamespace false

/-!
# The payloads of the queued commands

`AddCommand` copies the data of a command into a buffer of its own, and the end of
a pass of `HandleTaskThread` frees the buffer of the command executed. A purge of
`DoDisconnect` takes a command off the queue and frees nothing.
-/
namespace Jagles.TaskQueue
open CriticalSections GuardedRuns

variable {Args : Type*}

/-- The queue with the buffers of the payloads, each under the serial number of its
command: those allocated and not freed, and the calls of `free` in their order. -/
structure Payloads (Args : Type*) where
  tasks : Tasks Args
  live : Finset ℕ
  freed : List ℕ

variable (datasize : Args → ℤ)

def carries (e : Entry Args) : Bool := decide (0 < datasize e.1.args)

def Payloads.start : Payloads Args := ⟨TaskQueue.start, ∅, []⟩

/-- The buffers after a step that takes the queue to `u`. -/
def Payloads.after (s : Payloads Args) (a : Act Args) (u : Tasks Args) : Payloads Args :=
  match a with
  | .addInsert n =>
    match s.tasks.pc (.producer n) with
    | .adding c =>
      if 0 < datasize c.args then { s with tasks := u, live := Insert.insert s.tasks.enqueued.length s.live }
      else { s with tasks := u }
    | _ => { s with tasks := u }
  | .taskFinish =>
    match s.tasks.pc .task with
    | .executing (some e) _ =>
      if 0 < datasize e.1.args then ⟨u, s.live.erase e.2, s.freed ++ [e.2]⟩
      else { s with tasks := u }
    | _ => { s with tasks := u }
  | _ => { s with tasks := u }

def Payloads.step (s : Payloads Args) (a : Act Args) : Option (Payloads Args) :=
  (TaskQueue.step s.tasks a).map (s.after datasize a)

/-- The command that the task thread holds a copy of. -/
def Pc.copied : Pc Args → List (Entry Args)
  | .took e | .sampled e _ | .executing e _ | .purging _ _ (.executing e _) => e.toList
  | .idle | .adding _ | .added _ | .looking | .testing _ | .exited | .purging _ _ .outside => []

/-- The commands that are queued or being executed. -/
def Tasks.holders (s : Tasks Args) : List (Entry Args) := s.mCommand ++ (s.pc .task).copied

/-- The live buffers are those of the commands queued or being executed, and every
other buffer that was allocated has been freed once. -/
structure Balanced (s : Payloads Args) : Prop where
  live : ∀ n, n ∈ s.live ↔ ∃ e ∈ s.tasks.holders, carries datasize e = true ∧ e.2 = n
  once : s.freed.Nodup
  apart : ∀ n ∈ s.freed, n ∉ s.live
  all : ∀ e ∈ s.tasks.enqueued.zipIdx, carries datasize e = true → e.2 ∈ s.live ∨ e.2 ∈ s.freed

/-- The condition on one step: the purge loop takes no command with a payload off the queue. -/
def PurgesNoPayload (s : Payloads Args) : Act Args → Prop
  | .purgeStep th => ∀ i q back, s.tasks.pc th = .purging (i + 1) q back →
      ∀ e, s.tasks.mCommand[i]? = some e → e.1.commandNo ≠ .CMD_CONNECT → datasize e.1.args ≤ 0
  | _ => True

/-- What every run keeps, balanced or not. -/
structure Ledger (s : Payloads Args) : Prop where
  account : Account s.tasks
  executing : ∀ e n, s.tasks.pc .task = .executing (some e) n → e ∈ s.tasks.executed
  purging : ∀ i q e n, s.tasks.pc .task = .purging i q (.executing (some e) n) →
    e ∈ s.tasks.executed
  freed : ∀ n ∈ s.freed, n < s.tasks.enqueued.length

/-- The command that is being executed, also while it purges the queue. -/
def Pc.command : Pc Args → Option (Entry Args)
  | .executing e _ => e
  | .purging _ _ (.executing e _) => e
  | _ => none

theorem Pc.command_purging (i : ℕ) (q : List (Entry Args)) (back : Back Args) :
    (Pc.purging i q back).command = back.pc.command := by
  cases back with
  | outside => rfl
  | executing e n => rfl

theorem Pc.forall_command_iff {pc : Pc Args} {p : Entry Args → Prop} :
    (∀ e ∈ pc.command, p e) ↔ (∀ e n, pc = .executing (some e) n → p e) ∧
      ∀ i q e n, pc = .purging i q (.executing (some e) n) → p e := by
  constructor
  · intro h
    refine ⟨?_, ?_⟩
    · rintro e n rfl
      exact h e rfl
    · rintro i q e n rfl
      exact h e rfl
  · rintro ⟨hexec, hpurge⟩ e he
    cases pc with
    | executing e' n =>
      obtain rfl : e' = some e := he
      exact hexec e n rfl
    | purging i q back =>
      cases back with
      | outside => cases he
      | executing e' n =>
        obtain rfl : e' = some e := he
        exact hpurge i q e n rfl
    | idle | adding | added | looking | took | sampled | testing | exited => cases he

theorem Ledger.command {s : Payloads Args} (l : Ledger s) :
    ∀ e ∈ (s.tasks.pc .task).command, e ∈ s.tasks.executed :=
  Pc.forall_command_iff.mpr ⟨l.executing, l.purging⟩

/-- Behind the lock, what the task thread has a copy of is what it executes. -/
theorem Pc.copied_eq_command {pc : Pc Args} (htook : ∀ e, pc ≠ .took e)
    (hsampled : ∀ e n, pc ≠ .sampled e n) : pc.copied = pc.command.toList := by
  cases pc with
  | took e => exact absurd rfl (htook e)
  | sampled e n => exact absurd rfl (hsampled e n)
  | purging i q back =>
    cases back with
    | outside => rfl
    | executing e n => rfl
  | executing e n => rfl
  | idle | adding | added | looking | testing | exited => rfl

section Serials
variable {s : Tasks Args} (ac : Account s)
include ac

theorem Account.serials : (s.held.map Prod.snd).Nodup := by
  have h := ac.order.map Prod.snd
  rw [List.zipIdx_map_snd] at h
  exact List.Nodup.sublist h List.nodup_range'

/-- A queued command has its number to itself. -/
theorem Account.serial_executed {e e' : Entry Args} (he : e ∈ s.mCommand)
    (he' : e' ∈ s.executed) : e.2 ≠ e'.2 := by
  have h := ac.serials
  unfold Tasks.held at h
  rw [List.append_assoc, List.map_append] at h
  intro heq
  refine (List.disjoint_of_nodup_append h) (List.mem_map_of_mem he') ?_
  rw [← heq]
  exact List.mem_map_of_mem (List.mem_append_right _ he)

theorem Account.serial_queue : (s.mCommand.map Prod.snd).Nodup := by
  have h := ac.serials
  unfold Tasks.held at h
  rw [List.map_append] at h
  exact (List.nodup_append.mp h).2.1

end Serials

theorem copied_update {s t : Tasks Args} {th : Thread} {p : Pc Args}
    (hpc : t.pc = Function.update s.pc th p) (h : p.copied = (s.pc th).copied) :
    (t.pc .task).copied = (s.pc .task).copied := by
  rw [hpc]
  by_cases ht : Thread.task = th
  · rw [← ht, Function.update_self, h, ht]
  · rw [Function.update_of_ne ht]

theorem Back.pc_copied (b : Back Args) (i : ℕ) (q : List (Entry Args)) :
    (Pc.purging i q b).copied = b.pc.copied := by
  cases b <;> rfl

theorem holders_quiet {s t : Tasks Args} {th : Thread} {pc : Pc Args}
    (hpc : t.pc = Function.update s.pc th pc) (h : pc.copied = (s.pc th).copied)
    (hq : t.mCommand = s.mCommand) : t.holders = s.holders := by
  unfold Tasks.holders
  rw [copied_update hpc h, hq]

section Balance
variable {datasize} {s : Payloads Args}

/-- Only the commands with a payload count. -/
theorem balanced_carriers {u : Tasks Args}
    (hold : ∀ e, carries datasize e = true → (e ∈ u.holders ↔ e ∈ s.tasks.holders))
    (henq : ∀ e, carries datasize e = true →
      (e ∈ u.enqueued.zipIdx ↔ e ∈ s.tasks.enqueued.zipIdx)) :
    Balanced datasize { s with tasks := u } ↔ Balanced datasize s := by
  have hlive : ∀ n, (∃ e ∈ u.holders, carries datasize e = true ∧ e.2 = n) ↔
      ∃ e ∈ s.tasks.holders, carries datasize e = true ∧ e.2 = n := by
    intro n
    constructor
    · rintro ⟨e, he, hcar, hn⟩
      exact ⟨e, (hold e hcar).mp he, hcar, hn⟩
    · rintro ⟨e, he, hcar, hn⟩
      exact ⟨e, (hold e hcar).mpr he, hcar, hn⟩
  constructor
  · intro b
    exact ⟨fun n => (b.live n).trans (hlive n), b.once, b.apart,
      fun e he hcar => b.all e ((henq e hcar).mpr he) hcar⟩
  · intro b
    exact ⟨fun n => (b.live n).trans (hlive n).symm, b.once, b.apart,
      fun e he hcar => b.all e ((henq e hcar).mp he) hcar⟩

theorem balanced_same {u : Tasks Args} (hold : ∀ e, e ∈ u.holders ↔ e ∈ s.tasks.holders)
    (henq : u.enqueued = s.tasks.enqueued) :
    Balanced datasize { s with tasks := u } ↔ Balanced datasize s :=
  balanced_carriers (fun e _ => hold e) fun e _ => by rw [henq]

theorem Balanced.addInsert (b : Balanced datasize s) (l : Ledger s) {n : ℕ} {c : Command Args}
    (hpc : s.tasks.pc (.producer n) = .adding c) {u : Tasks Args}
    (hu : u = { s.tasks.goto (.producer n) (.added (c, s.tasks.enqueued.length)) with
      mCommand := s.tasks.mCommand ++ [(c, s.tasks.enqueued.length)]
      enqueued := s.tasks.enqueued ++ [c] }) :
    Balanced datasize (s.after datasize (.addInsert n) u) := by
  have hcopied : (u.pc .task).copied = (s.tasks.pc .task).copied :=
    copied_update (p := .added (c, s.tasks.enqueued.length)) (by rw [hu]; rfl)
      (by rw [hpc]; rfl)
  have hold : ∀ e, e ∈ u.holders ↔ e ∈ s.tasks.holders ∨ e = (c, s.tasks.enqueued.length) := by
    intro e
    unfold Tasks.holders
    rw [hcopied, hu]
    simp only [List.mem_append, List.mem_singleton]
    tauto
  have hzip : u.enqueued.zipIdx = s.tasks.enqueued.zipIdx ++ [(c, s.tasks.enqueued.length)] := by
    rw [hu]
    simp [List.zipIdx_append]
  simp only [Payloads.after, hpc]
  by_cases hc : 0 < datasize c.args
  · rw [if_pos hc]
    refine ⟨fun k => ?_, b.once, fun k hk => ?_, fun e he hcar => ?_⟩
    · rw [Finset.mem_insert, b.live k]
      simp only [hold]
      constructor
      · rintro (rfl | ⟨e, he, hcar, hek⟩)
        · exact ⟨_, .inr rfl, decide_eq_true hc, rfl⟩
        · exact ⟨e, .inl he, hcar, hek⟩
      · rintro ⟨e, he | rfl, hcar, hek⟩
        · exact .inr ⟨e, he, hcar, hek⟩
        · exact .inl hek.symm
    · have hlt := l.freed k hk
      rw [Finset.mem_insert, not_or]
      exact ⟨by omega, b.apart k hk⟩
    · rw [hzip] at he
      rw [Finset.mem_insert]
      rcases List.mem_append.mp he with hold' | hnew
      · exact (b.all e hold' hcar).imp_left .inr
      · rw [List.mem_singleton] at hnew
        exact .inl (.inl (by rw [hnew]))
  · rw [if_neg hc]
    have hother : ∀ e : Entry Args, carries datasize e = true →
        e ≠ (c, s.tasks.enqueued.length) := by
      rintro e hcar rfl
      exact hc (of_decide_eq_true hcar)
    refine (balanced_carriers (fun e hcar => ?_) fun e hcar => ?_).mpr b
    · rw [hold, or_iff_left (hother e hcar)]
    · rw [hzip, List.mem_append, List.mem_singleton, or_iff_left (hother e hcar)]

theorem Balanced.taskFinish (b : Balanced datasize s) (l : Ledger s) {e : Option (Entry Args)}
    {cmdcount : ℕ} (hpc : s.tasks.pc .task = .executing e cmdcount) {u : Tasks Args}
    (hu : u = s.tasks.goto .task (.testing cmdcount)) :
    Balanced datasize (s.after datasize .taskFinish u) := by
  have hold : u.holders = s.tasks.mCommand := by
    rw [hu]
    simp [Tasks.holders, Tasks.goto, Pc.copied]
  have hbefore : s.tasks.holders = s.tasks.mCommand ++ e.toList := by
    unfold Tasks.holders
    rw [hpc]
    rfl
  have henq : u.enqueued = s.tasks.enqueued := by rw [hu]; rfl
  simp only [Payloads.after, hpc]
  cases e with
  | none =>
    refine (balanced_same (fun e => ?_) henq).mpr b
    rw [hold, hbefore, Option.toList_none, List.append_nil]
  | some e =>
    have hexec := l.executing e cmdcount hpc
    have hlive : carries datasize e = true → e.2 ∈ s.live := fun hcar =>
      (b.live e.2).mpr ⟨e, by rw [hbefore]; simp, hcar, rfl⟩
    simp only
    by_cases hc : 0 < datasize e.1.args
    · rw [if_pos hc]
      have hin := hlive (decide_eq_true hc)
      refine ⟨fun k => ?_, ?_, fun k hk => ?_, fun e' he' hcar => ?_⟩
      · rw [Finset.mem_erase, b.live k, hold, hbefore]
        constructor
        · rintro ⟨hne, e', he', hcar, hek⟩
          rcases List.mem_append.mp he' with hq | hlast
          · exact ⟨e', hq, hcar, hek⟩
          · obtain rfl : e = e' := Option.some.inj (Option.mem_toList.mp hlast)
            exact absurd hek.symm hne
        · rintro ⟨e', hq, hcar, hek⟩
          refine ⟨?_, e', List.mem_append_left _ hq, hcar, hek⟩
          rw [← hek]
          exact l.account.serial_executed hq hexec
      · rw [List.nodup_append]
        refine ⟨b.once, List.nodup_singleton _, fun k hk k' hk' => ?_⟩
        rw [List.mem_singleton] at hk'
        rintro rfl
        rw [hk'] at hk
        exact b.apart _ hk hin
      · rw [Finset.mem_erase, not_and_or]
        rcases List.mem_append.mp hk with hold' | hnew
        · exact .inr (b.apart k hold')
        · exact .inl (by simpa using hnew)
      · rw [henq] at he'
        rw [Finset.mem_erase]
        by_cases hsame : e'.2 = e.2
        · exact .inr (List.mem_append_right _ (by simp [hsame]))
        · exact (b.all e' he' hcar).imp (fun h => ⟨hsame, h⟩) (List.mem_append_left _)
    · rw [if_neg hc]
      refine (balanced_carriers (fun e' hcar => ?_) fun e' _ => by rw [henq]).mpr b
      have hother : e' ≠ e := by
        rintro rfl
        exact hc (of_decide_eq_true hcar)
      rw [hold, hbefore, List.mem_append, Option.toList_some, List.mem_singleton,
        or_iff_left hother]

/-- A thread in the purge loop shares no number with what is queued and being executed. -/
theorem Ledger.copied_serial (l : Ledger s) {th : Thread} {i : ℕ} {q : List (Entry Args)}
    {back : Back Args} (hpc : s.tasks.pc th = .purging i q back) {e e' : Entry Args}
    (he : e ∈ s.tasks.mCommand) (he' : e' ∈ (s.tasks.pc .task).copied) : e.2 ≠ e'.2 := by
  have hin : (s.tasks.pc th).inside = true := by
    rw [hpc]
    rfl
  have hout (h : (s.tasks.pc .task).inside = true) : th = .task :=
    l.account.exclusive.eq (v := s.tasks.view) hin h
  have htook : ∀ e₁, s.tasks.pc .task ≠ .took e₁ := by
    intro e₁ ht
    rw [hout (by rw [ht]; rfl), ht] at hpc
    cases hpc
  have hsampled : ∀ e₁ n, s.tasks.pc .task ≠ .sampled e₁ n := by
    intro e₁ n ht
    rw [hout (by rw [ht]; rfl), ht] at hpc
    cases hpc
  rw [Pc.copied_eq_command htook hsampled, Option.mem_toList] at he'
  exact l.account.serial_executed he (l.command e' he')

/-- A step of the purge loop keeps the balance unless it takes a payload off the queue. -/
theorem balanced_purgeStep (b : Balanced datasize s) (l : Ledger s) {th : Thread} {i : ℕ}
    {q : List (Entry Args)} {back : Back Args} (hpc : s.tasks.pc th = .purging (i + 1) q back)
    {u : Tasks Args} (hu : u = { s.tasks.goto th (.purging i q back) with
      mCommand := purgeAt s.tasks.mCommand i }) :
    Balanced datasize { s with tasks := u } ↔ ∀ e, s.tasks.mCommand[i]? = some e →
      e.1.commandNo ≠ .CMD_CONNECT → datasize e.1.args ≤ 0 := by
  have hcopied : (u.pc .task).copied = (s.tasks.pc .task).copied :=
    copied_update (p := .purging i q back) (by rw [hu]; rfl)
      (by rw [hpc, Back.pc_copied, Back.pc_copied])
  have henq : u.enqueued = s.tasks.enqueued := by rw [hu]; rfl
  have hqueue : u.mCommand = purgeAt s.tasks.mCommand i := by rw [hu]
  have keep (hsame : u.mCommand = s.tasks.mCommand) :
      Balanced datasize { s with tasks := u } := by
    refine (balanced_same (fun e => ?_) henq).mpr b
    rw [Tasks.holders, Tasks.holders, hsame, hcopied]
  cases hat : s.tasks.mCommand[i]? with
  | none =>
    refine ⟨(fun _ e he => nomatch he), fun _ => keep ?_⟩
    rw [hqueue, purgeAt, hat]
  | some e =>
    obtain ⟨hi, hget⟩ := List.getElem?_eq_some_iff.mp hat
    have hmem : e ∈ s.tasks.mCommand := List.mem_of_getElem? hat
    by_cases hconn : e.1.commandNo = .CMD_CONNECT
    · refine ⟨fun _ e' he' hne => ?_, fun _ => keep ?_⟩
      · obtain rfl := Option.some.inj he'
        exact absurd hconn hne
      · rw [hqueue, purgeAt, hat]
        simp [hconn]
    · have hgone : u.mCommand = s.tasks.mCommand.eraseIdx i := by
        rw [hqueue, purgeAt, hat]
        simp [hconn, remove]
      constructor
      · -- nobody else has the number of the command taken off
        intro b' e' he' _
        obtain rfl := Option.some.inj he'
        by_contra hpos
        have hlive := (b.live e.2).mpr
          ⟨e, List.mem_append_left _ hmem, decide_eq_true (by omega), rfl⟩
        obtain ⟨e', he', -, hsame⟩ := (b'.live e.2).mp hlive
        rcases List.mem_append.mp he' with hq | hc
        · simp only [hgone] at hq
          obtain ⟨j, hj, hjat⟩ := List.mem_eraseIdx_iff_getElem?.mp hq
          have hnodup := l.account.serial_queue
          have hmap : (s.tasks.mCommand.map Prod.snd)[i]? = (s.tasks.mCommand.map Prod.snd)[j]? := by
            rw [List.getElem?_map, List.getElem?_map, hat, hjat, Option.map_some, Option.map_some,
              hsame]
          exact hj ((List.getElem?_inj (by rwa [List.length_map]) hnodup).mp hmap).symm
        · simp only [hcopied] at hc
          exact l.copied_serial hpc hmem hc hsame.symm
      · intro hno
        have hsize := hno e rfl hconn
        have hold (e' : Entry Args) (hcar : carries datasize e' = true) :
            e' ∈ u.holders ↔ e' ∈ s.tasks.holders := by
          rw [Tasks.holders, Tasks.holders, hgone, hcopied, List.mem_append, List.mem_append]
          refine or_congr_left ⟨fun h => List.mem_of_mem_eraseIdx h, fun h => ?_⟩
          obtain ⟨j, hj⟩ := List.mem_iff_getElem?.mp h
          refine List.mem_eraseIdx_iff_getElem?.mpr ⟨j, ?_, hj⟩
          rintro rfl
          rw [hat] at hj
          obtain rfl := Option.some.inj hj
          have := of_decide_eq_true hcar
          omega
        exact (balanced_carriers hold fun e' _ => by rw [henq]).mpr b

theorem copied_head {q : List (Entry Args)} {e : Option (Entry Args)} (h : e = q.head?)
    (x : Entry Args) : x ∈ q ++ e.toList ↔ x ∈ q := by
  rw [h]
  cases q with
  | nil => simp
  | cons y q =>
    simp only [List.head?_cons, Option.toList_some, List.mem_append, List.mem_cons]
    tauto

/-- A step from a balanced state keeps the balance exactly when it meets the condition. -/
theorem Balanced.step_iff (b : Balanced datasize s) (l : Ledger s) {a : Act Args}
    {u : Tasks Args} (h : Step s.tasks a u) :
    Balanced datasize (s.after datasize a u) ↔ PurgesNoPayload datasize s a := by
  have moved {u : Tasks Args} (henq : u.enqueued = s.tasks.enqueued)
      (hold : ∀ e, e ∈ u.holders ↔ e ∈ s.tasks.holders) :
      Balanced datasize { s with tasks := u } := (balanced_same hold henq).mpr b
  have quiet {u : Tasks Args} (hold : u.holders = s.tasks.holders)
      (henq : u.enqueued = s.tasks.enqueued) : Balanced datasize { s with tasks := u } :=
    moved henq fun e => by rw [hold]
  cases h with
  | addLock hpc free =>
    exact ⟨fun _ => trivial, fun _ => quiet (holders_quiet rfl (by rw [hpc]; rfl) rfl) rfl⟩
  | addInsert hpc => exact ⟨fun _ => trivial, fun _ => b.addInsert l hpc rfl⟩
  | addUnlock hpc =>
    exact ⟨fun _ => trivial, fun _ => quiet (holders_quiet rfl (by rw [hpc]; rfl) rfl) rfl⟩
  | taskLock hpc free =>
    exact ⟨fun _ => trivial, fun _ => quiet (holders_quiet rfl (by rw [hpc]; rfl) rfl) rfl⟩
  | taskTake hpc =>
    refine ⟨fun _ => trivial, fun _ => moved rfl fun e => ?_⟩
    have hnew : Tasks.holders (s.tasks.goto .task (.took s.tasks.mCommand.head?)) =
        s.tasks.mCommand ++ s.tasks.mCommand.head?.toList := by
      simp [Tasks.holders, Tasks.goto, Pc.copied]
    have hold : s.tasks.holders = s.tasks.mCommand ++ [] := by
      unfold Tasks.holders
      rw [hpc]
      rfl
    rw [hnew, hold, copied_head rfl, List.append_nil]
  | @taskRemove e q hpc hq =>
    refine ⟨fun _ => trivial, fun _ => moved rfl fun x => ?_⟩
    have hknow := l.account.knows .task
    rw [hpc] at hknow
    have hnew : Tasks.holders { s.tasks.goto .task (.sampled e q.length) with mCommand := q } =
        q ++ e.toList := by
      simp [Tasks.holders, Tasks.goto, Pc.copied]
    have hold : s.tasks.holders = s.tasks.mCommand ++ e.toList := by
      unfold Tasks.holders
      rw [hpc]
      rfl
    have hmove : e.toList ++ q = s.tasks.mCommand := by
      rw [hq, show e = s.tasks.mCommand.head? from hknow]
      cases s.tasks.mCommand <;> rfl
    rw [hnew, hold, copied_head hknow, ← hmove, List.mem_append, List.mem_append, or_comm]
  | taskUnlock hpc =>
    exact ⟨fun _ => trivial, fun _ => quiet (holders_quiet rfl (by rw [hpc]; rfl) rfl) rfl⟩
  | taskFinish hpc => exact ⟨fun _ => trivial, fun _ => b.taskFinish l hpc rfl⟩
  | taskExit hpc stopped =>
    exact ⟨fun _ => trivial, fun _ => quiet (holders_quiet rfl (by rw [hpc]; rfl) rfl) rfl⟩
  | taskLoop hpc =>
    exact ⟨fun _ => trivial, fun _ => quiet (holders_quiet rfl (by rw [hpc]; rfl) rfl) rfl⟩
  | purgeLock hpc free =>
    refine ⟨fun _ => trivial, fun _ => quiet (holders_quiet rfl ?_ rfl) rfl⟩
    rw [hpc, Back.pc_copied]
  | purgeStep hpc =>
    refine (balanced_purgeStep b l hpc rfl).trans ⟨fun h i q back hpc' => ?_, fun h => h _ _ _ hpc⟩
    obtain ⟨rfl, -, -⟩ : _ = i ∧ _ ∧ _ := by simpa using hpc.symm.trans hpc'
    exact h
  | purgeUnlock hpc =>
    refine ⟨fun _ => trivial, fun _ => quiet (holders_quiet rfl ?_ rfl) rfl⟩
    rw [hpc, Back.pc_copied]
  | clearRun running => exact ⟨fun _ => trivial, fun _ => quiet rfl rfl⟩

end Balance

section Runs
variable {datasize}

theorem Payloads.after_tasks (s : Payloads Args) (a : Act Args) (u : Tasks Args) :
    (s.after datasize a u).tasks = u := by
  unfold Payloads.after
  split
  · split
    · split <;> rfl
    · rfl
  · split
    · split <;> rfl
    · rfl
  · rfl

theorem Payloads.step_cases {s t : Payloads Args} {a : Act Args}
    (h : s.step datasize a = some t) : Step s.tasks a t.tasks ∧ t = s.after datasize a t.tasks := by
  obtain ⟨u, hu, rfl⟩ := Option.map_eq_some_iff.mp h
  rw [Payloads.after_tasks]
  exact ⟨TaskQueue.step_cases hu, rfl⟩

theorem freed_lt {s : Payloads Args} {a : Act Args} {u : Tasks Args} (h : Step s.tasks a u)
    (l : Ledger s) : ∀ n ∈ (s.after datasize a u).freed, n < s.tasks.enqueued.length := by
  intro n hn
  by_cases hsame : n ∈ s.freed
  · exact l.freed n hsame
  unfold Payloads.after at hn
  split at hn
  · split at hn
    · split at hn <;> exact absurd hn hsame
    · exact absurd hn hsame
  · split at hn
    · rename_i e cmdcount hpc
      split at hn
      · rcases List.mem_append.mp hn with hold | hnew
        · exact absurd hold hsame
        · rw [List.mem_singleton] at hnew
          have hmem : e ∈ s.tasks.held :=
            List.mem_append_left _ (List.mem_append_left _ (l.executing e cmdcount hpc))
          rw [hnew]
          exact List.snd_lt_of_mem_zipIdx (l.account.order.subset hmem)
      · exact absurd hn hsame
    · exact absurd hn hsame
  · exact absurd hn hsame

/-- The command being executed has been taken off the queue for execution. -/
theorem command_step {s u : Tasks Args} {a : Act Args} (h : Step s a u)
    (hx : ∀ e ∈ (s.pc .task).command, e ∈ s.executed) :
    ∀ e ∈ (u.pc .task).command, e ∈ u.executed := by
  have other {th : Thread} {pc : Pc Args} (hpc : u.pc = Function.update s.pc th pc)
      (hexec : s.executed ⊆ u.executed)
      (hnew : th = .task → ∀ e ∈ pc.command, e ∈ u.executed) :
      ∀ e ∈ (u.pc .task).command, e ∈ u.executed := by
    by_cases ht : th = .task
    · rw [hpc, ht, Function.update_self]
      exact hnew ht
    · rw [hpc, Function.update_of_ne (Ne.symm ht)]
      exact fun e he => hexec (hx e he)
  cases h with
  | addLock hpc free => exact other rfl (fun _ h => h) (fun ht => by cases ht)
  | addInsert hpc => exact other rfl (fun _ h => h) (fun ht => by cases ht)
  | addUnlock hpc => exact other rfl (fun _ h => h) (fun ht => by cases ht)
  | taskLock hpc free => exact other rfl (fun _ h => h) fun _ _ he => by cases he
  | taskTake hpc => exact other rfl (fun _ h => h) fun _ _ he => by cases he
  | taskRemove hpc hq => exact other rfl (fun _ h => h) fun _ _ he => by cases he
  | taskUnlock hpc =>
    refine other rfl (List.subset_append_left _ _) fun _ e he => ?_
    exact List.mem_append_right _ (Option.mem_toList.mpr he)
  | taskFinish hpc => exact other rfl (fun _ h => h) fun _ _ he => by cases he
  | taskExit hpc stopped => exact other rfl (fun _ h => h) fun _ _ he => by cases he
  | taskLoop hpc => exact other rfl (fun _ h => h) fun _ _ he => by cases he
  | purgeLock hpc free =>
    refine other rfl (fun _ h => h) fun ht e he => hx e ?_
    rwa [← ht, hpc, ← Pc.command_purging]
  | purgeStep hpc =>
    refine other rfl (fun _ h => h) fun ht e he => hx e ?_
    rwa [← ht, hpc, Pc.command_purging, ← Pc.command_purging]
  | purgeUnlock hpc =>
    refine other rfl (fun _ h => h) fun ht e he => hx e ?_
    rwa [← ht, hpc, Pc.command_purging]
  | clearRun running => exact hx

theorem enqueued_le {s u : Tasks Args} {a : Act Args} (h : Step s a u) :
    s.enqueued.length ≤ u.enqueued.length := by
  cases h with
  | addInsert hpc =>
    rw [List.length_append]
    exact Nat.le_add_right _ _
  | _ => exact le_refl _

theorem Ledger.step {s t : Payloads Args} {a : Act Args} (l : Ledger s)
    (h : s.step datasize a = some t) : Ledger t := by
  obtain ⟨hstep, ht⟩ := Payloads.step_cases h
  obtain ⟨hx, hp⟩ := Pc.forall_command_iff.mp (command_step hstep l.command)
  refine ⟨l.account.step hstep, hx, hp, fun n hn => ?_⟩
  have hlen := enqueued_le hstep
  rw [ht] at hn
  have := freed_lt hstep l n hn
  omega

theorem Ledger.start : Ledger (.start : Payloads Args) := by
  refine ⟨.start, fun e n h => ?_, fun i q e n h => ?_, fun n hn => ?_⟩
  · cases h
  · cases h
  · cases hn

theorem Balanced.start : Balanced datasize (.start : Payloads Args) := by
  refine ⟨fun n => ⟨fun h => ?_, ?_⟩, List.nodup_nil, fun n hn => ?_, fun e he => ?_⟩
  · exact absurd h (Finset.notMem_empty n)
  · rintro ⟨e, he, -⟩
    cases he
  · cases hn
  · cases he

/-- In every interleaving the live buffers are those of the queued commands and of the
one being executed, at every point, exactly when no purge takes a payload off the queue. -/
theorem payloads_balanced_iff {s : Payloads Args} {acts : List (Act Args)}
    (run : Run (Payloads.step datasize) (fun _ _ => True) .start acts s) :
    Throughout (Payloads.step datasize) (Balanced datasize) .start acts s ↔
      Run (Payloads.step datasize) (PurgesNoPayload datasize) .start acts s := by
  refine run.throughout_iff (I := Ledger) (fun _ _ _ l _ h => l.step h) ?_ .start .start
  intro s a t l b _ h
  obtain ⟨hstep, ht⟩ := Payloads.step_cases h
  rw [ht]
  exact b.step_iff l hstep

end Runs

theorem payloads_balanced_iff_executed : ∃ s : Payloads ℤ,
    Run (Payloads.step id) (fun _ _ => True) .start
      (addCall 0 ⟨.CMD_SENDDATA, 5⟩ ++ takeCommand ++ [Act.taskFinish]) s ∧
    s.live = ∅ ∧ s.freed = [0] ∧
    (Throughout (Payloads.step id) (Balanced id) .start
        (addCall 0 ⟨.CMD_SENDDATA, 5⟩ ++ takeCommand ++ [Act.taskFinish]) s ↔
      Run (Payloads.step id) (PurgesNoPayload id) .start
        (addCall 0 ⟨.CMD_SENDDATA, 5⟩ ++ takeCommand ++ [Act.taskFinish]) s) := by
  obtain ⟨s, run, hlive, hfreed⟩ : ∃ s : Payloads ℤ,
      Run (Payloads.step id) (fun _ _ => True) .start
        (addCall 0 ⟨.CMD_SENDDATA, 5⟩ ++ takeCommand ++ [Act.taskFinish]) s ∧
      (s.live = ∅ ∧ s.freed = [0]) :=
    exists_run (by decide +kernel)
  exact ⟨s, run, hlive, hfreed, payloads_balanced_iff run⟩

/-- A disconnect purges a queued `CMD_SENDDATA` and its buffer stays allocated. -/
theorem payloads_not_balanced : ¬ ∀ (acts : List (Act ℤ)) (s : Payloads ℤ),
    Run (Payloads.step id) (fun _ _ => True) .start acts s → Balanced id s := by
  intro claim
  obtain ⟨s, run, hlive, hnone⟩ : ∃ s : Payloads ℤ,
      Run (Payloads.step id) (fun _ _ => True) .start
        (addCall 0 ⟨.CMD_SENDDATA, 5⟩ ++ [Act.purgeLock (.disconnect 0),
          Act.purgeStep (.disconnect 0), Act.purgeUnlock (.disconnect 0)]) s ∧
      (0 ∈ s.live ∧ s.tasks.holders = []) :=
    exists_run (by decide +kernel)
  obtain ⟨e, he, -⟩ := ((claim _ s run).live 0).mp hlive
  rw [hnone] at he
  cases he

end Jagles.TaskQueue
