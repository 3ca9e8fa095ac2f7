import Jagles.CriticalSections
import Jagles.GuardedRuns

set_option autoImplicit false
set_option linter.dupNamespace false

/-!
# The command queue of a `JAConnect`

Producers call `AddCommand`, the task thread runs `HandleTaskThread`, and both
the task thread and the disconnect threads purge the queue in `DoDisconnect`. All
of them go through `mTaskLock`; `mRunThread` is cleared without it.
-/
namespace Jagles.TaskQueue
open CriticalSections

/-- The `CMD_` numbers of `JAConnect.h`. -/
inductive CommandNo where
  | CMD_CONNECT | CMD_OPENCHANNEL | CMD_CLOSECHANNEL | CMD_PTZSTART | CMD_PTZSTOP
  | CMD_SEARCHREC | CMD_STARTPLAYBACK | CMD_STOPPLAYBACK | CMD_DISCONNECT | CMD_OPENDATACHANNEL
  | CMD_CLOSEDATACHANNEL | CMD_SENDDATA | CMD_PLAYBACK_CONTINUE | CMD_PLAYBACK_PAUSE
  | CMD_DESTROY_VCON | CMD_CALL | CMD_HANG_UP | CMD_SEND_AUDIO | CMD_SEARCH_DEVICE
  | CMD_PULL_ALARMMSG
  deriving DecidableEq

def CommandNo.number (c : CommandNo) : ℤ := c.ctorIdx + 1

/-- The commands whose execution may come to `DoDisconnect`, the first two through
the failure branches of `ReConnect`. -/
def CommandNo.disconnects : CommandNo → Bool
  | .CMD_CONNECT | .CMD_OPENCHANNEL | .CMD_DISCONNECT => true
  | _ => false

section Lists
variable {α : Type*}

def insertAfter (v : α) : List α → ℕ → List α
  | [], _ => [v]
  | [x], _ => [x, v]
  | x :: y :: l, 0 => x :: v :: y :: l
  | x :: y :: l, k + 1 => x :: insertAfter v (y :: l) k

/-- `List::insert`; a negative index walks to the last item. -/
def insert (l : List α) (k : ℤ) (v : α) : List α :=
  insertAfter v l (if k < 0 then l.length else k.toNat)

def remove (l : List α) (k : ℕ) : List α := l.eraseIdx k

end Lists

/-- `args` stands for the fields of `JAConnect_Command` the queue does not look at. -/
structure Command (Args : Type*) where
  commandNo : CommandNo
  args : Args
  deriving DecidableEq

/-- A queued command with its number in the order of the calls of `AddCommand`. -/
abbrev Entry (Args : Type*) := Command Args × ℕ

inductive Thread where
  | task
  | producer (n : ℕ)
  | disconnect (n : ℕ)
  deriving DecidableEq

/-- Where a thread came to `DoDisconnect` from. -/
inductive Back (Args : Type*) where
  | outside
  | executing (e : Option (Entry Args)) (cmdcount : ℕ)

/-- Where a thread is. `idle` is the head of the task loop, and outside the queue's
code for the other threads. -/
inductive Pc (Args : Type*) where
  | idle
  | adding (c : Command Args)
  | added (e : Entry Args)
  | looking
  | took (e : Option (Entry Args))
  | sampled (e : Option (Entry Args)) (cmdcount : ℕ)
  | executing (e : Option (Entry Args)) (cmdcount : ℕ)
  | purging (i : ℕ) (q : List (Entry Args)) (back : Back Args)
  | testing (cmdcount : ℕ)
  | exited

def Back.pc {Args : Type*} : Back Args → Pc Args
  | .outside => .idle
  | .executing e cmdcount => .executing e cmdcount

def Pc.inside {Args : Type*} : Pc Args → Bool
  | .adding _ | .added _ | .looking | .took _ | .sampled _ _ | .purging _ _ _ => true
  | .idle | .executing _ _ | .testing _ | .exited => false

/-- `mTaskLock`, `mCommand` and `mRunThread` with the threads, and the history of
the run: the commands in the order they were enqueued, those executed, the queue
at the start of each purge, the entries whose `AddCommand` has returned, and those
that had returned when `mRunThread` was cleared. -/
structure Tasks (Args : Type*) where
  owner : Option Thread
  mCommand : List (Entry Args)
  mRunThread : Bool
  pc : Thread → Pc Args
  enqueued : List (Command Args)
  executed : List (Entry Args)
  purges : List (List (Entry Args))
  completed : List (Entry Args)
  due : List (Entry Args)

variable {Args : Type*}

def start : Tasks Args := ⟨none, [], true, fun _ => .idle, [], [], [], [], []⟩

inductive Act (Args : Type*) where
  | addLock (n : ℕ) (c : Command Args)
  | addInsert (n : ℕ)
  | addUnlock (n : ℕ)
  | taskLock
  | taskTake
  | taskRemove
  | taskUnlock
  | taskFinish
  | taskTest
  | purgeLock (th : Thread)
  | purgeStep (th : Thread)
  | purgeUnlock (th : Thread)
  | clearRun

def Tasks.goto (s : Tasks Args) (th : Thread) (pc : Pc Args) : Tasks Args :=
  { s with pc := Function.update s.pc th pc }

/-- Taking `mTaskLock` waits until it is free. -/
def Tasks.lock (s : Tasks Args) (th : Thread) (pc : Pc Args) : Option (Tasks Args) :=
  match s.owner with
  | none => some { s.goto th pc with owner := some th }
  | some _ => none

def Tasks.unlock (s : Tasks Args) (th : Thread) (pc : Pc Args) : Tasks Args :=
  { s.goto th pc with owner := none }

def purgeFrom : Thread → Pc Args → Option (Back Args)
  | .disconnect _, .idle => some .outside
  | .task, .executing (some e) cmdcount =>
    if e.1.commandNo.disconnects then some (.executing (some e) cmdcount) else none
  | _, _ => none

/-- The body of the purge loop at index `i`. -/
def purgeAt (q : List (Entry Args)) (i : ℕ) : List (Entry Args) :=
  match q[i]? with
  | some e => if e.1.commandNo ≠ .CMD_CONNECT then remove q i else q
  | none => q

def step (s : Tasks Args) : Act Args → Option (Tasks Args)
  | .addLock n c =>
    match s.pc (.producer n) with
    | .idle => s.lock (.producer n) (.adding c)
    | _ => none
  | .addInsert n =>
    match s.pc (.producer n) with
    | .adding c =>
      let e := (c, s.enqueued.length)
      some { s.goto (.producer n) (.added e) with
        mCommand := insert s.mCommand (-1) e
        enqueued := s.enqueued ++ [c] }
    | _ => none
  | .addUnlock n =>
    match s.pc (.producer n) with
    | .added e =>
      some { s.unlock (.producer n) .idle with completed := s.completed ++ [e] }
    | _ => none
  | .taskLock =>
    match s.pc .task with
    | .idle => s.lock .task .looking
    | _ => none
  | .taskTake =>
    match s.pc .task with
    | .looking => some (s.goto .task (.took s.mCommand.head?))
    | _ => none
  | .taskRemove =>
    match s.pc .task with
    | .took e =>
      let q := if e.isSome then remove s.mCommand 0 else s.mCommand
      some { s.goto .task (.sampled e q.length) with mCommand := q }
    | _ => none
  | .taskUnlock =>
    match s.pc .task with
    | .sampled e cmdcount =>
      some { s.unlock .task (.executing e cmdcount) with
        executed := s.executed ++ e.toList.filter fun e => 0 < e.1.commandNo.number }
    | _ => none
  | .taskFinish =>
    match s.pc .task with
    | .executing _ cmdcount => some (s.goto .task (.testing cmdcount))
    | _ => none
  | .taskTest =>
    match s.pc .task with
    | .testing cmdcount =>
      some (s.goto .task (if !s.mRunThread && cmdcount == 0 then .exited else .idle))
    | _ => none
  | .purgeLock th =>
    match purgeFrom th (s.pc th) with
    | some back =>
      (s.lock th (.purging s.mCommand.length s.mCommand back)).map fun t =>
        { t with purges := s.purges ++ [s.mCommand] }
    | none => none
  | .purgeStep th =>
    match s.pc th with
    | .purging (i + 1) q back =>
      some { s.goto th (.purging i q back) with mCommand := purgeAt s.mCommand i }
    | _ => none
  | .purgeUnlock th =>
    match s.pc th with
    | .purging 0 _ back => some (s.unlock th back.pc)
    | _ => none
  | .clearRun => if s.mRunThread then some { s with mRunThread := false, due := s.completed } else none

/-- The steps, one constructor for each way a step can go. -/
inductive Step (s : Tasks Args) : Act Args → Tasks Args → Prop where
  | addLock {n : ℕ} {c : Command Args} (hpc : s.pc (.producer n) = .idle)
      (free : s.owner = none) :
      Step s (.addLock n c)
        { s.goto (.producer n) (.adding c) with owner := some (.producer n) }
  | addInsert {n : ℕ} {c : Command Args} (hpc : s.pc (.producer n) = .adding c) :
      Step s (.addInsert n)
        { s.goto (.producer n) (.added (c, s.enqueued.length)) with
          mCommand := s.mCommand ++ [(c, s.enqueued.length)]
          enqueued := s.enqueued ++ [c] }
  | addUnlock {n : ℕ} {e : Entry Args} (hpc : s.pc (.producer n) = .added e) :
      Step s (.addUnlock n)
        { s.unlock (.producer n) .idle with completed := s.completed ++ [e] }
  | taskLock (hpc : s.pc .task = .idle) (free : s.owner = none) :
      Step s .taskLock { s.goto .task .looking with owner := some .task }
  | taskTake (hpc : s.pc .task = .looking) :
      Step s .taskTake (s.goto .task (.took s.mCommand.head?))
  | taskRemove {e : Option (Entry Args)} {q : List (Entry Args)} (hpc : s.pc .task = .took e)
      (hq : q = if e.isSome then s.mCommand.eraseIdx 0 else s.mCommand) :
      Step s .taskRemove { s.goto .task (.sampled e q.length) with mCommand := q }
  | taskUnlock {e : Option (Entry Args)} {cmdcount : ℕ}
      (hpc : s.pc .task = .sampled e cmdcount) :
      Step s .taskUnlock
        { s.unlock .task (.executing e cmdcount) with executed := s.executed ++ e.toList }
  | taskFinish {e : Option (Entry Args)} {cmdcount : ℕ}
      (hpc : s.pc .task = .executing e cmdcount) :
      Step s .taskFinish (s.goto .task (.testing cmdcount))
  | taskExit (hpc : s.pc .task = .testing 0) (stopped : s.mRunThread = false) :
      Step s .taskTest (s.goto .task .exited)
  | taskLoop {cmdcount : ℕ} (hpc : s.pc .task = .testing cmdcount) :
      Step s .taskTest (s.goto .task .idle)
  | purgeLock {th : Thread} {back : Back Args} (hpc : s.pc th = back.pc)
      (free : s.owner = none) :
      Step s (.purgeLock th)
        { s.goto th (.purging s.mCommand.length s.mCommand back) with
          owner := some th
          purges := s.purges ++ [s.mCommand] }
  | purgeStep {th : Thread} {i : ℕ} {q : List (Entry Args)} {back : Back Args}
      (hpc : s.pc th = .purging (i + 1) q back) :
      Step s (.purgeStep th)
        { s.goto th (.purging i q back) with mCommand := purgeAt s.mCommand i }
  | purgeUnlock {th : Thread} {q : List (Entry Args)} {back : Back Args}
      (hpc : s.pc th = .purging 0 q back) : Step s (.purgeUnlock th) (s.unlock th back.pc)
  | clearRun (running : s.mRunThread = true) :
      Step s .clearRun { s with mRunThread := false, due := s.completed }

theorem CommandNo.number_pos (c : CommandNo) : 0 < c.number := by
  unfold CommandNo.number
  omega

theorem insertAfter_last {α : Type*} (v : α) (l : List α) {k : ℕ} (h : l.length ≤ k + 1) :
    insertAfter v l k = l ++ [v] := by
  induction l generalizing k with
  | nil => simp [insertAfter]
  | cons x l ih =>
    cases l with
    | nil => simp [insertAfter]
    | cons y l =>
      cases k with
      | zero => simp at h
      | succ k =>
        simp only [insertAfter, List.cons_append, List.cons.injEq, true_and]
        apply ih
        simpa using h

theorem insert_back {α : Type*} (l : List α) (v : α) : insert l (-1) v = l ++ [v] := by
  unfold insert
  rw [if_pos (by omega)]
  exact insertAfter_last v l (by omega)

theorem lock_eq_some {s t : Tasks Args} {th : Thread} {pc : Pc Args} (h : s.lock th pc = some t) :
    s.owner = none ∧ t = { s.goto th pc with owner := some th } := by
  unfold Tasks.lock at h
  cases ho : s.owner with
  | none =>
    simp only [ho] at h
    exact ⟨rfl, (Option.some.inj h).symm⟩
  | some u => simp [ho] at h

theorem purgeFrom_pc {th : Thread} {pc : Pc Args} {back : Back Args}
    (h : purgeFrom th pc = some back) : pc = back.pc := by
  unfold purgeFrom at h
  split at h
  · cases h
    rfl
  · split at h
    · cases h
      rfl
    · cases h
  · cases h

/-- What a step can do. -/
theorem step_cases {s t : Tasks Args} {a : Act Args} (h : step s a = some t) : Step s a t := by
  cases a with
  | addLock n c =>
    simp only [step] at h
    split at h
    · rename_i hpc
      obtain ⟨free, rfl⟩ := lock_eq_some h
      exact .addLock hpc free
    · cases h
  | addInsert n =>
    simp only [step] at h
    split at h
    · rename_i c hpc
      rw [insert_back] at h
      cases h
      exact .addInsert hpc
    · cases h
  | addUnlock n =>
    simp only [step] at h
    split at h
    · rename_i e hpc
      cases h
      exact .addUnlock hpc
    · cases h
  | taskLock =>
    simp only [step] at h
    split at h
    · rename_i hpc
      obtain ⟨free, rfl⟩ := lock_eq_some h
      exact .taskLock hpc free
    · cases h
  | taskTake =>
    simp only [step] at h
    split at h
    · rename_i hpc
      cases h
      exact .taskTake hpc
    · cases h
  | taskRemove =>
    simp only [step] at h
    split at h
    · rename_i e hpc
      cases h
      exact .taskRemove hpc rfl
    · cases h
  | taskUnlock =>
    simp only [step] at h
    split at h
    · rename_i e cmdcount hpc
      have hall : (e.toList.filter fun e => decide (0 < e.1.commandNo.number)) = e.toList := by
        apply List.filter_eq_self.mpr
        intro e _
        exact decide_eq_true (CommandNo.number_pos _)
      rw [hall] at h
      cases h
      exact .taskUnlock hpc
    · cases h
  | taskFinish =>
    simp only [step] at h
    split at h
    · rename_i e cmdcount hpc
      cases h
      exact .taskFinish hpc
    · cases h
  | taskTest =>
    simp only [step] at h
    split at h
    · rename_i cmdcount hpc
      cases h
      by_cases hexit : s.mRunThread = false ∧ cmdcount = 0
      · obtain ⟨hstop, rfl⟩ := hexit
        simp only [hstop]
        exact .taskExit hpc hstop
      · have hno : (!s.mRunThread && cmdcount == 0) = false := by
          simpa using hexit
        simp only [hno]
        exact .taskLoop hpc
    · cases h
  | purgeLock th =>
    simp only [step] at h
    split at h
    · rename_i back hback
      obtain ⟨t', ht', rfl⟩ := Option.map_eq_some_iff.mp h
      obtain ⟨free, rfl⟩ := lock_eq_some ht'
      exact .purgeLock (purgeFrom_pc hback) free
    · cases h
  | purgeStep th =>
    simp only [step] at h
    split at h
    · rename_i i q back hpc
      cases h
      exact .purgeStep hpc
    · cases h
  | purgeUnlock th =>
    simp only [step] at h
    split at h
    · rename_i q back hpc
      cases h
      exact .purgeUnlock hpc
    · cases h
  | clearRun =>
    simp only [step] at h
    split at h
    · rename_i hrun
      cases h
      exact .clearRun hrun
    · cases h

def keeps (e : Entry Args) : Bool := decide (e.1.commandNo = .CMD_CONNECT)

def purgedDownTo (q : List (Entry Args)) (i : ℕ) : List (Entry Args) :=
  q.take i ++ (q.drop i).filter keeps

theorem purgeAt_purgedDownTo (q : List (Entry Args)) {i : ℕ} (h : i < q.length) :
    purgeAt (purgedDownTo q (i + 1)) i = purgedDownTo q i := by
  obtain ⟨e, he⟩ : ∃ e, q[i]? = some e := ⟨_, List.getElem?_eq_getElem h⟩
  obtain ⟨hlt, hget⟩ := List.getElem?_eq_some_iff.mp he
  have htake : q.take (i + 1) = q.take i ++ [e] := by
    rw [List.take_add_one, he]
    rfl
  have hdrop : q.drop i = e :: q.drop (i + 1) := by
    rw [List.drop_eq_getElem_cons hlt, hget]
  have hlen : (q.take i).length = i := by
    rw [List.length_take]
    omega
  have hat : (purgedDownTo q (i + 1))[i]? = some e := by
    unfold purgedDownTo
    rw [htake, List.append_assoc, List.getElem?_append_right (by omega), hlen]
    simp
  unfold purgeAt
  rw [hat]
  by_cases hk : e.1.commandNo = .CMD_CONNECT
  · simp [purgedDownTo, hk, htake, hdrop, keeps]
  · simp only [hk, ne_eq, not_false_eq_true, if_true, remove, purgedDownTo, htake, hdrop]
    rw [List.append_assoc, List.eraseIdx_append_of_length_le (by omega), hlen]
    simp [keeps, hk]

theorem purgeAt_sublist (q : List (Entry Args)) (i : ℕ) : (purgeAt q i).Sublist q := by
  unfold purgeAt
  split
  · split
    · exact List.eraseIdx_sublist _ _
    · exact List.Sublist.refl _
  · exact List.Sublist.refl _

theorem purgedDownTo_length (q : List (Entry Args)) : purgedDownTo q q.length = q := by
  simp [purgedDownTo]

theorem purgedDownTo_zero (q : List (Entry Args)) : purgedDownTo q 0 = q.filter keeps := by
  simp [purgedDownTo]

end Jagles.TaskQueue
