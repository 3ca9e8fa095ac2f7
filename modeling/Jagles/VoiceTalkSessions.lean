import Jagles.Pipelines
import Jagles.VoiceTalk

set_option autoImplicit false
set_option linter.dupNamespace false

/-!
# Intercom sessions

Packets pass from the record tasks through the queue to the send tasks; a recorder is usable
only while it is the current one; a session is hung up by its own send task.
-/
namespace Jagles.VoiceTalk
open GuardedRuns Pipelines

/-- What a record task has read and not yet queued. -/
def RecordAt.pending : RecordAt → Option ℕ
  | .encode n => some n
  | .add packet => some packet
  | _ => none

/-- The send task has hung up. -/
def SendAt.over : SendAt → Bool
  | .clear | .done => true
  | _ => false

/-- `endTalking` does not hang up itself once the call of the session has succeeded; a send
task sends a packet only when no other one still holds an earlier packet; a record task makes
a recorder only while the talking goes on and there is none, encodes what it has read and
queues it before any later read is queued. -/
def InTurn (s : VoiceHelper) : Label → Prop
  | .ui => s.uiAt = .hangUp → s.called (s.sessions - 1) = false
  | .send k _ =>
    match s.sendAt k with
    | .send p => ∀ j < s.sessions, ∀ q, s.sendAt j = .send q → p ≤ q
    | _ => True
  | .record k _ _ =>
    match s.recordAt k with
    | .make => s.isRecord = true ∧ s.mRecorder = none
    | .encode n => s.pcm = n
    | .add p => ∀ j < s.sessions, ∀ n, (s.recordAt j).pending = some n → p ≤ n
    | _ => True
  | _ => True

/-! ## Tasks -/

structure Tasks (uiAt : UiAt) (sessions : ℕ) (sendAt : ℕ → SendAt) (recordAt : ℕ → RecordAt)
    (called : ℕ → Bool) : Prop where
  send : ∀ j, sendAt j ≠ .absent → j < sessions
  record : ∀ j, recordAt j ≠ .absent → j < sessions
  execute : ∀ k, uiAt = .executeRecord k → k < sessions
  called : ∀ k, called k = true → sendAt k ≠ .absent ∧ sendAt k ≠ .call

section tasks

variable {uiAt uiAt' : UiAt} {sessions k : ℕ} {sendAt : ℕ → SendAt} {recordAt : ℕ → RecordAt}
  {called called' : ℕ → Bool}

theorem Tasks.goSend (h : Tasks uiAt sessions sendAt recordAt called) (hk : sendAt k ≠ .absent)
    {p : SendAt} (hp : p ≠ .absent ∧ p ≠ .call)
    (hcalled : ∀ j, j ≠ k → called' j = true → called j = true) :
    Tasks uiAt sessions (Function.update sendAt k p) recordAt called' where
  send j hj := by
    by_cases heq : j = k
    · exact heq ▸ h.send k hk
    · rw [Function.update_of_ne heq] at hj
      exact h.send j hj
  record := h.record
  execute := h.execute
  called j hj := by
    by_cases heq : j = k
    · subst heq
      rw [Function.update_self]
      exact hp
    · rw [Function.update_of_ne heq]
      exact h.called j (hcalled j heq hj)

theorem Tasks.goRecord (h : Tasks uiAt sessions sendAt recordAt called)
    (hk : recordAt k ≠ .absent) (p : RecordAt) :
    Tasks uiAt sessions sendAt (Function.update recordAt k p) called where
  send := h.send
  record j hj := by
    by_cases heq : j = k
    · exact heq ▸ h.record k hk
    · rw [Function.update_of_ne heq] at hj
      exact h.record j hj
  execute := h.execute
  called := h.called

theorem Tasks.ui (h : Tasks uiAt sessions sendAt recordAt called)
    (hne : ∀ k, uiAt' ≠ .executeRecord k) : Tasks uiAt' sessions sendAt recordAt called :=
  ⟨h.send, h.record, fun k hk => absurd hk (hne k), h.called⟩

theorem Tasks.executeSend (h : Tasks uiAt sessions sendAt recordAt called) :
    Tasks (.executeRecord sessions) (sessions + 1) (Function.update sendAt sessions .call)
      recordAt called where
  send j hj := by
    by_cases heq : j = sessions
    · omega
    · rw [Function.update_of_ne heq] at hj
      exact (h.send j hj).trans (Nat.lt_succ_self _)
  record j hj := (h.record j hj).trans (Nat.lt_succ_self _)
  execute k hk := by
    obtain rfl := UiAt.executeRecord.inj hk
    exact Nat.lt_succ_self _
  called j hj := by
    have hlt : j < sessions := h.send j (h.called j hj).1
    rw [Function.update_of_ne hlt.ne]
    exact h.called j hj

theorem Tasks.executeRecord (h : Tasks (.executeRecord k) sessions sendAt recordAt called) :
    Tasks .idle sessions sendAt (Function.update recordAt k .flag) called where
  send := h.send
  record j hj := by
    by_cases heq : j = k
    · exact heq ▸ h.execute k rfl
    · rw [Function.update_of_ne heq] at hj
      exact h.record j hj
  execute j hj := by cases hj
  called := h.called

end tasks

/-! ## Hang-ups -/

/-- A session is hung up once, by its own send task, when its call has succeeded. -/
def Counts (sendAt : ℕ → SendAt) (called : ℕ → Bool) (hangUps : ℕ → ℕ) : Prop :=
  ∀ k, hangUps k = if (sendAt k).over ∧ called k then 1 else 0

section counts

variable {sendAt : ℕ → SendAt} {called : ℕ → Bool} {hangUps : ℕ → ℕ} {k : ℕ} {p : SendAt}

theorem Counts.go (h : Counts sendAt called hangUps) (hp : p.over = (sendAt k).over) :
    Counts (Function.update sendAt k p) called hangUps := by
  intro j
  by_cases heq : j = k
  · subst heq
    rw [Function.update_self, hp]
    exact h j
  · rw [Function.update_of_ne heq]
    exact h j

theorem Counts.call (h : Counts sendAt called hangUps) (hk : (sendAt k).over = false)
    (hp : p.over = false) :
    Counts (Function.update sendAt k p) (Function.update called k true) hangUps := by
  intro j
  by_cases heq : j = k
  · subst heq
    have hj := h j
    rw [hk] at hj
    rw [Function.update_self, hp]
    exact hj
  · rw [Function.update_of_ne heq, Function.update_of_ne heq]
    exact h j

theorem Counts.hangUp (h : Counts sendAt called hangUps) (hk : (sendAt k).over = false)
    (hp : p.over = true) :
    Counts (Function.update sendAt k p) called
      (Function.update hangUps k (hangUps k + if called k then 1 else 0)) := by
  intro j
  by_cases heq : j = k
  · subst heq
    have hj := h j
    simp only [hk, Bool.false_eq_true, false_and, if_false] at hj
    simp [hj, hp]
  · rw [Function.update_of_ne heq, Function.update_of_ne heq]
    exact h j

theorem Counts.handUp (h : Counts sendAt called hangUps) (hk : called k = false) :
    Counts sendAt called (Function.update hangUps k (hangUps k + if called k then 1 else 0)) := by
  rw [hk, if_neg Bool.false_ne_true, Nat.add_zero, Function.update_eq_self]
  exact h

end counts

/-! ## The recorder -/

def AtUi (mRecorder : Option ℕ) (usable : ℕ → Bool) (isRecord : Bool) (sessions : ℕ) :
    UiAt → Prop
  | .idle => isRecord = false → mRecorder = none ∨ sessions = 0
  | .executeSend | .executeRecord _ => isRecord = true
  | .stopRecord | .test | .stop | .release => isRecord = false
  | .forget | .hangUp | .drop => isRecord = false ∧ ∀ r, usable r = false
  | .stopSend => isRecord = false ∧ mRecorder = none
  | .flag | .unflag => True

/-- No recorder but the current one is usable, and there is none after `endTalking`. -/
structure Mic (mRecorder : Option ℕ) (usable : ℕ → Bool) (uiAt : UiAt) (isRecord : Bool)
    (sessions startedLate : ℕ) : Prop where
  current : ∀ r, usable r = true → mRecorder = some r
  ui : AtUi mRecorder usable isRecord sessions uiAt
  late : startedLate = 0

section mic

variable {mRecorder : Option ℕ} {usable : ℕ → Bool} {uiAt : UiAt} {isRecord : Bool}
  {sessions startedLate : ℕ}

theorem Mic.unusable (h : Mic none usable uiAt isRecord sessions startedLate) (r : ℕ) :
    usable r = false := by
  by_contra hr
  have hcurrent := h.current r (by simpa using hr)
  cases hcurrent

theorem Mic.make (h : Mic none usable uiAt true sessions startedLate) (r : ℕ) (ok : Bool) :
    Mic (some r) (Function.update usable r ok) uiAt true sessions startedLate where
  current r' hr' := by
    by_cases heq : r' = r
    · rw [heq]
    · rw [Function.update_of_ne heq, h.unusable r'] at hr'
      cases hr'
  ui := by
    have hui := h.ui
    cases uiAt with
    | idle => exact fun hrec => absurd hrec (by simp)
    | executeSend | executeRecord k => exact hui
    | flag | unflag => trivial
    | stopRecord | test | stop | release => cases hui
    | forget | hangUp | drop | stopSend => cases hui.1
  late := h.late

/-- A recorder that starts is usable, and after `endTalking` none is. -/
theorem Mic.start (h : Mic mRecorder usable uiAt isRecord sessions startedLate) {r : ℕ}
    (hr : usable r = true) (hsessions : sessions ≠ 0) :
    Mic mRecorder usable uiAt isRecord sessions
      (startedLate + if uiAt = .idle ∧ isRecord = false then 1 else 0) where
  current := h.current
  ui := h.ui
  late := by
    rw [h.late, if_neg]
    rintro ⟨rfl, hrec⟩
    rcases h.ui hrec with hnone | hzero
    · rw [h.current r hr] at hnone
      cases hnone
    · exact hsessions hzero

theorem Mic.goUi (h : Mic mRecorder usable uiAt isRecord sessions startedLate) {uiAt' : UiAt}
    {isRecord' : Bool} {sessions' : ℕ} (hui : AtUi mRecorder usable isRecord' sessions' uiAt') :
    Mic mRecorder usable uiAt' isRecord' sessions' startedLate :=
  ⟨h.current, hui, h.late⟩

/-- If the current recorder is not usable, none is. -/
theorem Mic.none_usable (h : Mic mRecorder usable uiAt isRecord sessions startedLate)
    (hstop : ¬ mRecorder.any usable = true) (r : ℕ) : usable r = false := by
  by_contra hr
  have husable : usable r = true := by simpa using hr
  rw [h.current r husable] at hstop
  exact hstop husable

theorem Mic.released {r : ℕ} (h : Mic (some r) usable uiAt isRecord sessions startedLate)
    (r' : ℕ) : Function.update usable r false r' = false := by
  by_contra hr'
  by_cases heq : r' = r
  · subst heq
    simp at hr'
  · rw [Function.update_of_ne heq] at hr'
    have hcurrent := h.current r' (by simpa using hr')
    exact heq (Option.some.inj hcurrent).symm

/-- When no recorder is usable, any may be the current one. -/
theorem Mic.forget (h : Mic mRecorder usable uiAt isRecord sessions startedLate)
    {mRecorder' : Option ℕ} {usable' : ℕ → Bool} (hnone : ∀ r, usable' r = false) {uiAt' : UiAt}
    (hui : AtUi mRecorder' usable' isRecord sessions uiAt') :
    Mic mRecorder' usable' uiAt' isRecord sessions startedLate :=
  ⟨fun r hr => absurd (hr.symm.trans (hnone r)) (by simp), hui, h.late⟩

end mic

/-! ## The order of the packets -/

/-- From the last stage to the first: sent, held by a send task, queued, held by a record
task. -/
def Stage (sent : List ℕ) (sendAt : ℕ → SendAt) (audioQueue : List ℕ)
    (recordAt : ℕ → RecordAt) : ℕ → ℕ → Prop
  | 0, a => a ∈ sent
  | 1, a => ∃ j, sendAt j = .send a
  | 2, a => a ∈ audioQueue
  | 3, a => ∃ j, (recordAt j).pending = some a
  | _, _ => False

structure Ordered (sent : List ℕ) (sendAt : ℕ → SendAt) (audioQueue : List ℕ)
    (recordAt : ℕ → RecordAt) (reads : ℕ) : Prop where
  below : Below (Stage sent sendAt audioQueue recordAt)
  sorted : sent.Pairwise (· < ·)
  queue : audioQueue.Pairwise (· < ·)
  held : ∀ j j' p, sendAt j = .send p → sendAt j' = .send p → j = j'
  pending : ∀ j j' n, (recordAt j).pending = some n → (recordAt j').pending = some n → j = j'
  reads : ∀ i a, Stage sent sendAt audioQueue recordAt i a → a ≤ reads

section ordered

variable {sent : List ℕ} {sendAt : ℕ → SendAt} {audioQueue audioQueue' : List ℕ}
  {recordAt : ℕ → RecordAt} {reads k packet : ℕ}

theorem eq_of_update_send {p : SendAt} {j a : ℕ} (hp : ∀ q, p ≠ .send q)
    (h : Function.update sendAt k p j = .send a) : j ≠ k ∧ sendAt j = .send a := by
  by_cases heq : j = k
  · subst heq
    rw [Function.update_self] at h
    exact absurd h (hp a)
  · rw [Function.update_of_ne heq] at h
    exact ⟨heq, h⟩

theorem eq_of_update_pending {p : RecordAt} {j a : ℕ} (hp : p.pending = none)
    (h : (Function.update recordAt k p j).pending = some a) :
    j ≠ k ∧ (recordAt j).pending = some a := by
  by_cases heq : j = k
  · subst heq
    rw [Function.update_self, hp] at h
    cases h
  · rw [Function.update_of_ne heq] at h
    exact ⟨heq, h⟩

theorem Ordered.goSend (h : Ordered sent sendAt audioQueue recordAt reads) {p : SendAt}
    (hp : ∀ q, p ≠ .send q) (hqueue : audioQueue'.Sublist audioQueue) :
    Ordered sent (Function.update sendAt k p) audioQueue' recordAt reads := by
  have hstage : ∀ i a, Stage sent (Function.update sendAt k p) audioQueue' recordAt i a →
      Stage sent sendAt audioQueue recordAt i a := by
    intro i a ha
    match i, ha with
    | 0, ha => exact ha
    | 1, ⟨j, hj⟩ => exact ⟨j, (eq_of_update_send hp hj).2⟩
    | 2, ha => exact hqueue.subset ha
    | 3, ha => exact ha
  exact ⟨h.below.mono hstage, h.sorted, h.queue.sublist hqueue,
    fun j j' q hj hj' => h.held j j' q (eq_of_update_send hp hj).2 (eq_of_update_send hp hj').2,
    h.pending, fun i a ha => h.reads i a (hstage i a ha)⟩

theorem Ordered.goRecord (h : Ordered sent sendAt audioQueue recordAt reads) {p : RecordAt}
    {reads' : ℕ} (hp : p.pending = none) (hqueue : audioQueue'.Sublist audioQueue)
    (hreads : reads ≤ reads') :
    Ordered sent sendAt audioQueue' (Function.update recordAt k p) reads' := by
  have hstage : ∀ i a, Stage sent sendAt audioQueue' (Function.update recordAt k p) i a →
      Stage sent sendAt audioQueue recordAt i a := by
    intro i a ha
    match i, ha with
    | 0, ha => exact ha
    | 1, ha => exact ha
    | 2, ha => exact hqueue.subset ha
    | 3, ⟨j, hj⟩ => exact ⟨j, (eq_of_update_pending hp hj).2⟩
  exact ⟨h.below.mono hstage, h.sorted, h.queue.sublist hqueue, h.held,
    fun j j' n hj hj' =>
      h.pending j j' n (eq_of_update_pending hp hj).2 (eq_of_update_pending hp hj').2,
    fun i a ha => (h.reads i a (hstage i a ha)).trans hreads⟩

/-- The send task takes the first packet of the queue. -/
theorem Ordered.poll (h : Ordered sent sendAt (packet :: audioQueue) recordAt reads) :
    Ordered sent (Function.update sendAt k (.send packet)) audioQueue recordAt reads := by
  have hfirst : Stage sent sendAt (packet :: audioQueue) recordAt 2 packet :=
    List.mem_cons_self
  have hheld : ∀ j a, Function.update sendAt k (.send packet) j = .send a →
      j = k ∧ a = packet ∨ j ≠ k ∧ sendAt j = .send a := by
    intro j a hj
    by_cases heq : j = k
    · subst heq
      rw [Function.update_self] at hj
      exact .inl ⟨rfl, (SendAt.send.inj hj).symm⟩
    · rw [Function.update_of_ne heq] at hj
      exact .inr ⟨heq, hj⟩
  have hstage : ∀ i a, Stage sent (Function.update sendAt k (.send packet)) audioQueue recordAt i a →
      Stage sent sendAt (packet :: audioQueue) recordAt i a ∨ i = 1 ∧ a = packet := by
    intro i a ha
    match i, ha with
    | 0, ha => exact .inl ha
    | 1, ⟨j, hj⟩ => exact (hheld j a hj).elim (fun h => .inr ⟨rfl, h.2⟩) fun h => .inl ⟨j, h.2⟩
    | 2, ha => exact .inl (List.mem_cons_of_mem _ ha)
    | 3, ha => exact .inl ha
  -- whoever holds a packet already holds one that was before this one in the queue
  have hother : ∀ j, sendAt j ≠ .send packet := fun j hj =>
    absurd (h.below 1 2 packet packet (by omega) ⟨j, hj⟩ hfirst) (lt_irrefl _)
  refine ⟨h.below.move hfirst hstage (List.pairwise_cons.mp h.queue).1, h.sorted,
    (List.pairwise_cons.mp h.queue).2, ?_, h.pending, ?_⟩
  · intro j j' p hj hj'
    rcases hheld j p hj with ⟨rfl, rfl⟩ | ⟨-, hjs⟩ <;> rcases hheld j' _ hj' with ⟨rfl, hp⟩ | ⟨-, hjs'⟩
    · rfl
    · exact absurd hjs' (hother j')
    · exact absurd (hp ▸ hjs) (hother j)
    · exact h.held j j' p hjs hjs'
  · intro i a ha
    rcases hstage i a ha with hold | ⟨-, rfl⟩
    · exact h.reads i a hold
    · exact h.reads 2 a hfirst

theorem Ordered.send (h : Ordered sent sendAt audioQueue recordAt reads)
    (hk : sendAt k = .send packet) (hleast : ∀ j q, sendAt j = .send q → packet ≤ q) {p : SendAt}
    (hp : ∀ q, p ≠ .send q) :
    Ordered (sent ++ [packet]) (Function.update sendAt k p) audioQueue recordAt reads := by
  have hheld : Stage sent sendAt audioQueue recordAt 1 packet := ⟨k, hk⟩
  have hstage : ∀ i a, Stage (sent ++ [packet]) (Function.update sendAt k p) audioQueue recordAt i a →
      Stage sent sendAt audioQueue recordAt i a ∨ i = 0 ∧ a = packet := by
    intro i a ha
    match i, ha with
    | 0, ha => exact (List.mem_append.mp ha).imp id fun hm => ⟨rfl, List.mem_singleton.mp hm⟩
    | 1, ⟨j, hj⟩ => exact .inl ⟨j, (eq_of_update_send hp hj).2⟩
    | 2, ha => exact .inl ha
    | 3, ha => exact .inl ha
  refine ⟨h.below.move hheld hstage ?_, ?_, h.queue,
    fun j j' q hj hj' => h.held j j' q (eq_of_update_send hp hj).2 (eq_of_update_send hp hj').2,
    h.pending, ?_⟩
  · rintro b ⟨j, hj⟩
    obtain ⟨hne, hb⟩ := eq_of_update_send hp hj
    refine lt_of_le_of_ne (hleast j b hb) ?_
    rintro rfl
    exact hne (h.held j k packet hb hk)
  · refine List.pairwise_append.mpr ⟨h.sorted, List.pairwise_singleton _ _, ?_⟩
    intro a ha b hb
    obtain rfl := List.mem_singleton.mp hb
    exact h.below 0 1 a b (by omega) ha hheld
  · intro i a ha
    rcases hstage i a ha with hold | ⟨-, rfl⟩
    · exact h.reads i a hold
    · exact h.reads 1 a hheld

theorem update_pending {n : ℕ} {p : RecordAt} (hp : p.pending = some n) {j a : ℕ}
    (h : (Function.update recordAt k p j).pending = some a) :
    j = k ∧ a = n ∨ j ≠ k ∧ (recordAt j).pending = some a := by
  by_cases heq : j = k
  · subst heq
    rw [Function.update_self, hp] at h
    exact .inl ⟨rfl, (Option.some.inj h).symm⟩
  · rw [Function.update_of_ne heq] at h
    exact .inr ⟨heq, h⟩

/-- A read has a number greater than all before it. -/
theorem Ordered.read (h : Ordered sent sendAt audioQueue recordAt reads) :
    Ordered sent sendAt audioQueue (Function.update recordAt k (.encode (reads + 1)))
      (reads + 1) := by
  have hstage : ∀ i a,
      Stage sent sendAt audioQueue (Function.update recordAt k (.encode (reads + 1))) i a →
      Stage sent sendAt audioQueue recordAt i a ∨ i = 3 ∧ a = reads + 1 := by
    intro i a ha
    match i, ha with
    | 0, ha => exact .inl ha
    | 1, ha => exact .inl ha
    | 2, ha => exact .inl ha
    | 3, ⟨j, hj⟩ =>
      exact (update_pending rfl hj).elim (fun h => .inr ⟨rfl, h.2⟩) fun h => .inl ⟨j, h.2⟩
  have hnew : ∀ j, (recordAt j).pending ≠ some (reads + 1) := fun j hj =>
    absurd (h.reads 3 _ ⟨j, hj⟩) (by omega)
  refine ⟨h.below.enter hstage (fun i a ha => Nat.lt_succ_of_le (h.reads i a ha)) ?_, h.sorted,
    h.queue, h.held, ?_, ?_⟩
  · intro j b hb
    match j, hb with
    | 0, _ | 1, _ | 2, _ | 3, _ => omega
  · intro j j' n hj hj'
    rcases update_pending rfl hj with ⟨rfl, rfl⟩ | ⟨-, hjs⟩ <;>
      rcases update_pending rfl hj' with ⟨rfl, hn⟩ | ⟨-, hjs'⟩
    · rfl
    · exact absurd hjs' (hnew j')
    · exact absurd (hn ▸ hjs) (hnew j)
    · exact h.pending j j' n hjs hjs'
  · intro i a ha
    rcases hstage i a ha with hold | ⟨-, rfl⟩
    · exact (h.reads i a hold).trans (Nat.le_succ _)
    · exact le_rfl

theorem Ordered.encode (h : Ordered sent sendAt audioQueue recordAt reads) {n : ℕ}
    (hk : (recordAt k).pending = some n) {p : RecordAt} (hp : p.pending = some n) :
    Ordered sent sendAt audioQueue (Function.update recordAt k p) reads := by
  have hpending : ∀ j, (Function.update recordAt k p j).pending = (recordAt j).pending := by
    intro j
    by_cases heq : j = k
    · subst heq
      rw [Function.update_self, hp, hk]
    · rw [Function.update_of_ne heq]
  have hstage : ∀ i a, Stage sent sendAt audioQueue (Function.update recordAt k p) i a →
      Stage sent sendAt audioQueue recordAt i a := by
    intro i a ha
    match i, ha with
    | 0, ha => exact ha
    | 1, ha => exact ha
    | 2, ha => exact ha
    | 3, ⟨j, hj⟩ => exact ⟨j, hpending j ▸ hj⟩
  exact ⟨h.below.mono hstage, h.sorted, h.queue, h.held,
    fun j j' m hj hj' => h.pending j j' m (hpending j ▸ hj) (hpending j' ▸ hj'),
    fun i a ha => h.reads i a (hstage i a ha)⟩

theorem Ordered.add (h : Ordered sent sendAt audioQueue recordAt reads)
    (hk : (recordAt k).pending = some packet)
    (hleast : ∀ j n, (recordAt j).pending = some n → packet ≤ n) {p : RecordAt}
    (hp : p.pending = none) :
    Ordered sent sendAt (audioQueue ++ [packet]) (Function.update recordAt k p) reads := by
  have hheld : Stage sent sendAt audioQueue recordAt 3 packet := ⟨k, hk⟩
  have hstage : ∀ i a,
      Stage sent sendAt (audioQueue ++ [packet]) (Function.update recordAt k p) i a →
      Stage sent sendAt audioQueue recordAt i a ∨ i = 2 ∧ a = packet := by
    intro i a ha
    match i, ha with
    | 0, ha => exact .inl ha
    | 1, ha => exact .inl ha
    | 2, ha => exact (List.mem_append.mp ha).imp id fun hm => ⟨rfl, List.mem_singleton.mp hm⟩
    | 3, ⟨j, hj⟩ => exact .inl ⟨j, (eq_of_update_pending hp hj).2⟩
  refine ⟨h.below.move hheld hstage ?_, h.sorted, ?_, h.held,
    fun j j' n hj hj' =>
      h.pending j j' n (eq_of_update_pending hp hj).2 (eq_of_update_pending hp hj').2, ?_⟩
  · rintro b ⟨j, hj⟩
    obtain ⟨hne, hb⟩ := eq_of_update_pending hp hj
    refine lt_of_le_of_ne (hleast j b hb) ?_
    rintro rfl
    exact hne (h.pending j k packet hb hk)
  · refine List.pairwise_append.mpr ⟨h.queue, List.pairwise_singleton _ _, ?_⟩
    intro a ha b hb
    obtain rfl := List.mem_singleton.mp hb
    exact h.below 2 3 a b (by omega) ha hheld
  · intro i a ha
    rcases hstage i a ha with hold | ⟨-, rfl⟩
    · exact h.reads i a hold
    · exact h.reads 3 a hheld

end ordered

/-! ## Steps -/

structure Kept (s : VoiceHelper) : Prop where
  tasks : Tasks s.uiAt s.sessions s.sendAt s.recordAt s.called
  counts : Counts s.sendAt s.called s.hangUps
  mic : Mic s.mRecorder s.usable s.uiAt s.isRecord s.sessions s.startedLate
  ordered : Ordered s.sent s.sendAt s.audioQueue s.recordAt s.reads

section steps

variable {s t : VoiceHelper}

/-- A step of the send task that neither calls, hangs up nor touches a packet. -/
theorem Kept.goSend (h : Kept s) {k : ℕ} (hk : s.sendAt k ≠ .absent) {p : SendAt}
    (hp : p ≠ .absent ∧ p ≠ .call) (hover : p.over = (s.sendAt k).over)
    (hsend : ∀ q, p ≠ .send q) {queue : List ℕ} (hqueue : queue.Sublist s.audioQueue) (b : Bool) :
    Kept { s.goSend k p with isSendAudio := b, audioQueue := queue } :=
  ⟨h.tasks.goSend hk hp fun _ _ => id, h.counts.go hover, h.mic, h.ordered.goSend hsend hqueue⟩

/-- Such a step before the hang-up. -/
theorem Kept.moveSend (h : Kept s) {k : ℕ} {p₀ : SendAt} (hk : s.sendAt k = p₀)
    (h₀ : p₀ ≠ .absent ∧ p₀.over = false) {p : SendAt} (hp : p ≠ .absent ∧ p ≠ .call)
    (hover : p.over = false) (hsend : ∀ q, p ≠ .send q) (b : Bool) :
    Kept { s.goSend k p with isSendAudio := b } :=
  h.goSend (hk ▸ h₀.1) hp (by rw [hk, h₀.2, hover]) hsend (List.Sublist.refl _) b

theorem Kept.send (h : Kept s) {k : ℕ} {ret : ℤ} (hc : InTurn s (.send k ret))
    (hs : s.send k ret = some t) : Kept t := by
  unfold VoiceHelper.send at hs
  cases hp : s.sendAt k with
  | absent => simp [hp] at hs
  | done => simp [hp] at hs
  | call =>
    simp only [hp] at hs
    split at hs
    · obtain rfl := Option.some.inj hs
      exact ⟨h.tasks.goSend (by simp [hp]) (by simp)
          fun j hne hj => by simpa [Function.update_of_ne hne] using hj,
        h.counts.call (by rw [hp]; rfl) rfl, h.mic,
        h.ordered.goSend (by simp) (List.Sublist.refl _)⟩
    · obtain rfl := Option.some.inj hs
      exact h.moveSend hp (by simp [SendAt.over]) (by simp) rfl (by simp) _
  | enable =>
    simp only [hp, Option.some.injEq] at hs
    subst hs
    exact h.moveSend hp (by simp [SendAt.over]) (by simp) rfl (by simp) _
  | loop =>
    simp only [hp, Option.some.injEq] at hs
    subst hs
    split
    · exact h.moveSend hp (by simp [SendAt.over]) (by simp) rfl (by simp) _
    · exact h.moveSend hp (by simp [SendAt.over]) (by simp) rfl (by simp) _
  | poll =>
    simp only [hp] at hs
    split at hs
    · obtain rfl := Option.some.inj hs
      exact h.moveSend hp (by simp [SendAt.over]) (by simp) rfl (by simp) _
    · rename_i packet rest hqueue
      obtain rfl := Option.some.inj hs
      have hordered := h.ordered
      rw [hqueue] at hordered
      exact ⟨h.tasks.goSend (by simp [hp]) (by simp) fun _ _ => id,
        h.counts.go (by rw [hp]; rfl), h.mic, hordered.poll⟩
  | send packet =>
    simp only [hp, Option.some.injEq] at hs
    subst hs
    simp only [InTurn, hp] at hc
    refine ⟨h.tasks.goSend (by simp [hp]) (by simp) fun _ _ => id,
      h.counts.go (by rw [hp]; rfl), h.mic, h.ordered.send hp ?_ (by simp)⟩
    intro j q hj
    exact hc j (h.tasks.send j (by simp [hj])) q hj
  | testRecorder =>
    simp only [hp, Option.some.injEq] at hs
    subst hs
    split
    · exact h.moveSend hp (by simp [SendAt.over]) (by simp) rfl (by simp) _
    · exact h.moveSend hp (by simp [SendAt.over]) (by simp) rfl (by simp) _
  | testQueue =>
    simp only [hp, Option.some.injEq] at hs
    subst hs
    split
    · exact h.moveSend hp (by simp [SendAt.over]) (by simp) rfl (by simp) _
    · exact h.moveSend hp (by simp [SendAt.over]) (by simp) rfl (by simp) _
  | disable =>
    simp only [hp, Option.some.injEq] at hs
    subst hs
    exact h.moveSend hp (by simp [SendAt.over]) (by simp) rfl (by simp) _
  | hangUp =>
    simp only [hp, Option.some.injEq] at hs
    subst hs
    exact ⟨h.tasks.goSend (by simp [hp]) (by simp) fun _ _ => id,
      h.counts.hangUp (by rw [hp]; rfl) rfl, h.mic,
      h.ordered.goSend (by simp) (List.Sublist.refl _)⟩
  | clear =>
    simp only [hp, Option.some.injEq] at hs
    subst hs
    exact h.goSend (by simp [hp]) (by simp) (by rw [hp]; rfl) (by simp) (List.nil_sublist _) _

/-- A step of the record task that neither makes or starts a recorder nor takes in or passes
on sound. -/
theorem Kept.goRecord (h : Kept s) {k : ℕ} (hk : s.recordAt k ≠ .absent) {p : RecordAt}
    (hp : p.pending = none) {queue : List ℕ} (hqueue : queue.Sublist s.audioQueue) {reads : ℕ}
    (hreads : s.reads ≤ reads) (b : Bool) (pcm : ℕ) :
    Kept { s.goRecord k p with
      isStartRecord := b, pcm := pcm, reads := reads, audioQueue := queue } :=
  ⟨h.tasks.goRecord hk p, h.counts, h.mic, h.ordered.goRecord hp hqueue hreads⟩

theorem Kept.moveRecord (h : Kept s) {k : ℕ} (hk : s.recordAt k ≠ .absent) {p : RecordAt}
    (hp : p.pending = none) (b : Bool) (pcm : ℕ) :
    Kept { s.goRecord k p with isStartRecord := b, pcm := pcm } :=
  h.goRecord hk hp (List.Sublist.refl _) le_rfl b pcm

theorem Kept.record (h : Kept s) {k : ℕ} {ok : Bool} {readSize : ℤ}
    (hc : InTurn s (.record k ok readSize)) (hs : s.record k ok readSize = some t) : Kept t := by
  unfold VoiceHelper.record at hs
  cases hp : s.recordAt k with
  | absent => simp [hp] at hs
  | done => simp [hp] at hs
  | flag =>
    simp only [hp, Option.some.injEq] at hs
    subst hs
    exact h.moveRecord (by simp [hp]) rfl _ _
  | test =>
    simp only [hp, Option.some.injEq] at hs
    subst hs
    split
    · exact h.moveRecord (by simp [hp]) rfl _ _
    · exact h.moveRecord (by simp [hp]) rfl _ _
  | buffer =>
    simp only [hp, Option.some.injEq] at hs
    subst hs
    exact h.moveRecord (by simp [hp]) rfl _ _
  | make =>
    simp only [hp, Option.some.injEq] at hs
    subst hs
    simp only [InTurn, hp] at hc
    have hmic := h.mic
    rw [hc.1, hc.2] at hmic
    have hmade := hmic.make s.recorders ok
    rw [← hc.1] at hmade
    exact ⟨h.tasks.goRecord (by simp [hp]) _, h.counts, hmade,
      h.ordered.goRecord rfl (List.Sublist.refl _) le_rfl⟩
  | fetch =>
    simp only [hp] at hs
    split at hs
    · obtain rfl := Option.some.inj hs
      exact h.moveRecord (by simp [hp]) rfl _ _
    · obtain rfl := Option.some.inj hs
      exact h.moveRecord (by simp [hp]) rfl _ _
  | start r =>
    simp only [hp] at hs
    split at hs
    · rename_i hr
      obtain rfl := Option.some.inj hs
      have hlt := h.tasks.record k (by simp [hp])
      exact ⟨h.tasks.goRecord (by simp [hp]) _, h.counts, h.mic.start hr (by omega),
        h.ordered.goRecord rfl (List.Sublist.refl _) le_rfl⟩
    · obtain rfl := Option.some.inj hs
      exact h.moveRecord (by simp [hp]) rfl _ _
  | clear =>
    simp only [hp, Option.some.injEq] at hs
    subst hs
    exact h.goRecord (by simp [hp]) rfl (List.nil_sublist _) le_rfl _ _
  | loop =>
    simp only [hp, Option.some.injEq] at hs
    subst hs
    split
    · exact h.moveRecord (by simp [hp]) rfl _ _
    · exact h.moveRecord (by simp [hp]) rfl _ _
  | check =>
    simp only [hp, Option.some.injEq] at hs
    subst hs
    split
    · exact h.moveRecord (by simp [hp]) rfl _ _
    · exact h.moveRecord (by simp [hp]) rfl _ _
  | reader =>
    simp only [hp] at hs
    split at hs
    · obtain rfl := Option.some.inj hs
      exact h.moveRecord (by simp [hp]) rfl _ _
    · obtain rfl := Option.some.inj hs
      exact h.moveRecord (by simp [hp]) rfl _ _
  | read r =>
    simp only [hp] at hs
    split at hs
    · obtain rfl := Option.some.inj hs
      split
      · exact ⟨h.tasks.goRecord (by simp [hp]) _, h.counts, h.mic, h.ordered.read⟩
      · exact h.goRecord (by simp [hp]) rfl (List.Sublist.refl _) (Nat.le_succ _) _ _
    · obtain rfl := Option.some.inj hs
      exact h.moveRecord (by simp [hp]) rfl _ _
  | encode n =>
    simp only [hp, Option.some.injEq] at hs
    subst hs
    simp only [InTurn, hp] at hc
    rw [hc]
    exact ⟨h.tasks.goRecord (by simp [hp]) _, h.counts, h.mic,
      h.ordered.encode (n := n) (by rw [hp]; rfl) rfl⟩
  | add packet =>
    simp only [hp, Option.some.injEq] at hs
    subst hs
    simp only [InTurn, hp] at hc
    refine ⟨h.tasks.goRecord (by simp [hp]) _, h.counts, h.mic,
      h.ordered.add (by rw [hp]; rfl) ?_ rfl⟩
    intro j n hj
    refine hc j (h.tasks.record j ?_) n hj
    intro habsent
    rw [habsent] at hj
    cases hj

theorem Kept.ui (h : Kept s) (hc : InTurn s .ui) (hs : s.ui = some t) : Kept t := by
  have hui := h.mic.ui
  unfold VoiceHelper.ui at hs
  cases hp : s.uiAt with
  | idle => simp [hp] at hs
  | flag =>
    simp only [hp, Option.some.injEq] at hs
    subst hs
    exact ⟨h.tasks.ui (by simp), h.counts, h.mic.goUi rfl, h.ordered⟩
  | executeSend =>
    rw [hp] at hui
    simp only [hp, Option.some.injEq] at hs
    subst hs
    have hover : (s.sendAt s.sessions).over = false := by
      by_contra hne
      have hlt := h.tasks.send s.sessions fun habsent => hne (by rw [habsent]; rfl)
      omega
    exact ⟨h.tasks.executeSend, h.counts.go hover.symm, h.mic.goUi hui,
      h.ordered.goSend (by simp) (List.Sublist.refl _)⟩
  | executeRecord k =>
    rw [hp] at hui
    simp only [hp, Option.some.injEq] at hs
    subst hs
    have htasks := h.tasks
    rw [hp] at htasks
    exact ⟨htasks.executeRecord, h.counts,
      h.mic.goUi fun hrec => absurd (hui.symm.trans hrec) (by simp),
      h.ordered.goRecord rfl (List.Sublist.refl _) le_rfl⟩
  | unflag =>
    simp only [hp, Option.some.injEq] at hs
    subst hs
    exact ⟨h.tasks.ui (by simp), h.counts, h.mic.goUi rfl, h.ordered⟩
  | stopRecord =>
    rw [hp] at hui
    simp only [hp, Option.some.injEq] at hs
    subst hs
    exact ⟨h.tasks.ui (by simp), h.counts, h.mic.goUi hui, h.ordered⟩
  | test =>
    rw [hp] at hui
    simp only [hp, Option.some.injEq] at hs
    subst hs
    split
    · rename_i hnone
      have hmic := h.mic
      rw [hnone] at hmic
      exact ⟨h.tasks.ui (by simp), h.counts, h.mic.goUi ⟨hui, hmic.unusable⟩, h.ordered⟩
    · exact ⟨h.tasks.ui (by simp), h.counts, h.mic.goUi hui, h.ordered⟩
  | stop =>
    rw [hp] at hui
    simp only [hp, Option.some.injEq] at hs
    subst hs
    split
    · exact ⟨h.tasks.ui (by simp), h.counts, h.mic.goUi hui, h.ordered⟩
    · rename_i hstop
      exact ⟨h.tasks.ui (by simp), h.counts, h.mic.goUi ⟨hui, h.mic.none_usable hstop⟩,
        h.ordered⟩
  | release =>
    rw [hp] at hui
    simp only [hp] at hs
    split at hs
    · rename_i hnone
      obtain rfl := Option.some.inj hs
      have hmic := h.mic
      rw [hnone] at hmic
      exact ⟨h.tasks.ui (by simp), h.counts, h.mic.goUi ⟨hui, hmic.unusable⟩, h.ordered⟩
    · rename_i r hr
      obtain rfl := Option.some.inj hs
      have hmic := h.mic
      rw [hr] at hmic
      exact ⟨h.tasks.ui (by simp), h.counts, h.mic.forget hmic.released ⟨hui, hmic.released⟩,
        h.ordered⟩
  | forget =>
    rw [hp] at hui
    simp only [hp, Option.some.injEq] at hs
    subst hs
    exact ⟨h.tasks.ui (by simp), h.counts, h.mic.forget hui.2 fun _ => .inl rfl, h.ordered⟩
  | hangUp =>
    rw [hp] at hui
    simp only [hp, Option.some.injEq] at hs
    subst hs
    exact ⟨h.tasks.ui (by simp), h.counts.handUp (hc hp), h.mic.goUi hui, h.ordered⟩
  | drop =>
    rw [hp] at hui
    simp only [hp, Option.some.injEq] at hs
    subst hs
    exact ⟨h.tasks.ui (by simp), h.counts, h.mic.forget hui.2 ⟨hui.1, rfl⟩, h.ordered⟩
  | stopSend =>
    rw [hp] at hui
    simp only [hp, Option.some.injEq] at hs
    subst hs
    exact ⟨h.tasks.ui (by simp), h.counts, h.mic.goUi fun _ => .inl hui.2, h.ordered⟩

theorem Kept.step {l : Label} (h : Kept s) (hc : InTurn s l) (hs : step s l = some t) :
    Kept t := by
  cases l with
  | startTalking =>
    obtain ⟨-, hs⟩ := Option.ite_none_right_eq_some.mp hs
    obtain rfl := Option.some.inj hs
    exact ⟨h.tasks.ui (by simp), h.counts, h.mic.goUi trivial, h.ordered⟩
  | endTalking =>
    obtain ⟨-, hs⟩ := Option.ite_none_right_eq_some.mp hs
    obtain rfl := Option.some.inj hs
    exact ⟨h.tasks.ui (by simp), h.counts, h.mic.goUi trivial, h.ordered⟩
  | ui => exact h.ui hc hs
  | send k ret => exact h.send hc hs
  | record k ok readSize => exact h.record hc hs

end steps

/-! ## The end of a send task -/

/-- The hang-ups of a session once its send task has ended. -/
def due (s : VoiceHelper) (k : ℕ) : ℕ :=
  s.hangUps k + if (s.sendAt k).over = false ∧ s.called k = true then 1 else 0

/-- The send task, running alone, hangs up and ends. -/
def Ends (k : ℕ) (s : VoiceHelper) : Prop :=
  ∃ n t, Run step (fun _ _ => True) s (List.replicate n (.send k 0)) t ∧ t.sendAt k = .done ∧
    t.hangUps k = due s k

section ends

variable {s t : VoiceHelper} {k : ℕ}

theorem Ends.next (hs : s.send k 0 = some t) (hdue : due t k = due s k) (h : Ends k t) :
    Ends k s := by
  obtain ⟨n, u, hrun, hdone, hu⟩ := h
  exact ⟨n + 1, u, .cons trivial hs hrun, hdone, hu.trans hdue⟩

end ends

/-! ## Runs -/

theorem kept_create (usable : Bool) : Kept (.create usable) where
  tasks := ⟨fun _ hj => absurd rfl hj, fun _ hj => absurd rfl hj, fun _ hk => (by cases hk),
    fun _ hk => (by cases hk)⟩
  counts _ := rfl
  mic := by
    refine ⟨fun r hr => ?_, fun _ => .inr rfl, rfl⟩
    simp only [VoiceHelper.create, decide_eq_true_eq] at hr
    rw [hr.1]
    rfl
  ordered := by
    have hstage : ∀ i a, ¬ Stage [] (fun _ => .absent) [] (fun _ => .absent) i a := by
      intro i a ha
      match i, ha with
      | 0, ha => cases ha
      | 1, ⟨j, hj⟩ => cases hj
      | 2, ha => cases ha
      | 3, ⟨j, hj⟩ => cases hj
    exact ⟨fun i _ a _ _ ha => absurd ha (hstage i a), .nil, .nil,
      fun _ _ _ hj => (by cases hj), fun _ _ _ hj => (by cases hj), fun i a ha => absurd ha (hstage i a)⟩

instance (s : VoiceHelper) (l : Label) : Decidable (InTurn s l) :=
  match l with
  | .ui => decidable_of_iff (s.uiAt = .hangUp → s.called (s.sessions - 1) = false) Iff.rfl
  | .send k ret =>
    match h : s.sendAt k with
    | .send p =>
      decidable_of_iff (∀ j < s.sessions,
          (match s.sendAt j with | .send q => decide (p ≤ q) | _ => true) = true) (by
        simp only [InTurn, h]
        refine forall_congr' fun j => imp_congr_right fun _ => ?_
        cases s.sendAt j <;> simp)
    | .absent | .call | .enable | .loop | .poll | .testRecorder | .testQueue | .disable | .hangUp
      | .clear | .done => .isTrue (by simp [InTurn, h])
  | .record k ok readSize =>
    match h : s.recordAt k with
    | .make => decidable_of_iff (s.isRecord = true ∧ s.mRecorder = none) (by simp [InTurn, h])
    | .encode n => decidable_of_iff (s.pcm = n) (by simp [InTurn, h])
    | .add p =>
      decidable_of_iff (∀ j < s.sessions, ∀ n ∈ (s.recordAt j).pending, p ≤ n)
        (by simp [InTurn, h])
    | .absent | .flag | .test | .buffer | .fetch | .start _ | .clear | .loop | .check | .reader
      | .read _ | .done => .isTrue (by simp [InTurn, h])
  | .startTalking | .endTalking => .isTrue trivial

end Jagles.VoiceTalk
