import Jagles.Download

set_option autoImplicit false
set_option linter.dupNamespace false

/-!
# Download sessions

A session is a pool and a thread. `OperateDeviceFile` makes both when the flag is
off, `FinishDeviceFileTransfer` turns the flag off, waits for the thread and frees the
pool. The thread turns the flag off itself at the end of a download and when it cannot
write, and leaves it on when it cannot open the file.
-/
namespace Jagles.Download
open ByteMemory GuardedRuns

/-- A download thread: before its look at the save file, in its loop, at the early
return, and joined. -/
inductive DownloadThread where
  | absent
  | opening
  | loop (pc : Pc) (f : Option (List UInt8))
  | failed
  | joined
  deriving DecidableEq

def DownloadThread.running : DownloadThread → Bool
  | .opening | .loop .poll _ | .loop .locked _ | .loop .test _ => true
  | .absent | .loop .ended _ | .failed | .joined => false

def DownloadThread.gone : DownloadThread → Bool
  | .absent | .joined => true
  | .opening | .loop _ _ | .failed => false

/-- The threads and pools are numbered by the session that made them; `live` are the
pools that are allocated. `finishing` is a `FinishDeviceFileTransfer` that waits in
`pthread_join`. -/
structure Sessions where
  mIsDownloading : Bool
  mDownloadDataPool : Option ℕ
  bytes : Memory
  mDownloadDataPoolSize : ℕ
  mDownloadSavePath : List UInt8
  mDownloadThread : Option ℕ
  finishing : Bool
  reports : List Report
  started : ℕ
  thread : ℕ → DownloadThread
  live : List ℕ

def Sessions.start : Sessions where
  mIsDownloading := false
  mDownloadDataPool := none
  bytes := fun _ => 0
  mDownloadDataPoolSize := 0
  mDownloadSavePath := []
  mDownloadThread := none
  finishing := false
  reports := []
  started := 0
  thread := fun _ => .absent
  live := []

inductive SessionAct where
  | OperateDeviceFile (idx : ℤ) (conn : Bool) (savePath : Option (List UInt8))
  | FinishDeviceFileTransfer (idx : ℤ) (conn : Bool)
  | pthread_join
  | StopDownloadThread (value : Bool)
  | doOnFileDownloadCallback (data : List UInt8)
  | fopen (k : ℕ) (opened : Bool)
  | doDownloadThread (k : ℕ) (short : Option ℕ)

namespace Sessions
variable (s : Sessions)

/-- `idx > 32 || idx < 0` -/
def outside (idx : ℤ) : Bool := decide (32 < idx ∨ idx < 0)

def starts (idx : ℤ) (conn : Bool) : Bool := !outside idx && !s.mIsDownloading && conn

def OperateDeviceFile (idx : ℤ) (conn : Bool) (savePath : Option (List UInt8)) : Sessions :=
  if s.starts idx conn then
    { s with
      mIsDownloading := true
      mDownloadDataPool := some s.started
      bytes := fun _ => 0
      mDownloadSavePath := savePath.getD s.mDownloadSavePath
      mDownloadThread := some s.started
      started := s.started + 1
      thread := Function.update s.thread s.started .opening
      live := s.live ++ [s.started] }
  else s

/-- Up to `pthread_join`. Without a connection `DestroyDownloadVcon` has no object. -/
def FinishDeviceFileTransfer (idx : ℤ) (conn : Bool) : Option Sessions :=
  if outside idx then some s
  else if conn then some { s with mIsDownloading := false, finishing := true }
  else none

/-- The thread that was started last has returned, or there is none to wait for. -/
def returned : Bool :=
  match s.mDownloadThread with
  | some k => !(s.thread k).running
  | none => true

/-- The rest of `FinishDeviceFileTransfer`. -/
def pthread_join : Sessions :=
  { s with
    mDownloadDataPool := none
    mDownloadDataPoolSize := 0
    mDownloadSavePath := []
    finishing := false
    thread := match s.mDownloadThread with
      | some k => Function.update s.thread k .joined
      | none => s.thread
    live := s.live.filter fun k => decide (s.mDownloadDataPool ≠ some k) }

/-- The start of the thread: an empty save path opens no file. -/
def fopen (k : ℕ) (opened : Bool) : Option Sessions :=
  match s.thread k with
  | .opening =>
    some { s with
      thread := Function.update s.thread k <|
        if s.mDownloadSavePath = [] then .loop .poll none
        else if opened then .loop .poll (some [])
        else .failed }
  | _ => none

/-- The manager as the loop of one thread sees it. -/
def seen (pc : Pc) (f : Option (List UInt8)) : ConnectManager :=
  ⟨s.bytes, s.mDownloadDataPoolSize, s.mIsDownloading, f, s.reports, pc⟩

/-- One step of a thread in its loop. Without a pool there is nothing to look at. -/
def doDownloadThread (k : ℕ) (short : Option ℕ) : Option Sessions :=
  match s.thread k with
  | .loop pc f =>
    if pc = .ended ∨ pc = .locked ∧ s.mDownloadDataPool = none then none
    else ((s.seen pc f).doDownloadThread short).map fun c =>
      { s with
        bytes := c.mDownloadDataPool
        mDownloadDataPoolSize := c.mDownloadDataPoolSize
        mIsDownloading := c.mIsDownloading
        reports := c.reports
        thread := Function.update s.thread k (.loop c.pc c.f) }
  | _ => none

def doOnFileDownloadCallback (data : List UInt8) : Option Sessions :=
  if s.mIsDownloading ∧ s.mDownloadDataPool = none then none
  else
    let c := (s.seen .poll none).doOnFileDownloadCallback data
    some { s with bytes := c.mDownloadDataPool, mDownloadDataPoolSize := c.mDownloadDataPoolSize }

/-- The calls of the application come one after the other; the messages of the device
and the threads go on meanwhile. -/
def step : SessionAct → Option Sessions
  | .OperateDeviceFile idx conn savePath =>
    if s.finishing then none else some (s.OperateDeviceFile idx conn savePath)
  | .FinishDeviceFileTransfer idx conn =>
    if s.finishing then none else s.FinishDeviceFileTransfer idx conn
  | .pthread_join => if s.finishing ∧ s.returned then some s.pthread_join else none
  | .StopDownloadThread value =>
    if s.finishing then none else some { s with mIsDownloading := value }
  | .doOnFileDownloadCallback data => s.doOnFileDownloadCallback data
  | .fopen k opened => s.fopen k opened
  | .doDownloadThread k short => s.doDownloadThread k short

/-- While the flag is on a thread runs and has its pool; only the session started last
may have a thread that is not joined or a pool that is not freed; and when its thread
could not open the file the flag is off, so that the next start is not refused. -/
structure Sound : Prop where
  downloading : s.mIsDownloading = true → ∃ k, s.mDownloadThread = some k ∧
    (s.thread k).running = true ∧ s.mDownloadDataPool = some k ∧ k ∈ s.live
  joined : ∀ k, s.mDownloadThread ≠ some k → (s.thread k).gone = true
  freed : ∀ k ∈ s.live, s.mDownloadThread = some k
  failed : ∀ k, s.mDownloadThread = some k → s.thread k = .failed → s.mIsDownloading = false

/-- A start finds the thread before it joined; the flag is turned on by hand only
while a thread runs; and the file is opened, or the flag has been turned off before. -/
def Meets : SessionAct → Prop
  | .OperateDeviceFile idx conn _ => s.starts idx conn = true →
      ∀ k, s.mDownloadThread = some k → (s.thread k).gone = true
  | .StopDownloadThread value => value = true →
      ∃ k, s.mDownloadThread = some k ∧ (s.thread k).running = true
  | .fopen _ opened => s.mDownloadSavePath ≠ [] → opened = false → s.mIsDownloading = false
  | _ => True

instance (a : SessionAct) : Decidable (s.Meets a) :=
  match a with
  | .OperateDeviceFile idx conn _ => inferInstanceAs
      (Decidable (s.starts idx conn = true → ∀ k ∈ s.mDownloadThread, (s.thread k).gone = true))
  | .StopDownloadThread value => inferInstanceAs
      (Decidable (value = true → ∃ k ∈ s.mDownloadThread, (s.thread k).running = true))
  | .fopen _ opened => inferInstanceAs
      (Decidable (s.mDownloadSavePath ≠ [] → opened = false → s.mIsDownloading = false))
  | .FinishDeviceFileTransfer _ _ | .pthread_join | .doOnFileDownloadCallback _
  | .doDownloadThread _ _ => isTrue trivial

/-- What every run keeps: sessions yet to come have nothing, the pool is that of the
session started last, and it is there exactly as long as its thread is not joined. -/
structure Kept : Prop where
  thread_fresh : ∀ k, s.started ≤ k → s.thread k = .absent
  live_fresh : ∀ k ∈ s.live, k < s.started
  current : ∀ k, s.mDownloadThread = some k → k < s.started
  pool : ∀ k, s.mDownloadDataPool = some k → s.mDownloadThread = some k ∧ k ∈ s.live
  held : ∀ k, s.mDownloadThread = some k → (s.thread k).gone = false → s.mDownloadDataPool = some k
  unfreed : ∀ k ∈ s.live, s.mDownloadThread = some k → (s.thread k).gone = false
  finishing : s.finishing = true → s.mIsDownloading = false

end Sessions

namespace ConnectManager
variable {s t : ConnectManager} {short : Option ℕ}

/-- The thread turns the flag off, never on. -/
theorem frame_flag (h : s.frame short = some t) (hon : t.mIsDownloading = true) :
    s.mIsDownloading = true := by
  obtain ⟨written, -, rfl⟩ := Option.map_eq_some_iff.mp h
  split at hon
  · exact ((Bool.and_eq_true _ _).mp hon).2
  · cases hon

theorem message_flag {n : ℕ} {d : ℤ} (h : s.message n d short = some t)
    (hon : t.mIsDownloading = true) : s.mIsDownloading = true := by
  unfold message at h
  split at h
  · obtain rfl := Option.some.inj h
    cases hon
  · split at h
    · exact frame_flag h hon
    · obtain rfl := Option.some.inj h
      exact hon

theorem pool_flag (m : Memory) (n : ℕ) :
    ConnectManager.mIsDownloading { s with mDownloadDataPool := m, mDownloadDataPoolSize := n } =
      s.mIsDownloading := rfl

theorem shift_flag (mixLen : ℤ) : (s.shift mixLen).mIsDownloading = s.mIsDownloading :=
  pool_flag _ _

theorem pc_flag (pc : Pc) :
    ConnectManager.mIsDownloading { s with pc := pc } = s.mIsDownloading := rfl

theorem locked_flag (h : s.locked short = some t) :
    (t.mIsDownloading = true → s.mIsDownloading = true) ∧ t.pc = .test := by
  unfold locked at h
  simp only at h
  split at h
  · obtain rfl := Option.some.inj h
    exact ⟨id, rfl⟩
  · obtain ⟨u, hu, rfl⟩ := Option.map_eq_some_iff.mp h
    refine ⟨fun hon => message_flag hu ?_, rfl⟩
    rwa [pc_flag, shift_flag] at hon

/-- Nor does it leave its loop with the flag on. -/
theorem doDownloadThread_flag (h : s.doDownloadThread short = some t) (hpc : s.pc ≠ .ended)
    (hon : t.mIsDownloading = true) : s.mIsDownloading = true ∧ t.pc ≠ .ended := by
  unfold doDownloadThread at h
  split at h
  · obtain rfl := Option.some.inj h
    refine ⟨hon, ?_⟩
    simp only
    split <;> exact (fun h => nomatch h)
  · obtain ⟨hflag, htest⟩ := locked_flag h
    refine ⟨hflag hon, ?_⟩
    rw [htest]
    exact (fun h => nomatch h)
  · split at h
    · obtain rfl := Option.some.inj h
      exact ⟨hon, (fun h => nomatch h)⟩
    · rename_i hoff
      obtain rfl := Option.some.inj h
      exact absurd hon hoff
  · contradiction

end ConnectManager

theorem DownloadThread.loop_running {pc : Pc} (f : Option (List UInt8)) (hpc : pc ≠ .ended) :
    (DownloadThread.loop pc f).running = true := by
  cases pc with
  | poll | locked | test => rfl
  | ended => contradiction

namespace Sessions
variable {s t : Sessions}

section Steps

theorem FinishDeviceFileTransfer_cases {idx : ℤ} {conn : Bool}
    (h : s.FinishDeviceFileTransfer idx conn = some t) :
    t = s ∨ t = { s with mIsDownloading := false, finishing := true } := by
  unfold FinishDeviceFileTransfer at h
  split at h
  · exact .inl (Option.some.inj h).symm
  · split at h
    · exact .inr (Option.some.inj h).symm
    · cases h

theorem fopen_cases {k : ℕ} {opened : Bool} (h : s.fopen k opened = some t) :
    s.thread k = .opening ∧ t = { s with
      thread := Function.update s.thread k <|
        if s.mDownloadSavePath = [] then .loop .poll none
        else if opened then .loop .poll (some [])
        else .failed } := by
  unfold fopen at h
  split at h
  · rename_i hk
    exact ⟨hk, (Option.some.inj h).symm⟩
  · cases h

theorem doDownloadThread_cases {k : ℕ} {short : Option ℕ}
    (h : s.doDownloadThread k short = some t) : ∃ pc f c, s.thread k = .loop pc f ∧ pc ≠ .ended ∧
      (s.seen pc f).doDownloadThread short = some c ∧ t = { s with
        bytes := c.mDownloadDataPool
        mDownloadDataPoolSize := c.mDownloadDataPoolSize
        mIsDownloading := c.mIsDownloading
        reports := c.reports
        thread := Function.update s.thread k (.loop c.pc c.f) } := by
  unfold doDownloadThread at h
  split at h
  · rename_i pc f hk
    split at h
    · cases h
    · rename_i hgo
      obtain ⟨c, hc, ht⟩ := Option.map_eq_some_iff.mp h
      exact ⟨pc, f, c, hk, fun hend => hgo (.inl hend), hc, ht.symm⟩
  · cases h

theorem doOnFileDownloadCallback_cases {data : List UInt8}
    (h : s.doOnFileDownloadCallback data = some t) :
    ∃ m n, t = { s with bytes := m, mDownloadDataPoolSize := n } := by
  unfold doOnFileDownloadCallback at h
  split at h
  · cases h
  · exact ⟨_, _, (Option.some.inj h).symm⟩

theorem step_call {u : Sessions} (h : (if s.finishing then none else some u) = some t) :
    s.finishing = false ∧ t = u := by
  split at h
  · cases h
  · rename_i hwait
    exact ⟨Bool.eq_false_iff.mpr hwait, (Option.some.inj h).symm⟩

end Steps

section Keep

theorem Kept.OperateDeviceFile (hk : s.Kept) (hwait : s.finishing = false) (idx : ℤ) (conn : Bool)
    (savePath : Option (List UInt8)) : (s.OperateDeviceFile idx conn savePath).Kept := by
  unfold Sessions.OperateDeviceFile
  split
  · refine ⟨fun k hge => ?_, fun k hmem => ?_, fun k hcur => ?_, fun k hpool => ?_,
      fun k hcur _ => hcur, fun k _ hcur => ?_, fun hwait' => ?_⟩
    · have hlt : s.started < k := hge
      simp only
      rw [Function.update_of_ne (by omega)]
      exact hk.thread_fresh k (by omega)
    · simp only
      rcases List.mem_append.mp hmem with hold | hnew
      · exact (hk.live_fresh k hold).trans (Nat.lt_succ_self _)
      · obtain rfl := List.mem_singleton.mp hnew
        exact Nat.lt_succ_self _
    · obtain rfl := Option.some.inj hcur
      exact Nat.lt_succ_self _
    · obtain rfl := Option.some.inj hpool
      exact ⟨rfl, List.mem_append_right _ (List.mem_singleton_self _)⟩
    · obtain rfl := Option.some.inj hcur
      simp only [Function.update_self]
      rfl
    · rw [hwait] at hwait'
      cases hwait'
  · exact hk

/-- A thread that goes on keeps its place, and can only turn the flag off. -/
theorem Kept.thread (hk : s.Kept) {k : ℕ} {d : DownloadThread} (hgone : (s.thread k).gone = false)
    (hd : d.gone = false) (bytes : Memory) (size : ℕ) (flag : Bool) (reports : List Report)
    (hflag : flag = true → s.mIsDownloading = true) :
    Kept { s with
      bytes := bytes
      mDownloadDataPoolSize := size
      mIsDownloading := flag
      reports := reports
      thread := Function.update s.thread k d } := by
  refine ⟨fun j hge => ?_, hk.live_fresh, hk.current, hk.pool, fun j hcur hj => ?_,
    fun j hmem hcur => ?_, fun hwait => ?_⟩
  · have hne : j ≠ k := by
      rintro rfl
      rw [hk.thread_fresh j hge] at hgone
      cases hgone
    simp only
    rw [Function.update_of_ne hne]
    exact hk.thread_fresh j hge
  · by_cases hjk : j = k
    · subst hjk
      exact hk.held j hcur hgone
    · refine hk.held j hcur ?_
      rwa [← Function.update_of_ne hjk d s.thread]
  · simp only [Function.update_apply]
    split
    · exact hd
    · exact hk.unfreed j hmem hcur
  · cases flag with
    | false => rfl
    | true =>
      have hoff := hk.finishing hwait
      rw [hflag rfl] at hoff
      cases hoff

theorem pthread_join_other {k : ℕ} (hne : s.mDownloadThread ≠ some k) :
    s.pthread_join.thread k = s.thread k := by
  unfold Sessions.pthread_join
  split
  · rename_i j hj
    rw [hj] at hne
    exact Function.update_of_ne (fun hkj => hne (congrArg some hkj.symm)) _ _
  · rfl

theorem pthread_join_current {k : ℕ} (hk : s.mDownloadThread = some k) :
    s.pthread_join.thread k = .joined := by
  simp only [Sessions.pthread_join, hk, Function.update_self]

theorem Kept.pthread_join (hk : s.Kept) : s.pthread_join.Kept := by
  refine ⟨fun k hge => ?_, fun k hmem => hk.live_fresh k (List.mem_filter.mp hmem).1, hk.current,
    (fun k hpool => nomatch hpool), fun k hcur hgone => ?_, fun k hmem hcur => ?_,
    (fun hwait => nomatch hwait)⟩
  · rw [pthread_join_other (s := s) fun hcur => absurd (hk.current k hcur) (Nat.not_lt.mpr hge)]
    exact hk.thread_fresh k hge
  · rw [pthread_join_current (s := s) hcur] at hgone
    cases hgone
  · obtain ⟨hlive, hpool⟩ := List.mem_filter.mp hmem
    exact absurd (hk.held k hcur (hk.unfreed k hlive hcur)) (of_decide_eq_true hpool)

theorem Kept.step (hk : s.Kept) {a : SessionAct} (h : s.step a = some t) : t.Kept := by
  cases a with
  | OperateDeviceFile idx conn savePath =>
    obtain ⟨hwait, rfl⟩ := step_call h
    exact hk.OperateDeviceFile hwait idx conn savePath
  | FinishDeviceFileTransfer idx conn =>
    simp only [Sessions.step] at h
    split at h
    · cases h
    · rcases FinishDeviceFileTransfer_cases h with rfl | rfl
      · exact hk
      · exact ⟨hk.thread_fresh, hk.live_fresh, hk.current, hk.pool, hk.held, hk.unfreed,
          fun _ => rfl⟩
  | pthread_join =>
    simp only [Sessions.step] at h
    split at h
    · obtain rfl := Option.some.inj h
      exact hk.pthread_join
    · cases h
  | StopDownloadThread value =>
    obtain ⟨hwait, rfl⟩ := step_call h
    refine ⟨hk.thread_fresh, hk.live_fresh, hk.current, hk.pool, hk.held, hk.unfreed,
      fun hwait' => ?_⟩
    exact absurd (hwait.symm.trans hwait') Bool.false_ne_true
  | doOnFileDownloadCallback data =>
    obtain ⟨m, n, rfl⟩ := doOnFileDownloadCallback_cases h
    exact ⟨hk.thread_fresh, hk.live_fresh, hk.current, hk.pool, hk.held, hk.unfreed, hk.finishing⟩
  | fopen k opened =>
    obtain ⟨hopen, rfl⟩ := fopen_cases h
    exact hk.thread (by rw [hopen]; rfl) (by split_ifs <;> rfl) _ _ _ _ id
  | doDownloadThread k short =>
    obtain ⟨pc, f, c, hloop, hpc, hc, rfl⟩ := doDownloadThread_cases h
    exact hk.thread (by rw [hloop]; rfl) rfl _ _ _ _
      fun hon => (ConnectManager.doDownloadThread_flag hc hpc hon).1

end Keep

section Soundness

theorem Sound.current (hs : s.Sound) {k : ℕ} (hgone : (s.thread k).gone = false) :
    s.mDownloadThread = some k := by
  by_contra hne
  rw [hs.joined k hne] at hgone
  cases hgone

theorem Sound.joined_update (hs : s.Sound) {k : ℕ} (hcur : s.mDownloadThread = some k)
    (d : DownloadThread) {j : ℕ} (hne : s.mDownloadThread ≠ some j) :
    (Function.update s.thread k d j).gone = true := by
  have hjk : j ≠ k := by
    rintro rfl
    exact hne hcur
  rw [Function.update_of_ne hjk]
  exact hs.joined j hne

theorem Sound.OperateDeviceFile_iff (hs : s.Sound) (hk : s.Kept) (idx : ℤ) (conn : Bool)
    (savePath : Option (List UInt8)) : (s.OperateDeviceFile idx conn savePath).Sound ↔
      s.Meets (.OperateDeviceFile idx conn savePath) := by
  unfold Sessions.OperateDeviceFile Meets
  split
  · rename_i hstarts
    have hother : ∀ k, k ≠ s.started →
        Function.update s.thread s.started .opening k = s.thread k :=
      fun k hne => Function.update_of_ne hne _ _
    constructor
    · intro ht _ k hcur
      have hlt := hk.current k hcur
      have hgone := ht.joined k fun heq => by
        obtain rfl := Option.some.inj heq
        exact Nat.lt_irrefl _ hlt
      simp only at hgone
      rwa [hother k (by omega)] at hgone
    · intro hmeets
      have hcur := hmeets hstarts
      have hlive : s.live = [] := List.eq_nil_iff_forall_not_mem.mpr fun k hmem => by
        have hlast := hs.freed k hmem
        have hgone := hk.unfreed k hmem hlast
        rw [hcur k hlast] at hgone
        cases hgone
      refine ⟨fun _ => ⟨s.started, rfl, ?_, rfl, ?_⟩, fun k hne => ?_, fun k hmem => ?_,
        fun k heq hfailed => ?_⟩
      · simp only [Function.update_self]
        rfl
      · exact List.mem_append_right _ (List.mem_singleton_self _)
      · simp only
        rw [hother k fun heq => hne (congrArg some heq.symm)]
        by_cases hold : s.mDownloadThread = some k
        · exact hcur k hold
        · exact hs.joined k hold
      · rw [hlive] at hmem
        obtain rfl := List.mem_singleton.mp hmem
        rfl
      · obtain rfl := Option.some.inj heq
        simp only [Function.update_self] at hfailed
        cases hfailed
  · rename_i hstarts
    exact ⟨fun _ hstarts' => absurd hstarts' hstarts, fun _ => hs⟩

/-- A thread that goes on in its loop leaves everything as sound as it was. -/
theorem Sound.loop (hs : s.Sound) {k : ℕ} (hgone : (s.thread k).gone = false) (pc : Pc)
    (f : Option (List UInt8)) (bytes : Memory) (size : ℕ) (flag : Bool) (reports : List Report)
    (hflag : flag = true → s.mIsDownloading = true ∧ pc ≠ .ended) :
    Sound { s with
      bytes := bytes
      mDownloadDataPoolSize := size
      mIsDownloading := flag
      reports := reports
      thread := Function.update s.thread k (.loop pc f) } := by
  have hcur := hs.current hgone
  refine ⟨fun hon => ?_, fun j hne => hs.joined_update hcur _ hne, hs.freed,
    fun j heq hfailed => ?_⟩
  · obtain ⟨hson, hpc⟩ := hflag hon
    obtain ⟨j, hj, -, hpool, hlive⟩ := hs.downloading hson
    obtain rfl := Option.some.inj (hj.symm.trans hcur)
    refine ⟨j, hcur, ?_, hpool, hlive⟩
    simp only [Function.update_self]
    exact DownloadThread.loop_running f hpc
  · obtain rfl := Option.some.inj (heq.symm.trans hcur)
    simp only [Function.update_self] at hfailed
    cases hfailed

theorem Sound.fopen_iff (hs : s.Sound) {k : ℕ} {opened : Bool} (h : s.fopen k opened = some t) :
    t.Sound ↔ s.Meets (.fopen k opened) := by
  obtain ⟨hopen, rfl⟩ := fopen_cases h
  have hgone : (s.thread k).gone = false := by
    rw [hopen]
    rfl
  have hcur := hs.current hgone
  unfold Meets
  split
  · rename_i hempty
    exact ⟨fun _ hne => absurd hempty hne,
      fun _ => hs.loop hgone _ _ _ _ _ _ fun hon => ⟨hon, (fun hend => nomatch hend)⟩⟩
  · rename_i hsave
    split
    · rename_i hopened
      exact ⟨fun _ _ hoff => absurd (hopened.symm.trans hoff) Bool.false_ne_true.symm,
        fun _ => hs.loop hgone _ _ _ _ _ _ fun hon => ⟨hon, (fun hend => nomatch hend)⟩⟩
    · rename_i hopened
      constructor
      · intro ht _ _
        exact ht.failed k hcur (by simp only [Function.update_self])
      · intro hmeets
        have hoff := hmeets hsave (Bool.eq_false_iff.mpr hopened)
        exact ⟨fun hon => absurd (hoff.symm.trans hon) Bool.false_ne_true,
          fun j hne => hs.joined_update hcur _ hne, hs.freed, fun _ _ _ => hoff⟩

theorem gone_of_running {d : DownloadThread} (h : d.running = true) : d.gone = false := by
  cases d with
  | absent => cases h
  | joined => cases h
  | opening | loop pc f | failed => rfl

theorem Sound.StopDownloadThread_iff (hs : s.Sound) (hk : s.Kept) (value : Bool) :
    Sound { s with mIsDownloading := value } ↔ s.Meets (.StopDownloadThread value) := by
  constructor
  · intro ht hon
    obtain ⟨k, hcur, hrun, -, -⟩ := ht.downloading hon
    exact ⟨k, hcur, hrun⟩
  · intro hmeets
    have hdown : value = true → ∃ k, s.mDownloadThread = some k ∧ (s.thread k).running = true ∧
        s.mDownloadDataPool = some k ∧ k ∈ s.live := by
      intro hon
      obtain ⟨k, hcur, hrun⟩ := hmeets hon
      have hpool := hk.held k hcur (gone_of_running hrun)
      exact ⟨k, hcur, hrun, hpool, (hk.pool k hpool).2⟩
    refine ⟨hdown, hs.joined, hs.freed, fun k hcur hfailed => ?_⟩
    cases value with
    | false => rfl
    | true =>
      obtain ⟨j, hj, hrun, -, -⟩ := hdown rfl
      obtain rfl := Option.some.inj (hj.symm.trans hcur)
      simp only at hfailed
      rw [hfailed] at hrun
      cases hrun

theorem Sound.pthread_join (hs : s.Sound) (hoff : s.mIsDownloading = false) :
    s.pthread_join.Sound := by
  refine ⟨fun hon => absurd (hoff.symm.trans hon) Bool.false_ne_true, fun k hne => ?_,
    fun k hmem => hs.freed k (List.mem_filter.mp hmem).1, fun _ _ _ => hoff⟩
  rw [pthread_join_other (s := s) hne]
  exact hs.joined k hne

theorem Sound.step_iff (hs : s.Sound) (hk : s.Kept) {a : SessionAct} (h : s.step a = some t) :
    t.Sound ↔ s.Meets a := by
  cases a with
  | OperateDeviceFile idx conn savePath =>
    obtain ⟨-, rfl⟩ := step_call h
    exact hs.OperateDeviceFile_iff hk idx conn savePath
  | FinishDeviceFileTransfer idx conn =>
    refine iff_of_true ?_ trivial
    simp only [Sessions.step] at h
    split at h
    · cases h
    · rcases FinishDeviceFileTransfer_cases h with rfl | rfl
      · exact hs
      · exact ⟨(fun hon => nomatch hon), hs.joined, hs.freed, fun _ _ _ => rfl⟩
  | pthread_join =>
    refine iff_of_true ?_ trivial
    simp only [Sessions.step] at h
    split at h
    · rename_i hwait
      obtain rfl := Option.some.inj h
      exact hs.pthread_join (hk.finishing hwait.1)
    · cases h
  | StopDownloadThread value =>
    obtain ⟨-, rfl⟩ := step_call h
    exact hs.StopDownloadThread_iff hk value
  | doOnFileDownloadCallback data =>
    refine iff_of_true ?_ trivial
    obtain ⟨m, n, rfl⟩ := doOnFileDownloadCallback_cases h
    exact ⟨hs.downloading, hs.joined, hs.freed, hs.failed⟩
  | fopen k opened => exact hs.fopen_iff h
  | doDownloadThread k short =>
    refine iff_of_true ?_ trivial
    obtain ⟨pc, f, c, hloop, hpc, hc, rfl⟩ := doDownloadThread_cases h
    exact hs.loop (by rw [hloop]; rfl) _ _ _ _ _ _
      (ConnectManager.doDownloadThread_flag hc hpc)

end Soundness

end Sessions

theorem Sessions.Kept.start : Sessions.start.Kept :=
  ⟨fun _ _ => rfl, (fun _ hmem => nomatch hmem), (fun _ hcur => nomatch hcur),
    (fun _ hpool => nomatch hpool), (fun _ hcur => nomatch hcur), (fun _ hmem => nomatch hmem),
    (fun hwait => nomatch hwait)⟩

theorem Sessions.Sound.start : Sessions.start.Sound :=
  ⟨(fun hon => nomatch hon), fun _ _ => rfl, (fun _ hmem => nomatch hmem), fun _ _ _ => rfl⟩

end Jagles.Download
