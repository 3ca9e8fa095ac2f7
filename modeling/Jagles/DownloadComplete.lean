import Jagles.DownloadFraming

set_option autoImplicit false
set_option linter.dupNamespace false

/-!
# A delivered stream is written and reported

Once the stream is in the pool the thread takes a message every three steps, until the
first one that ends the download.
-/
namespace Jagles.Download
open ByteMemory GuardedRuns

variable {opened : Bool} {ms done rest : List Message} {s : ConnectManager}

/-- Everything up to the first message that ends the download has been written and
reported. -/
structure Complete (opened : Bool) (ms : List Message) (s : ConnectManager) : Prop where
  f : s.f = if opened then some (payloads (upToFirst ms)) else none
  reports : s.reports = reports 0 (upToFirst ms)

instance : (l : Act) → Decidable (Written l)
  | .deliver _ => inferInstanceAs (Decidable True)
  | .thread short => inferInstanceAs (Decidable (short = none))

theorem Over.runs (n : ℕ) (h : Over opened ms s) :
    ∃ t, Run ConnectManager.step (fun _ l => Written l) s (List.replicate n (.thread none)) t ∧
      Complete opened ms t := by
  induction n generalizing s with
  | zero => exact ⟨s, .nil s, h.f, h.reports⟩
  | succ n ih =>
    obtain ⟨u, hu, hover⟩ := h.thread none
    obtain ⟨t, htail, ht⟩ := ih hover
    exact ⟨t, .cons rfl hu htail, ht⟩

def Pc.wait : Pc → ℕ
  | .locked => 1
  | .poll => 2
  | .test => 3
  | .ended => 0

theorem Going.complete (h : Going opened done [] (stream (done ++ [])) s) :
    Complete opened (done ++ []) s := by
  have hup : upToFirst (done ++ []) = done := by
    rw [upToFirst_append h.quiet]
    exact List.append_nil done
  constructor
  · rw [hup]
    exact h.f
  · rw [hup]
    exact h.reports

theorem Going.pool_eq (h : Going opened done rest (stream (done ++ rest)) s) :
    s.pool = stream rest := by
  have hpool := h.pool
  rw [stream_append] at hpool
  exact List.append_cancel_left hpool

theorem Going.writable {m : Message} (h : Going opened done (m :: rest) (stream (done ++ m :: rest)) s)
    (hpay : ∀ f, .frame f ∈ upToFirst (done ++ m :: rest) → f.payload ≠ [])
    (hopen : opened = true ∨ ∃ items ms', done ++ m :: rest = .list items :: ms') :
    Writable s m := by
  cases m with
  | list items => trivial
  | frame f =>
    refine ⟨?_, hpay f (mem_upToFirst h.quiet)⟩
    cases hcase : opened with
    | true =>
      rw [h.f, hcase]
      rfl
    | false =>
      -- without a file the first message is a list
      rw [hcase, h.unopened hcase] at hopen
      simp at hopen

theorem Going.advance (h : Going opened done rest (stream (done ++ rest)) s)
    (hsize : (stream (done ++ rest)).length ≤ poolSize)
    (hpay : ∀ f, .frame f ∈ upToFirst (done ++ rest) → f.payload ≠ [])
    (hopen : opened = true ∨ ∃ items ms', done ++ rest = .list items :: ms') :
    ∃ u, s.doDownloadThread none = some u ∧ (Over opened (done ++ rest) u ∨
      ∃ done' rest', done' ++ rest' = done ++ rest ∧
        Going opened done' rest' (stream (done' ++ rest')) u ∧
        (rest' ≠ [] → rest ≠ [] ∧
          u.pc.wait + 3 * (rest'.length - 1) < s.pc.wait + 3 * (rest.length - 1))) := by
  cases hpc : s.pc with
  | ended => exact absurd hpc h.pc
  | test =>
    refine ⟨_, thread_test hpc h.on, .inr ⟨done, rest, rfl, ?_, ?_⟩⟩
    · exact h.at_pc (fun heq => by cases heq) (fun heq => by cases heq)
    · intro hne
      refine ⟨hne, ?_⟩
      simp only [Pc.wait]
      omega
  | poll =>
    refine ⟨_, thread_poll hpc, .inr ⟨done, rest, rfl, ?_, ?_⟩⟩
    · apply h.at_pc
      · split
        · exact fun heq => by cases heq
        · exact fun heq => by cases heq
      · split
        · exact fun heq => by cases heq
        · rename_i hlarge
          exact fun _ => not_lt.mp hlarge
    · intro hne
      refine ⟨hne, ?_⟩
      have hlarge : ¬ s.mDownloadDataPoolSize < minLen := by
        obtain ⟨m, rest', rfl⟩ := List.exists_cons_of_ne_nil hne
        rw [← pool_length, h.pool_eq, stream, List.flatMap_cons, List.length_append,
          m.bytes_length]
        omega
      simp only [if_neg hlarge, Pc.wait]
      omega
  | locked =>
    obtain ⟨m, rest', rfl, hbody, hcase⟩ := h.next hpc hsize
    have hwhole : s.pool = m.bytes ++ stream rest' := by
      rw [h.pool_eq]
      exact List.flatMap_cons
    have hw := h.writable hpay hopen
    obtain ⟨hgo, hend⟩ := h.take hwhole hw
    refine ⟨_, (thread_locked hpc).trans (locked_takes hwhole hbody hw), ?_⟩
    cases hterm : m.terminates with
    | true => exact .inl (hend hterm)
    | false =>
      have hall : done ++ [m] ++ rest' = done ++ m :: rest' := by simp
      refine .inr ⟨done ++ [m], rest', hall, ?_, ?_⟩
      · rw [hall]
        exact hgo hterm
      · intro hne
        have hpos := List.length_pos_of_ne_nil hne
        refine ⟨List.cons_ne_nil m rest', ?_⟩
        simp only [Pc.wait, List.length_cons]
        omega

theorem Going.runs (n : ℕ) (h : Going opened done rest (stream (done ++ rest)) s)
    (hsize : (stream (done ++ rest)).length ≤ poolSize)
    (hpay : ∀ f, .frame f ∈ upToFirst (done ++ rest) → f.payload ≠ [])
    (hopen : opened = true ∨ ∃ items ms', done ++ rest = .list items :: ms')
    (hn : rest ≠ [] → s.pc.wait + 3 * (rest.length - 1) ≤ n) :
    ∃ t, Run ConnectManager.step (fun _ l => Written l) s (List.replicate n (.thread none)) t ∧
      Complete opened (done ++ rest) t := by
  induction n generalizing s done rest with
  | zero =>
    cases rest with
    | nil => exact ⟨s, .nil s, h.complete⟩
    | cons m rest =>
      -- only the thread that has ended would need no step
      have hwait : s.pc.wait = 0 := by
        have hle := hn (List.cons_ne_nil m rest)
        omega
      have hpc := h.pc
      cases hcase : s.pc with
      | ended => exact absurd hcase hpc
      | _ =>
        rw [hcase] at hwait
        cases hwait
  | succ n ih =>
    obtain ⟨u, hu, hnext⟩ := h.advance hsize hpay hopen
    cases hnext with
    | inl hover =>
      obtain ⟨t, htail, ht⟩ := hover.runs n
      exact ⟨t, .cons rfl hu htail, ht⟩
    | inr hgo =>
      obtain ⟨done', rest', hsame, hgo, hless⟩ := hgo
      rw [← hsame] at hsize hpay hopen ⊢
      obtain ⟨t, htail, ht⟩ := ih hgo hsize hpay hopen (by
        intro hne
        obtain ⟨hne', hlt⟩ := hless hne
        have hle := hn hne'
        omega)
      exact ⟨t, .cons rfl hu htail, ht⟩

/-- For every cut of the stream into chunks and every interleaving with the thread: what
is written and reported belongs to the first messages of the stream; and when all is
delivered, three steps of the thread a message bring everything up to the first message
that ends the download. -/
theorem framing_independent_of_chunks {opened : Bool} {ms : List Message} {ls : List Act}
    {s : ConnectManager} (hsize : (stream ms).length ≤ poolSize)
    (hpay : ∀ f, .frame f ∈ upToFirst ms → f.payload ≠ [])
    (run : Run ConnectManager.step (fun _ l => Written l)
      (.start (if opened then some [] else none)) ls s)
    (hcut : chunks ls <+: stream ms) :
    (∃ taken, taken <+: upToFirst ms ∧
      s.f = (if opened then some (payloads taken) else none) ∧ s.reports = reports 0 taken) ∧
    s.mDownloadDataPoolSize ≤ poolSize ∧
    (chunks ls = stream ms → (opened = true ∨ ∃ items ms', ms = .list items :: ms') →
      ∀ n, 3 * ms.length ≤ n → ∃ t,
        Run ConnectManager.step (fun _ l => Written l) s (List.replicate n (.thread none)) t ∧
        t.f = (if opened then some (payloads (upToFirst ms)) else none) ∧
        t.reports = reports 0 (upToFirst ms)) := by
  have hstart : Follows opened ms [] (.start (if opened then some [] else none)) := by
    refine .inl ⟨[], ms, rfl, ?_, rfl, List.nil_prefix, rfl, ?_, ?_, fun _ => rfl, rfl, rfl⟩
    · exact fun m hm => by cases hm
    · exact fun heq => by cases heq
    · exact fun heq => by cases heq
  have hfollows := Follows.run hsize hpay run hstart hcut
  rw [List.nil_append] at hfollows
  cases hfollows with
  | inl hgoing =>
    obtain ⟨done, rest, rfl, h⟩ := hgoing
    refine ⟨⟨done, ?_, h.f, h.reports⟩, h.size_le.trans hsize, ?_⟩
    · rw [upToFirst_append h.quiet]
      exact List.prefix_append ..
    · intro hall hopen n hn
      rw [hall] at h
      obtain ⟨t, htail, ht⟩ := h.runs n hsize hpay hopen (by
        intro hne
        have hpos := List.length_pos_of_ne_nil hne
        have hwait : s.pc.wait ≤ 3 := by
          cases s.pc <;> decide
        rw [List.length_append] at hn
        omega)
      exact ⟨t, htail, ht.f, ht.reports⟩
  | inr h =>
    refine ⟨⟨upToFirst ms, List.prefix_rfl, h.f, h.reports⟩, h.size.trans hsize, ?_⟩
    intro _ _ n _
    obtain ⟨t, htail, ht⟩ := h.runs n
    exact ⟨t, htail, ht.f, ht.reports⟩

def videoFrame (end_ : UInt32) (payload : List UInt8) : Message :=
  .frame ⟨.JA_DEV_FILE_TYPE_VIDEO_MP4, 0, end_, 0, payload⟩

theorem framing_two_frames :
    let ms := [videoFrame 0 [1, 2, 3], videoFrame 1 [4]]
    let ls := [.deliver ((stream ms).take 5), .thread none,
      .deliver (((stream ms).drop 5).take 25), .thread none, .thread none,
      .deliver ((stream ms).drop 30)]
    chunks ls = stream ms ∧ ∃ s,
      Run ConnectManager.step (fun _ l => Written l) (.start (some [])) ls s ∧ ∃ t,
        Run ConnectManager.step (fun _ l => Written l) s (List.replicate 6 (.thread none)) t ∧
        t.f = some [1, 2, 3, 4] ∧
        t.reports = [.OnDownloading 0 3 3 0, .OnDownloading 0 1 4 1, .OnDownloading 0 1 4 1] := by
  intro ms ls
  have hcut : chunks ls = stream ms := by decide +kernel
  have hrun : ∃ s, Run ConnectManager.step (fun _ l => Written l) (.start (some [])) ls s ∧ True :=
    exists_run (by decide +kernel)
  obtain ⟨s, run, -⟩ := hrun
  have hpay : ∀ f, .frame f ∈ upToFirst ms → f.payload ≠ [] := by
    intro f hf
    have hcases : Message.frame f = videoFrame 0 [1, 2, 3] ∨ Message.frame f = videoFrame 1 [4] := by
      simpa [ms, upToFirst, videoFrame, Message.terminates] using hf
    cases hcases with
    | inl h =>
      obtain rfl := Message.frame.inj h
      simp
    | inr h =>
      obtain rfl := Message.frame.inj h
      simp
  have hsize : (stream ms).length ≤ poolSize := by decide +kernel
  have hprefix : chunks ls <+: stream ms := hcut ▸ List.prefix_rfl
  obtain ⟨-, -, hall⟩ := @framing_independent_of_chunks true ms ls s hsize hpay run hprefix
  obtain ⟨t, htail, hf, hreports⟩ := hall hcut (.inl rfl) 6 (by decide)
  refine ⟨hcut, s, run, t, htail, ?_, ?_⟩
  · rw [hf]
    decide +kernel
  · rw [hreports]
    decide +kernel

/-- The frame that ends a download is reported twice, and a frame without a payload ends
it unreported. -/
theorem last_frame_reported_twice :
    (∃ s, Run ConnectManager.step (fun _ l => Written l) (.start (some []))
      (.deliver (stream [videoFrame 1 [4]]) :: List.replicate 3 (.thread none)) s ∧
      s.reports = [.OnDownloading 0 1 1 1, .OnDownloading 0 1 1 1]) ∧
    ∃ s, Run ConnectManager.step (fun _ l => Written l) (.start (some []))
      (.deliver (stream [videoFrame 0 [], videoFrame 1 [4]]) :: List.replicate 3 (.thread none)) s ∧
      s.reports = [] ∧ s.mIsDownloading = false ∧ s.pc = .ended := by
  constructor
  · apply exists_run
    decide +kernel
  · apply exists_run
    decide +kernel

end Jagles.Download
