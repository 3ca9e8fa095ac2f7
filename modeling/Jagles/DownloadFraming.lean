import Jagles.DownloadStream

set_option autoImplicit false
set_option linter.dupNamespace false

/-!
# Framing does not depend on the chunks

However the stream is cut into chunks and however the deliveries fall between the
steps of the thread, the pool holds what is delivered and not yet taken, so the thread
finds the messages of the stream one by one.
-/
namespace Jagles.Download
open ByteMemory GuardedRuns

namespace ConnectManager

def pool (s : ConnectManager) : List UInt8 :=
  loadBytes s.mDownloadDataPool 0 s.mDownloadDataPoolSize

def took (s : ConnectManager) (m : Message) : ConnectManager :=
  { s with
    f := s.f.map fun written => written ++ m.payload
    reports := s.reports ++ m.reports ((s.f.getD []).length + m.payload.length)
    mIsDownloading := !m.terminates && s.mIsDownloading }

end ConnectManager

/-- A frame can be written: there is a file, and `fwrite` counts its payload. -/
def Writable (s : ConnectManager) : Message → Prop
  | .list _ => True
  | .frame f => s.f.isSome = true ∧ f.payload ≠ []

section Messages
variable {s : ConnectManager}

theorem items_at {m : Memory} {items : List Item} {a k : ℕ}
    (h : loadBytes m a (items.flatMap Item.bytes).length = items.flatMap Item.bytes)
    (hk : k < items.length) :
    loadBytes m (a + itemSize * k) itemSize = (items.get ⟨k, hk⟩).bytes := by
  have hsplit : items.flatMap Item.bytes = (items.take k).flatMap Item.bytes ++
      (items.get ⟨k, hk⟩).bytes ++ (items.drop (k + 1)).flatMap Item.bytes := by
    calc
      items.flatMap Item.bytes = (items.take k ++ items.drop k).flatMap Item.bytes := by
        rw [List.take_append_drop]
      _ = _ := by
        rw [List.drop_eq_getElem_cons hk, List.flatMap_append, List.flatMap_cons,
          List.append_assoc]
        rfl
  have hmid := loadBytes_mid (h.trans hsplit)
  rwa [items_length, List.length_take, Nat.min_eq_left hk.le, Item.bytes_length] at hmid

theorem list_spec {items : List Item}
    (h : loadBytes s.mDownloadDataPool minLen (items.flatMap Item.bytes).length =
      items.flatMap Item.bytes)
    (hlen : (items.flatMap Item.bytes).length < 2 ^ 31) :
    s.list (items.flatMap Item.bytes).length = s.took (.list items) := by
  have hcount : (((items.flatMap Item.bytes).length : ℤ) % 2 ^ 32).toNat / itemSize =
      items.length := by
    have hmod : (((items.flatMap Item.bytes).length : ℤ) % 2 ^ 32).toNat =
        (items.flatMap Item.bytes).length := by omega
    rw [hmod, items_length]
    exact Nat.mul_div_cancel_left _ (by decide)
  have hreports : ((List.range items.length).map fun k =>
      ConnectManager.listItem s.mDownloadDataPool (minLen + itemSize * k)
        (if k < items.length - 1 then 0 else 1)) = itemReports items := by
    apply List.ext_getElem
    · simp [itemReports]
    · intro k hk hk'
      have hlt : k < items.length := by simpa using hk
      have hflag : (if k < items.length - 1 then (0 : ℤ) else 1) =
          if decide (k + 1 = items.length) then 1 else 0 := by
        by_cases hlast : k + 1 = items.length
        · rw [if_neg (by omega)]
          simp [hlast]
        · rw [if_pos (by omega)]
          simp [hlast]
      simp only [itemReports, List.getElem_map, List.getElem_range, List.getElem_mapIdx]
      rw [hflag, listItem_at (items_at h hlt)]
      rfl
  simp only [ConnectManager.list, hcount, hreports]
  simp [ConnectManager.took, Message.payload, Message.reports, Message.terminates]

theorem frame_spec {f : Frame} (h : loadBytes s.mDownloadDataPool minLen f.bytes.length = f.bytes)
    (hlen : f.bytes.length < 2 ^ 31) (hw : Writable s (.frame f)) :
    s.frame none = some (s.took (.frame f)) := by
  obtain ⟨hopen, hpay⟩ := hw
  obtain ⟨w, hf⟩ := Option.isSome_iff_exists.mp hopen
  have hsize : f.bytes.length = 16 + f.payload.length := by
    simp only [Frame.bytes, List.length_append, be32_length, bytesBE_length]
  rw [hsize] at h hlen
  obtain ⟨hfile, hend, hflag, hpayload⟩ := frame_at h (by omega)
  have hpos : f.payload.length ≠ 0 := by
    rw [Ne, List.length_eq_zero_iff]
    exact hpay
  have hone : f.end_.toNat = 1 ↔ f.end_ = 1 := by
    rw [← UInt32.toNat_inj]
    rfl
  simp only [ConnectManager.frame, hfile, hend, hflag, hpayload, hf, Option.map_some]
  rw [if_pos ⟨hpos, trivial⟩]
  by_cases hlast : f.end_ = 1
  · simp [ConnectManager.took, hf, Message.payload, Message.reports, Message.terminates,
      Frame.report, hlast]
  · simp [ConnectManager.took, hf, Message.payload, Message.reports, Message.terminates,
      Frame.report, hone, hlast]

theorem message_spec {m : Message}
    (h : loadBytes s.mDownloadDataPool minLen m.body.length = m.body)
    (hlen : m.body.length < 2 ^ 31) (hw : Writable s m) :
    s.message m.file_type m.body.length none = some (s.took m) := by
  cases m with
  | list items =>
    unfold ConnectManager.message
    rw [Message.file_type, if_pos rfl]
    exact congrArg some (list_spec h hlen)
  | frame f =>
    have htype := f.file_type.number_cases
    have hnot : f.file_type.number ≠ JA_DEV_FILE_TYPE_LIST := by
      cases f.file_type <;> decide
    unfold ConnectManager.message
    rw [Message.file_type, if_neg hnot, if_pos htype]
    exact frame_spec h hlen hw

end Messages

section Pool
variable {s : ConnectManager}

theorem pool_length (s : ConnectManager) : s.pool.length = s.mDownloadDataPoolSize :=
  loadBytes_length ..

theorem pool_deliver (h : s.mIsDownloading = true) (data : List UInt8) :
    (s.doOnFileDownloadCallback data).pool = s.pool ++ data := by
  unfold ConnectManager.doOnFileDownloadCallback
  rw [if_pos h]
  exact loadBytes_storeBytes_append ..

theorem pool_shift {l more : List UInt8} (h : s.pool = l ++ more) :
    (s.shift l.length).pool = more := by
  have hsize : s.mDownloadDataPoolSize = l.length + more.length := by
    rw [← pool_length, h, List.length_append]
  have hmove : ((s.mDownloadDataPoolSize : ℤ) - l.length).toNat = more.length := by omega
  have hmore : loadBytes s.mDownloadDataPool l.length more.length = more := by
    have hmid := loadBytes_mid (r := []) (h.trans (List.append_nil _).symm)
    rwa [Nat.zero_add] at hmid
  simp only [ConnectManager.pool, ConnectManager.shift, hmove, Int.toNat_natCast, hmore]
  exact loadBytes_storeBytes _ 0 rfl

theorem locked_waits {m : Message} {more rest : List UInt8} {short : Option ℕ}
    (h : s.pool ++ more = m.bytes ++ rest) (hn : minLen ≤ s.mDownloadDataPoolSize)
    (hlen : m.body.length < 2 ^ 31) (hpart : s.mDownloadDataPoolSize < m.bytes.length) :
    s.locked short = some { s with pc := .test } := by
  obtain ⟨-, hsize⟩ := header_at h hn hlen
  rw [m.bytes_length] at hpart
  simp only [ConnectManager.locked, hsize]
  rw [if_pos (by exact_mod_cast hpart)]

theorem locked_whole {m : Message} {more : List UInt8} (h : s.pool = m.bytes ++ more)
    (hlen : m.body.length < 2 ^ 31) (short : Option ℕ) :
    s.locked short = (s.message m.file_type m.body.length short).map fun s =>
      { s.shift m.bytes.length with pc := .test } := by
  have hcount : s.mDownloadDataPoolSize = m.bytes.length + more.length := by
    rw [← pool_length, h, List.length_append]
  have hn : minLen ≤ s.mDownloadDataPoolSize := by
    rw [hcount, m.bytes_length]
    omega
  have hwhole : s.pool ++ [] = m.bytes ++ more := (List.append_nil _).trans h
  obtain ⟨htype, hsize⟩ := header_at hwhole hn hlen
  have hmix : ((minLen : ℤ) + m.body.length) = (m.bytes.length : ℤ) := by
    rw [m.bytes_length]
    push_cast
    rfl
  simp only [ConnectManager.locked, htype, hsize, hmix]
  rw [if_neg (by omega)]

theorem locked_takes {m : Message} {more : List UInt8} (h : s.pool = m.bytes ++ more)
    (hlen : m.body.length < 2 ^ 31) (hw : Writable s m) :
    s.locked none = some { (s.took m).shift m.bytes.length with pc := .test } := by
  rw [locked_whole h hlen, message_spec (body_at h) hlen hw]
  rfl

theorem writable_of_locked {m : Message} {more : List UInt8} {t : ConnectManager}
    (h : s.pool = m.bytes ++ more) (hlen : m.body.length < 2 ^ 31)
    (hpay : ∀ f, m = .frame f → f.payload ≠ []) (ht : s.locked none = some t) : Writable s m := by
  cases m with
  | list items => trivial
  | frame f =>
    refine ⟨?_, hpay f rfl⟩
    cases hf : s.f with
    | some written => rfl
    | none =>
      have hmessage : s.message f.file_type.number f.bytes.length none = none := by
        have hnot : f.file_type.number ≠ JA_DEV_FILE_TYPE_LIST := by
          cases f.file_type <;> decide
        unfold ConnectManager.message
        rw [if_neg hnot, if_pos f.file_type.number_cases, ConnectManager.frame, hf]
        rfl
      rw [locked_whole h hlen, Message.file_type, Message.body, hmessage] at ht
      cases ht

end Pool

/-- The thread has taken the messages `done` of the stream, and of what is delivered the
rest is in the pool. -/
structure Going (opened : Bool) (done rest : List Message) (delivered : List UInt8)
    (s : ConnectManager) : Prop where
  quiet : ∀ m ∈ done, m.terminates = false
  pool : stream done ++ s.pool = delivered
  within : delivered <+: stream (done ++ rest)
  on : s.mIsDownloading = true
  pc : s.pc ≠ .ended
  locked : s.pc = .locked → minLen ≤ s.mDownloadDataPoolSize
  unopened : opened = false → done = []
  f : s.f = if opened then some (payloads done) else none
  reports : s.reports = reports 0 done

/-- The first message that ends the download has been taken. -/
structure Over (opened : Bool) (ms : List Message) (s : ConnectManager) : Prop where
  off : s.mIsDownloading = false
  pc : s.pc = .test ∨ s.pc = .ended
  size : s.mDownloadDataPoolSize ≤ (stream ms).length
  f : s.f = if opened then some (payloads (upToFirst ms)) else none
  reports : s.reports = reports 0 (upToFirst ms)

section Thread
variable {s : ConnectManager} {short : Option ℕ}

theorem thread_poll (h : s.pc = .poll) : s.doDownloadThread short =
    some { s with pc := if s.mDownloadDataPoolSize < minLen then .test else .locked } := by
  rw [ConnectManager.doDownloadThread, h]

theorem thread_locked (h : s.pc = .locked) : s.doDownloadThread short = s.locked short := by
  rw [ConnectManager.doDownloadThread, h]

theorem thread_test (h : s.pc = .test) (hon : s.mIsDownloading = true) :
    s.doDownloadThread short = some { s with pc := .poll } := by
  rw [ConnectManager.doDownloadThread, h]
  exact if_pos hon

end Thread

section Steps
variable {opened : Bool} {ms done rest : List Message} {delivered : List UInt8}
  {s t : ConnectManager}

theorem Going.ahead (h : Going opened done rest delivered s) : ∃ more, s.pool ++ more = stream rest := by
  obtain ⟨more, hmore⟩ := h.within
  refine ⟨more, ?_⟩
  rw [← h.pool, stream_append, List.append_assoc] at hmore
  exact List.append_cancel_left hmore

theorem Going.size_le (h : Going opened done rest delivered s) :
    s.mDownloadDataPoolSize ≤ (stream (done ++ rest)).length := by
  have hle := h.within.length_le
  rw [← h.pool, List.length_append, pool_length] at hle
  omega

theorem Going.at_pc (h : Going opened done rest delivered s) {pc : Pc} (hpc : pc ≠ .ended)
    (hlocked : pc = .locked → minLen ≤ s.mDownloadDataPoolSize) :
    Going opened done rest delivered { s with pc := pc } :=
  ⟨h.quiet, h.pool, h.within, h.on, hpc, hlocked, h.unopened, h.f, h.reports⟩

theorem Going.deliver {data : List UInt8} (h : Going opened done rest delivered s)
    (hin : delivered ++ data <+: stream (done ++ rest)) :
    Going opened done rest (delivered ++ data) (s.doOnFileDownloadCallback data) := by
  have hpool := pool_deliver h.on data
  unfold ConnectManager.doOnFileDownloadCallback at *
  rw [if_pos h.on] at *
  refine ⟨h.quiet, ?_, hin, h.on, h.pc, ?_, h.unopened, h.f, h.reports⟩
  · rw [hpool, ← List.append_assoc, h.pool]
  · intro hpc
    have hsize := h.locked hpc
    simp only
    omega

theorem Over.deliver {data : List UInt8} (h : Over opened ms s) :
    s.doOnFileDownloadCallback data = s := by
  unfold ConnectManager.doOnFileDownloadCallback
  rw [h.off]
  rfl

theorem Over.thread (h : Over opened ms s) (short : Option ℕ) :
    ∃ t, s.doDownloadThread short = some t ∧ Over opened ms t := by
  unfold ConnectManager.doDownloadThread
  cases h.pc with
  | inl htest =>
    rw [htest, h.off]
    exact ⟨_, rfl, rfl, .inr rfl, Nat.zero_le _, h.f, h.reports⟩
  | inr hended =>
    rw [hended]
    exact ⟨s, rfl, h⟩

theorem Going.took {m : Message} (h : Going opened done rest delivered s) :
    (s.took m).f = (if opened then some (payloads (done ++ [m])) else none) ∧
      (s.took m).reports = Download.reports 0 (done ++ [m]) := by
  have hpos : (s.f.getD []).length = (payloads done).length := by
    rw [h.f]
    cases hopen : opened with
    | true => rfl
    | false =>
      rw [h.unopened hopen]
      rfl
  constructor
  · simp only [ConnectManager.took, h.f, payloads_append]
    cases opened with
    | true => simp [payloads]
    | false => rfl
  · simp only [ConnectManager.took, h.reports, hpos, reports_append, Download.reports,
      List.append_nil, Nat.zero_add]

theorem Going.take {m : Message} {more : List UInt8}
    (h : Going opened done (m :: rest) delivered s) (hwhole : s.pool = m.bytes ++ more)
    (hw : Writable s m) :
    let t : ConnectManager := { (s.took m).shift m.bytes.length with pc := .test }
    (m.terminates = false → Going opened (done ++ [m]) rest delivered t) ∧
      (m.terminates = true → Over opened (done ++ m :: rest) t) := by
  intro t
  obtain ⟨hf, hreports⟩ := h.took (m := m)
  have hpool : t.pool = more := pool_shift (s := s.took m) hwhole
  have hall : done ++ [m] ++ rest = done ++ m :: rest := by simp
  constructor
  · intro hquiet
    refine ⟨?_, ?_, ?_, ?_, ?_, ?_, ?_, hf, hreports⟩
    · intro x hx
      rw [List.mem_append, List.mem_singleton] at hx
      cases hx with
      | inl hold => exact h.quiet x hold
      | inr hnew => rw [hnew, hquiet]
    · rw [hpool, ← h.pool, hwhole, stream_append, List.append_assoc]
      simp [stream]
    · rw [hall]
      exact h.within
    · change (!m.terminates && s.mIsDownloading) = true
      rw [hquiet, h.on]
      rfl
    · exact fun hpc => by cases hpc
    · exact fun hpc => by cases hpc
    · -- a frame can only be written to a file
      intro hclosed
      have hnone : s.f = none := by
        rw [h.f, hclosed]
        rfl
      cases m with
      | list items => cases hquiet
      | frame f =>
        have hopen := hw.1
        rw [hnone] at hopen
        cases hopen
  · intro hend
    have hup : upToFirst (done ++ m :: rest) = done ++ [m] := by
      rw [upToFirst_append h.quiet, upToFirst, hend]
      rfl
    refine ⟨?_, .inl rfl, ?_, ?_, ?_⟩
    · change (!m.terminates && s.mIsDownloading) = false
      rw [hend]
      rfl
    · have hsize := h.size_le
      have hpart : t.mDownloadDataPoolSize = more.length := by
        rw [← pool_length, hpool]
      rw [← pool_length, hwhole, List.length_append] at hsize
      omega
    · rw [hup]
      exact hf
    · rw [hup]
      exact hreports

theorem mem_upToFirst {m : Message} (h : ∀ x ∈ done, x.terminates = false) :
    m ∈ upToFirst (done ++ m :: rest) := by
  rw [upToFirst_append h, upToFirst]
  apply List.mem_append_right
  split
  · exact List.mem_singleton.mpr rfl
  · exact List.mem_cons_self

theorem Going.next (h : Going opened done rest delivered s) (hpc : s.pc = .locked)
    (hsize : (stream (done ++ rest)).length ≤ poolSize) :
    ∃ m rest', rest = m :: rest' ∧ m.body.length < 2 ^ 31 ∧
      ((s.locked none = some { s with pc := .test } ∧
          s.mDownloadDataPoolSize < m.bytes.length) ∨
        ∃ more, s.pool = m.bytes ++ more) := by
  obtain ⟨more, hmore⟩ := h.ahead
  have hn := h.locked hpc
  cases rest with
  | nil =>
    have hlen := congrArg List.length hmore
    rw [List.length_append, pool_length] at hlen
    simp only [stream, List.flatMap_nil, List.length_nil] at hlen
    rw [minLen] at hn
    omega
  | cons m rest =>
    have hstream : stream (m :: rest) = m.bytes ++ stream rest := List.flatMap_cons
    have hbody : m.body.length < 2 ^ 31 := by
      have hcount : (stream (done ++ m :: rest)).length =
          (stream done).length + (minLen + m.body.length + (stream rest).length) := by
        rw [stream_append, hstream, List.length_append, List.length_append, m.bytes_length]
      rw [hcount, poolSize] at hsize
      omega
    refine ⟨m, rest, rfl, hbody, ?_⟩
    rw [hstream] at hmore
    by_cases hpart : s.mDownloadDataPoolSize < m.bytes.length
    · exact .inl ⟨locked_waits hmore hn hbody hpart, hpart⟩
    · right
      have hprefix : m.bytes <+: s.pool := by
        apply List.prefix_of_prefix_length_le (List.prefix_append m.bytes (stream rest))
        · rw [← hmore]
          exact List.prefix_append ..
        · rw [pool_length]
          omega
      obtain ⟨tail, htail⟩ := hprefix
      exact ⟨tail, htail.symm⟩

end Steps

/-- How far a download of the stream is. -/
def Follows (opened : Bool) (ms : List Message) (delivered : List UInt8) (s : ConnectManager) :
    Prop :=
  (∃ done rest, ms = done ++ rest ∧ Going opened done rest delivered s) ∨ Over opened ms s

section Runs
variable {opened : Bool} {ms : List Message} {delivered : List UInt8} {s t : ConnectManager}

theorem Follows.thread (hsize : (stream ms).length ≤ poolSize)
    (hpay : ∀ f, .frame f ∈ upToFirst ms → f.payload ≠ []) (h : Follows opened ms delivered s)
    (hs : s.doDownloadThread none = some t) : Follows opened ms delivered t := by
  cases h with
  | inr hover =>
    obtain ⟨t', ht', hover'⟩ := hover.thread none
    obtain rfl := Option.some.inj (hs.symm.trans ht')
    exact .inr hover'
  | inl hgoing =>
    obtain ⟨done, rest, rfl, h⟩ := hgoing
    cases hpc : s.pc with
    | poll =>
      obtain rfl := Option.some.inj (hs.symm.trans (thread_poll hpc))
      refine .inl ⟨done, rest, rfl, h.at_pc ?_ ?_⟩
      · split
        · exact fun heq => by cases heq
        · exact fun heq => by cases heq
      · split
        · exact fun heq => by cases heq
        · rename_i hlarge
          exact fun _ => not_lt.mp hlarge
    | test =>
      obtain rfl := Option.some.inj (hs.symm.trans (thread_test hpc h.on))
      exact .inl ⟨done, rest, rfl, h.at_pc (fun heq => by cases heq) (fun heq => by cases heq)⟩
    | ended => exact absurd hpc h.pc
    | locked =>
      rw [thread_locked hpc] at hs
      obtain ⟨m, rest', rfl, hbody, hcase⟩ := h.next hpc hsize
      cases hcase with
      | inl hwait =>
        obtain rfl := Option.some.inj (hs.symm.trans hwait.1)
        exact .inl ⟨done, m :: rest', rfl,
          h.at_pc (fun heq => by cases heq) (fun heq => by cases heq)⟩
      | inr hwhole =>
        obtain ⟨more, hwhole⟩ := hwhole
        have hw : Writable s m := by
          apply writable_of_locked hwhole hbody _ hs
          rintro f rfl
          exact hpay f (mem_upToFirst h.quiet)
        obtain rfl := Option.some.inj (hs.symm.trans (locked_takes hwhole hbody hw))
        obtain ⟨hgo, hend⟩ := h.take hwhole hw
        cases hterm : m.terminates with
        | false => exact .inl ⟨done ++ [m], rest', by simp, hgo hterm⟩
        | true => exact .inr (hend hterm)

def chunks : List Act → List UInt8
  | [] => []
  | .deliver data :: ls => data ++ chunks ls
  | .thread _ :: ls => chunks ls

/-- `fwrite` writes what it is given. -/
def Written : Act → Prop
  | .deliver _ => True
  | .thread short => short = none

theorem Follows.run {ls : List Act} (hsize : (stream ms).length ≤ poolSize)
    (hpay : ∀ f, .frame f ∈ upToFirst ms → f.payload ≠ [])
    (run : Run ConnectManager.step (fun _ l => Written l) s ls t)
    (h : Follows opened ms delivered s) (hin : delivered ++ chunks ls <+: stream ms) :
    Follows opened ms (delivered ++ chunks ls) t := by
  induction run generalizing delivered with
  | nil s =>
    rw [chunks, List.append_nil]
    exact h
  | @cons s u t l ls hl hs tail ih =>
    cases l with
    | deliver data =>
      obtain rfl := Option.some.inj hs
      rw [chunks, ← List.append_assoc] at hin ⊢
      apply ih _ hin
      cases h with
      | inl hgoing =>
        obtain ⟨done, rest, rfl, hgo⟩ := hgoing
        exact .inl ⟨done, rest, rfl, hgo.deliver ((List.prefix_append _ _).trans hin)⟩
      | inr hover =>
        rw [hover.deliver]
        exact .inr hover
    | thread short =>
      obtain rfl : short = none := hl
      exact ih (h.thread hsize hpay hs) hin

end Runs

end Jagles.Download
