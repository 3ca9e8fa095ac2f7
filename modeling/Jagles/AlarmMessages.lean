import Jagles.ByteMemory

set_option autoImplicit false
set_option linter.dupNamespace false

/-!
# Alarm messages (`OnRecvAlarmMsg`)

The fragments of an alarm message are collected in one buffer and handed on when the
length of the message is reached. A copy that leaves its buffer gives `none`; `malloc`
does not fail.
-/
namespace Jagles.AlarmMessages
open ByteMemory

structure P2PAlarmMsgData where
  type : ℤ
  chn : ℤ
  ticket : ℤ
  totalLen : ℕ
  curLen : ℕ
  data : List UInt8
  deriving DecidableEq

structure VconBuffer where
  size : ℕ
  bytes : Memory

def VconBuffer.malloc (size : ℕ) : VconBuffer := ⟨size, fun _ => 0⟩

def VconBuffer.write (b : VconBuffer) (offset : ℕ) (src : List UInt8) (n : ℕ) :
    Option VconBuffer :=
  if offset + n ≤ b.size ∧ n ≤ src.length then
    some { b with bytes := storeBytes b.bytes offset (src.take n) }
  else none

def VconBuffer.read (b : VconBuffer) (n : ℕ) : Option (List UInt8) :=
  if n ≤ b.size then some (loadBytes b.bytes 0 n) else none

/-- `pulled` collects what `DoPullAlarmmsg` has been called with. -/
structure JAConnect where
  mIsConnected : Bool
  mVconbuffer : Option VconBuffer
  mVconRecvLength : ℕ
  pulled : List P2PAlarmMsgData

def JAConnect.create : JAConnect where
  mIsConnected := false
  mVconbuffer := none
  mVconRecvLength := 0
  pulled := []

/-- The buffer and the length received, with `if (!con->mVconbuffer)` done. -/
def opened (s : JAConnect) (totalLen : ℕ) : VconBuffer × ℕ :=
  match s.mVconbuffer with
  | none => (VconBuffer.malloc totalLen, 0)
  | some b => (b, s.mVconRecvLength)

def onRecvAlarmMsg (s : JAConnect) (msgData : P2PAlarmMsgData) : Option JAConnect := do
  let buffer ← (opened s msgData.totalLen).1.write (opened s msgData.totalLen).2
    msgData.data msgData.curLen
  let received := (opened s msgData.totalLen).2 + msgData.curLen
  if received = msgData.totalLen then
    let data ← buffer.read msgData.totalLen
    some { s with
      pulled := s.pulled ++ [{ msgData with data }]
      mVconbuffer := none
      mVconRecvLength := received }
  else some { s with mVconbuffer := some buffer, mVconRecvLength := received }

/-- What `DoDisconnect` does here: it leaves the buffer as it is. -/
def doDisconnect (s : JAConnect) : JAConnect := { s with mIsConnected := false }

def onConnect (s : JAConnect) : JAConnect := { s with mIsConnected := true }

/-- A message as the device sends it, cut into pieces. -/
structure AlarmMessage where
  type : ℤ
  chn : ℤ
  ticket : ℤ
  pieces : List (List UInt8)

namespace AlarmMessage

def bytes (m : AlarmMessage) : List UInt8 := m.pieces.flatten

def piece (m : AlarmMessage) (i : ℕ) : List UInt8 := m.pieces.getD i []

def fragment (m : AlarmMessage) (i : ℕ) : P2PAlarmMsgData where
  type := m.type
  chn := m.chn
  ticket := m.ticket
  totalLen := m.bytes.length
  curLen := (m.piece i).length
  data := m.piece i

/-- The bytes of the first `n` pieces. -/
def upTo (m : AlarmMessage) (n : ℕ) : List UInt8 := (m.pieces.take n).flatten

theorem upTo_succ (m : AlarmMessage) (n : ℕ) : m.upTo (n + 1) = m.upTo n ++ m.piece n := by
  simp only [upTo, piece, List.take_add_one, List.flatten_append]
  congr 1
  cases h : m.pieces[n]? with
  | none => simp [h]
  | some p => simp [h]

theorem upTo_append (m : AlarmMessage) (n : ℕ) :
    m.upTo n ++ (m.pieces.drop n).flatten = m.bytes := by
  rw [upTo, ← List.flatten_append, List.take_append_drop, bytes]

theorem upTo_length_le (m : AlarmMessage) (n : ℕ) : (m.upTo n).length ≤ m.bytes.length := by
  rw [← m.upTo_append n, List.length_append]
  omega

theorem upTo_eq_of_length {m : AlarmMessage} {n : ℕ} (h : (m.upTo n).length = m.bytes.length) :
    m.upTo n = m.bytes :=
  List.IsPrefix.eq_of_length ⟨_, m.upTo_append n⟩ h

end AlarmMessage

inductive Event where
  | fragment (message piece : ℕ)
  | disconnect
  | connect

section Runs
variable (messages : ℕ → AlarmMessage)

def step (s : JAConnect) : Event → Option JAConnect
  | .fragment k i => onRecvAlarmMsg s ((messages k).fragment i)
  | .disconnect => some (doDisconnect s)
  | .connect => some (onConnect s)

def run : JAConnect → List Event → Option JAConnect
  | s, [] => some s
  | s, e :: es => (step messages s e).bind fun t => run t es

def Event.sent : Event → Option (ℕ × ℕ)
  | .fragment k i => some (k, i)
  | .disconnect | .connect => none

/-- The fragments come in the order they were sent; some may be missing. -/
def InOrder (es : List Event) : Prop :=
  (es.filterMap Event.sent).Pairwise fun p q => p.1 < q.1 ∨ p.1 = q.1 ∧ p.2 < q.2

instance (es : List Event) : Decidable (InOrder es) :=
  inferInstanceAs (Decidable (List.Pairwise _ _))

/-- The message in the buffer with the number of its pieces there, after piece `i` of
message `k`. -/
def pending (k i : ℕ) : Option (ℕ × ℕ) :=
  if ((messages k).upTo (i + 1)).length = (messages k).bytes.length then none
  else some (k, i + 1)

/-- Every fragment continues the message in the buffer, or is the first one of a message
when there is none. -/
def Unbroken : Option (ℕ × ℕ) → List Event → Prop
  | _, [] => True
  | none, .fragment k i :: es => i = 0 ∧ Unbroken (pending messages k i) es
  | some p, .fragment k i :: es => (k, i) = p ∧ Unbroken (pending messages k i) es
  | p, .disconnect :: es => Unbroken p es
  | p, .connect :: es => Unbroken p es

/-- All that has been handed on are whole messages. -/
def Whole (s : JAConnect) : Prop :=
  ∀ d ∈ s.pulled, ∃ k, d.data = (messages k).bytes ∧ d.totalLen = (messages k).bytes.length

/-- The first `n` pieces of message `k` have been copied to the buffer `b`. -/
structure Filled (k n : ℕ) (b : VconBuffer) (received : ℕ) : Prop where
  size : b.size = (messages k).bytes.length
  length : received = ((messages k).upTo n).length
  bytes : loadBytes b.bytes 0 received = (messages k).upTo n

/-- The buffer holds the pieces of the pending message. -/
def Holds (s : JAConnect) : Option (ℕ × ℕ) → Prop
  | none => s.mVconbuffer = none
  | some (k, n) => ∃ b, s.mVconbuffer = some b ∧ Filled messages k n b s.mVconRecvLength

variable {messages} {s : JAConnect}

theorem Filled.malloc (k : ℕ) :
    Filled messages k 0 (VconBuffer.malloc (messages k).bytes.length) 0 :=
  ⟨rfl, rfl, rfl⟩

theorem Filled.write {k n received : ℕ} {b : VconBuffer} (h : Filled messages k n b received) :
    ∃ b', b.write received ((messages k).piece n) ((messages k).piece n).length = some b' ∧
      Filled messages k (n + 1) b' (received + ((messages k).piece n).length) := by
  have hsucc := (messages k).upTo_succ n
  have hle := (messages k).upTo_length_le (n + 1)
  have hlen : received + ((messages k).piece n).length = ((messages k).upTo (n + 1)).length := by
    rw [hsucc, List.length_append, h.length]
  refine ⟨{ b with bytes := storeBytes b.bytes received ((messages k).piece n) }, ?_, ?_⟩
  · rw [VconBuffer.write, if_pos ⟨by have := h.size; omega, le_rfl⟩, List.take_length]
  · refine ⟨h.size, hlen, ?_⟩
    rw [loadBytes_storeBytes_append, h.bytes, hsucc]

theorem recv_more {d : P2PAlarmMsgData} {b : VconBuffer}
    (hw : (opened s d.totalLen).1.write (opened s d.totalLen).2 d.data d.curLen = some b)
    (hne : (opened s d.totalLen).2 + d.curLen ≠ d.totalLen) :
    onRecvAlarmMsg s d = some { s with
      mVconbuffer := some b
      mVconRecvLength := (opened s d.totalLen).2 + d.curLen } := by
  simp only [onRecvAlarmMsg, hw, Option.bind_eq_bind, Option.bind_some, if_neg hne]

theorem recv_last {d : P2PAlarmMsgData} {b : VconBuffer}
    (hw : (opened s d.totalLen).1.write (opened s d.totalLen).2 d.data d.curLen = some b)
    (he : (opened s d.totalLen).2 + d.curLen = d.totalLen) (hsize : d.totalLen ≤ b.size) :
    onRecvAlarmMsg s d = some { s with
      pulled := s.pulled ++ [{ d with data := loadBytes b.bytes 0 d.totalLen }]
      mVconbuffer := none
      mVconRecvLength := (opened s d.totalLen).2 + d.curLen } := by
  simp only [onRecvAlarmMsg, hw, Option.bind_eq_bind, Option.bind_some, if_pos he,
    VconBuffer.read, if_pos hsize]

/-- The next fragment of a message is copied, and the last one hands the message on. -/
theorem recv_next {k n : ℕ} (hw : Whole messages s)
    (h : Filled messages k n (opened s (messages k).bytes.length).1
      (opened s (messages k).bytes.length).2) :
    ∃ t, onRecvAlarmMsg s ((messages k).fragment n) = some t ∧ Whole messages t ∧
      Holds messages t (pending messages k n) := by
  obtain ⟨b, hwrite, hfilled⟩ := h.write
  rw [pending, ← hfilled.length]
  by_cases hdone : (opened s (messages k).bytes.length).2 + ((messages k).piece n).length =
      (messages k).bytes.length
  · have hbytes : loadBytes b.bytes 0 (messages k).bytes.length = (messages k).bytes := by
      have hall := hfilled.bytes
      rw [AlarmMessage.upTo_eq_of_length (hfilled.length.symm.trans hdone), hdone] at hall
      exact hall
    rw [if_pos hdone]
    refine ⟨_, recv_last hwrite hdone hfilled.size.ge, ?_, rfl⟩
    intro d hd
    rcases List.mem_append.mp hd with hold | hnew
    · exact hw d hold
    · obtain rfl := List.mem_singleton.mp hnew
      exact ⟨k, hbytes, rfl⟩
  · rw [if_neg hdone]
    exact ⟨_, recv_more hwrite hdone, hw, b, rfl, hfilled⟩

theorem run_unbroken {p : Option (ℕ × ℕ)} {es : List Event} (hw : Whole messages s)
    (hs : Holds messages s p) (hu : Unbroken messages p es) :
    ∃ t, run messages s es = some t ∧ Whole messages t := by
  induction es generalizing s p with
  | nil => exact ⟨s, rfl, hw⟩
  | cons e es ih =>
    cases e with
    | fragment k i =>
      obtain ⟨hfilled, hrest⟩ : Filled messages k i (opened s (messages k).bytes.length).1
          (opened s (messages k).bytes.length).2 ∧ Unbroken messages (pending messages k i) es := by
        cases p with
        | none =>
          obtain ⟨rfl, hrest⟩ := hu
          simp only [opened, show s.mVconbuffer = none from hs]
          exact ⟨.malloc k, hrest⟩
        | some q =>
          obtain ⟨rfl, hrest⟩ := hu
          obtain ⟨b, hb, hfilled⟩ := hs
          simp only [opened, hb]
          exact ⟨hfilled, hrest⟩
      obtain ⟨t, ht, hwt, hst⟩ := recv_next hw hfilled
      simp only [run, step, ht, Option.bind_some]
      exact ih hwt hst hrest
    | disconnect =>
      have hrest : Unbroken messages p es := by
        cases p <;> exact hu
      exact ih (s := doDisconnect s) hw (by cases p <;> exact hs) hrest
    | connect =>
      have hrest : Unbroken messages p es := by
        cases p <;> exact hu
      exact ih (s := onConnect s) hw (by cases p <;> exact hs) hrest

end Runs

/-- When no message is broken off, no copy leaves its buffer, and all that is handed on
are whole messages, each with its length. -/
theorem alarms_reassembled (messages : ℕ → AlarmMessage) (es : List Event)
    (h : Unbroken messages none es) :
    ∃ t, run messages .create es = some t ∧ ∀ d ∈ t.pulled, ∃ k,
      d.data = (messages k).bytes ∧ d.totalLen = (messages k).bytes.length :=
  run_unbroken (by intro d hd; cases hd) (p := none) rfl h

def twoMessages : ℕ → AlarmMessage
  | 0 => ⟨0, 1, 1700000000, [[1, 2], [3]]⟩
  | _ => ⟨2, 1, 1700000060, [[4, 5]]⟩

theorem alarms_reassembled_two_messages :
    Unbroken twoMessages none
      [.connect, .fragment 0 0, .fragment 0 1, .disconnect, .connect, .fragment 1 0] ∧
    ∃ t, run twoMessages .create
      [.connect, .fragment 0 0, .fragment 0 1, .disconnect, .connect, .fragment 1 0] = some t ∧
      ∀ d ∈ t.pulled, ∃ k, d.data = (twoMessages k).bytes ∧
        d.totalLen = (twoMessages k).bytes.length := by
  have h : Unbroken twoMessages none
      [.connect, .fragment 0 0, .fragment 0 1, .disconnect, .connect, .fragment 1 0] :=
    ⟨rfl, rfl, rfl, trivial⟩
  exact ⟨h, alarms_reassembled twoMessages _ h⟩

/-- The second piece of a message of three bytes is lost with the connection. The next
message is then written over the end of the old buffer. -/
theorem lost_fragment_overruns : ¬ ∀ messages es, InOrder es →
    ∃ t, run messages .create es = some t ∧ ∀ d ∈ t.pulled, ∃ k,
      d.data = (messages k).bytes ∧ d.totalLen = (messages k).bytes.length := by
  intro hall
  obtain ⟨t, ht, -⟩ := hall twoMessages
    [.connect, .fragment 0 0, .disconnect, .connect, .fragment 1 0] (by decide)
  have hnone : run twoMessages .create
      [.connect, .fragment 0 0, .disconnect, .connect, .fragment 1 0] = none := rfl
  rw [hnone] at ht
  cases ht

end Jagles.AlarmMessages
