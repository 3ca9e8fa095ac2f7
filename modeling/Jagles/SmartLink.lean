import Mathlib.Data.List.TakeWhile
import Mathlib.Tactic

set_option autoImplicit false
set_option linter.dupNamespace false

/-!
# SmartLink (`nk_smart_link_send`)

The Wi-Fi credentials travel in the lengths of broadcast packets. The encoder works in
static variables that keep what the message before left there. `calls` counts the calls
of `sendto` and `sent` collects the lengths handed to it.
-/
namespace Jagles.SmartLink

/-- What the socket answers: the result of the `k`-th `sendto` and `errno` after it. -/
structure Socket where
  sendto : ℕ → ℤ
  errno : ℕ → ℤ

structure Statics where
  sendtoRet : ℤ
  shibai : ℤ
  messageLen : ℕ
  packetNum : ℤ
  i : ℕ
  il : ℤ
  messageInt : List ℤ
  messageCun : List UInt8
  fabao : Bool
  calls : ℕ
  sent : List ℤ

def Statics.initial : Statics where
  sendtoRet := 0
  shibai := 0
  messageLen := 0
  packetNum := 0
  i := 0
  il := 0
  messageInt := List.replicate 90 0
  messageCun := List.replicate 45 0
  fabao := false
  calls := 0
  sent := []

/-- A `char` as an `int`; whether `char` is signed depends on the processor. -/
def charToInt (signed : Bool) (c : UInt8) : ℤ :=
  if signed && decide (128 ≤ c.toNat) then (c.toNat : ℤ) - 256 else c.toNat

section code

variable (net : Socket) (signed : Bool)

def smartLinkSendto (s : Statics) (sendbufLength : ℤ) : Statics :=
  let s := if s.fabao then
    { s with
      sendtoRet := net.sendto s.calls
      shibai := 0
      calls := s.calls + 1
      sent := s.sent ++ [sendbufLength] } else s
  if s.sendtoRet < 0 then { s with shibai := net.errno s.calls, fabao := false } else s

def smartLinkSendBaotou (s : Statics) (packetNum : ℤ) : Statics :=
  let s := smartLinkSendto net s 276
  let s := smartLinkSendto net s 341
  let s := smartLinkSendto net s 276
  let s := smartLinkSendto net s 341
  let s := smartLinkSendto net s 276
  let s := smartLinkSendto net s 341
  let s := smartLinkSendto net s (342 + packetNum)
  let s := smartLinkSendto net s (1302 + packetNum)
  let s := smartLinkSendto net s (342 + packetNum)
  smartLinkSendto net s (1302 + packetNum)

/-- `for (i = ..; i < message_len * 2; i += 2)`, at most `fuel` rounds of it. -/
def forPairs (body : Statics → Statics) : ℕ → Statics → Statics
  | 0, s => s
  | fuel + 1, s =>
    if s.i < s.messageLen * 2 then
      let s := body s
      forPairs body fuel { s with i := s.i + 2 }
    else s

def splitDigits (s : Statics) : Statics :=
  let il := charToInt signed (s.messageCun.getD (s.i / 2) 0)
  { s with
    il := il
    messageInt := (s.messageInt.set s.i ((il - 32).tdiv 10)).set (s.i + 1) ((il - 32).tmod 10) }

def sendDigits (s : Statics) : Statics :=
  let s := smartLinkSendto net s (402 + 20 * ((s.i / 2 : ℕ) : ℤ) + s.messageInt.getD s.i 0)
  let s := smartLinkSendto net s (402 + 20 * ((s.i / 2 : ℕ) : ℤ) + s.messageInt.getD s.i 0)
  let s := smartLinkSendto net s
    (402 + 20 * ((s.i / 2 : ℕ) : ℤ) + 10 + s.messageInt.getD (s.i + 1) 0)
  smartLinkSendto net s (402 + 20 * ((s.i / 2 : ℕ) : ℤ) + 10 + s.messageInt.getD (s.i + 1) 0)

/-- `strncpy(message_cun, message, 45)`: the string up to its end, filled up with zeros. -/
def strncpy (message : List UInt8) : List UInt8 :=
  let bytes := (message.takeWhile (· ≠ 0)).take 45
  bytes ++ List.replicate (45 - bytes.length) 0

def nkSmartLinkSend (s : Statics) (message : List UInt8) : Statics :=
  let s := { s with messageInt := List.replicate 90 0, messageCun := strncpy message }
  let messageLen := (s.messageCun.takeWhile (· ≠ 0)).length
  let s := { s with messageLen, packetNum := (messageLen : ℤ) - 1, i := 0 }
  let s := forPairs (splitDigits signed) messageLen s
  let s := smartLinkSendBaotou net s s.packetNum
  forPairs (sendDigits net) messageLen { s with i := 0 }

/-- `init` is the result of opening the socket. A string of 45 bytes or more leaves
`message_cun` without its end, so that `strlen` and the loops leave their arrays;
`overrun` is whatever that does to the static variables. -/
def jaSmartlinkSendpacket (overrun : Statics → List UInt8 → Statics) (s : Statics) (init : ℤ)
    (message : List UInt8) : Statics :=
  let s := { s with fabao := true }
  if init = 0 then
    if (message.takeWhile (· ≠ 0)).length < 45 then nkSmartLinkSend net signed s message
    else overrun s message
  else s

/-- The messages handed to SmartLink one after the other since the library was loaded. -/
def sendPackets (overrun : Statics → List UInt8 → Statics) (history : List (ℤ × List UInt8)) :
    Statics :=
  history.foldl (fun s call => jaSmartlinkSendpacket net signed overrun s call.1 call.2)
    Statics.initial

/-- The lengths that one more message puts on the air. -/
def emitted (overrun : Statics → List UInt8 → Statics) (history : List (ℤ × List UInt8))
    (message : List UInt8) : List ℤ :=
  let s := sendPackets net signed overrun history
  (jaSmartlinkSendpacket net signed overrun s 0 message).sent.drop s.sent.length

end code

/-! ## What a receiver makes of the lengths -/

/-- The least `k` below `bound` with a packet of length `base + k`. -/
def lookup (received : List ℤ) (base : ℤ) (bound : ℕ) : Option ℕ :=
  (List.range bound).find? fun k => decide (base + k ∈ received)

def decodeChar (received : List ℤ) (position : ℕ) : Option UInt8 := do
  let tens ← lookup received (402 + 20 * position) 10
  let ones ← lookup received (402 + 20 * position + 10) 10
  some (UInt8.ofNat (32 + 10 * tens + ones))

def decode (received : List ℤ) : Option (List UInt8) := do
  let last ← lookup received 342 44
  (List.range (last + 1)).mapM (decodeChar received)

/-! ## What one message emits -/

def tens (signed : Bool) (c : UInt8) : ℤ := (charToInt signed c - 32).tdiv 10
def ones (signed : Bool) (c : UInt8) : ℤ := (charToInt signed c - 32).tmod 10

def headerPackets (packetNum : ℤ) : List ℤ :=
  [276, 341, 276, 341, 276, 341, 342 + packetNum, 1302 + packetNum, 342 + packetNum,
    1302 + packetNum]

def dataPackets (signed : Bool) (message : List UInt8) (position : ℕ) : List ℤ :=
  let c := message.getD position 0
  [402 + 20 * (position : ℤ) + tens signed c, 402 + 20 * (position : ℤ) + tens signed c,
    402 + 20 * (position : ℤ) + 10 + ones signed c, 402 + 20 * (position : ℤ) + 10 + ones signed c]

/-- `t` is `s` after the packets `out`, all of them sent. -/
structure Sends (s t : Statics) (out : List ℤ) : Prop where
  fabao : t.fabao = true
  sent : t.sent = s.sent ++ out
  messageInt : t.messageInt = s.messageInt
  messageLen : t.messageLen = s.messageLen
  i : t.i = s.i

variable {net : Socket} {signed : Bool}

theorem Sends.trans {s t u : Statics} {out out' : List ℤ} (h : Sends s t out)
    (h' : Sends t u out') : Sends s u (out ++ out') where
  fabao := h'.fabao
  sent := by rw [h'.sent, h.sent, List.append_assoc]
  messageInt := h'.messageInt.trans h.messageInt
  messageLen := h'.messageLen.trans h.messageLen
  i := h'.i.trans h.i

theorem smartLinkSendto_sends (ok : ∀ k, 0 ≤ net.sendto k) {s : Statics}
    (hf : s.fabao = true) (len : ℤ) : Sends s (smartLinkSendto net s len) [len] := by
  have hk : ¬ net.sendto s.calls < 0 := not_lt.mpr (ok _)
  simp only [smartLinkSendto, hf, if_true, hk, if_false]
  exact ⟨rfl, rfl, rfl, rfl, rfl⟩

theorem smartLinkSendBaotou_sends (ok : ∀ k, 0 ≤ net.sendto k) {s : Statics}
    (hf : s.fabao = true) (packetNum : ℤ) :
    Sends s (smartLinkSendBaotou net s packetNum) (headerPackets packetNum) := by
  have h1 := smartLinkSendto_sends ok hf 276
  have h2 := h1.trans (smartLinkSendto_sends ok h1.fabao 341)
  have h3 := h2.trans (smartLinkSendto_sends ok h2.fabao 276)
  have h4 := h3.trans (smartLinkSendto_sends ok h3.fabao 341)
  have h5 := h4.trans (smartLinkSendto_sends ok h4.fabao 276)
  have h6 := h5.trans (smartLinkSendto_sends ok h5.fabao 341)
  have h7 := h6.trans (smartLinkSendto_sends ok h6.fabao (342 + packetNum))
  have h8 := h7.trans (smartLinkSendto_sends ok h7.fabao (1302 + packetNum))
  have h9 := h8.trans (smartLinkSendto_sends ok h8.fabao (342 + packetNum))
  exact h9.trans (smartLinkSendto_sends ok h9.fabao (1302 + packetNum))

/-- `message_int` holds the digits of the first `done` characters. -/
structure Split (signed : Bool) (message : List UInt8) (done : ℕ) (ints : List ℤ) : Prop where
  length : ints.length = 90
  tens : ∀ j < done, ints.getD (2 * j) 0 = tens signed (message.getD j 0)
  ones : ∀ j < done, ints.getD (2 * j + 1) 0 = ones signed (message.getD j 0)

theorem Split.set {message : List UInt8} {done : ℕ} {ints : List ℤ} (hd : done < 45)
    (h : Split signed message done ints) :
    Split signed message (done + 1)
      ((ints.set (2 * done) (SmartLink.tens signed (message.getD done 0))).set (2 * done + 1)
        (SmartLink.ones signed (message.getD done 0))) := by
  have hlen := h.length
  refine ⟨by simp [hlen], ?_, ?_⟩
  · intro j hj
    rcases Nat.lt_succ_iff_lt_or_eq.mp hj with hlt | rfl
    · rw [← h.tens j hlt]
      simp only [List.getD_eq_getElem?_getD]
      rw [List.getElem?_set_ne (by omega), List.getElem?_set_ne (by omega)]
    · simp only [List.getD_eq_getElem?_getD]
      rw [List.getElem?_set_ne (by omega), List.getElem?_set_self (by omega)]
      rfl
  · intro j hj
    rcases Nat.lt_succ_iff_lt_or_eq.mp hj with hlt | rfl
    · rw [← h.ones j hlt]
      simp only [List.getD_eq_getElem?_getD]
      rw [List.getElem?_set_ne (by omega), List.getElem?_set_ne (by omega)]
    · simp only [List.getD_eq_getElem?_getD]
      rw [List.getElem?_set_self (by simp; omega)]
      rfl

/-- The splitting loop from its `done`-th round on. -/
theorem forPairs_splitDigits {message : List UInt8} (fuel done : ℕ) (s : Statics)
    (hcun : ∀ j < done + fuel, s.messageCun.getD j 0 = message.getD j 0)
    (hi : s.i = 2 * done) (hlen : s.messageLen = done + fuel) (hbound : done + fuel ≤ 45)
    (hsplit : Split signed message done s.messageInt) :
    ∃ t, forPairs (splitDigits signed) fuel s = t ∧
      Split signed message (done + fuel) t.messageInt ∧ t.fabao = s.fabao ∧ t.sent = s.sent ∧
      t.messageLen = s.messageLen ∧ t.packetNum = s.packetNum := by
  induction fuel generalizing done s with
  | zero => exact ⟨s, rfl, hsplit, rfl, rfl, rfl, rfl⟩
  | succ fuel ih =>
    have hround : s.i < s.messageLen * 2 := by omega
    have hhalf : 2 * done / 2 = done := by omega
    have hstep := hsplit.set (by omega)
    have hchar := hcun done (by omega)
    obtain ⟨t, heq, hints, hsame⟩ := ih (done + 1)
      { splitDigits signed s with i := s.i + 2 } (fun j hj => hcun j (by omega))
      (by simp only [hi]; ring) (by simp only [splitDigits, hlen]; ring) (by omega)
      (by simpa only [splitDigits, hi, hhalf, hchar, tens, ones] using hstep)
    refine ⟨t, ?_, ?_, hsame⟩
    · simp only [forPairs, hround, if_true]
      exact heq
    · rwa [show done + (fuel + 1) = done + 1 + fuel by ring]

theorem sendDigits_sends (ok : ∀ k, 0 ≤ net.sendto k) {message : List UInt8} {j n : ℕ}
    {s : Statics} (hf : s.fabao = true) (hi : s.i = 2 * j) (hj : j < n)
    (hsplit : Split signed message n s.messageInt) :
    Sends s (sendDigits net s) (dataPackets signed message j) := by
  have hhalf : s.i / 2 = j := by omega
  have ht : s.messageInt.getD s.i 0 = tens signed (message.getD j 0) := by
    rw [hi, hsplit.tens j hj]
  have ho : s.messageInt.getD (s.i + 1) 0 = ones signed (message.getD j 0) := by
    rw [hi, hsplit.ones j hj]
  have h1 := smartLinkSendto_sends ok hf
    (402 + 20 * ((s.i / 2 : ℕ) : ℤ) + s.messageInt.getD s.i 0)
  have h2 := h1.trans (smartLinkSendto_sends ok h1.fabao
    (402 + 20 * ((s.i / 2 : ℕ) : ℤ) + s.messageInt.getD s.i 0))
  have h3 := h2.trans (smartLinkSendto_sends ok h2.fabao
    (402 + 20 * ((s.i / 2 : ℕ) : ℤ) + 10 + s.messageInt.getD (s.i + 1) 0))
  have h4 := h3.trans (smartLinkSendto_sends ok h3.fabao
    (402 + 20 * ((s.i / 2 : ℕ) : ℤ) + 10 + s.messageInt.getD (s.i + 1) 0))
  simp only [sendDigits, h1.i, h1.messageInt, h2.i, h2.messageInt, h3.i, h3.messageInt]
  rw [ht, ho, hhalf] at h4 ⊢
  exact h4

/-- The sending loop from its `j`-th round on. -/
theorem forPairs_sendDigits (ok : ∀ k, 0 ≤ net.sendto k) {message : List UInt8} (fuel j : ℕ)
    (s : Statics) (hf : s.fabao = true) (hi : s.i = 2 * j) (hlen : s.messageLen = j + fuel)
    (hsplit : Split signed message (j + fuel) s.messageInt) :
    (forPairs (sendDigits net) fuel s).sent =
      s.sent ++ (List.range' j fuel).flatMap (dataPackets signed message) := by
  induction fuel generalizing j s with
  | zero => simp [forPairs]
  | succ fuel ih =>
    have hround : s.i < s.messageLen * 2 := by omega
    have hstep := sendDigits_sends ok hf hi (by omega) hsplit
    have hnext := ih (j + 1) { sendDigits net s with i := (sendDigits net s).i + 2 }
      hstep.fabao (by simp only [hstep.i, hi]; ring)
      (by simp only [hstep.messageLen, hlen]; ring)
      (by
        simp only [hstep.messageInt]
        rwa [show j + 1 + fuel = j + (fuel + 1) by ring])
    simp only [forPairs, hround, if_true]
    rw [hnext, List.range'_succ, List.flatMap_cons]
    simp only [hstep.sent, List.append_assoc]

/-- The lengths that stand for `message`, in the order they are sent. -/
def packetLengths (signed : Bool) (message : List UInt8) : List ℤ :=
  headerPackets ((message.length : ℤ) - 1) ++
    (List.range message.length).flatMap (dataPackets signed message)

theorem takeWhile_of_ne_zero {message : List UInt8} (hz : ∀ c ∈ message, c ≠ 0) :
    message.takeWhile (· ≠ 0) = message := by
  exact List.takeWhile_eq_self_iff.mpr (by simpa using hz)

theorem takeWhile_strncpy {message : List UInt8} (hz : ∀ c ∈ message, c ≠ 0)
    (hlen : message.length < 45) : (strncpy message).takeWhile (· ≠ 0) = message := by
  obtain ⟨pad, hpad⟩ : ∃ pad, 45 - message.length = pad + 1 := ⟨44 - message.length, by omega⟩
  simp only [strncpy, takeWhile_of_ne_zero hz, List.take_of_length_le hlen.le, hpad,
    List.replicate_succ]
  rw [List.takeWhile_append_of_pos (by simpa using hz)]
  simp

theorem strncpy_getD {message : List UInt8} (hz : ∀ c ∈ message, c ≠ 0)
    (hlen : message.length < 45) {j : ℕ} (hj : j < message.length) :
    (strncpy message).getD j 0 = message.getD j 0 := by
  simp only [strncpy, takeWhile_of_ne_zero hz, List.take_of_length_le hlen.le,
    List.getD_eq_getElem?_getD]
  rw [List.getElem?_append_left hj]

/-- A message is sent as its own lengths, whatever the static variables held before. -/
theorem nkSmartLinkSend_sent (ok : ∀ k, 0 ≤ net.sendto k) {s : Statics} (hf : s.fabao = true)
    {message : List UInt8} (hz : ∀ c ∈ message, c ≠ 0) (hlen : message.length < 45) :
    (nkSmartLinkSend net signed s message).sent = s.sent ++ packetLengths signed message := by
  have hnone : Split signed message 0 (List.replicate 90 0) :=
    ⟨by simp, fun _ hj => absurd hj (by omega), fun _ hj => absurd hj (by omega)⟩
  obtain ⟨t, hloop, hints, hfabao, hsent, hlength, hnum⟩ :=
    forPairs_splitDigits message.length 0
      { s with
        messageInt := List.replicate 90 0
        messageCun := strncpy message
        messageLen := message.length
        packetNum := (message.length : ℤ) - 1
        i := 0 }
      (fun j hj => strncpy_getD hz hlen (by omega)) rfl (by simp) (by omega) hnone
  have hhead := smartLinkSendBaotou_sends ok (hfabao.trans hf) t.packetNum
  have hdata := forPairs_sendDigits ok message.length 0
    { smartLinkSendBaotou net t t.packetNum with i := 0 } hhead.fabao rfl
    (by rw [hhead.messageLen, hlength, Nat.zero_add]) (by rwa [hhead.messageInt])
  simp only [nkSmartLinkSend, takeWhile_strncpy hz hlen, hloop]
  rw [hdata, packetLengths, List.range_eq_range', ← List.append_assoc]
  exact congrArg (· ++ _) (hhead.sent.trans (by rw [hsent, hnum]))

/-! ## Reading the message back -/

structure Printable (message : List UInt8) : Prop where
  nonempty : 1 ≤ message.length
  short : message.length ≤ 44
  ascii : ∀ c ∈ message, 32 ≤ c.toNat ∧ c.toNat ≤ 126

theorem Printable.ne_zero {message : List UInt8} (h : Printable message) :
    ∀ c ∈ message, c ≠ 0 := by
  rintro c hc rfl
  have := (h.ascii _ hc).1
  simp at this

theorem Printable.getD {message : List UInt8} (h : Printable message) {j : ℕ}
    (hj : j < message.length) :
    32 ≤ (message.getD j 0).toNat ∧ (message.getD j 0).toNat ≤ 126 := by
  rw [List.getD_eq_getElem?_getD, List.getElem?_eq_getElem hj]
  exact h.ascii _ (List.getElem_mem hj)

variable (signed)

theorem digits_of_printable {c : UInt8} (h : 32 ≤ c.toNat ∧ c.toNat ≤ 126) :
    tens signed c = ((c.toNat - 32) / 10 : ℕ) ∧ ones signed c = ((c.toNat - 32) % 10 : ℕ) := by
  have hint : charToInt signed c - 32 = ((c.toNat - 32 : ℕ) : ℤ) := by
    simp only [charToInt, show ¬ 128 ≤ c.toNat by omega, decide_false, Bool.and_false]
    simp only [Bool.false_eq_true, if_false]
    omega
  simp only [tens, ones, hint]
  exact ⟨(Int.ofNat_tdiv _ _).symm, (Int.ofNat_tmod _ _).symm⟩

/-- The length that carries a digit of the character at a position. -/
def digitLength (message : List UInt8) (position : ℕ) (second : Bool) : ℕ :=
  let v := (message.getD position 0).toNat - 32
  if second then 402 + 20 * position + 10 + v % 10 else 402 + 20 * position + v / 10

theorem mem_dataPackets {message : List UInt8} (h : Printable message) {j : ℕ}
    (hj : j < message.length) (x : ℤ) :
    x ∈ dataPackets signed message j ↔ ∃ second, x = digitLength message j second := by
  have hd := digits_of_printable signed (h.getD hj)
  simp only [dataPackets, hd.1, hd.2, Bool.exists_bool, digitLength, List.mem_cons,
    List.not_mem_nil]
  push_cast
  grind

theorem mem_packetLengths {message : List UInt8} (h : Printable message) (x : ℤ) :
    x ∈ packetLengths signed message ↔
      x = 276 ∨ x = 341 ∨ x = (342 + (message.length - 1) : ℕ) ∨
      x = (1302 + (message.length - 1) : ℕ) ∨
      ∃ j < message.length, ∃ second, x = digitLength message j second := by
  have hlen := h.nonempty
  have hhead : x ∈ headerPackets ((message.length : ℤ) - 1) ↔
      x = 276 ∨ x = 341 ∨ x = (342 + (message.length - 1) : ℕ) ∨
      x = (1302 + (message.length - 1) : ℕ) := by
    simp only [headerPackets, List.mem_cons, List.not_mem_nil, or_false]
    omega
  have hdata : x ∈ (List.range message.length).flatMap (dataPackets signed message) ↔
      ∃ j < message.length, ∃ second, x = digitLength message j second := by
    simp only [List.mem_flatMap, List.mem_range]
    exact exists_congr fun j => and_congr_right fun hj => mem_dataPackets signed h hj x
  rw [packetLengths, List.mem_append, hhead, hdata]
  simp only [or_assoc]

/-- The digit at a position has ten lengths of its own. -/
theorem digitLength_mem {message : List UInt8} (h : Printable message) {j : ℕ}
    (hj : j < message.length) (second : Bool) :
    ∃ d < 10, digitLength message j second = 402 + 10 * (2 * j + second.toNat) + d := by
  have hc := h.getD hj
  cases second with
  | false => exact ⟨((message.getD j 0).toNat - 32) / 10, by omega, by simp [digitLength]; ring⟩
  | true => exact ⟨((message.getD j 0).toNat - 32) % 10, by omega, by simp [digitLength]; ring⟩

theorem lookup_eq {received : List ℤ} {base : ℤ} {bound k : ℕ} (hk : k < bound)
    (hmem : base + k ∈ received) (honly : ∀ k' < bound, base + k' ∈ received → k' = k) :
    lookup received base bound = some k := by
  rw [lookup, List.find?_range_eq_some]
  refine ⟨by simpa using hmem, List.mem_range.mpr hk, ?_⟩
  intro k' hlt
  by_contra hin
  have := honly k' (by omega) (by simpa using hin)
  omega

section received

variable {signed} {message : List UInt8} {received : List ℤ}

theorem lookup_last (h : Printable message)
    (hsame : ∀ x, x ∈ received ↔ x ∈ packetLengths signed message) :
    lookup received 342 44 = some (message.length - 1) := by
  have hpos := h.nonempty
  have hshort := h.short
  refine lookup_eq (by omega) ((hsame _).mpr ((mem_packetLengths signed h _).mpr ?_)) ?_
  · exact .inr (.inr (.inl (by push_cast; ring)))
  intro k' hk' hin
  rcases (mem_packetLengths signed h _).mp ((hsame _).mp hin)
    with hx | hx | hx | hx | ⟨j, hj, second, hx⟩
  · omega
  · omega
  · omega
  · omega
  · obtain ⟨d, hd, hdl⟩ := digitLength_mem h hj second
    omega

theorem digit_position {j j' d d' : ℕ} {second second' : Bool} (hd : d < 10) (hd' : d' < 10)
    (h : 402 + 10 * (2 * j + second.toNat) + d = 402 + 10 * (2 * j' + second'.toNat) + d') :
    j = j' ∧ second = second' ∧ d = d' := by
  cases second <;> cases second' <;> simp at h ⊢ <;> omega

theorem lookup_digit (h : Printable message)
    (hsame : ∀ x, x ∈ received ↔ x ∈ packetLengths signed message) {j : ℕ}
    (hj : j < message.length) (second : Bool) (d : ℕ) (hd : d < 10)
    (hlen : digitLength message j second = 402 + 10 * (2 * j + second.toNat) + d) :
    lookup received (402 + 10 * ((2 * j + second.toNat : ℕ) : ℤ)) 10 = some d := by
  have hshort := h.short
  have hb : second.toNat ≤ 1 := Bool.toNat_le second
  refine lookup_eq hd ((hsame _).mpr ((mem_packetLengths signed h _).mpr ?_)) ?_
  · exact .inr (.inr (.inr (.inr ⟨j, hj, second, by rw [hlen]; push_cast; ring⟩)))
  intro k' hk' hin
  rcases (mem_packetLengths signed h _).mp ((hsame _).mp hin)
    with hx | hx | hx | hx | ⟨j', hj', second', hx⟩
  · omega
  · omega
  · omega
  · omega
  · obtain ⟨d', hd', hdl⟩ := digitLength_mem h hj' second'
    rw [hdl] at hx
    obtain ⟨rfl, rfl, rfl⟩ := digit_position hk' hd' (by exact_mod_cast hx)
    omega

theorem decodeChar_eq (h : Printable message)
    (hsame : ∀ x, x ∈ received ↔ x ∈ packetLengths signed message) {j : ℕ}
    (hj : j < message.length) : decodeChar received j = some (message.getD j 0) := by
  have hc := h.getD hj
  have ht := lookup_digit h hsame hj false (((message.getD j 0).toNat - 32) / 10) (by omega)
    (by simp [digitLength]; ring)
  have ho := lookup_digit h hsame hj true (((message.getD j 0).toNat - 32) % 10) (by omega)
    (by simp [digitLength]; ring)
  rw [show (402 + 10 * ((2 * j + false.toNat : ℕ) : ℤ)) = 402 + 20 * (j : ℤ) by
    simp; ring] at ht
  rw [show (402 + 10 * ((2 * j + true.toNat : ℕ) : ℤ)) = 402 + 20 * (j : ℤ) + 10 by
    simp; ring] at ho
  simp only [decodeChar, ht, ho, Option.bind_eq_bind, Option.bind_some]
  rw [show 32 + 10 * (((message.getD j 0).toNat - 32) / 10) +
    ((message.getD j 0).toNat - 32) % 10 = (message.getD j 0).toNat by omega]
  simp

/-- Any list with the same lengths in it is read back as the message. -/
theorem decode_eq (h : Printable message)
    (hsame : ∀ x, x ∈ received ↔ x ∈ packetLengths signed message) :
    decode received = some message := by
  have hpos := h.nonempty
  have hall : ∀ js : List ℕ, (∀ j ∈ js, j < message.length) →
      js.mapM (decodeChar received) = some (js.map fun j => message.getD j 0) := by
    intro js hjs
    induction js with
    | nil => rfl
    | cons j js ih =>
      rw [List.mapM_cons, decodeChar_eq h hsame (hjs j (by simp)),
        ih fun k hk => hjs k (by simp [hk])]
      rfl
  have hback : (List.range message.length).map (fun j => message.getD j 0) = message := by
    refine List.ext_getElem (by simp) ?_
    intro j hj hj'
    simp [hj']
  simp only [decode, lookup_last h hsame, Option.bind_eq_bind, Option.bind_some,
    Nat.sub_add_cancel hpos]
  rw [hall _ fun j hj => List.mem_range.mp hj, hback]

end received

/-- Every length is sent at least twice. -/
theorem two_le_count {message : List UInt8} {x : ℤ} (hx : x ∈ packetLengths signed message) :
    2 ≤ (packetLengths signed message).count x := by
  simp only [packetLengths, List.mem_append, List.mem_flatMap, List.count_append] at hx ⊢
  rcases hx with hx | ⟨j, hj, hx⟩
  · have : 2 ≤ (headerPackets ((message.length : ℤ) - 1)).count x := by
      simp only [headerPackets, List.mem_cons, List.not_mem_nil, or_false] at hx
      simp only [headerPackets, List.count_cons, List.count_nil, beq_iff_eq]
      grind
    omega
  · have hpair : 2 ≤ (dataPackets signed message j).count x := by
      simp only [dataPackets, List.mem_cons, List.not_mem_nil, or_false] at hx
      simp only [dataPackets, List.count_cons, List.count_nil, beq_iff_eq]
      grind
    have hsub := (List.sublist_flatten_of_mem
      (List.mem_map_of_mem (f := dataPackets signed message) hj)).count_le x
    rw [List.flatMap_def]
    omega

/-! ## Messages over a whole history -/

theorem emitted_eq (ok : ∀ k, 0 ≤ net.sendto k) (overrun : Statics → List UInt8 → Statics)
    (history : List (ℤ × List UInt8)) {message : List UInt8} (h : Printable message) :
    emitted net signed overrun history message = packetLengths signed message := by
  have hshort := h.short
  have hbytes := takeWhile_of_ne_zero h.ne_zero
  have hfits : (message.takeWhile (· ≠ 0)).length < 45 := by rw [hbytes]; omega
  simp only [emitted, jaSmartlinkSendpacket, if_true, hfits]
  rw [nkSmartLinkSend_sent ok rfl h.ne_zero (by omega)]
  exact List.drop_left

/-- After any earlier messages, the lengths received give the message back in any order
and with one packet of each length lost; headers, positions and digits never share a
length, and no other message has the same lengths. -/
theorem packet_lengths_determine_message (ok : ∀ k, 0 ≤ net.sendto k)
    (overrun : Statics → List UInt8 → Statics) (history : List (ℤ × List UInt8))
    {message : List UInt8} (h : Printable message) :
    (∀ received, (∀ x, x ∈ received ↔ x ∈ emitted net signed overrun history message) →
      decode received = some message) ∧
    (∀ received, received.Subperm (emitted net signed overrun history message) →
      (∀ x, (emitted net signed overrun history message).count x ≤ received.count x + 1) →
      decode received = some message) ∧
    (∀ x, x ∈ emitted net signed overrun history message ↔
      x ∈ [276, 341, 342 + (message.length : ℤ) - 1, 1302 + (message.length : ℤ) - 1] ∨
      ∃ j < message.length, ∃ second, x = digitLength message j second) ∧
    (∀ j < message.length, ∀ second, (digitLength message j second : ℤ) ∉
      [276, 341, 342 + (message.length : ℤ) - 1, 1302 + (message.length : ℤ) - 1]) ∧
    (∀ j < message.length, ∀ j' < message.length, ∀ second second',
      digitLength message j second = digitLength message j' second' →
      j = j' ∧ second = second') ∧
    (∀ history' message', Printable message' →
      (∀ x, x ∈ emitted net signed overrun history' message' ↔
        x ∈ emitted net signed overrun history message) → message' = message) := by
  have hpos := h.nonempty
  have hshort := h.short
  rw [emitted_eq signed ok overrun history h]
  refine ⟨fun received hsame => decode_eq h hsame, ?_, ?_, ?_, ?_, ?_⟩
  · intro received hsub hlost
    have hback : ∀ x ∈ packetLengths signed message, x ∈ received := by
      intro x hx
      have htwo := two_le_count signed hx
      have hleft := hlost x
      exact List.count_pos_iff.mp (by omega)
    exact decode_eq h fun x => ⟨fun hx => hsub.subset hx, hback x⟩
  · intro x
    rw [mem_packetLengths signed h]
    simp only [List.mem_cons, List.not_mem_nil, or_false, or_assoc]
    rw [show ((342 + (message.length - 1) : ℕ) : ℤ) = 342 + (message.length : ℤ) - 1 by omega,
      show ((1302 + (message.length - 1) : ℕ) : ℤ) = 1302 + (message.length : ℤ) - 1 by omega]
  · intro j hj second hmem
    obtain ⟨d, hd, hlen⟩ := digitLength_mem h hj second
    have hb := Bool.toNat_le second
    simp only [List.mem_cons, List.not_mem_nil, or_false] at hmem
    omega
  · intro j hj j' hj' second second' heq
    obtain ⟨d, hd, hlen⟩ := digitLength_mem h hj second
    obtain ⟨d', hd', hlen'⟩ := digitLength_mem h hj' second'
    have hplace := digit_position hd hd' (by rw [← hlen, ← hlen', heq])
    exact ⟨hplace.1, hplace.2.1⟩
  · intro history' message' h' hsame
    rw [emitted_eq signed ok overrun history' h'] at hsame
    have hthis := decode_eq h fun x => Iff.rfl (a := x ∈ packetLengths signed message)
    exact Option.some.inj ((decode_eq h' fun x => (hsame x).symm).symm.trans hthis)

theorem packet_lengths_of_hi :
    decode (emitted ⟨fun _ => 1, fun _ => 0⟩ true (fun s _ => s) [(0, [65, 66, 67])]
      [72, 105]).reverse = some [72, 105] :=
  (packet_lengths_determine_message true (fun _ => Int.one_nonneg) _ _
    ⟨by decide, by decide, by decide +kernel⟩).1 _ fun _ => List.mem_reverse

end Jagles.SmartLink
