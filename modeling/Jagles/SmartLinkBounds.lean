import Jagles.AccessTraces
import Jagles.SmartLink

set_option autoImplicit false
set_option linter.dupNamespace false

/-!
# The arrays of SmartLink

The encoder with the array elements it goes to and the lengths it hands to `sendto`.
`strncpy` puts no zero behind 45 bytes, and `strlen` then leaves `message_cun`; nothing
is said about what the program does after that.
-/
namespace Jagles.SmartLink
open AccessTraces Traced

/-- An element of an array, or a length handed to `sendto`: in the header, or for the
character at a position. -/
inductive Access where
  | messageCun (k : ℕ)
  | messageInt (k : ℕ)
  | header (length : ℤ)
  | data (position : ℕ) (length : ℤ)
  deriving DecidableEq

def Bounded : Access → Prop
  | .messageCun k => k < 45
  | .messageInt k => k < 90
  | .header length => 0 ≤ length ∧ length ≤ 2000
  | .data position length => 0 ≤ length ∧ length ≤ 2000 ∧
      402 + 20 * (position : ℤ) ≤ length ∧ length < 402 + 20 * (position : ℤ) + 20

section code

variable (net : Socket) (signed : Bool)

def tracedSendto (s : Statics) (packet : ℤ → Access) (length : ℤ) : Traced Access Statics :=
  readAll (if s.fabao then [packet length] else []) (smartLinkSendto net s length)

def tracedBaotou (s : Statics) (packetNum : ℤ) : Traced Access Statics := do
  let s ← tracedSendto net s .header 276
  let s ← tracedSendto net s .header 341
  let s ← tracedSendto net s .header 276
  let s ← tracedSendto net s .header 341
  let s ← tracedSendto net s .header 276
  let s ← tracedSendto net s .header 341
  let s ← tracedSendto net s .header (342 + packetNum)
  let s ← tracedSendto net s .header (1302 + packetNum)
  let s ← tracedSendto net s .header (342 + packetNum)
  tracedSendto net s .header (1302 + packetNum)

def tracedPairs (body : Statics → Traced Access Statics) : ℕ → Statics → Traced Access Statics
  | 0, s => pure s
  | fuel + 1, s =>
    if s.i < s.messageLen * 2 then do
      let s ← body s
      tracedPairs body fuel { s with i := s.i + 2 }
    else pure s

def tracedSplit (s : Statics) : Traced Access Statics := do
  let c ← read (.messageCun (s.i / 2)) (s.messageCun.getD (s.i / 2) 0)
  let s := { s with il := charToInt signed c }
  let s ← write (.messageInt s.i)
    { s with messageInt := s.messageInt.set s.i ((s.il - 32).tdiv 10) }
  write (.messageInt (s.i + 1))
    { s with messageInt := s.messageInt.set (s.i + 1) ((s.il - 32).tmod 10) }

def tracedDigits (s : Statics) : Traced Access Statics := do
  let digit ← read (.messageInt s.i) (s.messageInt.getD s.i 0)
  let s ← tracedSendto net s (.data (s.i / 2)) (402 + 20 * ((s.i / 2 : ℕ) : ℤ) + digit)
  let digit ← read (.messageInt s.i) (s.messageInt.getD s.i 0)
  let s ← tracedSendto net s (.data (s.i / 2)) (402 + 20 * ((s.i / 2 : ℕ) : ℤ) + digit)
  let digit ← read (.messageInt (s.i + 1)) (s.messageInt.getD (s.i + 1) 0)
  let s ← tracedSendto net s (.data (s.i / 2)) (402 + 20 * ((s.i / 2 : ℕ) : ℤ) + 10 + digit)
  let digit ← read (.messageInt (s.i + 1)) (s.messageInt.getD (s.i + 1) 0)
  tracedSendto net s (.data (s.i / 2)) (402 + 20 * ((s.i / 2 : ℕ) : ℤ) + 10 + digit)

/-- The bytes up to the first zero and that zero. With none in the array it is looked for
behind its end. -/
def tracedStrlen (messageCun : List UInt8) : Traced Access (Option ℕ) :=
  let n := (messageCun.takeWhile (· ≠ 0)).length
  readAll ((List.range (n + 1)).map .messageCun) (if n < 45 then some n else none)

def tracedSend (s : Statics) (message : List UInt8) : Traced Access (Option Statics) := do
  let s ← readAll ((List.range 90).map .messageInt) { s with messageInt := List.replicate 90 0 }
  let s ← readAll ((List.range 45).map .messageCun) { s with messageCun := strncpy message }
  match ← tracedStrlen s.messageCun with
  | none => pure none
  | some messageLen =>
    let s := { s with messageLen, packetNum := (messageLen : ℤ) - 1, i := 0 }
    let s ← tracedPairs (tracedSplit signed) messageLen s
    let s ← tracedBaotou net s s.packetNum
    let s ← tracedPairs (tracedDigits net) messageLen { s with i := 0 }
    pure (some s)

end code

/-- Whatever the socket answers and the messages before have left, opening the socket sets
`fabao` and the message is then sent without a step out of bounds. -/
def StaysInBounds (signed : Bool) (message : List UInt8) : Prop :=
  ∀ (net : Socket) (s : Statics),
    (tracedSend net signed { s with fabao := true } message).Within Bounded

/-- The first digit of the character is between 0 and 19. -/
def DigitsFit (signed : Bool) (c : UInt8) : Prop :=
  23 ≤ charToInt signed c ∧ charToInt signed c ≤ 231

instance (signed : Bool) (c : UInt8) : Decidable (DigitsFit signed c) :=
  inferInstanceAs (Decidable (_ ∧ _))

/-! ## The traced encoder is the encoder -/

section values
variable {net : Socket} {signed : Bool}

@[simp] theorem value_tracedSendto (s : Statics) (packet : ℤ → Access) (length : ℤ) :
    (tracedSendto net s packet length).value = smartLinkSendto net s length := rfl

@[simp] theorem value_tracedBaotou (s : Statics) (packetNum : ℤ) :
    (tracedBaotou net s packetNum).value = smartLinkSendBaotou net s packetNum := by
  simp only [tracedBaotou, value_bind, value_tracedSendto, smartLinkSendBaotou]

@[simp] theorem value_tracedSplit (s : Statics) :
    (tracedSplit signed s).value = splitDigits signed s := rfl

@[simp] theorem value_tracedDigits (s : Statics) :
    (tracedDigits net s).value = sendDigits net s := by
  simp only [tracedDigits, value_bind, value_read, value_tracedSendto, sendDigits]

theorem value_tracedPairs {body : Statics → Traced Access Statics} {f : Statics → Statics}
    (h : ∀ s, (body s).value = f s) (fuel : ℕ) (s : Statics) :
    (tracedPairs body fuel s).value = forPairs f fuel s := by
  induction fuel generalizing s with
  | zero => rfl
  | succ fuel ih =>
    simp only [tracedPairs, forPairs]
    split
    · rw [value_bind, h]
      exact ih _
    · rfl

theorem value_tracedSend (s : Statics) {message : List UInt8} (hz : ∀ c ∈ message, c ≠ 0)
    (hlen : message.length < 45) :
    (tracedSend net signed s message).value = some (nkSmartLinkSend net signed s message) := by
  have hsplit : ∀ fuel s, (tracedPairs (tracedSplit signed) fuel s).value =
      forPairs (splitDigits signed) fuel s := value_tracedPairs value_tracedSplit
  have hdigits : ∀ fuel s, (tracedPairs (tracedDigits net) fuel s).value =
      forPairs (sendDigits net) fuel s := value_tracedPairs value_tracedDigits
  simp only [tracedSend, tracedStrlen, nkSmartLinkSend, value_bind, value_readAll,
    takeWhile_strncpy hz hlen, hlen, if_true, hsplit, value_tracedBaotou, hdigits, value_pure]

end values

/-! ## What the encoder looks at is not changed by sending -/

section keeps
variable (net : Socket) (s : Statics)

@[simp] theorem smartLinkSendto_i (length : ℤ) : (smartLinkSendto net s length).i = s.i := by
  unfold smartLinkSendto
  dsimp only
  split_ifs <;> rfl

@[simp] theorem smartLinkSendto_messageLen (length : ℤ) :
    (smartLinkSendto net s length).messageLen = s.messageLen := by
  unfold smartLinkSendto
  dsimp only
  split_ifs <;> rfl

@[simp] theorem smartLinkSendto_messageInt (length : ℤ) :
    (smartLinkSendto net s length).messageInt = s.messageInt := by
  unfold smartLinkSendto
  dsimp only
  split_ifs <;> rfl

@[simp] theorem smartLinkSendBaotou_messageLen (packetNum : ℤ) :
    (smartLinkSendBaotou net s packetNum).messageLen = s.messageLen := by
  simp only [smartLinkSendBaotou, smartLinkSendto_messageLen]

@[simp] theorem smartLinkSendBaotou_messageInt (packetNum : ℤ) :
    (smartLinkSendBaotou net s packetNum).messageInt = s.messageInt := by
  simp only [smartLinkSendBaotou, smartLinkSendto_messageInt]

@[simp] theorem sendDigits_i : (sendDigits net s).i = s.i := by
  simp only [sendDigits, smartLinkSendto_i]

@[simp] theorem sendDigits_messageLen : (sendDigits net s).messageLen = s.messageLen := by
  simp only [sendDigits, smartLinkSendto_messageLen]

@[simp] theorem sendDigits_messageInt : (sendDigits net s).messageInt = s.messageInt := by
  simp only [sendDigits, smartLinkSendto_messageInt]

end keeps

/-! ## Bounds of the parts -/

section bounds
variable {net : Socket} {signed : Bool}

theorem tens_fits_iff (c : UInt8) : 0 ≤ tens signed c ∧ tens signed c < 20 ↔ DigitsFit signed c := by
  unfold tens DigitsFit
  rcases le_total 0 (charToInt signed c - 32) with h | h
  · rw [Int.tdiv_eq_ediv_of_nonneg h]
    omega
  · obtain ⟨k, hk⟩ := Int.eq_ofNat_of_zero_le (Int.neg_nonneg.mpr h)
    rw [show charToInt signed c - 32 = -(k : ℤ) by omega, Int.neg_tdiv,
      Int.tdiv_eq_ediv_of_nonneg (Int.natCast_nonneg k)]
    omega

theorem ones_bounds (c : UInt8) : -10 < ones signed c ∧ ones signed c < 10 :=
  ⟨Int.lt_tmod_of_pos _ (by decide), Int.tmod_lt_of_pos _ (by decide)⟩

theorem tens_bounded_iff {position : ℕ} (hp : position < 44) (c : UInt8) :
    Bounded (.data position (402 + 20 * (position : ℤ) + tens signed c)) ↔
      DigitsFit signed c := by
  rw [← tens_fits_iff]
  unfold Bounded
  omega

theorem ones_bounded {position : ℕ} (hp : position < 44) (c : UInt8) :
    Bounded (.data position (402 + 20 * (position : ℤ) + 10 + ones signed c)) := by
  have h : -10 < ones signed c ∧ ones signed c < 10 := ones_bounds c
  unfold Bounded
  omega

theorem within_tracedSendto_iff (s : Statics) (packet : ℤ → Access) (length : ℤ) :
    (tracedSendto net s packet length).Within Bounded ↔
      (s.fabao = true → Bounded (packet length)) := by
  unfold tracedSendto
  cases s.fabao with
  | true => simp
  | false => simp

theorem tracedSplit_within {s : Statics} (h : s.i + 1 < 90) :
    (tracedSplit signed s).Within Bounded := by
  simp only [tracedSplit, within_bind_iff, within_read_iff, within_write_iff, Bounded]
  exact ⟨by omega, by omega, h⟩

theorem tracedBaotou_within (s : Statics) {packetNum : ℤ} (h : -1 ≤ packetNum ∧ packetNum ≤ 43) :
    (tracedBaotou net s packetNum).Within Bounded := by
  simp only [tracedBaotou, within_bind_iff, within_tracedSendto_iff, Bounded]
  refine ⟨?_, ?_, ?_, ?_, ?_, ?_, ?_, ?_, ?_, ?_⟩ <;> intro _ <;> omega

theorem tracedDigits_within {s : Statics} (hi : s.i + 1 < 90)
    (htens : Bounded (.data (s.i / 2) (402 + 20 * ((s.i / 2 : ℕ) : ℤ) + s.messageInt.getD s.i 0)))
    (hones : Bounded (.data (s.i / 2)
      (402 + 20 * ((s.i / 2 : ℕ) : ℤ) + 10 + s.messageInt.getD (s.i + 1) 0))) :
    (tracedDigits net s).Within Bounded := by
  have hi' : s.i < 90 := by omega
  simp only [tracedDigits, within_bind_iff, within_read_iff, value_read, value_tracedSendto,
    within_tracedSendto_iff, smartLinkSendto_i, smartLinkSendto_messageInt]
  exact ⟨hi', fun _ => htens, hi', fun _ => htens, hi, fun _ => hones, hi, fun _ => hones⟩

theorem bounded_of_tracedDigits {s : Statics} (hf : s.fabao = true)
    (h : (tracedDigits net s).Within Bounded) :
    Bounded (.data (s.i / 2) (402 + 20 * ((s.i / 2 : ℕ) : ℤ) + s.messageInt.getD s.i 0)) := by
  simp only [tracedDigits, within_bind_iff, within_read_iff, value_read, value_tracedSendto,
    within_tracedSendto_iff] at h
  exact h.2.1 hf

/-- A loop stays within bounds when its rounds do, as long as they keep an invariant. -/
theorem tracedPairs_within {body : Statics → Traced Access Statics} (I : Statics → Prop)
    (keep : ∀ s, I s → s.i < s.messageLen * 2 →
      I { (body s).value with i := (body s).value.i + 2 })
    (h : ∀ s, I s → s.i < s.messageLen * 2 → (body s).Within Bounded) (fuel : ℕ) {s : Statics}
    (hs : I s) : (tracedPairs body fuel s).Within Bounded := by
  induction fuel generalizing s with
  | zero => exact within_pure _
  | succ fuel ih =>
    rw [tracedPairs]
    split
    · rename_i hround
      exact (h s hs hround).bind (ih (keep s hs hround))
    · exact within_pure _

theorem tracedPairs_split_within (signed : Bool) (fuel : ℕ) {s : Statics} (hi : Even s.i)
    (hlen : s.messageLen ≤ 45) : (tracedPairs (tracedSplit signed) fuel s).Within Bounded := by
  refine tracedPairs_within (fun s => Even s.i ∧ s.messageLen ≤ 45) ?_ ?_ fuel ⟨hi, hlen⟩
  · rintro s ⟨hi, hlen⟩ -
    exact ⟨hi.add even_two, hlen⟩
  · rintro s ⟨hi, hlen⟩ hround
    obtain ⟨k, hk⟩ := hi
    exact tracedSplit_within (by omega)

theorem tracedPairs_digits_within {message : List UInt8} {n : ℕ} (hn : n ≤ 44)
    (hfit : ∀ j < n, DigitsFit signed (message.getD j 0)) (fuel : ℕ) {s : Statics}
    (hi : Even s.i) (hlen : s.messageLen = n) (hsplit : Split signed message n s.messageInt) :
    (tracedPairs (tracedDigits net) fuel s).Within Bounded := by
  refine tracedPairs_within
    (fun s => Even s.i ∧ s.messageLen = n ∧ Split signed message n s.messageInt) ?_ ?_ fuel
    ⟨hi, hlen, hsplit⟩
  · rintro s ⟨hi, hlen, hsplit⟩ -
    simp only [value_tracedDigits, sendDigits_i, sendDigits_messageLen, sendDigits_messageInt]
    exact ⟨hi.add even_two, hlen, hsplit⟩
  · rintro s ⟨hi, hlen, hsplit⟩ hround
    obtain ⟨j, hj⟩ := hi
    have hhalf : s.i / 2 = j := by omega
    have htwice : s.i = 2 * j := by omega
    have hjn : j < n := by omega
    refine tracedDigits_within (by omega) ?_ ?_
    · rw [hhalf, htwice, hsplit.tens j hjn]
      exact (tens_bounded_iff (by omega) _).mpr (hfit j hjn)
    · rw [hhalf, htwice, hsplit.ones j hjn]
      exact ones_bounded (by omega) _

/-- With a socket that sends everything, every character comes to its turn. -/
theorem digitsFit_of_tracedPairs (ok : ∀ k, 0 ≤ net.sendto k) {message : List UInt8}
    (fuel j : ℕ) {s : Statics} (hn : j + fuel ≤ 44) (hf : s.fabao = true) (hi : s.i = 2 * j)
    (hlen : s.messageLen = j + fuel) (hsplit : Split signed message (j + fuel) s.messageInt)
    (h : (tracedPairs (tracedDigits net) fuel s).Within Bounded) :
    ∀ k, j ≤ k → k < j + fuel → DigitsFit signed (message.getD k 0) := by
  induction fuel generalizing j s with
  | zero =>
    intro k hjk hk
    omega
  | succ fuel ih =>
    have hround : s.i < s.messageLen * 2 := by omega
    rw [tracedPairs, if_pos hround, within_bind_iff, value_tracedDigits] at h
    have hstep := sendDigits_sends ok hf hi (by omega) hsplit
    have hfirst := bounded_of_tracedDigits hf h.1
    have hhalf : s.i / 2 = j := by omega
    rw [hhalf, hi, hsplit.tens j (by omega), tens_bounded_iff (by omega)] at hfirst
    intro k hjk hk
    rcases hjk.eq_or_lt with rfl | hlt
    · exact hfirst
    · refine ih (j + 1) (s := { sendDigits net s with i := (sendDigits net s).i + 2 }) (by omega)
        hstep.fabao ?_ ?_ ?_ h.2 k hlt (by omega)
      · simp only [hstep.i, hi]
        ring
      · simp only [hstep.messageLen, hlen]
        ring
      · simp only [hstep.messageInt]
        rwa [show j + 1 + fuel = j + (fuel + 1) by ring]

end bounds

/-! ## The whole encoder -/

section whole
variable {net : Socket} {signed : Bool} {message : List UInt8}

/-- The end of a long message is looked for behind the array. -/
theorem length_lt_of_within (hz : ∀ c ∈ message, c ≠ 0) {s : Statics}
    (h : (tracedSend net signed s message).Within Bounded) : message.length < 45 := by
  by_contra hlong
  have hcun : strncpy message = message.take 45 := by
    simp only [strncpy, takeWhile_of_ne_zero hz]
    rw [show 45 - (message.take 45).length = 0 by simp; omega]
    simp
  have hlen : ((strncpy message).takeWhile (· ≠ 0)).length = 45 := by
    rw [hcun, takeWhile_of_ne_zero fun c hc => hz c (List.mem_of_mem_take hc)]
    simp
    omega
  have hread := (within_bind_iff.mp (within_bind_iff.mp (within_bind_iff.mp h).2).2).1
  have hout : Bounded (.messageCun 45) := by
    refine hread _ ?_
    simp only [tracedStrlen, value_readAll, hlen]
    exact List.mem_map_of_mem (by simp)
  exact absurd hout (by unfold Bounded; omega)

/-- Up to `strlen` and the split into digits, a shorter message is within bounds. -/
theorem tracedSend_within_iff (net : Socket) (signed : Bool) (hz : ∀ c ∈ message, c ≠ 0)
    (hlen : message.length < 45) (s : Statics) :
    ∃ t, t.fabao = s.fabao ∧ t.messageLen = message.length ∧
      Split signed message message.length t.messageInt ∧
      ((tracedSend net signed s message).Within Bounded ↔
        (tracedBaotou net t ((message.length : ℤ) - 1)).Within Bounded ∧
        (tracedPairs (tracedDigits net) message.length
          { smartLinkSendBaotou net t ((message.length : ℤ) - 1) with i := 0 }).Within
            Bounded) := by
  have hnone : Split signed message 0 (List.replicate 90 0) :=
    ⟨by simp, fun _ hj => absurd hj (by omega), fun _ hj => absurd hj (by omega)⟩
  obtain ⟨t, hloop, hints, hfabao, -, hlength, hnum⟩ := forPairs_splitDigits message.length 0
    { s with
      messageInt := List.replicate 90 0
      messageCun := strncpy message
      messageLen := message.length
      packetNum := (message.length : ℤ) - 1
      i := 0 }
    (fun j hj => strncpy_getD hz hlen (by omega)) rfl (by simp) (by omega) hnone
  rw [Nat.zero_add] at hints
  refine ⟨t, hfabao, hlength, hints, ?_⟩
  have hvalue := (value_tracedPairs value_tracedSplit _ _).trans hloop
  have hsplit := tracedPairs_split_within signed message.length
    (s := { s with
      messageInt := List.replicate 90 0
      messageCun := strncpy message
      messageLen := message.length
      packetNum := (message.length : ℤ) - 1
      i := 0 }) (by simp) hlen.le
  have hint : ∀ place ∈ (List.range 90).map Access.messageInt, Bounded place := by
    simp [Bounded]
  have hcun : ∀ place ∈ (List.range 45).map Access.messageCun, Bounded place := by
    simp [Bounded]
  have hstrlen : ∀ place ∈ (List.range (message.length + 1)).map Access.messageCun,
      Bounded place := by
    simp [Bounded]
    omega
  simp only [tracedSend, within_bind_iff, within_readAll_iff, value_readAll, tracedStrlen,
    takeWhile_strncpy hz hlen, hlen, if_true, value_tracedBaotou, hvalue, hnum, within_pure_iff]
  exact ⟨fun h => ⟨h.2.2.2.2.1, h.2.2.2.2.2.1⟩,
    fun h => ⟨hint, hcun, hstrlen, hsplit, h.1, h.2, trivial⟩⟩

end whole

/-- The encoder stays in bounds exactly for at most 44 bytes with a first digit from 0 to
19 each. -/
theorem staysInBounds_iff (signed : Bool) {message : List UInt8} (hz : ∀ c ∈ message, c ≠ 0) :
    StaysInBounds signed message ↔
      message.length ≤ 44 ∧ ∀ c ∈ message, DigitsFit signed c := by
  constructor
  · intro h
    let quiet : Socket := ⟨fun _ => 0, fun _ => 0⟩
    have ok : ∀ k, 0 ≤ quiet.sendto k := fun _ => le_rfl
    have hall := h quiet Statics.initial
    have hlen := length_lt_of_within hz hall
    obtain ⟨t, hfabao, hlength, hints, hiff⟩ := tracedSend_within_iff quiet signed hz hlen
      { Statics.initial with fabao := true }
    have hhead := smartLinkSendBaotou_sends ok hfabao ((message.length : ℤ) - 1)
    have hdigits := digitsFit_of_tracedPairs ok message.length 0
      (s := { smartLinkSendBaotou quiet t ((message.length : ℤ) - 1) with i := 0 })
      (by omega) hhead.fabao rfl (by simp [hlength]) (by simpa using hints) (hiff.mp hall).2
    refine ⟨by omega, fun c hc => ?_⟩
    obtain ⟨k, hk, rfl⟩ := List.mem_iff_getElem.mp hc
    have hfit := hdigits k (Nat.zero_le k) (by omega)
    rwa [List.getD_eq_getElem?_getD, List.getElem?_eq_getElem hk] at hfit
  · rintro ⟨hlen, hfit⟩ net s
    obtain ⟨t, hfabao, hlength, hints, hiff⟩ := tracedSend_within_iff net signed hz (by omega)
      { s with fabao := true }
    refine hiff.mpr ⟨tracedBaotou_within t (by omega), ?_⟩
    refine tracedPairs_digits_within hlen ?_ _ (by simp) (by simp [hlength]) (by simpa using hints)
    intro j hj
    rw [List.getD_eq_getElem?_getD, List.getElem?_eq_getElem hj]
    exact hfit _ (List.getElem_mem hj)

theorem staysInBounds_hi : StaysInBounds true [72, 105] ∧ StaysInBounds false [72, 105] := by
  have hz : ∀ c ∈ ([72, 105] : List UInt8), c ≠ 0 := by simp
  have hfit : ∀ signed, ∀ c ∈ ([72, 105] : List UInt8), DigitsFit signed c := by
    intro signed c hc
    rcases List.mem_pair.mp hc with rfl | rfl <;> cases signed <;> decide
  exact ⟨(staysInBounds_iff true hz).mpr ⟨by decide, hfit true⟩,
    (staysInBounds_iff false hz).mpr ⟨by decide, hfit false⟩⟩

/-- A byte of a Chinese name falls out of the lengths of its position, and 45 letters out of the
array, whether `char` has a sign or not. -/
theorem not_staysInBounds : (¬ ∃ signed, StaysInBounds signed [232, 168, 128]) ∧
    ¬ ∃ signed, StaysInBounds signed (List.replicate 45 97) := by
  constructor
  · rintro ⟨signed, h⟩
    have hall := h ⟨fun _ => 0, fun _ => 0⟩ Statics.initial
    cases signed with
    | false =>
      have hout : Bounded (.data 0 422) := hall _ (by decide +kernel)
      unfold Bounded at hout
      omega
    | true =>
      have hout : Bounded (.data 0 397) := hall _ (by decide +kernel)
      unfold Bounded at hout
      omega
  · rintro ⟨signed, h⟩
    have hz : ∀ c ∈ List.replicate 45 (97 : UInt8), c ≠ 0 := fun c hc => by
      rw [List.eq_of_mem_replicate hc]
      decide
    have hlen := length_lt_of_within hz (h ⟨fun _ => 0, fun _ => 0⟩ Statics.initial)
    rw [List.length_replicate] at hlen
    omega

end Jagles.SmartLink
