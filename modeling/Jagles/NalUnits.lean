import Jagles.BitPrograms

set_option autoImplicit false
set_option linter.dupNamespace false

/-!
# NAL units in a byte stream

The payload of a unit is a bit string closed by a one and padded to whole bytes. In the
stream a `03` is put after two zero bytes whenever the next byte is at most `03`, so that
the start code `00 00 01` occurs only in front of a unit.
-/
namespace Jagles.NalUnits
open BitPrograms

def padding (n : ℕ) : ℕ := (8 - (n + 1) % 8) % 8

def trailing (bs : List Bool) : List Bool := true :: List.replicate (padding bs.length) false

/-- The bytes of a payload. -/
def rbsp (bs : List Bool) : List UInt8 := packBytes (bs ++ trailing bs)

theorem rbsp_bits_length (bs : List Bool) :
    (bs ++ trailing bs).length / 8 = bs.length / 8 + 1 ∧
      8 * ((bs ++ trailing bs).length / 8) = (bs ++ trailing bs).length := by
  simp only [trailing, List.length_append, List.length_cons, List.length_replicate, padding]
  omega

theorem rbsp_last (bs : List Bool) : (rbsp bs).getLast? ≠ some 0 := by
  have hlen := (rbsp_bits_length bs).1
  have hbit := packBytes_testBit (bs ++ trailing bs) (i := bs.length) (by omega)
  have hone : (bs ++ trailing bs).get ⟨bs.length, by omega⟩ = true := by simp [trailing]
  rw [hone] at hbit
  intro hlast
  rw [List.getLast?_eq_getElem?] at hlast
  simp only [rbsp, packBytes_length, hlen, Nat.add_sub_cancel] at hlast
  rw [List.getD_eq_getElem?_getD, hlast] at hbit
  simp at hbit

/-- The payload bytes as they stand in the stream, after `zeros` zero bytes. -/
def escape : ℕ → List UInt8 → List UInt8
  | _, [] => []
  | zeros, b :: rest =>
    if 2 ≤ zeros ∧ b ≤ 3 then 3 :: b :: escape (if b = 0 then 1 else 0) rest
    else b :: escape (if b = 0 then zeros + 1 else 0) rest

/-- Two zero bytes and a byte that needs a `03` between them. -/
def Guarded : List UInt8 → Prop
  | 0 :: 0 :: c :: _ => c ≤ 3
  | _ => False

instance : DecidablePred Guarded := fun bs => by
  unfold Guarded
  split <;> infer_instance

theorem escape_guarded {c : UInt8} (hc : c ≤ 3) (rest : List UInt8) :
    escape 0 (0 :: 0 :: c :: rest) = 0 :: 0 :: 3 :: escape 0 (c :: rest) := by
  simp [escape, hc]

/-- A byte that begins no guarded triple stands for itself, and what follows is written as
if nothing had been before it. -/
theorem escape_plain {b : UInt8} {rest : List UInt8} (h : ¬ Guarded (b :: rest)) :
    escape 0 (b :: rest) = b :: escape 0 rest := by
  by_cases hb : b = 0
  · subst hb
    cases rest with
    | nil => simp [escape]
    | cons c rest =>
      by_cases hc : c = 0
      · subst hc
        cases rest with
        | nil => simp [escape]
        | cons d rest =>
          have hd : ¬ d ≤ 3 := h
          have hd0 : d ≠ 0 := by
            rintro rfl
            exact hd (by decide)
          simp [escape, hd, hd0]
      · simp [escape, hc]
  · simp [escape, hb]

/-- A byte of a payload that begins no guarded triple begins no `00 00 03` in the stream
either, as long as the payload does not end in a zero byte. -/
theorem escape_triple {b : UInt8} {rest post : List UInt8} (hlast : (b :: rest).getLast? ≠ some 0)
    (h : ¬ Guarded (b :: rest)) :
    ¬ (b = 0 ∧ (escape 0 rest ++ post).getD 0 0 = 0 ∧ (escape 0 rest ++ post).getD 1 0 = 3) := by
  rintro ⟨rfl, h1, h2⟩
  cases rest with
  | nil => exact hlast rfl
  | cons c rest =>
    obtain rfl : c = 0 := by simpa [escape] using h1
    cases rest with
    | nil => exact hlast rfl
    | cons d rest =>
      obtain rfl : d = 3 := by simpa [escape] using h2
      exact h (show (3 : UInt8) ≤ 3 by decide)

theorem getLast?_tail {b : UInt8} {rest : List UInt8} (h : (b :: rest).getLast? ≠ some 0) :
    rest.getLast? ≠ some 0 := by
  cases rest with
  | nil => simp
  | cons c rest => simpa using h

/-- The bytes with every `03` behind two zero bytes taken out. -/
def unescape : List UInt8 → List UInt8
  | 0 :: 0 :: 3 :: rest => 0 :: 0 :: unescape rest
  | b :: rest => b :: unescape rest
  | [] => []

/-- `00 00 01` stands right before the offset `j`. -/
structure StartCode (xs : List UInt8) (j : ℕ) : Prop where
  le : 3 ≤ j
  zero : xs[j - 3]? = some 0
  zero' : xs[j - 2]? = some 0
  one : xs[j - 1]? = some 1

theorem StartCode.right {xs ys : List UInt8} {j : ℕ} (h : StartCode (xs ++ ys) j)
    (hj : xs.length + 3 ≤ j) : StartCode ys (j - xs.length) where
  le := by omega
  zero := by
    rw [← h.zero, List.getElem?_append_right (by omega)]
    congr 1
    omega
  zero' := by
    rw [← h.zero', List.getElem?_append_right (by omega)]
    congr 1
    omega
  one := by
    rw [← h.one, List.getElem?_append_right (by omega)]
    congr 1
    omega

theorem StartCode.left {xs ys : List UInt8} {j : ℕ} (h : StartCode (xs ++ ys) j)
    (hj : j ≤ xs.length) : StartCode xs j where
  le := h.le
  zero := by
    have := h.le
    rw [← h.zero, List.getElem?_append_left (by omega)]
  zero' := by
    have := h.le
    rw [← h.zero', List.getElem?_append_left (by omega)]
  one := by
    have := h.le
    rw [← h.one, List.getElem?_append_left (by omega)]

/-- A unit with the zero bytes in front of the two of its start code; the start code does
not occur in it. -/
structure NalUnit where
  zeros : ℕ
  header : UInt8
  body : List UInt8
  plain : ∀ j, ¬ StartCode (header :: body) j

def NalUnit.lead (u : NalUnit) : List UInt8 := List.replicate (u.zeros + 2) 0 ++ [1]

def NalUnit.bytes (u : NalUnit) : List UInt8 := u.lead ++ u.header :: u.body

theorem NalUnit.lead_length (u : NalUnit) : u.lead.length = u.zeros + 3 := by simp [NalUnit.lead]

def byteStream (units : List NalUnit) : List UInt8 := units.flatMap NalUnit.bytes

/-- Two zero bytes come first, as they do where the next start code begins. -/
structure ZerosFirst (xs : List UInt8) : Prop where
  zero : xs[0]? = some 0
  one : xs[1]? = some 0

theorem zerosFirst_replicate (n : ℕ) (xs : List UInt8) :
    ZerosFirst (List.replicate (n + 2) 0 ++ xs) := by
  constructor <;> simp [List.replicate_succ]

theorem NalUnit.zerosFirst (u : NalUnit) (tail : List UInt8) : ZerosFirst (u.bytes ++ tail) := by
  simp only [NalUnit.bytes, NalUnit.lead, List.append_assoc]
  exact zerosFirst_replicate _ _

theorem zerosFirst_byteStream (units : List NalUnit) {rest : List UInt8} (h : ZerosFirst rest) :
    ZerosFirst (byteStream units ++ rest) := by
  cases units with
  | nil => exact h
  | cons u units =>
    simp only [byteStream, List.flatMap_cons, List.append_assoc]
    exact u.zerosFirst _

theorem startCode_lead {n j : ℕ} {xs : List UInt8}
    (h : StartCode (List.replicate (n + 2) 0 ++ [1] ++ xs) j) : j = n + 3 ∨ n + 6 ≤ j := by
  have hle := h.le
  have hget : ∀ i, i ≤ n + 2 → (List.replicate (n + 2) (0 : UInt8) ++ [1] ++ xs)[i]? =
      some (if i = n + 2 then 1 else 0) := by
    intro i hi
    rw [List.append_assoc]
    by_cases hlast : i = n + 2
    · rw [List.getElem?_append_right (by simp; omega)]
      simp [hlast]
    · rw [List.getElem?_append_left (by simp; omega), List.getElem?_replicate,
        if_pos (by omega), if_neg hlast]
  by_contra hcon
  simp only [not_or, not_le] at hcon
  rcases lt_or_ge j (n + 3) with hlt | hge
  · have hone := h.one
    rw [hget _ (by omega), if_neg (by omega)] at hone
    exact absurd hone (by decide)
  · obtain rfl | rfl : j = n + 4 ∨ j = n + 5 := by omega
    · have hz := h.zero'
      rw [hget _ (by omega), if_pos (by omega)] at hz
      exact absurd hz (by decide)
    · have hz := h.zero
      rw [hget _ (by omega), if_pos (by omega)] at hz
      exact absurd hz (by decide)

/-- A start code in a unit and what follows is the unit's own or lies behind it. -/
theorem NalUnit.startCode {u : NalUnit} {tail : List UInt8} (htail : ZerosFirst tail) {j : ℕ}
    (h : StartCode (u.bytes ++ tail) j) :
    j = u.lead.length ∨ u.bytes.length + 3 ≤ j := by
  have hlead := u.lead_length
  have hlen : u.bytes.length = u.zeros + 3 + (u.body.length + 1) := by
    simp [NalUnit.bytes, hlead]
  rw [NalUnit.bytes, List.append_assoc] at h
  rcases startCode_lead h with hj | hj
  · exact .inl (hj.trans hlead.symm)
  · right
    have hin := h.right (by rw [hlead]; omega)
    rw [hlead] at hin
    by_contra hcon
    rcases le_or_gt (j - (u.zeros + 3)) (u.header :: u.body).length with hle | hgt
    · exact u.plain _ (hin.left hle)
    · have hone := hin.one
      rw [List.getElem?_append_right (by omega), List.length_cons] at hone
      rw [List.length_cons] at hgt
      obtain hk | hk : j - (u.zeros + 3) - 1 - (u.body.length + 1) = 0 ∨
          j - (u.zeros + 3) - 1 - (u.body.length + 1) = 1 := by omega
      · rw [hk, htail.zero] at hone
        exact absurd hone (by decide)
      · rw [hk, htail.one] at hone
        exact absurd hone (by decide)

/-- Before the end of the units, a start code is followed by the header of a unit. -/
theorem byteStream_startCode (units : List NalUnit) {rest : List UInt8} (hrest : ZerosFirst rest)
    {j : ℕ} (h : StartCode (byteStream units ++ rest) j)
    (hj : j < (byteStream units).length + 3) :
    ∃ u ∈ units, (byteStream units ++ rest)[j]? = some u.header := by
  induction units generalizing j with
  | nil =>
    have hle := h.le
    simp [byteStream] at hj
    omega
  | cons u units ih =>
    have hsplit : byteStream (u :: units) ++ rest = u.bytes ++ (byteStream units ++ rest) := by
      simp [byteStream]
    have hlen : (byteStream (u :: units)).length = u.bytes.length + (byteStream units).length := by
      simp [byteStream]
    rw [hsplit] at h ⊢
    rw [hlen] at hj
    rcases NalUnit.startCode (zerosFirst_byteStream units hrest) h with hown | hlater
    · refine ⟨u, by simp, ?_⟩
      rw [NalUnit.bytes, List.append_assoc, List.getElem?_append_right (by omega)]
      simp [hown]
    · obtain ⟨v, hv, hget⟩ := ih (h.right hlater) (by omega)
      refine ⟨v, by simp [hv], ?_⟩
      rw [List.getElem?_append_right (by omega), hget]

/-! ## Runs of zero bytes -/

/-- `00 00 00` stands at the offset `i`. -/
structure ZeroRun (xs : List UInt8) (i : ℕ) : Prop where
  first : xs[i]? = some 0
  second : xs[i + 1]? = some 0
  third : xs[i + 2]? = some 0

/-- A unit behind a start code of three or four bytes. It has no three zero bytes one after
the other and does not end in a zero byte. -/
structure EscapedUnit extends NalUnit where
  short : zeros ≤ 1
  broken : ∀ i, ¬ ZeroRun (header :: body) i
  last : (header :: body).getLast? ≠ some 0

/-- Without zero bytes a unit needs no escapes. -/
def EscapedUnit.zeroFree (zeros : ℕ) (header : UInt8) (body : List UInt8) (short : zeros ≤ 1)
    (h : 0 ∉ header :: body) : EscapedUnit where
  zeros := zeros
  header := header
  body := body
  plain := fun _ hcode => h (List.mem_of_getElem? hcode.zero)
  short := short
  broken := fun _ hrun => h (List.mem_of_getElem? hrun.first)
  last := fun hlast => h (List.mem_of_getLast? hlast)

def escapedStream (units : List EscapedUnit) : List UInt8 :=
  byteStream (units.map EscapedUnit.toNalUnit)

theorem escapedStream_cons (u : EscapedUnit) (units : List EscapedUnit) :
    escapedStream (u :: units) = u.bytes ++ escapedStream units := by
  simp only [escapedStream, List.map_cons, byteStream, List.flatMap_cons]

theorem escapedStream_append (units units' : List EscapedUnit) :
    escapedStream (units ++ units') = escapedStream units ++ escapedStream units' := by
  simp only [escapedStream, List.map_append, byteStream, List.flatMap_append]

theorem NalUnit.bytes_one (u : NalUnit) (tail : List UInt8) :
    (u.bytes ++ tail)[u.zeros + 2]? = some 1 := by
  simp [NalUnit.bytes, NalUnit.lead]

theorem NalUnit.bytes_zero (u : NalUnit) (tail : List UInt8) {i : ℕ} (hi : i < u.zeros + 2) :
    (u.bytes ++ tail)[i]? = some 0 := by
  have hlead : i < u.lead.length := by
    rw [u.lead_length]
    omega
  rw [NalUnit.bytes, List.append_assoc, List.getElem?_append_left hlead, NalUnit.lead,
    List.getElem?_append_left (by simpa using hi), List.getElem?_replicate, if_pos hi]

theorem NalUnit.bytes_header (u : NalUnit) (tail : List UInt8) :
    (u.bytes ++ tail)[u.zeros + 3]? = some u.header := by
  rw [NalUnit.bytes, List.append_assoc, List.getElem?_append_right (by rw [u.lead_length])]
  simp [u.lead_length]

/-- Three zero bytes that begin in the unit behind a start code do not stand in what it has. -/
theorem EscapedUnit.not_zeroRun {u : EscapedUnit} {tail : List UInt8} {i : ℕ}
    (h : ZeroRun (u.header :: u.body ++ tail) i) (hi : i < (u.header :: u.body).length) : False := by
  have hlast := u.last
  rw [List.getLast?_eq_getElem?] at hlast
  have hin : ∀ {j : ℕ}, j < (u.header :: u.body).length →
      (u.header :: u.body ++ tail)[j]? = (u.header :: u.body)[j]? :=
    fun hj => List.getElem?_append_left hj
  rcases Nat.lt_or_ge (i + 2) (u.header :: u.body).length with hinside | hend
  · refine u.broken i ⟨?_, ?_, ?_⟩
    · rw [← hin hi, h.first]
    · rw [← hin (by omega), h.second]
    · rw [← hin hinside, h.third]
  · obtain hfirst | hsecond : (u.header :: u.body).length - 1 = i ∨
        (u.header :: u.body).length - 1 = i + 1 := by omega
    · rw [hfirst, ← hin hi] at hlast
      exact hlast h.first
    · rw [hsecond, ← hin (by omega)] at hlast
      exact hlast h.second

/-- Three zero bytes that begin in a unit are those of a start code of four bytes. -/
theorem EscapedUnit.zeroRun {u : EscapedUnit} {tail : List UInt8} {i : ℕ}
    (h : ZeroRun (u.bytes ++ tail) i) (hi : i < u.bytes.length) : i = 0 ∧ u.zeros = 1 := by
  have hshort := u.short
  have hone := u.bytes_one tail
  have hlen : u.bytes.length = u.zeros + 3 + (u.header :: u.body).length := by
    rw [NalUnit.bytes, List.length_append, u.lead_length]
  have hne : ∀ {j : ℕ}, (u.bytes ++ tail)[j]? = some 0 → j ≠ u.zeros + 2 := by
    rintro j hj rfl
    rw [hone] at hj
    exact absurd hj (by decide)
  have h0 := hne h.first
  have h1 := hne h.second
  have h2 := hne h.third
  rcases Nat.lt_or_ge i (u.zeros + 3) with hlead | hbody
  · omega
  · exfalso
    have hright : ∀ {j : ℕ}, u.zeros + 3 ≤ j → (u.bytes ++ tail)[j]? =
        (u.header :: u.body ++ tail)[j - (u.zeros + 3)]? := by
      intro j hj
      rw [NalUnit.bytes, List.append_assoc, List.getElem?_append_right (by rwa [u.lead_length]),
        u.lead_length]
    have hrun : ZeroRun (u.header :: u.body ++ tail) (i - (u.zeros + 3)) := by
      refine ⟨?_, ?_, ?_⟩
      · rw [← hright hbody, h.first]
      · rw [← h.second, hright (by omega)]
        congr 1
        omega
      · rw [← h.third, hright (by omega)]
        congr 1
        omega
    exact u.not_zeroRun hrun (by omega)

/-- Three zero bytes that begin in the units are followed by a one and the header of a
unit. -/
theorem escapedStream_zeroRun (units : List EscapedUnit) {rest : List UInt8} {i : ℕ}
    (h : ZeroRun (escapedStream units ++ rest) i) (hi : i < (escapedStream units).length) :
    ∃ u ∈ units, (escapedStream units ++ rest)[i + 3]? = some 1 ∧
      (escapedStream units ++ rest)[i + 4]? = some u.header := by
  induction units generalizing i with
  | nil => exact absurd hi (Nat.not_lt_zero i)
  | cons u units ih =>
    rw [escapedStream_cons, List.append_assoc] at h ⊢
    rw [escapedStream_cons, List.length_append] at hi
    rcases Nat.lt_or_ge i u.bytes.length with hown | hlater
    · obtain ⟨rfl, hzeros⟩ := u.zeroRun h hown
      have hone := u.bytes_one (escapedStream units ++ rest)
      have hheader := u.bytes_header (escapedStream units ++ rest)
      rw [hzeros] at hone hheader
      exact ⟨u, List.mem_cons_self, hone, hheader⟩
    · have hright : ∀ {j : ℕ}, u.bytes.length ≤ j → (u.bytes ++ (escapedStream units ++ rest))[j]? =
          (escapedStream units ++ rest)[j - u.bytes.length]? :=
        fun hj => List.getElem?_append_right hj
      have hshift : ∀ k, i + k - u.bytes.length = i - u.bytes.length + k := fun k => by omega
      have hrun : ZeroRun (escapedStream units ++ rest) (i - u.bytes.length) := by
        refine ⟨?_, ?_, ?_⟩
        · rw [← hright hlater, h.first]
        · rw [← hshift, ← hright (by omega), h.second]
        · rw [← hshift, ← hright (by omega), h.third]
      obtain ⟨v, hv, hone, hheader⟩ := ih hrun (by omega)
      refine ⟨v, List.mem_cons_of_mem _ hv, ?_, ?_⟩
      · rw [hright (by omega), hshift, hone]
      · rw [hright (by omega), hshift, hheader]

end Jagles.NalUnits
