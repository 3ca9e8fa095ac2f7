import Jagles.H265

set_option autoImplicit false
set_option linter.dupNamespace false

/-!
# The start-code search against a plain one

`avpriv_find_start_code` moves on by up to three bytes after looking at the three bytes
behind it. It passes over no start code, so that the search of `H265GetWidthHeight` ends at
the first NAL of type 33 with two more bytes before the last one.
-/
namespace Jagles.H265

variable {stream : List UInt8} {stop : ℤ}

/-- The bytes in front of `k` are `00 00 01`. -/
structure StartsAt (stream : List UInt8) (k : ℤ) : Prop where
  le : 3 ≤ k
  zero : byteAt stream (k - 3) = 0
  zero' : byteAt stream (k - 2) = 0
  one : byteAt stream (k - 1) = 1

/-- The bytes right behind a start code do not start another NAL. -/
theorem StartsAt.gap {k j : ℤ} (h : StartsAt stream k) (hlt : k < j) (hle : j < k + 3) :
    ¬ StartsAt stream j := by
  intro hj
  obtain rfl | rfl : j = k + 1 ∨ j = k + 2 := by omega
  · have hz := hj.zero'
    rw [show k + 1 - 2 = k - 1 by ring, h.one] at hz
    exact absurd hz (by decide)
  · have hz := hj.zero
    rw [show k + 2 - 3 = k - 1 by ring, h.one] at hz
    exact absurd hz (by decide)

/-- `r` is behind the first NAL start in `p..stop`, or at the end when there is none. -/
def FirstStart (stream : List UInt8) (stop p r : ℤ) : Prop :=
  (∃ k, p ≤ k ∧ k < stop ∧ StartsAt stream k ∧ (∀ j, p ≤ j → j < k → ¬ StartsAt stream j) ∧
    r = k + 1) ∨
  ((∀ j, p ≤ j → j < stop → ¬ StartsAt stream j) ∧ stop ≤ r)

/-- Offsets passed over without a NAL start can be left out of the search. -/
theorem FirstStart.skip {p q r : ℤ} (h : FirstStart stream stop q r) (hpq : p ≤ q)
    (hnone : ∀ j, p ≤ j → j < q → ¬ StartsAt stream j) : FirstStart stream stop p r := by
  have hbefore : ∀ j, p ≤ j → (q ≤ j → ¬ StartsAt stream j) → ¬ StartsAt stream j := by
    intro j hj hlater
    by_cases hq : q ≤ j
    · exact hlater hq
    · exact hnone j hj (by omega)
  rcases h with ⟨k, hqk, hk, hstart, hleast, hr⟩ | ⟨hno, hr⟩
  · exact .inl ⟨k, by omega, hk, hstart,
      fun j hj hjk => hbefore j hj fun hq => hleast j hq hjk, hr⟩
  · exact .inr ⟨fun j hj hjs => hbefore j hj fun hq => hno j hq hjs, hr⟩

/-- Every offset read is in the stream and before its last byte. -/
def ReadsBefore (stop : ℤ) (reads : List ℤ) : Prop := ∀ i ∈ reads, 0 ≤ i ∧ i < stop

theorem ReadsBefore.append {xs ys : List ℤ} (hx : ReadsBefore stop xs)
    (hy : ReadsBefore stop ys) : ReadsBefore stop (xs ++ ys) := by
  intro i hi
  rcases List.mem_append.mp hi with h | h
  · exact hx i h
  · exact hy i h

theorem skipAhead_spec (stream : List UInt8) (fuel : ℕ) {p : ℤ} (hp : 3 ≤ p) (hfuel : stop - p ≤ fuel) :
    ∃ r, skipAhead stream stop fuel p = some r ∧ FirstStart stream stop p r.pos ∧
      ReadsBefore stop r.reads := by
  have hend : ∀ q, stop ≤ q → FirstStart stream stop q q :=
    fun q hq => .inr ⟨fun j hj hjs => absurd hjs (by omega), hq⟩
  have hnil : ReadsBefore stop [] := fun i hi => absurd hi (by simp)
  induction fuel generalizing p with
  | zero =>
    have hout : ¬ p < stop := by omega
    exact ⟨⟨p, []⟩, by simp [skipAhead, hout], hend p (by omega), hnil⟩
  | succ fuel ih =>
    by_cases hin : p < stop
    · simp only [skipAhead, hin, if_true]
      split
      · rename_i h1
        -- the byte before `p` is no part of a start code
        obtain ⟨r, hr, hfirst, hreads⟩ := ih (show 3 ≤ p + 3 by omega) (by omega)
        refine ⟨r.after [p - 1], by simp [hr], ?_, ?_⟩
        · refine hfirst.skip (by omega) ?_
          intro j hj hjp hstart
          obtain rfl | rfl | rfl : j = p ∨ j = p + 1 ∨ j = p + 2 := by omega
          · rw [hstart.one] at h1
            exact absurd h1 (by decide)
          · have hz := hstart.zero'
            rw [show p + 1 - 2 = p - 1 by ring] at hz
            rw [hz] at h1
            exact absurd h1 (by decide)
          · have hz := hstart.zero
            rw [show p + 2 - 3 = p - 1 by ring] at hz
            rw [hz] at h1
            exact absurd h1 (by decide)
        · exact ReadsBefore.append (by simp [ReadsBefore]; omega) hreads
      · rename_i h1
        split
        · rename_i h2
          obtain ⟨r, hr, hfirst, hreads⟩ := ih (show 3 ≤ p + 2 by omega) (by omega)
          refine ⟨r.after [p - 1, p - 2], by simp [hr], ?_, ?_⟩
          · refine hfirst.skip (by omega) ?_
            intro j hj hjp hstart
            obtain rfl | rfl : j = p ∨ j = p + 1 := by omega
            · exact h2 hstart.zero'
            · have hz := hstart.zero
              rw [show p + 1 - 3 = p - 2 by ring] at hz
              exact h2 hz
          · exact ReadsBefore.append (by simp [ReadsBefore]; omega) hreads
        · rename_i h2
          have hrd : ReadsBefore stop [p - 1, p - 2, p - 3] := by simp [ReadsBefore]; omega
          split
          · rename_i h3
            obtain ⟨r, hr, hfirst, hreads⟩ := ih (show 3 ≤ p + 1 by omega) (by omega)
            refine ⟨r.after [p - 1, p - 2, p - 3], by simp [hr], ?_, hrd.append hreads⟩
            refine hfirst.skip (by omega) ?_
            intro j hj hjp hstart
            obtain rfl : j = p := by omega
            rcases h3 with h3 | h3
            · exact h3 hstart.zero
            · exact h3 hstart.one
          · rename_i h3
            simp only [not_or, not_not] at h2 h3
            exact ⟨_, rfl, .inl ⟨p, le_refl p, hin, ⟨hp, h3.1, h2, h3.2⟩,
              fun j hj hjp => absurd hjp (by omega), rfl⟩, hrd⟩
    · exact ⟨⟨p, []⟩, by simp [skipAhead, hin], hend p (by omega), hnil⟩

/-- One more byte shifted into a state whose higher bytes are all ones. -/
theorem shifted_state {state low b : ℕ} (hlow : 2 ^ 32 - low ≤ state) (hstate : state < 2 ^ 32)
    (hsmall : low ≤ 2 ^ 16) (hb : b < 256) :
    state * 2 ^ 8 % 2 ^ 32 ≠ 0x100 ∧ 2 ^ 32 - low * 256 ≤ (state * 2 ^ 8 % 2 ^ 32 + b) % 2 ^ 32 ∧
      (state * 2 ^ 8 % 2 ^ 32 + b) % 2 ^ 32 < 2 ^ 32 := by
  have hmod : state * 2 ^ 8 % 2 ^ 32 = 2 ^ 32 - (2 ^ 32 - state) * 2 ^ 8 := by omega
  omega

/-- Started from the state `-1`, the first three bytes never look like a start code. -/
theorem headBytes_spec (stream : List UInt8) {p : ℤ} (hp : 0 ≤ p) (hstop : p < stop) :
    ∃ r, headBytes stream stop 3 p initialState = (decide (stop ≤ p + 3), r) ∧
      r.pos = min (p + 3) stop ∧ ReadsBefore stop r.reads := by
  obtain ⟨h1, hlow1, hlt1⟩ := shifted_state (show 2 ^ 32 - 1 ≤ initialState by decide)
    (by decide) (by norm_num) (byteAt stream p).toNat_lt
  obtain ⟨h2, hlow2, hlt2⟩ := shifted_state hlow1 hlt1 (by norm_num)
    (byteAt stream (p + 1)).toNat_lt
  obtain ⟨h3, -, -⟩ := shifted_state hlow2 hlt2 (by norm_num) (byteAt stream (p + 1)).toNat_lt
  simp only [headBytes, h1, h2, h3, false_or, Scan.after]
  split_ifs with hp1 hp2 hp3
  · exact ⟨⟨p + 1, [p]⟩, by simp; omega, by simp; omega, by simp [ReadsBefore]; omega⟩
  · exact ⟨⟨p + 2, [p, p + 1]⟩, by simp; omega, by simp; omega, by simp [ReadsBefore]; omega⟩
  · exact ⟨⟨p + 3, [p, p + 1, p + 2]⟩, by simp; omega, by simp; omega,
      by simp [ReadsBefore]; omega⟩
  · exact ⟨⟨p + 3, [p, p + 1, p + 2]⟩, by simp; omega, by simp; omega,
      by simp [ReadsBefore]; omega⟩

theorem avprivFindStartCode_spec (stream : List UInt8) {fuel : ℕ} {p : ℤ} (hp : 0 ≤ p) (hfuel : stop - p ≤ fuel + 3) :
    ∃ r, avprivFindStartCode stream fuel p stop initialState = some r ∧
      FirstStart stream stop (p + 3) r.pos ∧ r.pos ≤ stop ∧ ReadsBefore stop r.reads := by
  by_cases hout : stop ≤ p
  · exact ⟨⟨stop, []⟩, by simp [avprivFindStartCode, hout],
      .inr ⟨fun j hj hjs => absurd hjs (by omega), le_refl stop⟩, le_refl stop,
      fun i hi => absurd hi (by simp)⟩
  obtain ⟨head, heq, hpos, hreads⟩ := headBytes_spec stream hp (not_le.mp hout)
  by_cases hend : stop ≤ p + 3
  · refine ⟨head, by simp [avprivFindStartCode, hout, heq, hend],
      .inr ⟨fun j hj hjs => absurd hjs (by omega), by omega⟩, by omega, hreads⟩
  · obtain ⟨tail, htail, hfirst, htreads⟩ :=
      skipAhead_spec stream fuel (show 3 ≤ p + 3 by omega) (show stop - (p + 3) ≤ fuel by omega)
    rw [min_eq_left (by omega)] at hpos
    refine ⟨⟨min tail.pos stop, head.reads ++ tail.reads⟩,
      by simp [avprivFindStartCode, hout, heq, hend, hpos, htail], ?_, min_le_right _ _,
      hreads.append htreads⟩
    rcases hfirst with ⟨k, hpk, hk, hstart, hleast, hr⟩ | ⟨hno, hr⟩
    · exact .inl ⟨k, hpk, hk, hstart, hleast, by simp only [hr]; omega⟩
    · exact .inr ⟨hno, by simp only; omega⟩

/-! ## The NAL the search ends at -/

/-- A NAL of type 33 at `k`, with two more bytes before the last one. -/
structure SpsAt (stream : List UInt8) (k : ℤ) : Prop extends StartsAt stream k where
  type : nulUnitType (byteAt stream k) = 33
  room : k + 2 < bufEnd stream

theorem searchLoop_spec {fuel : ℕ} {buf : ℤ} (hbuf : 0 ≤ buf)
    (hfuel : bufEnd stream - buf < fuel) (hpos : 0 < fuel)
    (hnone : ∀ k, k < buf + 3 → ¬ SpsAt stream k) :
    ∃ r, searchLoop stream (bufEnd stream) fuel buf = some r ∧
      (∀ k, r.nal = some k → IsLeast {k | SpsAt stream k} k) ∧
      (r.nal = none → ∀ k, ¬ SpsAt stream k) ∧ ReadsBefore (bufEnd stream) r.reads := by
  induction fuel generalizing buf with
  | zero => omega
  | succ fuel ih =>
    obtain ⟨found, hfound, hfirst, hle, hreads⟩ :=
      avprivFindStartCode_spec stream hbuf (show bufEnd stream - buf ≤ fuel + 3 by omega)
    simp only [searchLoop, hfound, Option.bind_eq_bind, Option.bind_some]
    rcases hfirst with ⟨k, hk, hkstop, hstart, hleast, hr⟩ | ⟨hno, hr⟩
    · have hbefore : ∀ j, j < k → ¬ SpsAt stream j := by
        intro j hj hsps
        by_cases hfar : buf + 3 ≤ j
        · exact hleast j hfar hj hsps.toStartsAt
        · exact hnone j (by omega) hsps
      rw [show found.pos - 1 = k by omega]
      split
      · rename_i hroom
        refine ⟨_, rfl, by simp, ?_, hreads⟩
        intro _ j hsps
        rcases lt_or_ge j k with hlt | hge
        · exact hbefore j hlt hsps
        · have := hsps.room
          omega
      · rename_i hroom
        have hhere : ReadsBefore (bufEnd stream) (found.reads ++ [k, k + 1]) :=
          hreads.append (by simp [ReadsBefore]; omega)
        split
        · rename_i htype
          refine ⟨_, rfl, ?_, by simp, hhere⟩
          rintro j hj
          obtain rfl : k = j := by simpa using hj
          refine ⟨⟨hstart, htype, by omega⟩, fun j hsps => ?_⟩
          by_contra hlt
          exact hbefore j (by omega) hsps
        · rename_i htype
          obtain ⟨r, heq, hsome, hnil, hrest⟩ := ih (show 0 ≤ k by omega) (by omega) (by omega) (by
            intro j hj hsps
            rcases lt_trichotomy j k with hlt | rfl | hgt
            · exact hbefore j hlt hsps
            · exact htype hsps.type
            · exact hstart.gap hgt hj hsps.toStartsAt)
          refine ⟨⟨r.nal, found.reads ++ [k, k + 1] ++ r.reads⟩, ?_, hsome, hnil,
            hhere.append hrest⟩
          simp only [heq, Option.bind_some]
    · refine ⟨⟨none, found.reads⟩, ?_, by simp, ?_, hreads⟩
      · rw [if_pos (by omega)]
      · intro _ j hsps
        by_cases hfar : buf + 3 ≤ j
        · exact hno j hfar (by have := hsps.room; omega) hsps.toStartsAt
        · exact hnone j (by omega) hsps

theorem findSps_spec (stream : List UInt8) {fuel : ℕ} (hfuel : stream.length < fuel) :
    ∃ r, findSps stream fuel = some r ∧
      (∀ k, r.nal = some k → IsLeast {k | SpsAt stream k} k) ∧
      (r.nal = none → ∀ k, ¬ SpsAt stream k) ∧ ReadsBefore (bufEnd stream) r.reads :=
  searchLoop_spec (le_refl 0) (by unfold bufEnd; omega) (by omega)
    fun k hk hsps => absurd hsps.le (by omega)

/-- The search by the definition: the first offset behind `00 00 01` with a byte of type 33
and two more bytes before the last one. -/
def naiveScan (stream : List UInt8) : Option ℕ :=
  (List.range stream.length).find? fun k =>
    decide (3 ≤ k ∧ stream.getD (k - 3) 0 = 0 ∧ stream.getD (k - 2) 0 = 0 ∧
      stream.getD (k - 1) 0 = 1 ∧ (stream.getD k 0 >>> 1) &&& 0x3f = 33 ∧
      k + 2 < stream.length - 1)

theorem spsAt_natCast (stream : List UInt8) (k : ℕ) : SpsAt stream k ↔
    3 ≤ k ∧ stream.getD (k - 3) 0 = 0 ∧ stream.getD (k - 2) 0 = 0 ∧ stream.getD (k - 1) 0 = 1 ∧
      (stream.getD k 0 >>> 1) &&& 0x3f = 33 ∧ k + 2 < stream.length - 1 := by
  have hbyte : ∀ i : ℕ, i ≤ k → byteAt stream ((k : ℤ) - i) = stream.getD (k - i) 0 := by
    intro i hi
    rw [byteAt, show ((k : ℤ) - i).toNat = k - i by omega]
  have hlast : byteAt stream k = stream.getD k 0 := rfl
  constructor
  · intro h
    have hle := h.le
    have hroom := h.room
    have h3 := hbyte 3 (by omega)
    have h2 := hbyte 2 (by omega)
    have h1 := hbyte 1 (by omega)
    unfold bufEnd at hroom
    exact ⟨by omega, h3 ▸ h.zero, h2 ▸ h.zero', h1 ▸ h.one, hlast ▸ h.type, by omega⟩
  · rintro ⟨hle, hz, hz', ho, ht, hroom⟩
    have h3 := hbyte 3 (by omega)
    have h2 := hbyte 2 (by omega)
    have h1 := hbyte 1 (by omega)
    exact ⟨⟨by omega, h3.trans hz, h2.trans hz', h1.trans ho⟩, ht, by unfold bufEnd; omega⟩

theorem isLeast_of_naiveScan {stream : List UInt8} {k : ℕ} (h : naiveScan stream = some k) :
    IsLeast {k | SpsAt stream k} (k : ℤ) := by
  rw [naiveScan, List.find?_range_eq_some] at h
  obtain ⟨hk, -, hleast⟩ := h
  refine ⟨(spsAt_natCast stream k).mpr (by simpa using hk), fun j hj => ?_⟩
  have hpos := hj.le
  obtain ⟨j, rfl⟩ : ∃ i : ℕ, j = i := ⟨j.toNat, by omega⟩
  by_contra hlt
  have hno := hleast j (by omega)
  rw [Bool.not_eq_true', decide_eq_false_iff_not] at hno
  exact hno ((spsAt_natCast stream j).mp hj)

theorem not_spsAt_of_naiveScan {stream : List UInt8} (h : naiveScan stream = none) (k : ℤ) :
    ¬ SpsAt stream k := by
  intro hsps
  have hpos := hsps.le
  obtain ⟨j, rfl⟩ : ∃ i : ℕ, k = i := ⟨k.toNat, by omega⟩
  have hj := (spsAt_natCast stream j).mp hsps
  rw [naiveScan, List.find?_eq_none] at h
  exact h j (List.mem_range.mpr (by omega)) (decide_eq_true hj)

/-- The search comes to an end and stops at the NAL the plain scan finds. -/
theorem search_eq_naive (stream : List UInt8) {fuel : ℕ} (hfuel : stream.length < fuel) :
    (findSps stream fuel).map Search.nal = some ((naiveScan stream).map Int.ofNat) := by
  obtain ⟨r, heq, hsome, hnone, -⟩ := findSps_spec stream hfuel
  rw [heq, Option.map_some, Option.some.injEq]
  cases hscan : naiveScan stream with
  | none =>
    cases hnal : r.nal with
    | none => rfl
    | some k => exact absurd (hsome k hnal).1 (not_spsAt_of_naiveScan hscan k)
  | some k =>
    have hleast := isLeast_of_naiveScan hscan
    cases hnal : r.nal with
    | none => exact absurd hleast.1 (hnone hnal k)
    | some j => rw [(hsome j hnal).unique hleast]; rfl

theorem search_two_units : (findSps [0, 0, 1, 0x40, 0, 0, 0, 1, 0x42, 1, 2, 3] 13).map Search.nal =
    some ((naiveScan [0, 0, 1, 0x40, 0, 0, 0, 1, 0x42, 1, 2, 3]).map Int.ofNat) :=
  search_eq_naive _ (by decide)

example : naiveScan [0, 0, 1, 0x40, 0, 0, 0, 1, 0x42, 1, 2, 3] = some 8 := by decide

end Jagles.H265
