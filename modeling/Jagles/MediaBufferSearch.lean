import Jagles.LinkChains
import Jagles.MediaBufferLayout

set_option autoImplicit false
set_option linter.dupNamespace false

/-!
# The backward search

`link m a` is where the search of `ReadBuffer` goes from the header at offset
`a`. The search is the walk along these links and ends where there is none. It
visits the standing frames from the newest one down and stops at the newest key
frame.
-/
namespace Jagles.MediaBuffer
open ByteMemory LinkChains

/-- The header at `a` has the flag and is that of a key frame. -/
def keyHdr (m : Memory) (a : ℕ) : Prop :=
  (hdrAt m a).buftype = MB_FT_IFRAME.toUInt32.toNat ∧ (hdrAt m a).flag = hdrFlag

instance (m : Memory) (a : ℕ) : Decidable (keyHdr m a) :=
  inferInstanceAs (Decidable (_ ∧ _))

def link (m : Memory) (a : ℕ) : Option ℕ :=
  if 2 ^ 31 ≤ a ∨ keyHdr m a ∨ a = 0 ∧ (hdrAt m a).prevpos = 0 then none
  else some (hdrAt m a).prevpos

/-- What the search reports at an end of the links. -/
def reported (m : Memory) (a count : ℕ) : Search :=
  if a < 2 ^ 31 ∧ keyHdr m a then .found a count else .missing count

theorem keySearch_succ (m : Memory) (fuel pos count : ℕ) : keySearch m (fuel + 1) pos count =
    match link m pos with
    | none => some (reported m pos count)
    | some q => keySearch m fuel q (pred32 count) := by
  simp only [keySearch, link, reported]
  by_cases h : 2 ^ 31 ≤ pos
  · rw [if_pos h, if_pos (.inl h), if_neg (fun hk => absurd hk.1 (by omega))]
  rw [if_neg h]
  by_cases hk : keyHdr m pos
  · rw [if_pos (c := 2 ^ 31 ≤ pos ∨ _) (.inr (.inl hk)), if_pos (c := pos < 2 ^ 31 ∧ _) ⟨by omega, hk⟩]
    exact if_pos hk
  rw [if_neg (c := pos < 2 ^ 31 ∧ keyHdr m pos) (fun hm => hk hm.2)]
  by_cases hz : pos = 0 ∧ (hdrAt m pos).prevpos = 0
  · rw [if_pos (c := 2 ^ 31 ≤ pos ∨ _) (.inr (.inr hz)), if_pos hz]
    exact if_neg hk
  · rw [if_neg (c := 2 ^ 31 ≤ pos ∨ _) (by tauto), if_neg hz]
    exact if_neg hk

theorem keySearch_chain {m : Memory} {pos e n : ℕ} (h : Chain (link m) pos n e)
    (he : link m e = none) {fuel : ℕ} (hf : n < fuel) (count : ℕ) :
    keySearch m fuel pos count = some (reported m e (pred32^[n] count)) := by
  induction h generalizing fuel count with
  | nil a =>
    obtain ⟨fuel, rfl⟩ : ∃ g, fuel = g + 1 := ⟨fuel - 1, by omega⟩
    rw [keySearch_succ, he, Function.iterate_zero_apply]
  | cons hs _ ih =>
    obtain ⟨fuel, rfl⟩ : ∃ g, fuel = g + 1 := ⟨fuel - 1, by omega⟩
    rw [keySearch_succ, hs, Function.iterate_succ_apply]
    exact ih he (by omega) _

theorem chain_of_keySearch {m : Memory} {fuel pos count : ℕ} {r : Search}
    (h : keySearch m fuel pos count = some r) : ∃ n e, Chain (link m) pos n e ∧
      link m e = none ∧ r = reported m e (pred32^[n] count) := by
  induction fuel generalizing pos count with
  | zero => simp [keySearch] at h
  | succ fuel ih =>
    rw [keySearch_succ] at h
    cases hl : link m pos with
    | none =>
      simp only [hl, Option.some.injEq] at h
      refine ⟨0, pos, .nil pos, hl, ?_⟩
      rw [Function.iterate_zero_apply, h]
    | some q =>
      simp only [hl] at h
      obtain ⟨n, e, hc, he, hr⟩ := ih h
      refine ⟨n + 1, e, .cons hl hc, he, ?_⟩
      rw [Function.iterate_succ_apply]
      exact hr

theorem keySearch_running {m : Memory} {pos b n : ℕ} (h : Chain (link m) pos n b) {fuel : ℕ}
    (hf : fuel ≤ n) (count : ℕ) : keySearch m fuel pos count = none := by
  induction h generalizing fuel count with
  | nil a =>
    obtain rfl : fuel = 0 := by omega
    rfl
  | cons hs _ ih =>
    cases fuel with
    | zero => rfl
    | succ fuel =>
      rw [keySearch_succ, hs]
      exact ih (by omega) _

theorem pred32_iterate (n count : ℕ) : (pred32^[n] count + n) % 2 ^ 32 = count % 2 ^ 32 := by
  induction n generalizing count with
  | zero => rw [Function.iterate_zero_apply, Nat.add_zero]
  | succ n ih =>
    have h := ih (pred32 count)
    rw [Function.iterate_succ_apply]
    unfold pred32 u32 at *
    omega

theorem key_iff (f : Frame) :
    f.pType.toUInt32.toNat = MB_FT_IFRAME.toUInt32.toNat ↔ isKey f := by
  rw [UInt32.toNat_inj]
  exact ⟨fun h => congrArg Int32.ofUInt32 h, fun h => congrArg Int32.toUInt32 h⟩

namespace Layout
variable {w : World} (L : Layout w)
include L

theorem keyHdr_standing {k : ℕ} (hk : w.standing k) :
    keyHdr w.ring.buf (posAt w.hist.log k) ↔ keyAt w.hist.log k := by
  obtain ⟨x, hx, hp, -⟩ := L.get (L.standing_lt hk)
  rw [keyHdr, hp, (L.stored k x hx hk).hdr, keyAt_some hx, ← key_iff]
  exact and_iff_left rfl

theorem prevpos_standing {k : ℕ} (hk : w.standing k) :
    (hdrAt w.ring.buf (posAt w.hist.log k)).prevpos = prevposAt w.hist.log k := by
  obtain ⟨x, hx, hp, -⟩ := L.get (L.standing_lt hk)
  rw [hp, (L.stored k x hx hk).hdr]
  rfl

theorem posAt_lt {k : ℕ} (hk : k < w.hist.log.length) : posAt w.hist.log k < 2 ^ 31 := by
  obtain ⟨x, -, hp, -, -, -, hf, -⟩ := L.get hk
  have := L.size
  omega

theorem link_key {k : ℕ} (hk : w.standing k) (hkey : keyAt w.hist.log k) :
    link w.ring.buf (posAt w.hist.log k) = none :=
  if_pos (.inr (.inl ((L.keyHdr_standing hk).mpr hkey)))

theorem link_first {k : ℕ} (hk : w.standing k) (hp : posAt w.hist.log k = 0)
    (hq : prevposAt w.hist.log k = 0) : link w.ring.buf (posAt w.hist.log k) = none := by
  refine if_pos (.inr (.inr ⟨hp, ?_⟩))
  rw [L.prevpos_standing hk, hq]

theorem link_standing {k : ℕ} (hk : w.standing k) (hkey : ¬ keyAt w.hist.log k)
    (hend : ¬ (posAt w.hist.log k = 0 ∧ prevposAt w.hist.log k = 0)) :
    link w.ring.buf (posAt w.hist.log k) = some (prevposAt w.hist.log k) := by
  have hlow := L.posAt_lt (L.standing_lt hk)
  have hq := L.prevpos_standing hk
  unfold link
  rw [if_neg, hq]
  rw [L.keyHdr_standing hk, hq]
  rintro (h | h | h)
  · omega
  · exact hkey h
  · exact hend h

theorem not_chainEnd {k j : ℕ} (hk : w.standing k) (hkj : k < j) (hj : j < w.hist.log.length) :
    ¬ (posAt w.hist.log j = 0 ∧ prevposAt w.hist.log j = 0) := by
  rintro ⟨hp, hq⟩
  have hge := L.standing_ge hk
  rw [prevposAt, if_neg (by omega)] at hq
  have hw := L.writepos_pos (by omega)
  obtain ⟨x, -, -, he, -, -, -, hlow, -⟩ := L.get (show j - 1 < w.hist.log.length by omega)
  unfold hdrSize at hw hlow
  by_cases hl : j = w.hist.lap
  · have hs := L.standing_mono hk (show k ≤ j - 1 by omega) (by omega)
    rcases hs with hs | hs <;> omega
  · have up := L.ascending (show w.hist.prevLap ≤ j - 1 by omega) (show j - 1 < j by omega) hj
      (by omega)
    omega

/-- From a frame above `k` the links come down to `k`, one frame at a time. -/
theorem chain_down {k j : ℕ} (hk : w.standing k) (hkj : k ≤ j) (hj : j < w.hist.log.length)
    (newest : ∀ i, k < i → i < w.hist.log.length → ¬ keyAt w.hist.log i) :
    Chain (link w.ring.buf) (posAt w.hist.log j) (j - k) (posAt w.hist.log k) := by
  induction j with
  | zero =>
    obtain rfl : k = 0 := by omega
    exact .nil _
  | succ j ih =>
    by_cases he : k = j + 1
    · rw [he, Nat.sub_self]
      exact .nil _
    · have hl := L.link_standing (L.standing_mono hk hkj hj) (newest (j + 1) (by omega) hj)
        (L.not_chainEnd hk (by omega) hj)
      rw [prevposAt, if_neg (by omega), Nat.add_sub_cancel] at hl
      rw [show j + 1 - k = j - k + 1 by omega]
      exact .cons hl (ih (by omega) (by omega))

theorem searchStart_eq (hn : 0 < w.hist.log.length) :
    searchStart w.ring = posAt w.hist.log (w.hist.log.length - 1) := by
  obtain ⟨x, -, hp, -, -, -, hf, -⟩ := L.get (show w.hist.log.length - 1 < w.hist.log.length by omega)
  have := L.size
  have hl := L.lastwritepos
  rw [if_neg (by omega)] at hl
  rw [searchStart, hl, if_neg (by omega)]

theorem chain_start {k : ℕ} (hk : w.standing k)
    (newest : ∀ i, k < i → i < w.hist.log.length → ¬ keyAt w.hist.log i) :
    Chain (link w.ring.buf) (searchStart w.ring) (w.hist.log.length - 1 - k)
      (posAt w.hist.log k) := by
  have hlt := L.standing_lt hk
  rw [L.searchStart_eq (by omega)]
  exact L.chain_down hk (by omega) (by omega) newest

/-- The search finds the newest key frame `k`, if it is still standing. -/
theorem keySearch_found {k fuel : ℕ} (count : ℕ) (hk : w.standing k)
    (newest : ∀ i, k < i → i < w.hist.log.length → ¬ keyAt w.hist.log i) (hkey : keyAt w.hist.log k)
    (hfuel : w.hist.log.length - 1 - k < fuel) : ∃ count',
    keySearch w.ring.buf fuel (searchStart w.ring) count = some (.found (posAt w.hist.log k) count') ∧
      (count' + (w.hist.log.length - 1 - k)) % 2 ^ 32 = count % 2 ^ 32 := by
  refine ⟨_, ?_, pred32_iterate (w.hist.log.length - 1 - k) count⟩
  rw [keySearch_chain (L.chain_start hk newest) (L.link_key hk hkey) hfuel]
  exact congrArg some (if_pos ⟨L.posAt_lt (L.standing_lt hk), (L.keyHdr_standing hk).mpr hkey⟩)

/-- Without a key frame the search ends at the first frame of the chain. -/
theorem keySearch_missing {k fuel : ℕ} (count : ℕ) (hk : w.standing k)
    (newest : ∀ i, k < i → i < w.hist.log.length → ¬ keyAt w.hist.log i)
    (hkey : ¬ keyAt w.hist.log k) (hend : posAt w.hist.log k = 0 ∧ prevposAt w.hist.log k = 0)
    (hfuel : w.hist.log.length - 1 - k < fuel) : ∃ count',
    keySearch w.ring.buf fuel (searchStart w.ring) count = some (.missing count') := by
  have hnone := L.link_first hk hend.1 hend.2
  refine ⟨pred32^[w.hist.log.length - 1 - k] count, ?_⟩
  rw [keySearch_chain (L.chain_start hk newest) hnone hfuel]
  exact congrArg some (if_neg fun h => hkey ((L.keyHdr_standing hk).mp h.2))

theorem keySearch_short {k fuel : ℕ} (count : ℕ) (hk : w.standing k)
    (newest : ∀ i, k < i → i < w.hist.log.length → ¬ keyAt w.hist.log i)
    (hfuel : fuel ≤ w.hist.log.length - 1 - k) :
    keySearch w.ring.buf fuel (searchStart w.ring) count = none :=
  keySearch_running (L.chain_start hk newest) hfuel count

end Layout
end Jagles.MediaBuffer
