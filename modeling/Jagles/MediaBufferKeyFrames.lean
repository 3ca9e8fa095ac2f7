import Jagles.MediaBufferRuns

set_option autoImplicit false
set_option linter.dupNamespace false

/-!
# Where the backward search goes

The search is sound while a key frame still stands, and in the first lap after a
reset. Otherwise it follows the oldest standing header into the bytes of the
current lap: it comes back to a frame it has been at and goes round for ever, or
it takes payload for a header.
-/
namespace Jagles.MediaBuffer
open ByteMemory GuardedRuns LinkChains

/-- A frame was written at `a` and no later frame reaches into its header. -/
def HeaderAt (w : World) (a : ℕ) : Prop :=
  ∃ k, k < w.hist.log.length ∧ posAt w.hist.log k = a ∧
    ∀ j, k < j → j < w.hist.log.length →
      a + hdrSize ≤ posAt w.hist.log j ∨ posAt w.hist.log j + hdrSize + sizeAt w.hist.log j ≤ a

structure SearchSound (w : World) : Prop where
  ends : ∃ fuel r,
    keySearch w.ring.buf fuel (searchStart w.ring) (pred32 w.ring.writecount) = some r
  visits : ∀ a, a < 2 ^ 31 → Visits (link w.ring.buf) (searchStart w.ring) a → HeaderAt w a
  finds : ∀ k, keyAt w.hist.log k → Intact w.hist.log k →
    (∀ j, k < j → keyAt w.hist.log j → ¬ Intact w.hist.log j) → ∃ fuel count,
      keySearch w.ring.buf fuel (searchStart w.ring) (pred32 w.ring.writecount) =
        some (.found (posAt w.hist.log k) count)

def KeyStands (w : World) : Prop := ∃ k, w.standing k ∧ keyAt w.hist.log k

/-- The chain of the current lap ends at offset zero, and no key frame is left
that it leaves out. -/
def ChainEnds (w : World) : Prop :=
  prevposAt w.hist.log w.hist.lap = 0 ∧ ∀ k, keyAt w.hist.log k → ¬ Intact w.hist.log k

theorem keyAt_lt {log : List Placed} {k : ℕ} (h : keyAt log k) : k < log.length := by
  obtain ⟨x, hx, -⟩ := h
  exact (List.getElem?_eq_some_iff.mp hx).1

theorem exists_newest {P : ℕ → Prop} {n : ℕ} (bound : ∀ k, P k → k < n) (h : ∃ k, P k) :
    ∃ k, P k ∧ ∀ j, k < j → ¬ P j := by
  classical
  obtain ⟨k, hk⟩ := h
  refine ⟨Nat.findGreatest P n, Nat.findGreatest_spec (bound k hk).le hk, fun j hj hP => ?_⟩
  exact Nat.findGreatest_is_greatest hj (bound j hP).le hP

namespace Layout
variable {w : World} (L : Layout w)
include L

theorem lap_standing (hn : 0 < w.hist.log.length) : w.standing w.hist.lap :=
  .inl ⟨le_refl _, L.lap_lt hn⟩

theorem header_standing {k : ℕ} (hk : w.standing k) : HeaderAt w (posAt w.hist.log k) := by
  refine ⟨k, L.standing_lt hk, rfl, fun j hkj hj => ?_⟩
  have clear := L.intact_of_standing hk j hkj hj
  omega

/-- The frames of the current lap cover everything below the write position. -/
theorem covered {a : ℕ} (ha : a < w.ring.writepos) : ∃ j, w.hist.lap ≤ j ∧
    j < w.hist.log.length ∧ posAt w.hist.log j ≤ a ∧ a < endAt w.hist.log j := by
  have hwp := L.writepos
  have hn : 0 < w.hist.log.length := by
    by_contra hn
    rw [if_pos (by omega)] at hwp
    omega
  rw [if_neg (by omega)] at hwp
  have hzero := L.posAt_lap
  have hlap := L.lap_lt hn
  have hle := L.lap_le
  -- down from the newest frame to the one that holds `a`
  have down : ∀ d, d ≤ w.hist.log.length - 1 - w.hist.lap →
      a < endAt w.hist.log (w.hist.lap + d) → ∃ j, w.hist.lap ≤ j ∧
        j < w.hist.log.length ∧ posAt w.hist.log j ≤ a ∧ a < endAt w.hist.log j := by
    intro d
    induction d with
    | zero =>
      intro _ hend
      exact ⟨w.hist.lap, le_refl _, hlap, by omega, hend⟩
    | succ d ih =>
      intro hd hend
      have step := L.next (w.hist.lap + d) (by omega) (by omega)
      rw [if_neg (by omega)] at step
      by_cases hpos : posAt w.hist.log (w.hist.lap + (d + 1)) ≤ a
      · exact ⟨_, by omega, by omega, hpos, hend⟩
      · refine ih (by omega) ?_
        rw [← step, Nat.add_assoc]
        omega
  refine down (w.hist.log.length - 1 - w.hist.lap) (le_refl _) ?_
  rw [show w.hist.lap + (w.hist.log.length - 1 - w.hist.lap) = w.hist.log.length - 1 by omega]
  omega

/-- Below the write position only the frames of the current lap have headers. -/
theorem header_below {k : ℕ} (hk : k < w.hist.log.length)
    (hpos : posAt w.hist.log k < w.ring.writepos) (h : HeaderAt w (posAt w.hist.log k)) :
    ∃ j, w.hist.lap ≤ j ∧ j < w.hist.log.length ∧ posAt w.hist.log j = posAt w.hist.log k := by
  obtain ⟨j, hlj, hj, hlo, hhi⟩ := L.covered hpos
  obtain ⟨i, hi, hsame, later⟩ := h
  refine ⟨j, hlj, hj, ?_⟩
  obtain ⟨x, -, hxp, -, -, hx4, -⟩ := L.get hk
  obtain ⟨y, -, hyp, hye, hys, hy4, -, hyl, hyu, hym⟩ := L.get hj
  have hle := L.lap_le
  rcases Nat.lt_trichotomy i j with hij | hij | hij
  · -- the later frame holds the byte: both offsets are multiples of four
    have clear := later j hij hj
    unfold hdrSize at *
    omega
  · rw [← hij, hsame]
  · have up := L.ascending (show w.hist.prevLap ≤ j by omega) hij hi (by omega)
    omega

/-- A search that ends at the standing frame `k` visits standing frames only. -/
theorem visits_standing {k a : ℕ} (hk : w.standing k)
    (newest : ∀ i, k < i → i < w.hist.log.length → ¬ keyAt w.hist.log i)
    (hend : link w.ring.buf (posAt w.hist.log k) = none)
    (h : Visits (link w.ring.buf) (searchStart w.ring) a) :
    ∃ j, k ≤ j ∧ j < w.hist.log.length ∧ a = posAt w.hist.log j := by
  have hlt := L.standing_lt hk
  refine h.closed (S := fun a => ∃ j, k ≤ j ∧ j < w.hist.log.length ∧ a = posAt w.hist.log j) ?_
    ⟨w.hist.log.length - 1, by omega, by omega, L.searchStart_eq (by omega)⟩
  rintro b c ⟨j, hkj, hj, rfl⟩ hs
  by_cases he : k = j
  · rw [← he, hend] at hs
    cases hs
  · have hl := L.link_standing (L.standing_mono hk hkj hj) (newest j (by omega) hj)
      (L.not_chainEnd hk (by omega) hj)
    rw [prevposAt, if_neg (by omega)] at hl
    exact ⟨j - 1, by omega, by omega, Option.some.inj (hs.symm.trans hl)⟩

theorem searchSound_of_key {k : ℕ} (hk : w.standing k)
    (newest : ∀ i, k < i → i < w.hist.log.length → ¬ keyAt w.hist.log i)
    (hkey : keyAt w.hist.log k) : SearchSound w := by
  obtain ⟨count, hfound, -⟩ := L.keySearch_found (pred32 w.ring.writecount) hk newest hkey
    (show w.hist.log.length - 1 - k < w.hist.log.length by have := L.standing_lt hk; omega)
  refine ⟨⟨_, _, hfound⟩, ?_, ?_⟩
  · intro a _ ha
    obtain ⟨j, hkj, hj, rfl⟩ := L.visits_standing hk newest (L.link_key hk hkey) ha
    exact L.header_standing (L.standing_mono hk hkj hj)
  · intro j hj hin last
    have hjk : j = k := by
      rcases Nat.lt_trichotomy j k with hlt | heq | hlt
      · exact absurd (L.intact_of_standing hk) (last k hlt hkey)
      · exact heq
      · exact absurd hj (newest j hlt (keyAt_lt hj))
    rw [hjk]
    exact ⟨_, count, hfound⟩

theorem searchSound_of_chain (hn : 0 < w.hist.log.length) (hend : ChainEnds w) :
    SearchSound w := by
  obtain ⟨hprev, hnone⟩ := hend
  have hk := L.lap_standing hn
  have nokey {i : ℕ} (hi : w.standing i) : ¬ keyAt w.hist.log i :=
    fun hkey => hnone i hkey (L.intact_of_standing hi)
  have newest : ∀ i, w.hist.lap < i → i < w.hist.log.length → ¬ keyAt w.hist.log i :=
    fun i hi hlen => nokey (.inl ⟨by omega, hlen⟩)
  have hlink := L.link_first hk L.posAt_lap hprev
  refine ⟨⟨_, _, keySearch_chain (L.chain_start hk newest) hlink (Nat.lt_succ_self _) _⟩, ?_, ?_⟩
  · intro a _ ha
    obtain ⟨j, hkj, hj, rfl⟩ := L.visits_standing hk newest hlink ha
    exact L.header_standing (L.standing_mono hk hkj hj)
  · exact fun k hkey hin => absurd hin (hnone k hkey)

/-- The oldest standing frame, when an older one of the same laps has been overwritten. -/
theorem oldest_standing (hn : 0 < w.hist.log.length)
    (hprev : prevposAt w.hist.log w.hist.lap ≠ 0) : ∃ k, w.standing (k + 1) ∧ k < w.hist.lap ∧
      posAt w.hist.log k < w.ring.writepos ∧ ∀ j, w.standing j → k + 1 ≤ j := by
  have hex : ∃ k, w.standing k := ⟨_, L.lap_standing hn⟩
  have hw := L.writepos_pos hn
  have hle := L.lap_le
  have hzero := L.posAt_lap
  have hfirst := L.first
  have hlow := Nat.find_spec hex
  have hmin : ∀ j, w.standing j → Nat.find hex ≤ j := fun j hj => Nat.find_min' hex hj
  have hge := L.standing_ge hlow
  have hlap := hmin _ (L.lap_standing hn)
  have hpl : w.hist.prevLap < w.hist.lap := by
    rcases L.lap_pos with h | h
    · rw [prevposAt, if_pos h] at hprev
      exact absurd rfl hprev
    · exact h
  have hne : Nat.find hex ≠ w.hist.prevLap := by
    intro he
    rw [he] at hlow
    unfold hdrSize at hw
    rcases hlow with h | h <;> omega
  obtain ⟨k, hk⟩ : ∃ k, Nat.find hex = k + 1 := ⟨Nat.find hex - 1, by omega⟩
  rw [hk] at hlow hmin hge hlap hne
  refine ⟨k, hlow, by omega, ?_, hmin⟩
  by_contra hpos
  have := hmin k (.inr ⟨by omega, by omega, by omega⟩)
  omega

/-- Without a key frame the links leave the standing frames at the oldest one. -/
theorem visits_oldest {k : ℕ} (hk : w.standing (k + 1)) (hlap : k < w.hist.lap)
    (hprev : prevposAt w.hist.log w.hist.lap ≠ 0) (hkey : ¬ KeyStands w) :
    Visits (link w.ring.buf) (searchStart w.ring) (posAt w.hist.log k) := by
  have nokey {i : ℕ} (hi : w.standing i) : ¬ keyAt w.hist.log i := fun h => hkey ⟨i, hi, h⟩
  have hn := L.standing_lt hk
  have hchain := L.chain_start hk
    fun i hi hlen => nokey (L.standing_mono hk (by omega) hlen)
  have hl := L.link_standing hk (nokey hk) ?_
  · rw [prevposAt, if_neg (by omega), Nat.add_sub_cancel] at hl
    exact ⟨_, hchain.snoc hl⟩
  · rintro ⟨hp, hq⟩
    by_cases he : k + 1 = w.hist.lap
    · rw [he] at hq
      exact hprev hq
    · have hw := L.writepos_pos (by omega)
      unfold hdrSize at hw
      rcases hk with h | h <;> omega

/-- When the link out of the standing frames leads back among them, the search
never ends. -/
theorem search_loops {k j : ℕ} (hk : w.standing (k + 1)) (hlap : k < w.hist.lap)
    (hprev : prevposAt w.hist.log w.hist.lap ≠ 0) (hkey : ¬ KeyStands w)
    (low : ∀ i, w.standing i → k + 1 ≤ i) (hj : w.standing j)
    (hback : posAt w.hist.log j = posAt w.hist.log k) (fuel count : ℕ) :
    keySearch w.ring.buf fuel (searchStart w.ring) count = none := by
  have hn := L.standing_lt hk
  have hw := L.writepos_pos (by omega)
  have goes : ∀ a, (∃ i, w.standing i ∧ a = posAt w.hist.log i) → ∃ b,
      link w.ring.buf a = some b ∧ ∃ i, w.standing i ∧ b = posAt w.hist.log i := by
    rintro a ⟨i, hi, rfl⟩
    have hlow := low i hi
    refine ⟨_, L.link_standing hi (fun h => hkey ⟨i, hi, h⟩) ?_, ?_⟩
    · rintro ⟨hp, hq⟩
      by_cases he : k + 1 = i
      · by_cases hl : i = w.hist.lap
        · rw [hl] at hq
          exact hprev hq
        · unfold hdrSize at hw
          rcases hi with h | h <;> omega
      · exact L.not_chainEnd hk (by omega) (L.standing_lt hi) ⟨hp, hq⟩
    · rw [prevposAt, if_neg (by omega)]
      by_cases he : k + 1 = i
      · exact ⟨j, hj, by rw [hback, ← he, Nat.add_sub_cancel]⟩
      · exact ⟨i - 1, L.standing_mono hk (by omega) (by have := L.standing_lt hi; omega), rfl⟩
  by_contra hsome
  obtain ⟨r, hr⟩ := Option.ne_none_iff_exists'.mp hsome
  obtain ⟨n, e, hc, he, -⟩ := chain_of_keySearch hr
  refine hc.no_end goes ⟨w.hist.log.length - 1, ?_, L.searchStart_eq (by omega)⟩ he
  exact L.standing_mono hk (by omega) (by omega)

theorem searchSound_iff (hn : 0 < w.hist.log.length) :
    SearchSound w ↔ KeyStands w ∨ ChainEnds w := by
  constructor
  · intro s
    by_contra hno
    rw [not_or] at hno
    obtain ⟨hkey, hend⟩ := hno
    by_cases hprev : prevposAt w.hist.log w.hist.lap = 0
    · -- the chain ends without the newest intact key frame
      have hk := L.lap_standing hn
      have hlink := L.link_first hk L.posAt_lap hprev
      have hchain := L.chain_start hk fun i hi hlen h => hkey ⟨i, .inl ⟨by omega, hlen⟩, h⟩
      have hmiss : ∀ fuel count r, keySearch w.ring.buf fuel (searchStart w.ring) count = some r →
          ∃ c, r = .missing c := by
        intro fuel count r hr
        obtain ⟨n, e, hc, he, rfl⟩ := chain_of_keySearch hr
        obtain ⟨-, rfl⟩ := hchain.end_unique hlink hc he
        exact ⟨_, if_neg fun h => hkey ⟨_, hk, (L.keyHdr_standing hk).mp h.2⟩⟩
      have hleft : ∃ k, keyAt w.hist.log k ∧ Intact w.hist.log k := by
        by_contra hnone
        exact hend ⟨hprev, fun k hk hin => hnone ⟨k, hk, hin⟩⟩
      obtain ⟨k, ⟨hk, hin⟩, last⟩ := exists_newest (fun k h => keyAt_lt h.1) hleft
      obtain ⟨fuel, count, hfound⟩ := s.finds k hk hin fun j hj hkj hij => last j hj ⟨hkj, hij⟩
      obtain ⟨c, hc⟩ := hmiss _ _ _ hfound
      cases hc
    · obtain ⟨k, hk, hlap, hpos, low⟩ := L.oldest_standing hn hprev
      have hlt := L.standing_lt hk
      have hvisit := L.visits_oldest hk hlap hprev hkey
      have hhead := s.visits _ (L.posAt_lt (show k < w.hist.log.length by omega)) hvisit
      obtain ⟨j, hlj, hj, hback⟩ := L.header_below (show k < w.hist.log.length by omega) hpos hhead
      obtain ⟨fuel, r, hr⟩ := s.ends
      rw [L.search_loops hk hlap hprev hkey low (.inl ⟨hlj, hj⟩) hback] at hr
      cases hr
  · rintro (⟨k, hk, hkey⟩ | hend)
    · -- the newest standing key frame is the newest of all
      obtain ⟨k, ⟨hk, hkey⟩, last⟩ := exists_newest (P := fun k => w.standing k ∧ keyAt w.hist.log k)
        (fun k h => L.standing_lt h.1) ⟨k, hk, hkey⟩
      exact L.searchSound_of_key hk
        (fun i hi hlen h => last i hi ⟨L.standing_mono hk (by omega) hlen, h⟩) hkey
    · exact L.searchSound_of_chain hn hend

end Layout
/-- In every run whose frames fit, for a reader with something to read. -/
theorem key_search_sound_iff {fuel size : ℕ} (hsize : size < 2 ^ 31) {m : Memory} {ops : List Op}
    {w : World} (run : Run (World.step fuel) Fits (World.start size m) ops w) {i : Fin 16}
    (hne : w.ring.readpos i ≠ w.ring.writepos) : SearchSound w ↔ KeyStands w ∨ ChainEnds w := by
  have s := sound_of_run hsize run
  exact s.layout.searchSound_iff (s.waiting hne)

theorem key_search_sound_iff_keyWritten :
    SearchSound keyWritten ↔ KeyStands keyWritten ∨ ChainEnds keyWritten := by
  have run : Run (World.step 4) Fits (World.start 400 fun _ => 0)
      [.getIndex, .write (filled 0 MB_FT_IFRAME 0) still] keyWritten :=
    .cons trivial rfl (.cons (by decide +kernel) rfl (.nil _))
  exact key_search_sound_iff (by omega) run (i := 0) (by decide +kernel)

/-- After one wrap without key frames the search goes round for ever. -/
theorem key_search_not_sound : ¬ ∀ (fuel size : ℕ) (m : Memory) (ops : List Op) (w : World)
    (i : Fin 16), size < 2 ^ 31 → Run (World.step fuel) Fits (World.start size m) ops w →
    w.ring.isuse i = true → w.ring.overwriteread i = true → w.ring.readpos i ≠ w.ring.writepos →
    SearchSound w := by
  intro claim
  obtain ⟨w, run, hi, hmark, hne, hnokey, hprev⟩ :
      ∃ w, Run (World.step 4) Fits (World.start 400 fun _ => 0)
        [.getIndex, .write (filled 0 MB_FT_PFRAME 0) still, .write (filled 0 MB_FT_PFRAME 1) still,
          .write (filled 0 MB_FT_PFRAME 2) still] w ∧
        (w.ring.isuse 0 = true ∧ w.ring.overwriteread 0 = true ∧
          w.ring.readpos 0 ≠ w.ring.writepos ∧
          (∀ k < w.hist.log.length, ¬ keyAt w.hist.log k) ∧
          prevposAt w.hist.log w.hist.lap ≠ 0) :=
    exists_run (by decide +kernel)
  have s := sound_of_run (by omega) run
  have hsound := claim 4 400 _ _ w 0 (by omega) run hi hmark hne
  rcases (s.layout.searchSound_iff (s.waiting hne)).mp hsound with ⟨k, hk, hkey⟩ | hend
  · exact hnokey k (keyAt_lt hkey) hkey
  · exact hprev hend.1

end Jagles.MediaBuffer
