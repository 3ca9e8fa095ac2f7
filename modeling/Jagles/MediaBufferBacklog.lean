import Jagles.MediaBufferBounds

set_option autoImplicit false
set_option linter.dupNamespace false

/-!
# The backlog of a reader

A reader that is not marked overwritten stands at the end of the frame it
returned last, and its read count is the number of that frame. A search counts
the links back from the newest frame and so comes to the same number.
-/
namespace Jagles.MediaBuffer
open ByteMemory GuardedRuns LinkChains

/-- The frame returned is intact, and the counters differ by the number of
frames written after it. -/
def BacklogAfter (w : World) (i : Fin 16) (p' : Ring) (out : ReadOut) : Prop :=
  ∃ (k : ℕ) (x : Placed), w.hist.log[k]? = some x ∧ Intact w.hist.log k ∧
    out = outOf x.pos x.frame ∧
    u32 (GetWriteCount p' + 2 ^ 32 - GetReadCount p' i) = w.hist.log.length - (k + 1)

/-- The next frame of reader `i` still stands, and when it is the first of a lap
no header is left where the lap before ends; or the reader is overwritten, the
links stand, and the newest key frame fits the caller's buffer. -/
def ReadCounts (w : World) (i : Fin 16) (pReadsize : ℕ) : Prop :=
  w.ring.readpos i ≠ w.ring.writepos →
    (w.ring.overwriteread i = false → w.standing (w.due i) ∧
      (w.due i = w.hist.lap → 0 < w.hist.lap → loadLE w.ring.buf w.lapEnd 4 ≠ hdrFlag)) ∧
    (w.ring.overwriteread i = true → LinksStand w ∧
      ∀ k, w.standing k → keyAt w.hist.log k →
        (∀ j, k < j → j < w.hist.log.length → ¬ keyAt w.hist.log j) →
        padded (sizeAt w.hist.log k) ≤ pReadsize)

def Counts (i : Fin 16) (w : World) : Op → Prop
  | .write f _ => hdrSize + f.pSize ≤ w.ring.bufsize
  | .read j pReadsize => j = i → ReadCounts w i pReadsize
  | _ => True

/-- Where a reader stands that is not marked, and what it has counted. -/
structure Counted (w : World) (i : Fin 16) : Prop where
  seen : ∀ j ∈ w.hist.last i, j < w.hist.before + w.hist.log.length
  readpos : w.ring.overwriteread i = false →
    w.ring.readpos i = if w.due i = 0 then 0 else endAt w.hist.log (w.due i - 1)
  readcount : w.ring.overwriteread i = false → w.ring.readcount i = u32 (w.due i)
  writecount : w.ring.writecount = u32 w.hist.log.length

theorem Counts.fits {w : World} {i : Fin 16} {op : Op} (h : Counts i w op) : Fits w op := by
  cases op with
  | write f t => exact h
  | read j size => trivial
  | unlock j => trivial
  | reset => trivial
  | getIndex => trivial
  | release j => trivial
  | outside m => trivial

@[simp] theorem WrtieBuffer_writecount (p : Ring) (f : Frame) (t : Tick) :
    (WrtieBuffer p f t).writecount = u32 (p.writecount + 1) := by
  obtain ⟨_, _, _, _, h⟩ := WrtieBuffer_eq p f t
  rw [h]
  rfl

@[simp] theorem WrtieBuffer_readcount (p : Ring) (f : Frame) (t : Tick) :
    (WrtieBuffer p f t).readcount = p.readcount := by
  obtain ⟨_, _, _, _, h⟩ := WrtieBuffer_eq p f t
  rw [h]
  rfl

theorem deliver_readcount_of_ne (p : Ring) {i j : Fin 16} (hj : j ≠ i) (pos size : ℕ) :
    (deliver p i pos size).1.readcount j = p.readcount j := by
  simp only [deliver]
  split
  · rfl
  · exact Function.update_of_ne hj _ _

theorem ReadBuffer_readcount_of_ne {fuel size : ℕ} {p p' : Ring} {i j : Fin 16} {r : ReadResult}
    (hj : j ≠ i) (h : ReadBuffer fuel p i size = some (p', r)) :
    p'.readcount j = p.readcount j := by
  rcases ReadBuffer_cases h with ⟨-, rfl, -⟩ | ⟨-, hl⟩
  · rfl
  rcases readLocked_cases hl with ⟨-, hd⟩ | ⟨-, n, e, -, -, ⟨-, -, hd⟩ | ⟨-, -, rfl⟩⟩
  · have same := deliver_readcount_of_ne (lockRead p i) hj (p.readpos i) size
    rwa [hd] at same
  · have same := deliver_readcount_of_ne (unmark p i (pred32^[n] (pred32 p.writecount))) hj e size
    rw [hd] at same
    exact same.trans (Function.update_of_ne hj _ _)
  · exact Function.update_of_ne hj _ _

namespace Layout
variable {w : World} (L : Layout w)
include L

theorem due_landing {i : Fin 16} (hd : w.standing (w.due i))
    (hpos : w.ring.readpos i = if w.due i = 0 then 0 else endAt w.hist.log (w.due i - 1))
    (hclear : w.due i = w.hist.lap → 0 < w.hist.lap → loadLE w.ring.buf w.lapEnd 4 ≠ hdrFlag) :
    w.ring.readpos i = posAt w.hist.log (w.due i) ∨
      posAt w.hist.log (w.due i) = 0 ∧ (hdrAt w.ring.buf (w.ring.readpos i)).flag ≠ hdrFlag := by
  have hfirst := L.first
  have hge := L.standing_ge hd
  have hlt := L.standing_lt hd
  by_cases h0 : w.due i = 0
  · rw [if_pos h0] at hpos
    rw [show w.hist.prevLap = w.due i by omega] at hfirst
    exact .inl (hpos.trans hfirst.symm)
  · rw [if_neg h0] at hpos
    have hprev : w.hist.prevLap ≠ w.due i := by
      intro he
      have hw := L.writepos_pos (by omega)
      have hl := L.lap_pos
      have hle := L.lap_le
      rw [he] at hfirst
      unfold hdrSize at hw
      rcases hd with h | h <;> omega
    have step := L.next (w.due i - 1) (by omega) (by omega)
    rw [Nat.sub_add_cancel (by omega)] at step
    by_cases hl : w.due i = w.hist.lap
    · rw [if_pos hl] at step
      refine .inr ⟨step, ?_⟩
      rw [hpos, hl]
      exact hclear hl (by omega)
    · rw [if_neg hl] at step
      exact .inl (hpos.trans step.symm)

/-- Frames of one lap are at least a header apart. -/
theorem spaced {l j : ℕ} (hl : w.hist.prevLap ≤ l) (hlj : l ≤ j) (hj : j < w.hist.log.length)
    (same : j < w.hist.lap ∨ w.hist.lap ≤ l) : hdrSize * (j - l) ≤ posAt w.hist.log j := by
  induction j with
  | zero =>
    rw [Nat.zero_sub]
    exact Nat.zero_le _
  | succ j ih =>
    by_cases he : l = j + 1
    · rw [he, Nat.sub_self]
      exact Nat.zero_le _
    · have old := ih (by omega) (by omega) (by omega)
      have up := L.ascending (show w.hist.prevLap ≤ j by omega) (show j < j + 1 by omega) hj
        (by omega)
      obtain ⟨x, -, hp, hend, -, -, -, hlow, -⟩ := L.get (show j < w.hist.log.length by omega)
      unfold hdrSize at *
      omega

theorem behind_lt {k : ℕ} (hk : w.standing k) : w.hist.log.length - k < 2 ^ 32 := by
  have hge := L.standing_ge hk
  have hlt := L.standing_lt hk
  have hlap := L.lap_lt (by omega)
  have hle := L.lap_le
  have hnew := L.spaced hle (show w.hist.lap ≤ w.hist.log.length - 1 by omega) (by omega)
    (.inr (le_refl _))
  have hlow := L.posAt_lt (show w.hist.log.length - 1 < w.hist.log.length by omega)
  unfold hdrSize at *
  by_cases hl : w.hist.lap = 0
  · omega
  · by_cases hp : w.hist.prevLap ≤ w.hist.lap - 1
    · have hold := L.spaced (le_refl _) hp (by omega) (.inl (by omega))
      have hlow' := L.posAt_lt (show w.hist.lap - 1 < w.hist.log.length by omega)
      unfold hdrSize at *
      omega
    · omega

/-- Where the links stand, a search that ends at a key frame ends at the newest one. -/
theorem search_end (hn : 0 < w.hist.log.length) (h : LinksStand w) {n e : ℕ}
    (hc : Chain (link w.ring.buf) (searchStart w.ring) n e) (hnone : link w.ring.buf e = none)
    (hkey : keyHdr w.ring.buf e) : ∃ k, w.standing k ∧ keyAt w.hist.log k ∧
      (∀ j, k < j → j < w.hist.log.length → ¬ keyAt w.hist.log j) ∧ e = posAt w.hist.log k ∧
      n = w.hist.log.length - 1 - k := by
  obtain ⟨j, hj, rfl⟩ := L.visits_linksStand hn h ⟨n, hc⟩
  obtain ⟨k, ⟨hk, hkk⟩, last⟩ := exists_newest
    (P := fun k => w.standing k ∧ keyAt w.hist.log k) (fun k h => L.standing_lt h.1)
    ⟨j, hj, (L.keyHdr_standing hj).mp hkey⟩
  have newest : ∀ i, k < i → i < w.hist.log.length → ¬ keyAt w.hist.log i :=
    fun i hi hlen hik => last i hi ⟨L.standing_mono hk (by omega) hlen, hik⟩
  obtain ⟨hsteps, hpos⟩ := (L.chain_start hk newest).end_unique (L.link_key hk hkk) hc hnone
  exact ⟨k, hk, hkk, newest, hpos.symm, hsteps.symm⟩

end Layout

/-- What a read of a counted reader comes to: it leaves an unmarked reader alone and
a marked one marked, or it returns a standing frame and counts up to it. -/
theorem Sound.read_outcome {w : World} (s : Sound w) {i : Fin 16} (c : Counted w i) {fuel size : ℕ}
    (hc : ReadCounts w i size) {p' : Ring} {r : ReadResult}
    (h : ReadBuffer fuel w.ring i size = some (p', r)) :
    (p'.readpos i = w.ring.readpos i ∧ p'.overwriteread i = w.ring.overwriteread i ∧
      (w.ring.overwriteread i = false → p'.readcount i = w.ring.readcount i) ∧
      ∀ out, r ≠ .success out) ∨
    ∃ (k : ℕ) (x : Placed), w.hist.log[k]? = some x ∧ w.standing k ∧
      r = .success (outOf x.pos x.frame) ∧ p'.overwriteread i = false ∧
      p'.readpos i = endAt w.hist.log k ∧ p'.readcount i = u32 (k + 1) := by
  have L := s.layout
  rcases ReadBuffer_cases h with ⟨-, rfl, rfl⟩ | ⟨hne, hl⟩
  · exact .inl ⟨rfl, rfl, fun _ => rfl, by simp⟩
  obtain ⟨hun, hmk⟩ := hc hne
  have hn := s.waiting hne
  rcases readLocked_cases hl with ⟨hm, hd⟩ | ⟨hm, n, e, hchain, hnone, hend⟩
  · obtain ⟨hst, hclear⟩ := hun hm
    obtain ⟨x, hx, hp, -⟩ := L.get (L.standing_lt hst)
    have hland := L.due_landing hst (c.readpos hm) hclear
    rw [hp] at hland
    rw [deliver_stored (lockRead w.ring i) (L.stored _ x hx hst) hland] at hd
    split at hd
    · obtain ⟨rfl, rfl⟩ := Prod.mk.inj hd
      exact .inl ⟨rfl, rfl, fun _ => rfl, by simp⟩
    · obtain ⟨rfl, rfl⟩ := Prod.mk.inj hd
      refine .inr ⟨w.due i, x, hx, hst, rfl, hm, ?_, ?_⟩
      · rw [← L.end_u32 hx]
        exact Function.update_self _ _ _
      · refine (Function.update_self _ _ _).trans ?_
        rw [show (lockRead w.ring i).readcount i = u32 (w.due i) from c.readcount hm]
        unfold u32
        omega
  · obtain ⟨hlinks, hsize⟩ := hmk hm
    rcases hend with ⟨-, hkey, hd⟩ | ⟨-, rfl, rfl⟩
    · obtain ⟨k, hk, hkk, newest, rfl, rfl⟩ := L.search_end hn hlinks hchain hnone hkey
      obtain ⟨x, hx, hp, -, hz, -⟩ := L.get (L.standing_lt hk)
      have hlt := L.standing_lt hk
      have hroom := hsize k hk hkk newest
      rw [hz] at hroom
      have hback := pred32_iterate (w.hist.log.length - 1 - k) (pred32 w.ring.writecount)
      generalize pred32^[w.hist.log.length - 1 - k] (pred32 w.ring.writecount) = q at hback hd
      rw [deliver_stored (unmark w.ring i q) (L.stored k x hx hk) (.inl hp), if_neg (by omega)] at hd
      obtain ⟨rfl, rfl⟩ := Prod.mk.inj hd
      refine .inr ⟨k, x, hx, hk, rfl, Function.update_self _ _ _, ?_, ?_⟩
      · rw [← L.end_u32 hx]
        exact Function.update_self _ _ _
      · refine (Function.update_self _ _ _).trans ?_
        rw [show (unmark w.ring i q).readcount i = q from Function.update_self _ _ _]
        rw [c.writecount] at hback
        unfold pred32 u32 at *
        omega
    · refine .inl ⟨rfl, rfl, fun hu => ?_, by simp⟩
      rw [hm] at hu
      cases hu

theorem Counted.due_le {w : World} {i : Fin 16} (c : Counted w i) :
    w.due i ≤ w.hist.log.length := by
  unfold World.due
  cases hl : w.hist.last i with
  | none => exact Nat.zero_le _
  | some j =>
    have := c.seen j hl
    simp only
    omega

/-- Steps that change neither the frames nor anything of the reader. -/
theorem Counted.same {w w' : World} {i : Fin 16} (c : Counted w i) (s : SameLaps w w')
    (hpos : w'.ring.readpos i = w.ring.readpos i)
    (hmark : w'.ring.overwriteread i = w.ring.overwriteread i)
    (hcount : w.ring.overwriteread i = false → w'.ring.readcount i = w.ring.readcount i)
    (hwrite : w'.ring.writecount = w.ring.writecount) (hlast : w'.hist.last i = w.hist.last i) :
    Counted w' i := by
  have hdue : w'.due i = w.due i := by simp only [World.due, hlast, s.before]
  refine ⟨?_, ?_, ?_, ?_⟩
  · rw [hlast, s.before, s.log]
    exact c.seen
  · rw [hmark, hpos, hdue, s.log]
    exact c.readpos
  · intro hm
    rw [hmark] at hm
    rw [hcount hm, hdue]
    exact c.readcount hm
  · rw [hwrite, s.log]
    exact c.writecount

theorem Counted.write {w : World} {i : Fin 16} (c : Counted w i) (f : Frame) (t : Tick) :
    Counted (w.write f t) i := by
  have hlen : (w.write f t).hist.log.length = w.hist.log.length + 1 := length_snoc _ _
  have hdue : (w.write f t).due i = w.due i := rfl
  have hle := c.due_le
  have hmark (hm : (w.write f t).ring.overwriteread i = false) :
      w.ring.overwriteread i = false := by
    change (WrtieBuffer w.ring f t).overwriteread i = false at hm
    rw [WrtieBuffer_overwriteread] at hm
    split at hm
    · cases hm
    · exact hm
  refine ⟨fun j hj => ?_, fun hm => ?_, fun hm => ?_, ?_⟩
  · have := c.seen j hj
    change j < w.hist.before + _
    omega
  · rw [show (w.write f t).ring.readpos i = w.ring.readpos i from
      congrFun (WrtieBuffer_readpos _ _ _) i, c.readpos (hmark hm), hdue]
    split
    · rfl
    · exact (endAt_snoc_lt _ _ (by omega)).symm
  · rw [show (w.write f t).ring.readcount i = w.ring.readcount i from
      congrFun (WrtieBuffer_readcount _ _ _) i]
    exact c.readcount (hmark hm)
  · rw [hlen]
    refine (WrtieBuffer_writecount _ _ _).trans ?_
    rw [c.writecount]
    unfold u32
    omega

theorem Counted.reset {w : World} {i : Fin 16} (c : Counted w i) : Counted w.reset i := by
  have hdue : w.reset.due i = 0 := by
    cases hl : w.hist.last i with
    | none => simp [World.due, World.reset, hl]
    | some j =>
      have := c.seen j hl
      simp only [World.due, World.reset, hl]
      omega
  refine ⟨fun j hj => ?_, fun _ => ?_, fun _ => ?_, rfl⟩
  · have := c.seen j hj
    change j < w.hist.before + w.hist.log.length + 0
    omega
  · rw [hdue]
    rfl
  · rw [hdue]
    rfl

theorem Sound.counted_read {w : World} (s : Sound w) {i j : Fin 16} (c : Counted w i) {fuel size : ℕ}
    (hc : j = i → ReadCounts w i size) {p' : Ring} {r : ReadResult}
    (h : ReadBuffer fuel w.ring j size = some (p', r)) : Counted ⟨p', w.hist.returned j r⟩ i := by
  have hs := SameLaps.of_read h
  have ho := ReadBuffer_onlyReader h
  by_cases hij : j = i
  · subst hij
    rcases s.read_outcome c (hc rfl) h with ⟨hpos, hmark, hcount, hno⟩ | hout
    · have hlast : (w.hist.returned j r).last j = w.hist.last j := by
        cases r with
        | success out => exact absurd rfl (hno out)
        | noBuffer => rfl
        | tooSmall => rfl
      exact c.same hs hpos hmark hcount ho.writecount hlast
    · obtain ⟨k, x, hx, hk, rfl, hmark, hpos, hcount⟩ := hout
      have hlast := s.layout.returned_last (i := j) hx hk
      have hlt := s.layout.standing_lt hk
      have hdue : World.due ⟨p', w.hist.returned j (.success (outOf x.pos x.frame))⟩ j = k + 1 :=
        due_eq_succ hlast
      refine ⟨fun l hl => ?_, fun _ => ?_, fun _ => ?_, ?_⟩
      · simp only [hlast] at hl
        obtain rfl : w.hist.before + k = l := by simpa using hl
        change _ < w.hist.before + w.hist.log.length
        omega
      · rw [hdue, if_neg (by omega), Nat.add_sub_cancel]
        exact hpos
      · rw [hdue]
        exact hcount
      · exact ho.writecount.trans c.writecount
  · have hji : i ≠ j := fun he => hij he.symm
    exact c.same hs (ho.readpos i hji) (ho.overwriteread i hji)
      (fun _ => ReadBuffer_readcount_of_ne hji h) ho.writecount
      (w.hist.returned_last_of_ne hji r)

theorem Counted.getIndex {w : World} {i : Fin 16} (c : Counted w i) : Counted w.getIndex i := by
  unfold World.getIndex GetReadIndex
  cases (List.finRange 16).find? fun i => !w.ring.isuse i with
  | none => exact c
  | some j =>
    by_cases hij : i = j
    · subst hij
      refine ⟨fun l hl => ?_, fun hm => ?_, fun hm => ?_, c.writecount⟩
      · simp at hl
      · simp at hm
      · simp at hm
    · exact c.same ⟨rfl, rfl, rfl, rfl, rfl, rfl, rfl, .refl _ _ _⟩ rfl
        (Function.update_of_ne hij _ _) (fun _ => rfl) rfl (Function.update_of_ne hij _ _)

theorem Sound.counted_step {fuel : ℕ} {w w' : World} {i : Fin 16} {op : Op} (s : Sound w)
    (c : Counted w i) (hop : Counts i w op) (h : w.step fuel op = some w') : Counted w' i := by
  have unchanged : ∀ p : Ring, SameLaps w ⟨p, w.hist⟩ → p.readpos = w.ring.readpos →
      p.overwriteread = w.ring.overwriteread → p.readcount = w.ring.readcount →
      p.writecount = w.ring.writecount → Counted ⟨p, w.hist⟩ i := by
    intro p hs hpos hmark hcount hwrite
    exact c.same hs (congrFun hpos i) (congrFun hmark i) (fun _ => congrFun hcount i) hwrite rfl
  cases op with
  | write f t =>
    obtain rfl := Option.some.inj h
    exact c.write f t
  | read j size =>
    obtain ⟨⟨p', r⟩, hr, rfl⟩ := Option.map_eq_some_iff.mp h
    exact s.counted_read c hop hr
  | reset =>
    obtain rfl := Option.some.inj h
    exact c.reset
  | getIndex =>
    obtain rfl := Option.some.inj h
    exact c.getIndex
  | unlock j =>
    obtain rfl := Option.some.inj h
    exact unchanged _ ⟨rfl, rfl, rfl, rfl, rfl, rfl, rfl, .refl _ _ _⟩ rfl rfl rfl rfl
  | release j =>
    obtain rfl := Option.some.inj h
    exact unchanged _ ⟨rfl, rfl, rfl, rfl, rfl, rfl, rfl, .refl _ _ _⟩ rfl rfl rfl rfl
  | outside m =>
    obtain rfl := Option.some.inj h
    refine unchanged _ ⟨rfl, rfl, rfl, rfl, rfl, rfl, rfl, ?_⟩ rfl rfl rfl rfl
    intro a _ ha
    exact if_pos (by omega)

/-- In every run whose steps meet the condition, after each successful read of
reader `i` the counters differ by what was written after the frame returned. -/
theorem backlog_counts {fuel size : ℕ} (hsize : size < 2 ^ 31) {m : Memory} {ops : List Op}
    {w : World} {i : Fin 16} (run : Run (World.step fuel) (Counts i) (World.start size m) ops w)
    {pReadsize : ℕ} (hc : ReadCounts w i pReadsize) {p' : Ring} {out : ReadOut}
    (h : ReadBuffer fuel w.ring i pReadsize = some (p', .success out)) :
    BacklogAfter w i p' out := by
  obtain ⟨s, c⟩ : Sound w ∧ Counted w i := by
    refine run.invariant (fun w => Sound w ∧ Counted w i) ?_ ⟨.start hsize m, ?_⟩
    · rintro w op w' ⟨s, c⟩ hop hstep
      exact ⟨s.step hop.fits hstep, s.counted_step c hop hstep⟩
    · exact ⟨(fun j hj => nomatch hj), fun _ => rfl, fun _ => rfl, rfl⟩
  rcases s.read_outcome c hc h with ⟨-, -, -, hno⟩ | ⟨k, x, hx, hk, hr, -, -, hcount⟩
  · exact absurd rfl (hno out)
  · obtain rfl : out = outOf x.pos x.frame := by simpa using hr
    refine ⟨k, x, hx, s.layout.intact_of_standing hk, rfl, ?_⟩
    have hlt := s.layout.standing_lt hk
    have hbehind := s.layout.behind_lt hk
    rw [GetWriteCount, GetReadCount, hcount, (ReadBuffer_onlyReader h).writecount, c.writecount]
    unfold u32
    omega

theorem backlog_counts_second_frame :
    ∃ p', ReadBuffer 4 pFrameWritten.ring 0 200 =
        some (p', .success (outOf 196 (filled 0 MB_FT_PFRAME 1))) ∧
      BacklogAfter pFrameWritten 0 p' (outOf 196 (filled 0 MB_FT_PFRAME 1)) := by
  have hread : (ReadBuffer 4 pFrameWritten.ring 0 200).map (fun r => r.2) =
      some (.success (outOf 196 (filled 0 MB_FT_PFRAME 1))) := by decide +kernel
  obtain ⟨⟨p', r⟩, hp, rfl⟩ := Option.map_eq_some_iff.mp hread
  refine ⟨p', hp, ?_⟩
  have run : Run (World.step 4) (Counts 0) (World.start 400 fun _ => 0)
      [.getIndex, .write (filled 0 MB_FT_IFRAME 0) still, .read 0 200,
        .write (filled 0 MB_FT_PFRAME 1) still] pFrameWritten := by
    refine .cons trivial rfl (.cons ?_ rfl (.cons ?_ (t := keyRead) ?_ (.cons ?_ rfl (.nil _))))
    · change _ ≤ 400
      decide +kernel
    · intro _ _
      refine ⟨fun hm => absurd hm (by decide +kernel),
        fun _ => ⟨.inl ⟨0, by decide +kernel, by decide +kernel⟩, fun k _ hk _ => ?_⟩⟩
      have hlen : keyWritten.hist.log.length = 1 := by decide +kernel
      have hlt := keyAt_lt hk
      change k < keyWritten.hist.log.length at hlt
      obtain rfl : k = 0 := by omega
      decide +kernel
    · have hsome : (keyWritten.step 4 (.read 0 200)).isSome = true := by decide +kernel
      obtain ⟨v, hv⟩ := Option.isSome_iff_exists.mp hsome
      rw [keyRead, hv, Option.getD_some]
      exact hv
    · change _ ≤ keyRead.ring.bufsize
      decide +kernel
  refine backlog_counts (by omega) run (fun _ => ⟨fun _ => ⟨by decide +kernel, fun hl => ?_⟩,
    fun hm => absurd hm (by decide +kernel)⟩) hp
  exact absurd hl (by decide +kernel)

/-- A reader that is lapped without being marked counts the frames it never saw as waiting. -/
theorem backlog_not_counted : ¬ ∀ (fuel size : ℕ) (m : Memory) (ops : List Op) (w : World)
    (i : Fin 16) (pReadsize : ℕ) (p' : Ring) (out : ReadOut), size < 2 ^ 31 →
    Run (World.step fuel) Fits (World.start size m) ops w → w.ring.isuse i = true →
    ReadBuffer fuel w.ring i pReadsize = some (p', .success out) → BacklogAfter w i p' out := by
  intro claim
  obtain ⟨w, run, hi, hlog, hread⟩ :
      ∃ w, Run (World.step 4) Fits (World.start 400 fun _ => 0)
        [.getIndex, .write (filled 0 MB_FT_IFRAME 0) still, .read 0 200,
          .write (filled 0 MB_FT_PFRAME 1) still, .write (filled 0 MB_FT_PFRAME 2) still,
          .write (filled 0 MB_FT_PFRAME 3) still] w ∧
        (w.ring.isuse 0 = true ∧
          w.hist.log.map (fun x => x.frame.pTimestamp.toNat) = [0, 1, 2, 3] ∧
          (ReadBuffer 4 w.ring 0 200).map (fun r => (r.2, GetWriteCount r.1, GetReadCount r.1 0)) =
            some (.success (outOf 196 (filled 0 MB_FT_PFRAME 3)), 4, 2)) :=
    exists_run (by decide +kernel)
  obtain ⟨⟨p', r⟩, hp, hr⟩ := Option.map_eq_some_iff.mp hread
  simp only [Prod.mk.injEq] at hr
  obtain ⟨rfl, hwrite, hcount⟩ := hr
  obtain ⟨k, x, hx, -, hout, hdiff⟩ := claim 4 400 _ _ w 0 200 p' _ (by omega) run hi hp
  have hlen : w.hist.log.length = 4 := by simpa using congrArg List.length hlog
  have hlt := (List.getElem?_eq_some_iff.mp hx).1
  rw [hwrite, hcount, hlen] at hdiff
  obtain rfl : k = 1 := by
    unfold u32 at hdiff
    omega
  have htime : x.frame.pTimestamp.toNat = 3 := (congrArg ReadOut.pTimestamp hout).symm
  have hat : (w.hist.log.map fun x => x.frame.pTimestamp.toNat)[1]? =
      some x.frame.pTimestamp.toNat := by simp [hx]
  rw [hlog, htime] at hat
  simp at hat

end Jagles.MediaBuffer
