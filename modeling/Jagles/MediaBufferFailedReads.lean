import Jagles.MediaBufferGapFree

set_option autoImplicit false
set_option linter.dupNamespace false

/-!
# Failed reads

A read that gives back no frame leaves its reader as it was only when it had
nothing to search for.
-/
namespace Jagles.MediaBuffer
open ByteMemory GuardedRuns LinkChains

/-- The reader is as it was, and calling again does what calling then would have done. -/
structure Untouched (p p' : Ring) (i : Fin 16) : Prop where
  readpos : p'.readpos i = p.readpos i
  readcount : p'.readcount i = p.readcount i
  overwriteread : p'.overwriteread i = p.overwriteread i
  again : ∀ fuel pReadsize q out, ReadBuffer fuel p i pReadsize = some (q, .success out) →
    ∃ q', ReadBuffer fuel p' i pReadsize = some (q', .success out)

/-- No search is made, or the links lead to no key frame and the reader already
has the count that the search leaves: one for each link less than the newest frame has. -/
def NothingToLose (p : Ring) (i : Fin 16) : Prop :=
  p.overwriteread i = false ∨ p.readpos i = p.writepos ∨
    ∃ n e, Chain (link p.buf) (searchStart p) n e ∧ link p.buf e = none ∧
      ¬ (e < 2 ^ 31 ∧ keyHdr p.buf e) ∧ p.readcount i = pred32^[n] (pred32 p.writecount)

theorem deliver_fails {p p' : Ring} {i : Fin 16} {pos size : ℕ} {r : ReadResult}
    (h : deliver p i pos size = (p', r)) (hr : ∀ out, r ≠ .success out) : p' = p ∧ r = .tooSmall := by
  simp only [deliver] at h
  split at h
  · obtain ⟨rfl, rfl⟩ := Prod.mk.inj h
    exact ⟨rfl, rfl⟩
  · obtain ⟨-, rfl⟩ := Prod.mk.inj h
    exact absurd rfl (hr _)

/-- What is delivered depends on the bytes alone. -/
theorem deliver_result {p q : Ring} (h : q.buf = p.buf) (i : Fin 16) (pos size : ℕ) :
    (deliver q i pos size).2 = (deliver p i pos size).2 := by
  simp only [deliver, h]
  by_cases hs : size < (hdrAt p.buf (landing p.buf pos)).buflen
  · rw [if_pos hs, if_pos hs]
  · rw [if_neg hs, if_neg hs]

/-- The lock count plays no part in what a read returns. -/
theorem ReadBuffer_lockRead (p : Ring) (i : Fin 16) (fuel size : ℕ) :
    (ReadBuffer fuel (lockRead p i) i size).map Prod.snd =
      (ReadBuffer fuel p i size).map Prod.snd := by
  have hbuf : (lockRead p i).buf = p.buf := rfl
  by_cases hne : p.readpos i = p.writepos
  · rw [ReadBuffer_empty fuel size hne, ReadBuffer_empty (p := lockRead p i) fuel size hne]
    rfl
  rw [ReadBuffer_locked fuel size hne, ReadBuffer_locked (p := lockRead p i) fuel size hne]
  cases hm : p.overwriteread i with
  | false =>
    rw [readLocked_unmarked fuel size hm, readLocked_unmarked (p := lockRead p i) fuel size hm]
    have hb : (lockRead (lockRead p i) i).buf = (lockRead p i).buf := rfl
    exact congrArg some (deliver_result hb i (p.readpos i) size)
  | true =>
    cases hs : keySearch p.buf fuel (searchStart p) (pred32 p.writecount) with
    | none =>
      rw [readLocked_running fuel size hm hs,
        readLocked_running (p := lockRead p i) fuel size hm hs]
    | some found =>
      cases found with
      | missing count =>
        rw [readLocked_missing fuel size hm hs,
          readLocked_missing (p := lockRead p i) fuel size hm hs]
        rfl
      | found pos count =>
        rw [readLocked_found fuel size hm hs,
          readLocked_found (p := lockRead p i) fuel size hm hs]
        have hb : (unmark (lockRead p i) i count).buf = (unmark p i count).buf := rfl
        exact congrArg some (deliver_result hb i pos size)

theorem Untouched.of_same {p p' : Ring} {i : Fin 16} (h : p' = p ∨ p' = lockRead p i) :
    Untouched p p' i := by
  rcases h with rfl | rfl
  · exact ⟨rfl, rfl, rfl, fun _ _ q _ hread => ⟨q, hread⟩⟩
  · refine ⟨rfl, rfl, rfl, fun fuel size q out hread => ?_⟩
    have same := ReadBuffer_lockRead p i fuel size
    rw [hread] at same
    obtain ⟨⟨q', r⟩, hq, hr⟩ := Option.map_eq_some_iff.mp same
    obtain rfl : r = .success out := hr
    exact ⟨q', hq⟩

/-- A failed read changes nothing exactly when it had nothing to search for. -/
theorem failed_read_untouched_iff (fuel pReadsize : ℕ) (p p' : Ring) (i : Fin 16)
    (r : ReadResult) (h : ReadBuffer fuel p i pReadsize = some (p', r))
    (failed : ∀ out, r ≠ .success out) : Untouched p p' i ↔ NothingToLose p i := by
  rcases ReadBuffer_cases h with ⟨hw, hp, -⟩ | ⟨hne, hl⟩
  · exact ⟨fun _ => .inr (.inl hw), fun _ => .of_same (.inl hp)⟩
  rcases readLocked_cases hl with ⟨hm, hd⟩ | ⟨hm, n, e, hc, he, hend⟩
  · obtain ⟨hp, -⟩ := deliver_fails hd failed
    exact ⟨fun _ => .inl hm, fun _ => .of_same (.inr hp)⟩
  -- the links have one end, so the condition speaks of the end the search came to
  have hsame (hn : NothingToLose p i) : ¬ (e < 2 ^ 31 ∧ keyHdr p.buf e) ∧
      p.readcount i = pred32^[n] (pred32 p.writecount) := by
    rcases hn with hu | hw | ⟨k, e', hc', he', hk', hcount⟩
    · rw [hm] at hu
      cases hu
    · exact absurd hw hne
    · obtain ⟨rfl, rfl⟩ := hc.end_unique he hc' he'
      exact ⟨hk', hcount⟩
  rcases hend with ⟨hlow, hkey, hd⟩ | ⟨hk, -, rfl⟩
  · obtain ⟨rfl, -⟩ := deliver_fails hd failed
    refine ⟨fun u => ?_, fun hn => absurd ⟨hlow, hkey⟩ (hsame hn).1⟩
    -- the search has cleared the mark
    have hmark := u.overwriteread
    rw [hm] at hmark
    simp [unmark] at hmark
  · refine ⟨fun u => ?_, fun hn => ?_⟩
    · have hcount := u.readcount
      simp only [Function.update_self] at hcount
      exact .inr (.inr ⟨n, e, hc, he, hk, hcount.symm⟩)
    · refine .of_same (.inr ?_)
      rw [← (hsame hn).2, Function.update_eq_self]
      rfl

theorem failed_read_untouched_iff_second_frame :
    ∃ p', ReadBuffer 4 pFrameWritten.ring 0 100 = some (p', .tooSmall) ∧
      (Untouched pFrameWritten.ring p' 0 ↔ NothingToLose pFrameWritten.ring 0) := by
  have hread : (ReadBuffer 4 pFrameWritten.ring 0 100).map (fun r => r.2) =
      some .tooSmall := by decide +kernel
  obtain ⟨⟨p', r⟩, hp, rfl⟩ := Option.map_eq_some_iff.mp hread
  exact ⟨p', hp, failed_read_untouched_iff 4 100 _ p' 0 .tooSmall hp (by simp)⟩

/-- A key frame that does not fit the caller's buffer is found and then lost. -/
theorem failed_read_not_untouched : ¬ ∀ (fuel size : ℕ) (m : Memory) (ops : List Op) (w : World)
    (i : Fin 16) (pReadsize : ℕ) (p' : Ring) (r : ReadResult), size < 2 ^ 31 →
    Run (World.step fuel) Fits (World.start size m) ops w → w.ring.isuse i = true →
    ReadBuffer fuel w.ring i pReadsize = some (p', r) → (∀ out, r ≠ .success out) →
    Untouched w.ring p' i := by
  intro claim
  obtain ⟨w, run, hi, hmark, hread⟩ :
      ∃ w, Run (World.step 4) Fits (World.start 400 fun _ => 0)
        [.getIndex, .write (filled 0 MB_FT_IFRAME 0) still] w ∧
        (w.ring.isuse 0 = true ∧ w.ring.overwriteread 0 = true ∧
          (ReadBuffer 4 w.ring 0 100).map (fun r => (r.2, r.1.overwriteread 0)) =
            some (.tooSmall, false)) :=
    exists_run (by decide +kernel)
  obtain ⟨⟨p', r⟩, hp, hr⟩ := Option.map_eq_some_iff.mp hread
  obtain ⟨rfl, hclear⟩ := Prod.mk.inj hr
  have same := (claim 4 400 _ _ w 0 100 p' .tooSmall (by omega) run hi hp (by simp)).overwriteread
  rw [hclear, hmark] at same
  cases same

end Jagles.MediaBuffer
