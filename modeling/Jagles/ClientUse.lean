import Jagles.ClientChanges
import Jagles.ReferenceCounts

set_option autoImplicit false
set_option linter.dupNamespace false

/-!
# The use count of a shared connector

`mUse` counts the clients that point to a connector as long as no client takes a
connector while it has one. `ReConnect` after a failed `openChannel` does that.
-/
namespace Jagles.Clients
open Connector GuardedRuns ReferenceCounts

variable {C : Type*} [DecidableEq C]

/-- The condition on one step: `ReConnect` starts without a connector. -/
def StartsFree (w : Network C) : Act C → Prop
  | .run c _ => w.next c = some .newConnector → w.held c = none
  | _ => True

omit [DecidableEq C] in
theorem UpdateUse_true {p : JAP2PConnector2 C} (h : 0 ≤ p.mUse) :
    (p.UpdateUse true).mUse = p.mUse + 1 := by
  simp only [JAP2PConnector2.UpdateUse, if_true]
  omega

omit [DecidableEq C] in
theorem UpdateUse_false {p : JAP2PConnector2 C} (h : 1 < p.mUse) :
    (p.UpdateUse false).mUse = p.mUse - 1 := by
  simp only [JAP2PConnector2.UpdateUse, Bool.false_eq_true, if_false]
  omega

section Count
variable [Fintype C]

def users (w : Network C) (k : ℕ) : Finset C :=
  Finset.univ.filter fun c => (w.client c).mP2p = some (.KCP_P2P k)

omit [DecidableEq C] in
theorem users_eq (w : Network C) (k : ℕ) : users w k = holders w.held k := by
  ext c
  simp [users, held_eq_some]

def UseCounted (w : Network C) : Prop := Counted JAP2PConnector2.mUse w.held w.connector

theorem UseCounted.change {w w' : Network C} {c : C} {i : Instr} (h : UseCounted w)
    (hfree : i = .newConnector → w.held c = none) (hc : Change c i w w') : UseCounted w' := by
  unfold UseCounted at *
  cases hc with
  | stay hheld hcon =>
    rw [hheld, hcon]
    exact h
  | call hk huse hctx hheld hcon =>
    rw [hheld, hcon]
    exact h.modify hk huse
  | leave hi hheldc hk huse hheld hcon =>
    rw [hheld, hcon]
    exact h.leave hheldc hk huse (UpdateUse_false huse)
  | close hi hheldc hk huse hheld hcon =>
    rw [hheld, hcon]
    exact h.close hheldc hk huse
  | dangling hheldc hk hheld hcon =>
    -- a client points to live connectors only
    have halive := (h.alive _).mpr ⟨c, mem_holders.mpr hheldc⟩
    rw [hk] at halive
    cases halive
  | join hi hk hfound hheld hcon =>
    rw [hheld, hcon]
    have hcount := h.count _ _ hk
    exact h.join (hfree hi) hk (UpdateUse_true (by omega))
  | create hi hk hfound huse hctx hheld hcon =>
    rw [hheld, hcon]
    exact h.create (hfree hi) hk huse
  | library1 hi hfound hheld hcon =>
    have hsame : Function.update w.held c none = w.held := by
      rw [← hfree hi]
      exact Function.update_eq_self c w.held
    rw [hheld, hcon, hsame]
    exact h

theorem UseCounted.step {w w' : Network C} {l : Act C} (h : UseCounted w)
    (hfree : StartsFree w l) (hs : w.step l = some w') : UseCounted w' := by
  rcases step_cases hs with
    ⟨c, a, i, rfl, hnext, hchange⟩ | ⟨hheld, hcon⟩ | ⟨k, p, -, hk, hheld, hcon⟩
  · apply h.change _ hchange
    rintro rfl
    exact hfree hnext
  · unfold UseCounted at *
    rw [hheld, hcon]
    exact h
  · unfold UseCounted at *
    rw [hheld, hcon]
    exact h.modify hk rfl

omit [DecidableEq C] in
theorem UseCounted.start : UseCounted (Network.start : Network C) := by
  constructor
  · intro k p hk
    cases hk
  · intro k
    simp [Network.start, Network.held, JAConnect.init, address, holders]

theorem covered_change {w w' : Network C} {c : C} {i : Instr}
    (h : Covered JAP2PConnector2.mUse w.held w.connector) (hc : Change c i w w') :
    Covered JAP2PConnector2.mUse w'.held w'.connector := by
  cases hc with
  | stay hheld hcon =>
    rw [hheld, hcon]
    exact h
  | call hk huse hctx hheld hcon =>
    rw [hheld, hcon]
    exact h.modify hk huse
  | leave hi hheldc hk huse hheld hcon =>
    rw [hheld, hcon]
    exact h.leave hheldc hk (UpdateUse_false huse)
  | close hi hheldc hk huse hheld hcon =>
    rw [hheld, hcon]
    exact h.close hheldc hk huse
  | dangling hheldc hk hheld hcon =>
    have halive := h.alive _ ⟨c, mem_holders.mpr hheldc⟩
    rw [hk] at halive
    cases halive
  | join hi hk hfound hheld hcon =>
    rw [hheld, hcon]
    have hcount := h.count _ _ hk
    exact h.join hk (UpdateUse_true (by omega))
  | create hi hk hfound huse hctx hheld hcon =>
    rw [hheld, hcon]
    exact h.create hk huse
  | library1 hi hfound hheld hcon =>
    rw [hheld, hcon]
    exact h.drop

/-- Whatever the clients do, a connector is not deleted under a client that points to it:
`mUse` may only be too high. -/
theorem connector_not_freed_early {ls : List (Act C)} {w : Network C}
    (run : Run Network.step (fun _ _ => True) Network.start ls w) :
    (∀ k p, w.connector k = some p → (users w k).card ≤ p.mUse) ∧
      ∀ c k, (w.client c).mP2p = some (.KCP_P2P k) → (w.connector k).isSome = true := by
  have h : Covered JAP2PConnector2.mUse w.held w.connector := by
    refine run.invariant (fun w => Covered JAP2PConnector2.mUse w.held w.connector) ?_ ?_
    · intro w l w' h _ hs
      rcases step_cases hs with
        ⟨c, a, i, rfl, hnext, hchange⟩ | ⟨hheld, hcon⟩ | ⟨k, p, -, hk, hheld, hcon⟩
      · exact covered_change h hchange
      · rw [hheld, hcon]
        exact h
      · rw [hheld, hcon]
        exact h.modify hk rfl
    · constructor
      · intro k p hk
        cases hk
      · intro k hk
        simp [Network.start, Network.held, JAConnect.init, address, holders] at hk
  refine ⟨?_, ?_⟩
  · intro k p hk
    rw [users_eq]
    exact h.count k p hk
  · intro c k hc
    exact h.alive k ⟨c, mem_holders.mpr (held_eq_some.mpr hc)⟩

theorem destroyed_iff {w : Network C} (h : UseCounted w) {c : C} {k : ℕ}
    (hc : (w.client c).mP2p = some (.KCP_P2P k)) :
    (w.DestroyConnector c).connector k = none ↔ users w k = {c} := by
  have hheld := held_eq_some.mpr hc
  have halive := (h.alive k).mpr ⟨c, mem_holders.mpr hheld⟩
  obtain ⟨p, hk⟩ := Option.isSome_iff_exists.mp halive
  rw [users_eq, ← h.last_iff hheld hk]
  unfold Network.DestroyConnector
  simp only [hc, hk]
  split
  · rename_i huse
    simp [not_le.mpr huse]
  · rename_i huse
    simp [not_lt.mp huse]

/-- In every run in which `ReConnect` starts free, `mUse` is the number of clients of a
connector, and a connector lives exactly as long as it has one. -/
theorem use_counted {ls : List (Act C)} {w : Network C}
    (run : Run Network.step StartsFree Network.start ls w) :
    (∀ k p, w.connector k = some p → p.mUse = (users w k).card) ∧
      (∀ k, (w.connector k).isSome = true ↔ (users w k).Nonempty) ∧
      ∀ c k, (w.client c).mP2p = some (.KCP_P2P k) →
        ((w.DestroyConnector c).connector k = none ↔ users w k = {c}) := by
  have h : UseCounted w :=
    run.invariant _ (fun _ _ _ h hfree hs => h.step hfree hs) UseCounted.start
  refine ⟨?_, ?_, ?_⟩
  · intro k p hk
    rw [users_eq]
    exact h.count k p hk
  · intro k
    rw [users_eq]
    exact h.alive k
  · exact fun c k hc => destroyed_iff h hc

end Count

instance (w : Network C) : (l : Act C) → Decidable (StartsFree w l)
  | .run c _ => inferInstanceAs (Decidable (w.next c = some .newConnector → w.held c = none))
  | .take .. | .OnKDisconnect _ => inferInstanceAs (Decidable True)

theorem use_counted_two_clients : ∃ w : Network Bool,
    Run Network.step StartsFree Network.start
      (connects false 0 ++ connects true 1 ++
        (.take false .CMD_DISCONNECT :: List.replicate 3 (.run false (reply 0 1)))) w ∧
    (w.connector 0).map JAP2PConnector2.mUse = some 1 ∧ users w 0 = {true} := by
  have hrun : ∃ w : Network Bool,
      Run Network.step StartsFree Network.start
        (connects false 0 ++ connects true 1 ++
          (.take false .CMD_DISCONNECT :: List.replicate 3 (.run false (reply 0 1)))) w ∧
      (w.connector 0).isSome = true ∧ users w 0 = {true} := exists_run (by decide +kernel)
  obtain ⟨w, run, halive, husers⟩ := hrun
  obtain ⟨p, hk⟩ := Option.isSome_iff_exists.mp halive
  have hcount := (use_counted run).1 0 p hk
  refine ⟨w, run, ?_, husers⟩
  rw [hk, Option.map_some, hcount, husers]
  rfl

def reopens (c : Bool) (address : ℕ) : List (Act Bool) :=
  [.take c (.CMD_OPENCHANNEL 0), .run c (reply (-1) address)] ++
    List.replicate 7 (.run c (reply 0 address))

/-- After a failed `openChannel` the only client of a connector is counted twice, and
the connector stays when the client has left. -/
theorem use_not_counted :
    (∃ w : Network Bool, Run Network.step (fun _ _ => True) Network.start
      (connects false 0 ++ reopens false 1) w ∧
      (w.connector 0).map JAP2PConnector2.mUse = some 2 ∧ (users w 0).card = 1) ∧
    ∃ w : Network Bool, Run Network.step (fun _ _ => True) Network.start
      (connects false 0 ++ reopens false 1 ++
        (.take false .CMD_DISCONNECT :: List.replicate 3 (.run false (reply 0 1)))) w ∧
      (w.connector 0).map JAP2PConnector2.mUse = some 1 ∧ users w 0 = ∅ := by
  constructor
  · apply exists_run
    decide +kernel
  · apply exists_run
    decide +kernel

end Jagles.Clients
