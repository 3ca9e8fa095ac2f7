import Jagles.ClientChanges

set_option autoImplicit false
set_option linter.dupNamespace false

/-!
# Callbacks go to clients that are still there

An entry of a context table is a pointer to a client. `DestroyConnector` on a shared
connector takes no entry out, so the entries are good only as long as a client that
leaves a shared connector has none.
-/
namespace Jagles.Clients
open Connector GuardedRuns

variable {C : Type*} [DecidableEq C]

def Unlisted (c : C) (p : JAP2PConnector2 C) : Prop := ∀ e ∈ p._ctx, e.ctx ≠ c

instance (c : C) (p : JAP2PConnector2 C) : Decidable (Unlisted c p) :=
  inferInstanceAs (Decidable (∀ e ∈ p._ctx, e.ctx ≠ c))

instance (j : JAConnect) (i : Instr) : Decidable (Leaves j i) :=
  inferInstanceAs (Decidable (i = .useLibrary1 ∨ i = .release ∧ j.mHandle ≠ 0))

/-- The condition on one step: a client that leaves a connector which stays, or takes
another one in its place, is not in its table. -/
def LeavesUnlisted (w : Network C) : Act C → Prop
  | .run c _ => ∀ k ∈ w.held c, ∀ i ∈ w.next c, ∀ p ∈ w.connector k,
    (Leaves (w.client c) i → 1 < p.mUse → Unlisted c p) ∧
      (i = .newConnector → w.finds c ≠ some k → Unlisted c p)
  | _ => True

instance (w : Network C) : (l : Act C) → Decidable (LeavesUnlisted w l)
  | .run c _ => inferInstanceAs (Decidable (∀ k ∈ w.held c, ∀ i ∈ w.next c, ∀ p ∈ w.connector k,
    (Leaves (w.client c) i → 1 < p.mUse → Unlisted c p) ∧
      (i = .newConnector → w.finds c ≠ some k → Unlisted c p)))
  | .take .. | .OnKDisconnect _ => inferInstanceAs (Decidable True)

/-- Every entry is of a client that uses the connector. -/
def Registered (w : Network C) : Prop :=
  ∀ k p, w.connector k = some p → ∀ e ∈ p._ctx, w.held e.ctx = some k

section Registered
variable {w w' : Network C} {c : C} {k : ℕ}

omit [DecidableEq C] in
theorem Registered.unlisted (h : Registered w) {p : JAP2PConnector2 C}
    (hk : w.connector k = some p) (hc : w.held c ≠ some k) : Unlisted c p := by
  intro e he hctx
  apply hc
  rw [← hctx]
  exact h k p hk e he

omit [DecidableEq C] in
theorem Registered.move (h : Registered w) (hheld : ∀ x, x ≠ c → w'.held x = w.held x)
    (htable : ∀ k p, w'.connector k = some p → ∀ e ∈ p._ctx,
      w'.held e.ctx = some k ∨ ∃ q, w.connector k = some q ∧ e ∈ q._ctx ∧ e.ctx ≠ c) :
    Registered w' := by
  intro k p hk e he
  cases htable k p hk e he with
  | inl hnow => exact hnow
  | inr hold =>
    obtain ⟨q, hq, heq, hctx⟩ := hold
    rw [hheld e.ctx hctx]
    exact h k q hq e heq

theorem Registered.leave (h : Registered w) {r : Option ℕ} {x : Option (JAP2PConnector2 C)}
    (hc : w.held c = some k) (hheld : w'.held = Function.update w.held c r)
    (hcon : w'.connector = Function.update w.connector k x)
    (hx : ∀ q, x = some q → ∃ p, w.connector k = some p ∧ q._ctx = p._ctx ∧ Unlisted c p) :
    Registered w' := by
  apply h.move (c := c)
  · intro y hy
    rw [hheld, Function.update_of_ne hy]
  · intro j p hj e he
    rw [hcon] at hj
    by_cases hjk : j = k
    · subst hjk
      rw [Function.update_self] at hj
      obtain ⟨q, hq, hsame, hout⟩ := hx p hj
      rw [hsame] at he
      exact .inr ⟨q, hq, he, hout e he⟩
    · rw [Function.update_of_ne hjk] at hj
      have hother : w.held c ≠ some j := by
        rw [hc]
        exact fun heq => hjk (Option.some.inj heq).symm
      exact .inr ⟨p, hj, he, h.unlisted hj hother e he⟩

theorem Registered.take (h : Registered w) {q : JAP2PConnector2 C}
    (hheld : w'.held = Function.update w.held c (some k))
    (hcon : w'.connector = Function.update w.connector k (some q))
    (hq : ∀ e ∈ q._ctx, ∃ p, w.connector k = some p ∧ e ∈ p._ctx)
    (hout : ∀ j p, w.connector j = some p → j ≠ k → Unlisted c p) : Registered w' := by
  apply h.move (c := c)
  · intro y hy
    rw [hheld, Function.update_of_ne hy]
  · intro j p hj e he
    rw [hcon] at hj
    by_cases hjk : j = k
    · subst hjk
      rw [Function.update_self, Option.some.injEq] at hj
      subst hj
      obtain ⟨p, hp, hep⟩ := hq e he
      by_cases hctx : e.ctx = c
      · left
        rw [hheld, hctx, Function.update_self]
      · exact .inr ⟨p, hp, hep, hctx⟩
    · rw [Function.update_of_ne hjk] at hj
      exact .inr ⟨p, hj, he, hout j p hj hjk e he⟩

omit [DecidableEq C] in
theorem Registered.modify (h : Registered w) {p q : JAP2PConnector2 C}
    (hk : w.connector k = some p) (hq : ∀ e ∈ q._ctx, e ∈ p._ctx ∨ w.held e.ctx = some k)
    (hheld : w'.held = w.held) (hcon : w'.connector = Function.update w.connector k (some q)) :
    Registered w' := by
  intro j x hj e he
  rw [hcon] at hj
  rw [hheld]
  by_cases hjk : j = k
  · subst hjk
    rw [Function.update_self, Option.some.injEq] at hj
    subst hj
    cases hq e he with
    | inl hold => exact h j p hk e hold
    | inr hown => exact hown
  · rw [Function.update_of_ne hjk] at hj
    exact h j x hj e he

theorem Registered.change {i : Instr} {a : Reply} (h : Registered w)
    (hclean : LeavesUnlisted w (.run c a)) (hnext : w.next c = some i) (hc : Change c i w w') :
    Registered w' := by
  have hrenew : i = .newConnector → ∀ j p, w.connector j = some p → w.finds c ≠ some j →
      Unlisted c p := by
    intro hi j p hj hfinds
    by_cases hheld : w.held c = some j
    · exact (hclean j hheld i hnext p hj).2 hi hfinds
    · exact h.unlisted hj hheld
  cases hc with
  | stay hheld hcon =>
    unfold Registered
    rw [hheld, hcon]
    exact h
  | call hk huse hctx hheld hcon => exact h.modify hk hctx hheld hcon
  | @leave k p hi hheldc hk huse hheld hcon =>
    apply h.leave hheldc hheld hcon
    intro q hq
    obtain rfl := Option.some.inj hq
    exact ⟨p, hk, rfl, (hclean k hheldc i hnext p hk).1 hi huse⟩
  | close hi hheldc hk huse hheld hcon =>
    apply h.leave hheldc hheld hcon
    intro q hq
    cases hq
  | @dangling k hheldc hk hheld hcon =>
    -- the connector is gone, so no table has the client
    have hout : ∀ j p, w.connector j = some p → Unlisted c p := by
      intro j p hj
      apply h.unlisted hj
      rintro hheldj
      obtain rfl := Option.some.inj (hheldc.symm.trans hheldj)
      rw [hk] at hj
      cases hj
    apply h.move (c := c)
    · intro x hx
      cases hheld with
      | inl hsame => rw [hsame]
      | inr hnone => rw [hnone, Function.update_of_ne hx]
    · intro j p hj e he
      rw [hcon] at hj
      exact .inr ⟨p, hj, he, hout j p hj e he⟩
  | @join k p hi hk hfound hheld hcon =>
    apply h.take hheld hcon
    · exact fun e he => ⟨p, hk, he⟩
    · intro j q hj hjk
      apply hrenew hi j q hj
      rw [hfound]
      exact fun heq => hjk (Option.some.inj heq).symm
  | @create k q hi hk hfound huse hctx hheld hcon =>
    apply h.take hheld hcon
    · intro e he
      rw [hctx] at he
      cases he
    · intro j p hj _
      apply hrenew hi j p hj
      rw [hfound]
      exact fun heq => by cases heq
  | library1 hi hfound hheld hcon =>
    apply h.move (c := c)
    · intro x hx
      rw [hheld, Function.update_of_ne hx]
    · intro j p hj e he
      rw [hcon] at hj
      refine .inr ⟨p, hj, he, hrenew hi j p hj ?_ e he⟩
      rw [hfound]
      exact fun heq => by cases heq

theorem Registered.step {l : Act C} (h : Registered w) (hclean : LeavesUnlisted w l)
    (hs : w.step l = some w') : Registered w' := by
  rcases step_cases hs with
    ⟨c, a, i, rfl, hnext, hchange⟩ | ⟨hheld, hcon⟩ | ⟨k, p, -, hk, hheld, hcon⟩
  · exact h.change hclean hnext hchange
  · unfold Registered
    rw [hheld, hcon]
    exact h
  · refine h.modify hk ?_ hheld hcon
    exact fun e he => .inl he

end Registered

/-- In every run in which no listed client leaves, each entry is of a client that points
to the connector, and so each callback goes to one. -/
theorem callbacks_to_users {ls : List (Act C)} {w : Network C}
    (run : Run Network.step LeavesUnlisted Network.start ls w) {k : ℕ} {p : JAP2PConnector2 C}
    (hk : w.connector k = some p) :
    (∀ e ∈ p._ctx, (w.client e.ctx).mP2p = some (.KCP_P2P k)) ∧
      ∀ cb, ∀ x ∈ p.receivers cb, (w.client x).mP2p = some (.KCP_P2P k) := by
  have hstart : Registered (Network.start : Network C) := by
    intro j q hj
    cases hj
  have h : Registered w := run.invariant _ (fun _ _ _ h hclean hs => h.step hclean hs) hstart
  have hentry : ∀ e ∈ p._ctx, (w.client e.ctx).mP2p = some (.KCP_P2P k) := by
    intro e he
    exact held_eq_some.mp (h k p hk e he)
  refine ⟨hentry, ?_⟩
  intro cb x hx
  obtain ⟨e, he, rfl⟩ := JAP2PConnector2.receivers_mem hx
  exact hentry e he

theorem callbacks_to_users_second_leaves : ∃ w : Network Bool, ∃ p,
    Run Network.step LeavesUnlisted Network.start
      (connects false 0 ++ connects true 1 ++
        (.take true .CMD_DISCONNECT :: List.replicate 3 (.run true (reply 0 1)))) w ∧
    w.connector 0 = some p ∧ p.receivers .OnKLoginResult = [false] ∧
    (w.client false).mP2p = some (.KCP_P2P 0) := by
  have hrun : ∃ w : Network Bool,
      Run Network.step LeavesUnlisted Network.start
        (connects false 0 ++ connects true 1 ++
          (.take true .CMD_DISCONNECT :: List.replicate 3 (.run true (reply 0 1)))) w ∧
      (w.connector 0).map (fun p => p.receivers .OnKLoginResult) = some [false] :=
    exists_run (by decide +kernel)
  obtain ⟨w, run, hmap⟩ := hrun
  obtain ⟨p, hk, hreceivers⟩ := Option.map_eq_some_iff.mp hmap
  have husers := (callbacks_to_users run hk).2 .OnKLoginResult false
  rw [hreceivers] at husers
  exact ⟨w, p, run, hk, hreceivers, husers (List.mem_singleton.mpr rfl)⟩

/-- The first client leaves a connector that the second one uses: the callbacks still go
to the first. -/
theorem callbacks_to_former_user : ∃ w : Network Bool,
    Run Network.step (fun _ _ => True) Network.start
      (connects false 0 ++ connects true 1 ++
        (.take false .CMD_DISCONNECT :: List.replicate 3 (.run false (reply 0 1)))) w ∧
    (w.connector 0).map (fun p => p.receivers .OnKLoginResult) = some [false] ∧
    (w.client false).mP2p = none := by
  apply exists_run
  decide +kernel

end Jagles.Clients
