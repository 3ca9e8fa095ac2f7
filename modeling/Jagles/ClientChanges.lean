import Jagles.Clients

set_option autoImplicit false
set_option linter.dupNamespace false

/-!
# What one instruction does to the connectors

For the count and the context tables of the connectors only a few things can happen
in one step of a client. They are listed once in `Change`.
-/
namespace Jagles.Clients
open Connector

variable {C : Type*} [DecidableEq C]

def Leaves (j : JAConnect) (i : Instr) : Prop :=
  i = .useLibrary1 ∨ i = .release ∧ j.mHandle ≠ 0

/-- What the instruction `i` of the client `c` does. -/
inductive Change (c : C) (i : Instr) (w w' : Network C) : Prop where
  | stay (hheld : w'.held = w.held) (hcon : w'.connector = w.connector)
  | call {k : ℕ} {p q : JAP2PConnector2 C} (hk : w.connector k = some p) (huse : q.mUse = p.mUse)
      (hctx : ∀ e ∈ q._ctx, e ∈ p._ctx ∨ w.held e.ctx = some k) (hheld : w'.held = w.held)
      (hcon : w'.connector = Function.update w.connector k (some q))
  | leave {k : ℕ} {p : JAP2PConnector2 C} (hi : Leaves (w.client c) i) (hc : w.held c = some k)
      (hk : w.connector k = some p) (huse : 1 < p.mUse)
      (hheld : w'.held = Function.update w.held c none)
      (hcon : w'.connector = Function.update w.connector k (some (p.UpdateUse false)))
  | close {k : ℕ} {p : JAP2PConnector2 C} (hi : Leaves (w.client c) i) (hc : w.held c = some k)
      (hk : w.connector k = some p) (huse : p.mUse ≤ 1)
      (hheld : w'.held = Function.update w.held c none)
      (hcon : w'.connector = Function.update w.connector k none)
  | dangling {k : ℕ} (hc : w.held c = some k) (hk : w.connector k = none)
      (hheld : w'.held = w.held ∨ w'.held = Function.update w.held c none)
      (hcon : w'.connector = w.connector)
  | join {k : ℕ} {p : JAP2PConnector2 C} (hi : i = .newConnector) (hk : w.connector k = some p)
      (hfound : w.finds c = some k)
      (hheld : w'.held = Function.update w.held c (some k))
      (hcon : w'.connector = Function.update w.connector k (some (p.UpdateUse true)))
  | create {k : ℕ} {q : JAP2PConnector2 C} (hi : i = .newConnector) (hk : w.connector k = none)
      (hfound : w.finds c = none) (huse : q.mUse = 1) (hctx : q._ctx = [])
      (hheld : w'.held = Function.update w.held c (some k))
      (hcon : w'.connector = Function.update w.connector k (some q))
  | library1 (hi : i = .newConnector) (hfound : w.finds c = none)
      (hheld : w'.held = Function.update w.held c none) (hcon : w'.connector = w.connector)

theorem Change.congr {c : C} {i : Instr} {w w' w'' : Network C} (h : Change c i w w')
    (hheld' : w''.held = w'.held) (hcon' : w''.connector = w'.connector) : Change c i w w'' := by
  cases h with
  | stay hheld hcon => exact .stay (hheld'.trans hheld) (hcon'.trans hcon)
  | call hk huse hctx hheld hcon =>
    exact .call hk huse hctx (hheld'.trans hheld) (hcon'.trans hcon)
  | leave hi hc hk huse hheld hcon =>
    exact .leave hi hc hk huse (hheld'.trans hheld) (hcon'.trans hcon)
  | close hi hc hk huse hheld hcon =>
    exact .close hi hc hk huse (hheld'.trans hheld) (hcon'.trans hcon)
  | dangling hc hk hheld hcon =>
    rw [← hheld'] at hheld
    exact .dangling hc hk hheld (hcon'.trans hcon)
  | join hi hk hfound hheld hcon =>
    exact .join hi hk hfound (hheld'.trans hheld) (hcon'.trans hcon)
  | create hi hk hfound huse hctx hheld hcon =>
    exact .create hi hk hfound huse hctx (hheld'.trans hheld) (hcon'.trans hcon)
  | library1 hi hfound hheld hcon =>
    exact .library1 hi hfound (hheld'.trans hheld) (hcon'.trans hcon)

omit [DecidableEq C] in
theorem held_eq_some {w : Network C} {c : C} {k : ℕ} :
    w.held c = some k ↔ (w.client c).mP2p = some (.KCP_P2P k) := by
  unfold Network.held
  cases (w.client c).mP2p with
  | none => simp [address]
  | some r =>
    cases r with
    | UDX_P2P => simp [address]
    | KCP_P2P j => simp [address]

section Set
variable {w : Network C} {c : C} {f : JAConnect → JAConnect}

@[simp] theorem connector_set : (w.set c f).connector = w.connector := rfl

theorem held_set : (w.set c f).held =
    Function.update w.held c (address (f (w.client c)).mP2p) := by
  funext x
  by_cases hx : x = c
  · subst hx
    simp [Network.held, Network.set]
  · simp [Network.held, Network.set, hx]

theorem held_set_same (h : (f (w.client c)).mP2p = (w.client c).mP2p) :
    (w.set c f).held = w.held := by
  rw [held_set, h]
  exact Function.update_eq_self c w.held

theorem Change.of_set {i : Instr} (h : (f (w.client c)).mP2p = (w.client c).mP2p) :
    Change c i w (w.set c f) := .stay (held_set_same h) rfl

end Set

section Call
variable {α : Type*} {w : Network C} {c : C} {i : Instr}
  {f : JAP2PConnector2 C → JAP2PConnector2 C × α} {r : α} {g : JAConnect → JAConnect}

omit [DecidableEq C] in
theorem call_cases (w : Network C) (c : C) (f : JAP2PConnector2 C → JAP2PConnector2 C × α) (r : α) :
    w.call c f r = (w, r) ∨ ∃ k p, w.held c = some k ∧ w.connector k = some p ∧
      w.call c f r =
        ({ w with connector := Function.update w.connector k (some (f p).1) }, (f p).2) := by
  unfold Network.call
  split
  · rename_i k hk
    split
    · rename_i p hp
      exact .inr ⟨k, p, by rw [Network.held, hk]; rfl, hp, rfl⟩
    · exact .inl rfl
  · exact .inl rfl

theorem Change.of_call (huse : ∀ p, (f p).1.mUse = p.mUse)
    (hctx : ∀ p, ∀ e ∈ (f p).1._ctx, e ∈ p._ctx ∨ e.ctx = c) (g : α → JAConnect → JAConnect)
    (hg : ∀ r j, (g r j).mP2p = j.mP2p) :
    Change c i w ((w.call c f r).1.set c (g (w.call c f r).2)) := by
  cases call_cases w c f r with
  | inl hsame =>
    rw [hsame]
    exact .of_set (hg _ _)
  | inr hcall =>
    obtain ⟨k, p, hc, hk, heq⟩ := hcall
    rw [heq]
    refine .call hk (huse p) ?_ (held_set_same (hg _ _)) rfl
    intro e he
    cases hctx p e he with
    | inl hold => exact .inl hold
    | inr hown =>
      rw [hown]
      exact .inr hc

end Call

section Exec
variable (w : Network C) (c : C) (a : Reply)

theorem stopPlayback_change (i : Instr) : Change c i w (w.stopPlayback c a) := by
  unfold Network.stopPlayback
  refine Change.of_call ?_ ?_ (fun _ j => { j with mPlaybackHandle := 0 }) ?_
  · intro p
    rw [p.playBackStop_eq]
  · exact fun p e he => .inl (JAP2PConnector2.mem_playBackStop he)
  · exact fun _ _ => rfl

theorem DestroyConnector_change {i : Instr} (hi : Leaves (w.client c) i) :
    Change c i w (w.DestroyConnector c) ∧
      ((w.DestroyConnector c).held c = none ∨
        w.DestroyConnector c = w ∧ ∃ k, w.held c = some k ∧ w.connector k = none) := by
  unfold Network.DestroyConnector
  split
  · rename_i hp
    refine ⟨.stay rfl rfl, .inl ?_⟩
    rw [Network.held, hp]
    rfl
  · rename_i hp
    constructor
    · refine .stay ?_ rfl
      rw [held_set]
      apply Function.update_eq_iff.mpr
      refine ⟨?_, fun _ _ => rfl⟩
      rw [Network.held, hp]
      rfl
    · rw [held_set, Function.update_self]
      exact .inl rfl
  · rename_i k hp
    have hc : w.held c = some k := by
      rw [Network.held, hp]
      rfl
    split
    · rename_i hk
      exact ⟨.dangling hc hk (.inl rfl) rfl, .inr ⟨rfl, k, hc, hk⟩⟩
    · rename_i p hk
      split
      · rename_i huse
        refine ⟨.leave hi hc hk huse held_set rfl, .inl ?_⟩
        rw [held_set, Function.update_self]
        rfl
      · rename_i huse
        refine ⟨.close hi hc hk (not_lt.mp huse) held_set rfl, .inl ?_⟩
        rw [held_set, Function.update_self]
        rfl

theorem useLibrary1_change : Change c .useLibrary1 w (w.exec c a .useLibrary1) := by
  obtain ⟨hchange, hgone⟩ := DestroyConnector_change w c (i := .useLibrary1) (.inl rfl)
  cases hgone with
  | inl hnone =>
    refine hchange.congr ?_ rfl
    simp only [Network.exec]
    rw [held_set, ← Function.update_eq_self c (w.DestroyConnector c).held, Function.update_idem,
      hnone]
    rfl
  | inr hdangling =>
    obtain ⟨hsame, k, hc, hk⟩ := hdangling
    simp only [Network.exec, hsame]
    exact .dangling hc hk (.inr held_set) rfl

omit [DecidableEq C] in
theorem search_spec {t : Target} {k : ℕ} (h : w.search t = some k) :
    ∃ p, w.connector k = some p ∧ p.CompareConnectStr t.mDeviceID t.mIP t.mPort = true := by
  have hany := List.find?_some h
  obtain ⟨p, hp, hsame⟩ := (Option.any_eq_true _ _).mp hany
  exact ⟨p, hp, hsame⟩

theorem newConnector_change (haddr : w.connector a.address = none) :
    Change c .newConnector w (w.exec c a .newConnector) := by
  simp only [Network.exec]
  split
  · rename_i hlong
    exact .library1 rfl (if_pos hlong) held_set rfl
  · rename_i hshort
    have hfinds : w.finds c = w.search (w.client c).toTarget := if_neg hshort
    unfold Network.CreateConnector
    split
    · rename_i k hfound
      obtain ⟨p, hk, -⟩ := search_spec w hfound
      refine .join rfl hk (hfinds.trans hfound) held_set ?_
      rw [hk]
      rfl
    · rename_i hnone
      exact .create rfl haddr (hfinds.trans hnone) rfl rfl held_set rfl

theorem exec_change (i : Instr) (haddr : i = .newConnector → w.connector a.address = none) :
    Change c i w (w.exec c a i) := by
  cases i with
  | leaveConnected =>
    simp only [Network.exec]
    split
    · exact .of_set rfl
    · exact .stay rfl rfl
  | clearStates =>
    simp only [Network.exec]
    exact .of_set rfl
  | ParseConnectString t =>
    simp only [Network.exec]
    exact .of_set rfl
  | newConnector => exact newConnector_change w c a (haddr rfl)
  | createP2PHandle =>
    refine .of_call ?_ ?_ (fun h j => { j with mHandle := h }) (fun _ _ => rfl)
    · intro p
      rw [p.createP2PHandle_eq]
    · exact fun p e he => JAP2PConnector2.mem_createP2PHandle he
  | connect =>
    refine .of_call ?_ ?_ (fun r j => { j with ret := r }) (fun _ _ => rfl)
    · intro p
      rw [p.connect_eq]
    · intro p e he
      rw [p.connect_eq] at he
      exact .inl he
  | fallback =>
    simp only [Network.exec]
    split
    · exact .of_set rfl
    · exact .stay rfl rfl
  | useLibrary1 => exact useLibrary1_change w c a
  | loginP2P =>
    simp only [Network.exec]
    split
    · refine .of_call ?_ ?_ (fun r j => { j with ret := r }) (fun _ _ => rfl)
      · intro p
        rw [p.loginP2P_eq]
      · intro p e he
        rw [p.loginP2P_eq] at he
        exact .inl he
    · exact .stay rfl rfl
  | settle =>
    simp only [Network.exec]
    split
    · exact .of_set rfl
    · exact .of_set rfl
  | playBackStop =>
    simp only [Network.exec]
    split
    · exact stopPlayback_change w c a _
    · exact .stay rfl rfl
  | release =>
    simp only [Network.exec]
    split
    · rename_i hgo
      exact (DestroyConnector_change w c (.inr ⟨rfl, hgo.1⟩)).1
    · exact .stay rfl rfl
  | forget =>
    simp only [Network.exec]
    exact .of_set rfl
  | openChannel channelNo bOpen =>
    simp only [Network.exec]
    split
    · exact .of_set rfl
    · refine .of_call ?_ ?_ (fun r j => { j with ret := r }) (fun _ _ => rfl)
      · intro p
        rw [p.openChannel_eq]
      · exact fun p e he => JAP2PConnector2.mem_openChannel he
  | retry =>
    simp only [Network.exec]
    split
    · exact .of_set rfl
    · exact .stay rfl rfl
  | DoStartPlayback channelNo =>
    simp only [Network.exec]
    split
    · exact .stay rfl rfl
    · refine .of_call ?_ ?_ (fun r j => { j with mPlaybackHandle := r }) (fun _ _ => rfl)
      · intro p
        rw [p.playBackStart_eq]
      · exact fun p e he => JAP2PConnector2.mem_playBackStart he
  | DoStopPlayback =>
    simp only [Network.exec]
    split
    · exact stopPlayback_change w c a _
    · exact .stay rfl rfl

end Exec

theorem Change.of_rest {c : C} {i : Instr} {w w' : Network C} {rest : List Instr}
    (h : Change c i (w.set c fun j => { j with todo := rest }) w') : Change c i w w' := by
  have hheld₀ : (w.set c fun j => { j with todo := rest }).held = w.held := held_set_same rfl
  have hclient : (w.set c fun j => { j with todo := rest }).client c =
      { w.client c with todo := rest } := Function.update_self ..
  have hfinds : (w.set c fun j => { j with todo := rest }).finds c = w.finds c := by
    simp only [Network.finds, hclient]
    rfl
  cases h with
  | stay hheld hcon => exact .stay (hheld.trans hheld₀) hcon
  | call hk huse hctx hheld hcon =>
    rw [hheld₀] at hctx
    exact .call hk huse hctx (hheld.trans hheld₀) hcon
  | leave hi hc hk huse hheld hcon =>
    rw [hclient] at hi
    rw [hheld₀] at hc hheld
    exact .leave hi hc hk huse hheld hcon
  | close hi hc hk huse hheld hcon =>
    rw [hclient] at hi
    rw [hheld₀] at hc hheld
    exact .close hi hc hk huse hheld hcon
  | dangling hc hk hheld hcon =>
    rw [hheld₀] at hc hheld
    exact .dangling hc hk hheld hcon
  | join hi hk hfound hheld hcon =>
    rw [hheld₀] at hheld
    rw [hfinds] at hfound
    exact .join hi hk hfound hheld hcon
  | create hi hk hfound huse hctx hheld hcon =>
    rw [hheld₀] at hheld
    rw [hfinds] at hfound
    exact .create hi hk hfound huse hctx hheld hcon
  | library1 hi hfound hheld hcon =>
    rw [hheld₀] at hheld
    rw [hfinds] at hfound
    exact .library1 hi hfound hheld hcon

/-- Everything one step can do. -/
theorem step_cases {w w' : Network C} {l : Act C} (h : w.step l = some w') :
    (∃ c a i, l = .run c a ∧ w.next c = some i ∧ Change c i w w') ∨
    (w'.held = w.held ∧ w'.connector = w.connector) ∨
    ∃ k p, l = .OnKDisconnect k ∧ w.connector k = some p ∧ w'.held = w.held ∧
      w'.connector = Function.update w.connector k (some p.ResetConnection) := by
  cases l with
  | take c cmd =>
    simp only [Network.step] at h
    split at h
    · obtain rfl := Option.some.inj h
      exact .inr (.inl ⟨held_set_same rfl, rfl⟩)
    · cases h
  | run c a =>
    simp only [Network.step] at h
    split at h
    · cases h
    · rename_i i rest htodo
      split at h
      · rename_i haddr
        obtain rfl := Option.some.inj h
        have hnext : w.next c = some i := by
          rw [Network.next, htodo]
          rfl
        have hexec := exec_change (w.set c fun j => { j with todo := rest }) c a i haddr
        exact .inl ⟨c, a, i, rfl, hnext, hexec.of_rest⟩
      · cases h
  | OnKDisconnect k =>
    obtain ⟨p, hk, rfl⟩ := Option.map_eq_some_iff.mp h
    exact .inr (.inr ⟨k, p, rfl, hk, rfl, rfl⟩)

end Jagles.Clients
