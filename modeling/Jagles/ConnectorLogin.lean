import Jagles.ConnectorRouting

set_option autoImplicit false
set_option linter.dupNamespace false

/-!
# Whose credentials a shared session rests on

The connector asks the device once and keeps the answer in `mConnectResult` and
`mLoginResult` until the session drops or is closed. A client that is answered zero
from there has its own credentials accepted, or shares a session that an earlier
call opened with credentials the device accepted.
-/
namespace Jagles.Connector
open KeyedTable GuardedRuns

variable {Ctx : Type*} [DecidableEq Ctx]

def JAP2PConnector2.step (p : JAP2PConnector2 Ctx) (c : Call Ctx) : Option (JAP2PConnector2 Ctx) :=
  some (p.call c)

/-- The library returns zero exactly for the credentials that the device accepts. -/
def Honest (accepts : List UInt8 → List UInt8 → Bool) (verifies : List UInt8 → Bool) :
    Call Ctx → Prop
  | .loginP2P user pwd r => r = 0 ↔ accepts user pwd = true
  | .connect2 _ _ _ verify_str r => r = 0 ↔ verifies verify_str = true
  | _ => True

instance (accepts : List UInt8 → List UInt8 → Bool) (verifies : List UInt8 → Bool) :
    (c : Call Ctx) → Decidable (Honest accepts verifies c)
  | .loginP2P user pwd r => inferInstanceAs (Decidable (r = 0 ↔ accepts user pwd = true))
  | .connect2 _ _ _ verify_str r => inferInstanceAs (Decidable (r = 0 ↔ verifies verify_str = true))
  | .createP2PHandle .. | .connect3 .. | .openChannel .. | .playBackStart .. | .playBackStop ..
  | .closeP2P | .OnKDisconnect .. => inferInstanceAs (Decidable True)

/-- The calls after which the connector has to ask the device again. -/
def Clears (p : JAP2PConnector2 Ctx) : Call Ctx → Prop
  | .OnKDisconnect _ => True
  | .closeP2P => p.mHandle ≠ 0
  | _ => False

def Replaces (p : JAP2PConnector2 Ctx) : Call Ctx → Prop
  | .createP2PHandle _ _ => p.mHandle = 0 ∨ p.mDoneDisconnect = true
  | _ => False

/-- The device answered `c` with zero, and the connector has kept the answer `memo`
since. The session has had one handle since unless a call has made a new one. -/
def Kept (cond : Call Ctx → Prop) (memo : JAP2PConnector2 Ctx → ℤ) (p : JAP2PConnector2 Ctx)
    (calls : List (Call Ctx)) (q : JAP2PConnector2 Ctx) (c : Call Ctx) : Prop :=
  ∃ before after u, calls = before ++ c :: after ∧
    Run JAP2PConnector2.step (fun _ c => cond c) p before u ∧ u.mHandle ≠ 0 ∧
    memo u = noResult ∧ memo (u.call c) = 0 ∧
    Run JAP2PConnector2.step (fun x c => cond c ∧ ¬ Clears x c) (u.call c) after q ∧
    (Run JAP2PConnector2.step (fun x c => ¬ Clears x c ∧ ¬ Replaces x c) (u.call c) after q →
      q.mHandle = u.mHandle)

theorem noResult_ne_zero : noResult ≠ 0 := by decide

theorem call_cleared {p : JAP2PConnector2 Ctx} {c : Call Ctx} (h : Clears p c) :
    (p.call c).mConnectResult = noResult ∧ (p.call c).mLoginResult = noResult := by
  cases c with
  | closeP2P =>
    have hh : p.mHandle ≠ 0 := h
    simp only [JAP2PConnector2.call, JAP2PConnector2.closeP2P, if_neg hh, and_self]
  | OnKDisconnect ret => exact ⟨rfl, rfl⟩
  | _ => cases h

def Call.connects (r : ℤ) : Call Ctx → Prop
  | .connect2 _ _ _ _ r' | .connect3 _ _ _ r' => r' = r
  | _ => False

def Call.logsIn (r : ℤ) : Call Ctx → Prop
  | .loginP2P _ _ r' => r' = r
  | _ => False

omit [DecidableEq Ctx] in
theorem JAP2PConnector2.connect_memo (p : JAP2PConnector2 Ctx) (devid ipaddr : List UInt8) (port r : ℤ) :
    (p.connect devid ipaddr port r).1.mConnectResult = p.mConnectResult ∨
      p.mHandle ≠ 0 ∧ p.mConnectResult = noResult ∧
        (p.connect devid ipaddr port r).1.mConnectResult = r := by
  unfold connect
  split
  · exact .inl rfl
  · rename_i hh
    split
    · exact .inl rfl
    · rename_i hn
      exact .inr ⟨hh, not_not.mp hn, rfl⟩

omit [DecidableEq Ctx] in
theorem JAP2PConnector2.login_memo (p : JAP2PConnector2 Ctx) (r : ℤ) :
    (p.loginP2P r).1.mLoginResult = p.mLoginResult ∨
      p.mHandle ≠ 0 ∧ p.mLoginResult = noResult ∧ (p.loginP2P r).1.mLoginResult = r := by
  unfold loginP2P
  split
  · exact .inl rfl
  · rename_i hh
    split
    · exact .inl rfl
    · rename_i hn
      exact .inr ⟨hh, not_not.mp hn, rfl⟩

theorem call_memos {p : JAP2PConnector2 Ctx} {c : Call Ctx} (h : ¬ Clears p c) :
    ((p.call c).mConnectResult = p.mConnectResult ∨
      p.mHandle ≠ 0 ∧ p.mConnectResult = noResult ∧ c.connects (p.call c).mConnectResult) ∧
    ((p.call c).mLoginResult = p.mLoginResult ∨
      p.mHandle ≠ 0 ∧ p.mLoginResult = noResult ∧ c.logsIn (p.call c).mLoginResult) := by
  cases c with
  | createP2PHandle ctx hd =>
    simp only [JAP2PConnector2.call]
    rw [p.createP2PHandle_eq]
    exact ⟨.inl rfl, .inl rfl⟩
  | connect2 devid ipaddr port verify_str r | connect3 devid ipaddr port r =>
    constructor
    · cases p.connect_memo devid ipaddr port r with
      | inl hkeep => exact .inl hkeep
      | inr hask => exact .inr ⟨hask.1, hask.2.1, hask.2.2.symm⟩
    · simp only [JAP2PConnector2.call]
      rw [p.connect_eq]
      exact .inl rfl
  | loginP2P user pwd r =>
    constructor
    · simp only [JAP2PConnector2.call]
      rw [p.loginP2P_eq]
      exact .inl rfl
    · cases p.login_memo r with
      | inl hkeep => exact .inl hkeep
      | inr hask => exact .inr ⟨hask.1, hask.2.1, hask.2.2.symm⟩
  | openChannel nChannelId nStreamId bOpen ctx r =>
    simp only [JAP2PConnector2.call]
    rw [p.openChannel_eq]
    exact ⟨.inl rfl, .inl rfl⟩
  | playBackStart chn ctx r =>
    simp only [JAP2PConnector2.call]
    rw [p.playBackStart_eq]
    exact ⟨.inl rfl, .inl rfl⟩
  | playBackStop playBack_handle r =>
    simp only [JAP2PConnector2.call]
    rw [p.playBackStop_eq]
    exact ⟨.inl rfl, .inl rfl⟩
  | closeP2P =>
    rw [Clears, not_not] at h
    have hsame : p.call .closeP2P = p := by
      simp only [JAP2PConnector2.call, JAP2PConnector2.closeP2P, if_pos h]
    rw [hsame]
    exact ⟨.inl rfl, .inl rfl⟩
  | OnKDisconnect ret => exact absurd trivial h

section Kept
variable {cond : Call Ctx → Prop} {memo : JAP2PConnector2 Ctx → ℤ} {p q : JAP2PConnector2 Ctx}
  {calls : List (Call Ctx)}

theorem call_mHandle {c : Call Ctx} (hclear : ¬ Clears p c) (hnew : ¬ Replaces p c) :
    (p.call c).mHandle = p.mHandle := by
  cases c with
  | createP2PHandle ctx h =>
    have hkeep : p.mHandle ≠ 0 ∧ p.mDoneDisconnect = false := by
      rw [Replaces, not_or, Bool.not_eq_true] at hnew
      exact hnew
    simp only [JAP2PConnector2.call, JAP2PConnector2.createP2PHandle, if_pos hkeep]
  | connect2 devid ipaddr port verify_str r | connect3 devid ipaddr port r =>
    simp only [JAP2PConnector2.call]
    rw [p.connect_eq]
  | loginP2P user pwd r =>
    simp only [JAP2PConnector2.call]
    rw [p.loginP2P_eq]
  | openChannel nChannelId nStreamId bOpen ctx r =>
    simp only [JAP2PConnector2.call]
    rw [p.openChannel_eq]
  | playBackStart chn ctx r =>
    simp only [JAP2PConnector2.call]
    rw [p.playBackStart_eq]
  | playBackStop playBack_handle r =>
    simp only [JAP2PConnector2.call]
    rw [p.playBackStop_eq]
  | closeP2P =>
    rw [Clears, not_not] at hclear
    simp only [JAP2PConnector2.call, JAP2PConnector2.closeP2P, if_pos hclear]
  | OnKDisconnect ret => exact absurd trivial hclear

/-- The answer that is there goes back to one call, and nothing has cleared it since. -/
theorem kept_of_run (run : Run JAP2PConnector2.step (fun _ c => cond c) p calls q)
    (asks : ℤ → Call Ctx → Prop) (hasks : ∀ x c r, asks r c → ¬ Replaces x c)
    (fills : ∀ x c, ¬ Clears x c → memo (x.call c) = memo x ∨
      x.mHandle ≠ 0 ∧ memo x = noResult ∧ asks (memo (x.call c)) c)
    (clears : ∀ x c, Clears x c → memo (x.call c) = noResult)
    (hp : memo p ≠ 0) (hq : memo q = 0) :
    ∃ c, cond c ∧ asks 0 c ∧ Kept cond memo p calls q c := by
  have hzero : ∀ x c, memo (x.call c) = 0 → ¬ Clears x c := by
    intro x c hx hcl
    rw [clears x c hcl] at hx
    exact noResult_ne_zero hx
  cases run.since (fun x => memo x = 0) hq with
  | inl hall => exact absurd hall.1 hp
  | inr hlater =>
    obtain ⟨before, c, after, u, v, hcalls, hbefore, hc, hs, hu, hv, hafter⟩ := hlater
    obtain rfl := Option.some.inj hs
    cases fills u c (hzero u c hv) with
    | inl hsame => exact absurd (hsame.symm.trans hv) hu
    | inr hask =>
      obtain ⟨hhandle, hnone, hc0⟩ := hask
      rw [hv] at hc0
      refine ⟨c, hc, hc0, before, after, u, hcalls, hbefore, hhandle, hnone, hv, ?_, ?_⟩
      · apply hafter.weaken
        intro x c hx
        exact ⟨hx.1, hzero x c (hx.2 _ rfl)⟩
      · intro hsame
        refine hsame.invariant (fun x => x.mHandle = u.mHandle) ?_ ?_
        · intro x c y hx hcond hy
          obtain rfl := Option.some.inj hy
          exact (call_mHandle hcond.1 hcond.2).trans hx
        · exact call_mHandle (hzero u c hv) (hasks u c 0 hc0)

end Kept

omit [DecidableEq Ctx] in
theorem Call.connects_keeps {c : Call Ctx} {r : ℤ} (h : c.connects r) (p : JAP2PConnector2 Ctx) :
    ¬ Replaces p c := by
  cases c with
  | connect2 devid ipaddr port verify_str r => exact not_false
  | connect3 devid ipaddr port r => exact not_false
  | _ => cases h

omit [DecidableEq Ctx] in
theorem Call.logsIn_keeps {c : Call Ctx} {r : ℤ} (h : c.logsIn r) (p : JAP2PConnector2 Ctx) :
    ¬ Replaces p c := by
  cases c with
  | loginP2P user pwd r => exact not_false
  | _ => cases h

section Answers
variable {cond : Call Ctx → Prop} {playChannel : ℤ} {calls : List (Call Ctx)}
  {q : JAP2PConnector2 Ctx}

theorem mLoginResult_kept
    (run : Run JAP2PConnector2.step (fun _ c => cond c) (create playChannel) calls q)
    (hq : q.mLoginResult = 0) :
    ∃ user pwd, cond (.loginP2P user pwd 0) ∧
      Kept cond JAP2PConnector2.mLoginResult (create playChannel) calls q (.loginP2P user pwd 0) := by
  obtain ⟨c, hc, hask, hkept⟩ := kept_of_run run Call.logsIn
    (fun x c r hr => Call.logsIn_keeps hr x) (fun x c h => (call_memos h).2) (fun x c h => (call_cleared h).2)
    noResult_ne_zero hq
  cases c with
  | loginP2P user pwd r =>
    obtain rfl : r = 0 := hask
    exact ⟨user, pwd, hc, hkept⟩
  | _ => cases hask

theorem mConnectResult_kept
    (run : Run JAP2PConnector2.step (fun _ c => cond c) (create playChannel) calls q)
    (hq : q.mConnectResult = 0) :
    (∃ devid ipaddr port verify_str, cond (.connect2 devid ipaddr port verify_str 0) ∧
      Kept cond JAP2PConnector2.mConnectResult (create playChannel) calls q
        (.connect2 devid ipaddr port verify_str 0)) ∨
    ∃ devid ipaddr port, Kept cond JAP2PConnector2.mConnectResult (create playChannel) calls q
      (.connect3 devid ipaddr port 0) := by
  obtain ⟨c, hc, hask, hkept⟩ := kept_of_run run Call.connects
    (fun x c r hr => Call.connects_keeps hr x) (fun x c h => (call_memos h).1) (fun x c h => (call_cleared h).1)
    noResult_ne_zero hq
  cases c with
  | connect2 devid ipaddr port verify_str r =>
    obtain rfl : r = 0 := hask
    exact .inl ⟨devid, ipaddr, port, verify_str, hc, hkept⟩
  | connect3 devid ipaddr port r =>
    obtain rfl : r = 0 := hask
    exact .inr ⟨devid, ipaddr, port, hkept⟩
  | _ => cases hask

omit [DecidableEq Ctx] in
theorem loginP2P_zero {r : ℤ} (h : (q.loginP2P r).2 = 0) :
    q.mHandle ≠ 0 ∧ (q.mLoginResult = noResult ∧ r = 0 ∨ q.mLoginResult = 0) := by
  unfold JAP2PConnector2.loginP2P at h
  split at h
  · simp [JA_CONNECT_ERROR_UNKNOW] at h
  · rename_i hh
    split at h
    · exact ⟨hh, .inr h⟩
    · rename_i hn
      exact ⟨hh, .inl ⟨not_not.mp hn, h⟩⟩

omit [DecidableEq Ctx] in
theorem connect_zero {devid ipaddr : List UInt8} {port r : ℤ}
    (h : (q.connect devid ipaddr port r).2 = 0) :
    q.mHandle ≠ 0 ∧ (q.mConnectResult = noResult ∧ r = 0 ∨ q.mConnectResult = 0) := by
  unfold JAP2PConnector2.connect at h
  split at h
  · simp at h
  · rename_i hh
    split at h
    · exact ⟨hh, .inr h⟩
    · rename_i hn
      exact ⟨hh, .inl ⟨not_not.mp hn, h⟩⟩

variable {accepts : List UInt8 → List UInt8 → Bool} {verifies : List UInt8 → Bool}

/-- A client is answered zero only on its own accepted credentials, or in a session
that an earlier call opened with accepted ones and that has not dropped since. -/
theorem answered_on_accepted
    (run : Run JAP2PConnector2.step (fun _ c => Honest accepts verifies c) (create playChannel)
      calls q) :
    (∀ user pwd r, Honest accepts verifies (.loginP2P user pwd r : Call Ctx) →
      (q.loginP2P r).2 = 0 →
      (q.mHandle ≠ 0 ∧ q.mLoginResult = noResult ∧ accepts user pwd = true) ∨
      ∃ user' pwd', accepts user' pwd' = true ∧
        Kept (Honest accepts verifies) JAP2PConnector2.mLoginResult (create playChannel) calls q
          (.loginP2P user' pwd' 0)) ∧
    (∀ devid ipaddr port verify_str r,
      Honest accepts verifies (.connect2 devid ipaddr port verify_str r : Call Ctx) →
      (q.connect devid ipaddr port r).2 = 0 →
      (q.mHandle ≠ 0 ∧ q.mConnectResult = noResult ∧ verifies verify_str = true) ∨
      (∃ devid' ipaddr' port' verify_str', verifies verify_str' = true ∧
        Kept (Honest accepts verifies) JAP2PConnector2.mConnectResult (create playChannel) calls q
          (.connect2 devid' ipaddr' port' verify_str' 0)) ∨
      ∃ devid' ipaddr' port',
        Kept (Honest accepts verifies) JAP2PConnector2.mConnectResult (create playChannel) calls q
          (.connect3 devid' ipaddr' port' 0)) := by
  constructor
  · intro user pwd r hr h
    obtain ⟨hh, hfrom⟩ := loginP2P_zero h
    cases hfrom with
    | inl hask => exact .inl ⟨hh, hask.1, hr.mp hask.2⟩
    | inr hkept =>
      obtain ⟨user', pwd', hc, hk⟩ := mLoginResult_kept run hkept
      exact .inr ⟨user', pwd', hc.mp rfl, hk⟩
  · intro devid ipaddr port verify_str r hr h
    obtain ⟨hh, hfrom⟩ := connect_zero h
    cases hfrom with
    | inl hask => exact .inl ⟨hh, hask.1, hr.mp hask.2⟩
    | inr hkept =>
      cases mConnectResult_kept run hkept with
      | inl h2 =>
        obtain ⟨devid', ipaddr', port', verify_str', hc, hk⟩ := h2
        exact .inr (.inl ⟨devid', ipaddr', port', verify_str', hc.mp rfl, hk⟩)
      | inr h3 => exact .inr (.inr h3)

end Answers

theorem answered_on_accepted_shared :
    let accepts : List UInt8 → List UInt8 → Bool := fun user pwd => user == [97] && pwd == [49]
    let verifies : List UInt8 → Bool := fun v => v == [118]
    let calls : List (Call Bool) :=
      [.createP2PHandle false 1, .connect3 [68] [] 0 0, .loginP2P [97] [49] 0]
    ∃ q : JAP2PConnector2 Bool,
      Run JAP2PConnector2.step (fun _ c => Honest accepts verifies c) (create 0) calls q ∧
      (q.loginP2P 0).2 = 0 ∧
      ((q.mHandle ≠ 0 ∧ q.mLoginResult = noResult ∧ accepts [97] [49] = true) ∨
        ∃ user' pwd', accepts user' pwd' = true ∧
          Kept (Honest accepts verifies) JAP2PConnector2.mLoginResult (create 0) calls q
            (.loginP2P user' pwd' 0)) := by
  intro accepts verifies calls
  have hrun : ∃ q : JAP2PConnector2 Bool,
      Run JAP2PConnector2.step (fun _ c => Honest accepts verifies c) (create 0) calls q ∧
      (q.loginP2P 0).2 = 0 := exists_run (by decide +kernel)
  obtain ⟨q, run, hzero⟩ := hrun
  exact ⟨q, run, hzero, (answered_on_accepted run).1 [97] [49] 0 (by decide) hzero⟩

/-- A second client is let in with a password that the device does not accept, and with
a verification string that it does not accept. -/
theorem answered_on_rejected :
    let accepts : List UInt8 → List UInt8 → Bool := fun user pwd => user == [97] && pwd == [49]
    let verifies : List UInt8 → Bool := fun v => v == [118]
    ∃ q : JAP2PConnector2 Bool,
      Run JAP2PConnector2.step (fun _ c => Honest accepts verifies c) (create 0)
        [.createP2PHandle false 1, .connect3 [68] [] 0 0, .loginP2P [97] [49] 0] q ∧
      accepts [97] [50] = false ∧
      Honest accepts verifies (.loginP2P [97] [50] (-20) : Call Bool) ∧ (q.loginP2P (-20)).2 = 0 ∧
      verifies [119] = false ∧
      Honest accepts verifies (.connect2 [68] [] 0 [119] (-20) : Call Bool) ∧
      (q.connect [68] [] 0 (-20)).2 = 0 := by
  intro accepts verifies
  apply exists_run
  decide +kernel

end Jagles.Connector
