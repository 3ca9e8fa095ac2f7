import Jagles.Clients
import Jagles.TaskQueue

set_option autoImplicit false
set_option linter.dupNamespace false

/-!
# Reconnecting after a drop (`OnKDisconnect`)

The library reports a dropped session to the connector, and the connector passes it on to
the client of the first global entry for channel 0 and to the client of every other entry
that is not global.
-/
namespace Jagles.Clients
open Connector GuardedRuns
open TaskQueue (Command)

def JA_RET_TIMEOUT : ℤ := 2
def JA_RET_FAILED : ℤ := 3
def JA_RET_CLOSE : ℤ := 4
def JA_RET_CLOSEBYPEER : ℤ := 5
def KP2P_ERR_CLOSE_BY_SELF : ℤ := -10
def KP2P_ERR_CLOSE_BY_PEER : ℤ := -11
def NET_STATUS_ACTIVECLOSED : ℤ := 12

/-- The strings of `JAConnect_Command` that a `CMD_CONNECT` carries. -/
structure ConnectArgs where
  ConnectStr : List UInt8
  verifystr : List UInt8
  deriving DecidableEq

/-- The clients with what `OnDisconnect` reads and changes of them; `reported` is what
`DoStatus` has passed on. -/
structure Session (C : Type) extends Network C where
  mAreadyConnected : C → Bool
  connectStr : C → List UInt8
  verifyStr : C → List UInt8
  mCommand : C → List (Command ConnectArgs)
  reported : C → List (ℤ × ℤ)

namespace Session
variable {C : Type} [DecidableEq C]

/-- The command that `Connect(con->connectStr, con->verifyStr)` adds. -/
def reconnect (s : Session C) (c : C) : Command ConnectArgs :=
  ⟨.CMD_CONNECT, s.connectStr c, s.verifyStr c⟩

def Connect (s : Session C) (c : C) : Session C :=
  { s with mCommand :=
      Function.update s.mCommand c (TaskQueue.insert (s.mCommand c) (-1) (s.reconnect c)) }

def DoStatus (s : Session C) (c : C) (status_code content_code : ℤ) : Session C :=
  { s with reported :=
      Function.update s.reported c (s.reported c ++ [(status_code, content_code)]) }

def OnDisconnect (s : Session C) (ret : ℤ) : Option C → Session C
  | none => s
  | some c =>
    if (ret = JA_RET_CLOSEBYPEER ∨ ret = KP2P_ERR_CLOSE_BY_PEER) ∧
        (s.client c).connectNowStates = NET_STATUS_AUTHOFAIL then s
    else
      let s := if ret = JA_RET_CLOSE ∨ ret = KP2P_ERR_CLOSE_BY_SELF ∨ ret = JA_RET_FAILED then
          s.DoStatus c NET_STATUS_ACTIVECLOSED ret
        else s
      if (ret = JA_RET_CLOSEBYPEER ∨ ret = JA_RET_TIMEOUT ∨ ret = KP2P_ERR_CLOSE_BY_PEER ∨
          ret = KP2P_ERR_TIMEOUT) ∧ s.mAreadyConnected c = true then s.Connect c
      else s

def ResetConnection (s : Session C) (k : ℕ) (p : JAP2PConnector2 C) (ret : ℤ) : Session C :=
  let s := p.resetCallbacks.foldl (fun s c => s.OnDisconnect ret (some c)) s
  { s with connector := Function.update s.connector k (some p.ResetConnection) }

def OnKDisconnect (s : Session C) (k : ℕ) (ret : ℤ) : Session C :=
  if k ∈ s.g_ListManager then
    match s.connector k with
    | none => s
    | some p => (s.OnDisconnect ret (p.GetCtx 0 .CTX_TYPE_GLOBAL)).ResetConnection k p ret
  else s

/-- A client that a drop should make connect again, if it uses the connector. -/
def Eligible (s : Session C) (ret : ℤ) (c : C) : Prop :=
  s.mAreadyConnected c = true ∧
    ¬ (ret = KP2P_ERR_CLOSE_BY_PEER ∧ (s.client c).connectNowStates = NET_STATUS_AUTHOFAIL)

instance (s : Session C) (ret : ℤ) (c : C) : Decidable (Eligible s ret c) :=
  inferInstanceAs (Decidable (_ ∧ _))

def uses (s : Session C) (k : ℕ) (c : C) : Bool := s.held c = some k

/-- The entries of the connector's table through which a drop comes to the client. -/
def entries (s : Session C) (k : ℕ) (c : C) : ℕ :=
  if k ∈ s.g_ListManager then
    match s.connector k with
    | none => 0
    | some p => (if p.GetCtx 0 .CTX_TYPE_GLOBAL = some c then 1 else 0) +
        p._ctx.countP fun e => decide (e.type ≠ .CTX_TYPE_GLOBAL ∧ e.ctx = c)
  else 0

/-- Every eligible client of the connector is told to connect once more, and no other. -/
def ReconnectsOnce (s t : Session C) (k : ℕ) (ret : ℤ) : Prop :=
  ∀ c, t.mCommand c = s.mCommand c ++
    if Eligible s ret c ∧ s.uses k c = true then [s.reconnect c] else []

section Drop
variable {ret : ℤ} (hret : ret = KP2P_ERR_CLOSE_BY_PEER ∨ ret = KP2P_ERR_TIMEOUT)
include hret

theorem onDisconnect_eq (s : Session C) (c : C) :
    s.OnDisconnect ret (some c) = if Eligible s ret c then s.Connect c else s := by
  unfold OnDisconnect Eligible
  rcases hret with rfl | rfl
  · by_cases hauth : (s.client c).connectNowStates = NET_STATUS_AUTHOFAIL
    · simp [hauth]
    · simp [hauth, KP2P_ERR_CLOSE_BY_PEER, KP2P_ERR_CLOSE_BY_SELF, JA_RET_CLOSE, JA_RET_FAILED]
  · simp [KP2P_ERR_CLOSE_BY_PEER, KP2P_ERR_CLOSE_BY_SELF, KP2P_ERR_TIMEOUT, JA_RET_CLOSE,
      JA_RET_FAILED, JA_RET_CLOSEBYPEER]

/-- Each call of `OnDisconnect` adds one command to the queue of an eligible client. -/
theorem onDisconnect_queue (s : Session C) (x c : C) :
    (s.OnDisconnect ret (some x)).mCommand c =
      s.mCommand c ++ if Eligible s ret c ∧ x = c then [s.reconnect c] else [] := by
  rw [onDisconnect_eq hret]
  by_cases hx : x = c
  · subst hx
    by_cases he : Eligible s ret x
    · simp [he, Connect, TaskQueue.insert_back]
    · simp [he]
  · split
    · simp [hx, Connect, Function.update_of_ne (Ne.symm hx)]
    · simp [hx]

theorem onDisconnect_eligible (s : Session C) (x c : C) :
    Eligible (s.OnDisconnect ret (some x)) ret c ↔ Eligible s ret c := by
  rw [onDisconnect_eq hret]
  split <;> rfl

theorem onDisconnect_reconnect (s : Session C) (x c : C) :
    (s.OnDisconnect ret (some x)).reconnect c = s.reconnect c := by
  rw [onDisconnect_eq hret]
  split <;> rfl

theorem fold_queue (l : List C) (s : Session C) (c : C) :
    (l.foldl (fun s x => s.OnDisconnect ret (some x)) s).mCommand c = s.mCommand c ++
      List.replicate (if Eligible s ret c then l.count c else 0) (s.reconnect c) := by
  induction l generalizing s with
  | nil => simp
  | cons x l ih =>
    rw [List.foldl_cons, ih, onDisconnect_queue hret, onDisconnect_reconnect hret,
      List.append_assoc]
    simp only [onDisconnect_eligible hret]
    congr 1
    by_cases he : Eligible s ret c
    · by_cases hx : x = c
      · simp [he, hx, List.replicate_succ]
      · simp [he, hx]
    · simp [he]

omit hret in
theorem count_resetCallbacks (p : JAP2PConnector2 C) (c : C) : p.resetCallbacks.count c =
    p._ctx.countP fun e => decide (e.type ≠ .CTX_TYPE_GLOBAL ∧ e.ctx = c) := by
  rw [JAP2PConnector2.resetCallbacks, List.count, List.countP_map, List.countP_filter]
  refine List.countP_congr fun e _ => ?_
  simp [and_comm]

theorem onKDisconnect_queue (s : Session C) (k : ℕ) (c : C) :
    (s.OnKDisconnect k ret).mCommand c = s.mCommand c ++
      List.replicate (if Eligible s ret c then s.entries k c else 0) (s.reconnect c) := by
  unfold OnKDisconnect entries
  split
  · cases s.connector k with
    | none => simp
    | some p =>
      simp only [ResetConnection]
      cases p.GetCtx 0 .CTX_TYPE_GLOBAL with
      | none =>
        refine (fold_queue hret p.resetCallbacks s c).trans ?_
        simp [count_resetCallbacks]
      | some g =>
        refine (fold_queue hret (g :: p.resetCallbacks) s c).trans ?_
        rw [List.count_cons, count_resetCallbacks, Nat.add_comm]
        simp
  · simp

end Drop

/-- One drop makes every eligible client of the connector connect once, and no other one,
exactly when the table has one entry for each of them and none for an eligible client that
does not use the connector. -/
theorem reconnects_once_iff (s : Session C) (k : ℕ) (ret : ℤ)
    (hret : ret = KP2P_ERR_CLOSE_BY_PEER ∨ ret = KP2P_ERR_TIMEOUT) :
    ReconnectsOnce s (s.OnKDisconnect k ret) k ret ↔
      ∀ c, Eligible s ret c → s.entries k c = if s.uses k c then 1 else 0 := by
  refine forall_congr' fun c => ?_
  rw [onKDisconnect_queue hret, List.append_cancel_left_eq]
  have hwanted : (if Eligible s ret c ∧ s.uses k c = true then [s.reconnect c] else []) =
      List.replicate (if Eligible s ret c then (if s.uses k c then 1 else 0) else 0)
        (s.reconnect c) := by
    by_cases he : Eligible s ret c
    · cases s.uses k c <;> simp [he]
    · simp [he]
  rw [hwanted, List.replicate_left_inj]
  by_cases he : Eligible s ret c
  · simp [he]
  · simp [he]

instance [Fintype C] (s t : Session C) (k : ℕ) (ret : ℤ) : Decidable (ReconnectsOnce s t k ret) :=
  inferInstanceAs (Decidable (∀ _, _))

/-- The clients of a network that have connected once are those that are connected. -/
def session (w : Network Bool) : Session Bool where
  toNetwork := w
  mAreadyConnected c := (w.client c).mIsConnected
  connectStr _ := [49]
  verifyStr _ := [118]
  mCommand _ := []
  reported _ := []

theorem reconnects_once_one_client : ∃ w, Run Network.step (fun _ _ => True) .start
      (connects true 7) w ∧
    ReconnectsOnce (session w) ((session w).OnKDisconnect 7 KP2P_ERR_TIMEOUT) 7
      KP2P_ERR_TIMEOUT := by
  obtain ⟨w, hrun, hentries⟩ : ∃ w, Run Network.step (fun _ _ => True) .start
        (connects true 7) w ∧
      ∀ c, Eligible (session w) KP2P_ERR_TIMEOUT c →
        (session w).entries 7 c = if (session w).uses 7 c then 1 else 0 :=
    exists_run (by decide +kernel)
  exact ⟨w, hrun, (reconnects_once_iff (session w) 7 _ (.inr rfl)).mpr hentries⟩

/-- A client that opened a live channel after it created the session is told twice. -/
theorem live_client_reconnects_twice : ¬ ∀ acts w,
    Run Network.step (fun _ _ => True) .start acts w → ∀ k ret,
      ret = KP2P_ERR_CLOSE_BY_PEER ∨ ret = KP2P_ERR_TIMEOUT →
        ReconnectsOnce (session w) ((session w).OnKDisconnect k ret) k ret := by
  intro hall
  obtain ⟨w, hrun, htwice⟩ : ∃ w, Run Network.step (fun _ _ => True) .start
      (connects true 7 ++ [.take true (.CMD_OPENCHANNEL 3), .run true (reply 0 0),
        .run true (reply 0 0)]) w ∧
      ¬ ReconnectsOnce (session w) ((session w).OnKDisconnect 7 KP2P_ERR_CLOSE_BY_PEER) 7
        KP2P_ERR_CLOSE_BY_PEER :=
    exists_run (by decide +kernel)
  exact htwice (hall _ w hrun 7 _ (.inl rfl))

end Session
end Jagles.Clients
