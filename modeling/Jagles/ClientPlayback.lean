import Jagles.Clients

set_option autoImplicit false
set_option linter.dupNamespace false

/-!
# Playback (`DoStartPlayback`, `DoStopPlayback`, `DoPlaybackPauseGetData`)

`mIsConnected`, `mRealStatus`, `mPlaybackHandle` and `mP2p` are changed by different commands.
The handles that the p2p library has given out are kept beside the clients, each with the
object that it came from.
-/
namespace Jagles.Clients
open Connector GuardedRuns

inductive PlayStatus where
  | NET_PLAY_NONE
  | NET_PLAY_REAL
  | NET_PLAY_RECORD
  deriving DecidableEq

/-- `object` numbers the objects that the `mP2p` of a client has pointed to, and `live` has the
handles that a start of playback returned to it and that it has not stopped. -/
structure Player (C : Type) extends Network C where
  mRealStatus : C → PlayStatus
  object : C → ℕ
  live : C → List (ℕ × ℤ)

inductive PlayAct (C : Type) where
  | net (l : Act C)
  | CMD_PLAYBACK_PAUSE (c : C)
  | CMD_PLAYBACK_CONTINUE (c : C)

section Model
variable {C : Type}

/-- `ReConnect` gets the connector that the client has. -/
def Network.findsOwn (w : Network C) (c : C) : Prop :=
  (w.held c).isSome = true ∧ w.finds c = w.held c

instance (w : Network C) (c : C) : Decidable (w.findsOwn c) := inferInstanceAs (Decidable (_ ∧ _))

/-- `DoStartPlayback` does not return at once. -/
def Network.starts (w : Network C) (c : C) : Prop :=
  (w.client c).mIsConnected = true ∧ (w.client c).mP2p ≠ none

instance (w : Network C) (c : C) : Decidable (w.starts c) := inferInstanceAs (Decidable (_ ∧ _))

/-- The connector has a session, so that `playBackStart` asks the library. -/
def Network.hasSession (w : Network C) (c : C) : Bool :=
  match (w.client c).mP2p with
  | none => false
  | some .UDX_P2P => decide ((w.client c).mHandle ≠ 0)
  | some (.KCP_P2P k) => (w.connector k).any fun p => decide (p.mHandle ≠ 0)

/-- `w` is before the instruction and `w'` after it. -/
def statusAfter (w w' : Network C) (c : C) (s : PlayStatus) : Instr → PlayStatus
  | .forget => .NET_PLAY_NONE
  | .openChannel _ bOpen =>
    if (w'.client c).ret = 0 then if bOpen ≠ 0 then .NET_PLAY_REAL else .NET_PLAY_NONE else s
  | .DoStartPlayback _ =>
    if w.starts c ∧ (w'.client c).mPlaybackHandle ≠ 0 then .NET_PLAY_RECORD else s
  | _ => s

def objectAfter (w : Network C) (c : C) (n : ℕ) : Instr → ℕ
  | .newConnector => if w.findsOwn c then n else n + 1
  | .useLibrary1 => n + 1
  | .release => if (w.client c).mHandle ≠ 0 ∧ (w.client c).mP2p ≠ none then n + 1 else n
  | _ => n

/-- The instruction calls `playBackStop` with the handle of the client. -/
def Network.stops (w : Network C) (c : C) (i : Instr) : Prop :=
  (w.client c).mPlaybackHandle ≠ 0 ∧
    (i = .playBackStop ∨ i = .DoStopPlayback ∧ (w.client c).mP2p ≠ none)

instance (w : Network C) (c : C) (i : Instr) : Decidable (w.stops c i) :=
  inferInstanceAs (Decidable (_ ∧ _))

def liveAfter (w w' : Network C) (c : C) (n : ℕ) (live : List (ℕ × ℤ)) (i : Instr) :
    List (ℕ × ℤ) :=
  match i with
  | .DoStartPlayback _ =>
    if w.starts c ∧ w.hasSession c = true ∧ (w'.client c).mPlaybackHandle ≠ 0 then
      (n, (w'.client c).mPlaybackHandle) :: live
    else live
  | i => if w.stops c i then live.filter fun e => e.2 ≠ (w.client c).mPlaybackHandle else live

variable [DecidableEq C]

namespace Player

def start : Player C := ⟨.start, fun _ => .NET_PLAY_NONE, fun _ => 0, fun _ => []⟩

def after (p : Player C) (w : Network C) (c : C) (i : Instr) : Player C where
  toNetwork := w
  mRealStatus := Function.update p.mRealStatus c (statusAfter p.toNetwork w c (p.mRealStatus c) i)
  object := Function.update p.object c (objectAfter p.toNetwork c (p.object c) i)
  live := Function.update p.live c (liveAfter p.toNetwork w c (p.object c) (p.live c) i)

/-- Pausing and going on only call the library. -/
def step (p : Player C) : PlayAct C → Option (Player C)
  | .net (.run c a) =>
    (p.next c).bind fun i => (p.toNetwork.step (.run c a)).map fun w => p.after w c i
  | .net l => (p.toNetwork.step l).map fun w => { p with toNetwork := w }
  | .CMD_PLAYBACK_PAUSE c | .CMD_PLAYBACK_CONTINUE c =>
    if (p.client c).todo = [] then some p else none

/-- The handle of the client came from the object that `mP2p` points to and is not stopped. -/
def Owned (p : Player C) (c : C) : Prop :=
  (p.client c).mP2p ≠ none ∧ (p.object c, (p.client c).mPlaybackHandle) ∈ p.live c

/-- The client whose handle the step passes to `playBackStop`, `playBackPause` or
`playBackContinue`. -/
def Controls (p : Player C) (c : C) : PlayAct C → Prop
  | .net (.run x _) => x = c ∧ ∃ i, p.next c = some i ∧ p.stops c i
  | .net _ => False
  | .CMD_PLAYBACK_PAUSE x | .CMD_PLAYBACK_CONTINUE x =>
    x = c ∧ (p.client c).mPlaybackHandle ≠ 0

def CallsOwned (p : Player C) (a : PlayAct C) : Prop := ∀ c, p.Controls c a → p.Owned c

/-- A handle is owned at all times, and between two commands the status agrees with it. -/
structure StatusSound (p : Player C) : Prop where
  handle : ∀ c, (p.client c).mPlaybackHandle ≠ 0 → p.Owned c
  connected : ∀ c, (p.client c).todo = [] → (p.client c).mIsConnected = true →
    (p.client c).mP2p ≠ none
  record : ∀ c, (p.client c).todo = [] → p.mRealStatus c = .NET_PLAY_RECORD →
    (p.client c).mPlaybackHandle ≠ 0 ∧ p.Owned c

/-- The condition on one instruction of a client: playback is started on a connector with a
session, and not in vain while another is on; it is not stopped by `CMD_STOPPLAYBACK`; and
`ReConnect` does not change the connector under a handle. -/
def Allowed (p : Player C) (c : C) (a : Reply) : Instr → Prop
  | .DoStartPlayback _ => p.starts c →
      p.hasSession c = true ∧ (p.mRealStatus c = .NET_PLAY_RECORD → a.result ≠ 0)
  | .DoStopPlayback => p.mRealStatus c ≠ .NET_PLAY_RECORD
  | .newConnector => (p.client c).mPlaybackHandle ≠ 0 → p.findsOwn c
  | .useLibrary1 => (p.client c).mPlaybackHandle = 0
  | _ => True

def Careful (p : Player C) : PlayAct C → Prop
  | .net (.run c a) => ∀ i ∈ p.next c, p.Allowed c a i
  | _ => True

end Player
end Model

end Jagles.Clients
