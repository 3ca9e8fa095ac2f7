import Jagles.Connector
import Jagles.GuardedRuns

set_option autoImplicit false
set_option linter.dupNamespace false

/-!
# The clients of the connectors (`JAConnect`)

Each client runs its commands in a thread of its own. A command is the list of the
instructions that its functions come to; an instruction is one step, and the threads
interleave between instructions. What the p2p libraries and the allocator return is
chosen by the run.
-/
namespace Jagles.Clients
open Connector

def NET_STATUS_CONNECTED : ℤ := 1
def NET_STATUS_CONNECTFAIL : ℤ := 2
def NET_STATUS_AUTHOFAIL : ℤ := 10
def NET_STATUS_TIMEOUT : ℤ := 11

def KP2P_ERR_TIMEOUT : ℤ := -2
def KP2P_ERR_RESOLVE_FAILED : ℤ := -12
def KP2P_ERR_AUTH_FAILED : ℤ := -20
def KP2P_ERR_AUTH2_FAILED : ℤ := -22

/-- What `mP2p` points to. A `JAP2PConnector` of the old library is never shared. -/
inductive Ref where
  | UDX_P2P
  | KCP_P2P (k : ℕ)
  deriving DecidableEq

def address : Option Ref → Option ℕ
  | some (.KCP_P2P k) => some k
  | _ => none

/-- What `ParseConnectString` finds. -/
structure Target where
  mDeviceID : List UInt8
  mIP : List UInt8
  mPort : ℤ
  mVerify : List UInt8
  mUser : List UInt8
  mPwd : List UInt8
  deriving DecidableEq

inductive Instr where
  | leaveConnected
  | clearStates
  | ParseConnectString (t : Target)
  | newConnector
  | createP2PHandle
  | connect
  | fallback
  | useLibrary1
  | loginP2P
  | settle
  | playBackStop
  | release
  | forget
  | openChannel (channelNo bOpen : ℤ)
  | retry
  | DoStartPlayback (channelNo : ℤ)
  | DoStopPlayback
  deriving DecidableEq

/-- `DoDisconnect(cmd)` without the purge of the queue. -/
def DoDisconnect : List Instr := [.playBackStop, .release, .forget]

def ReConnect : List Instr :=
  [.newConnector, .createP2PHandle, .connect, .fallback, .loginP2P, .settle]

def DoConnect (t : Target) : List Instr :=
  [.leaveConnected, .ParseConnectString t] ++ ReConnect

inductive Cmd where
  | CMD_CONNECT (t : Target)
  | CMD_OPENCHANNEL (channelNo : ℤ)
  | CMD_CLOSECHANNEL (channelNo : ℤ)
  | CMD_STARTPLAYBACK (channelNo : ℤ)
  | CMD_STOPPLAYBACK
  | CMD_DISCONNECT

/-- The cases of `HandleTaskThread`. -/
def Cmd.body : Cmd → List Instr
  | .CMD_CONNECT t => DoConnect t
  | .CMD_OPENCHANNEL channelNo => [.openChannel channelNo 1, .retry]
  | .CMD_CLOSECHANNEL channelNo => [.openChannel channelNo 0]
  | .CMD_STARTPLAYBACK channelNo => [.DoStartPlayback channelNo]
  | .CMD_STOPPLAYBACK => [.DoStopPlayback]
  | .CMD_DISCONNECT => DoDisconnect

/-- `ret` is the local variable of the function that runs. -/
structure JAConnect extends Target where
  mP2p : Option Ref
  mHandle : ℕ
  mPlaybackHandle : ℤ
  mIsConnected : Bool
  connectNowStates : ℤ
  ret : ℤ
  todo : List Instr

def JAConnect.init : JAConnect where
  mDeviceID := []
  mIP := []
  mPort := 0
  mVerify := []
  mUser := []
  mPwd := []
  mP2p := none
  mHandle := 0
  mPlaybackHandle := 0
  mIsConnected := false
  connectNowStates := 0
  ret := 0
  todo := []

/-- `connector k` is the `JAP2PConnector2` at address `k`, if there is one. The
connectors of the old library are left out of `g_ListManager`; `CreateConnector`
skips them. -/
structure Network (C : Type*) where
  client : C → JAConnect
  connector : ℕ → Option (JAP2PConnector2 C)
  g_ListManager : List ℕ

def Network.start {C : Type*} : Network C := ⟨fun _ => .init, fun _ => none, []⟩

/-- What the outside returns to one instruction: a library's handle and result, the
address of a new object and what is in its `mPlayChannel`. -/
structure Reply where
  handle : ℕ
  result : ℤ
  address : ℕ
  playChannel : ℤ

variable {C : Type*} [DecidableEq C]

namespace Network

def set (w : Network C) (c : C) (f : JAConnect → JAConnect) : Network C :=
  { w with client := Function.update w.client c (f (w.client c)) }

/-- A call through `mP2p`; with the old library the result is the library's. -/
def call {α : Type*} (w : Network C) (c : C) (f : JAP2PConnector2 C → JAP2PConnector2 C × α)
    (r : α) : Network C × α :=
  match (w.client c).mP2p with
  | some (.KCP_P2P k) =>
    match w.connector k with
    | some p => ({ w with connector := Function.update w.connector k (some (f p).1) }, (f p).2)
    | none => (w, r)
  | _ => (w, r)

def search (w : Network C) (t : Target) : Option ℕ :=
  w.g_ListManager.find? fun k =>
    (w.connector k).any fun p => p.CompareConnectStr t.mDeviceID t.mIP t.mPort

def CreateConnector (w : Network C) (t : Target) (a : Reply) : Network C × ℕ :=
  match w.search t with
  | some k =>
    ({ w with connector :=
        Function.update w.connector k ((w.connector k).map fun p => p.UpdateUse true) }, k)
  | none =>
    ({ w with
        connector := Function.update w.connector a.address
          (some (((create a.playChannel).UpdateUse true).UpdateProperty t.mDeviceID t.mIP t.mPort))
        g_ListManager := w.g_ListManager ++ [a.address] }, a.address)

/-- A connector that others use loses one use; the last use closes and deletes it. -/
def DestroyConnector (w : Network C) (c : C) : Network C :=
  match (w.client c).mP2p with
  | none => w
  | some .UDX_P2P => w.set c fun j => { j with mP2p := none }
  | some (.KCP_P2P k) =>
    match w.connector k with
    | none => w
    | some p =>
      if 1 < p.mUse then
        { w with connector := Function.update w.connector k (some (p.UpdateUse false)) }.set c
          fun j => { j with mP2p := none }
      else
        { w with
          connector := Function.update w.connector k none
          g_ListManager := w.g_ListManager.erase k }.set c fun j => { j with mP2p := none }

/-- The connector that `ReConnect` shares, if it does not make a new one. -/
def finds (w : Network C) (c : C) : Option ℕ :=
  if 15 < (w.client c).mDeviceID.length then none else w.search (w.client c).toTarget

def held (w : Network C) (c : C) : Option ℕ := address (w.client c).mP2p

end Network

/-- The use of the old library when the first one cannot find the device, or has
failed and an address is known. -/
def JAConnect.fallsBack (j : JAConnect) : Bool :=
  (j.ret = KP2P_ERR_RESOLVE_FAILED ∧ (address j.mP2p).isSome) ∨ (j.ret < 0 ∧ j.mIP ≠ [])

def JAConnect.failedState (j : JAConnect) : ℤ :=
  if j.ret = 1 ∨ j.ret = KP2P_ERR_TIMEOUT then NET_STATUS_TIMEOUT
  else if j.ret = 2 ∨ j.ret = KP2P_ERR_AUTH_FAILED ∨ j.ret = KP2P_ERR_AUTH2_FAILED then
    NET_STATUS_AUTHOFAIL
  else NET_STATUS_CONNECTFAIL

def JAConnect.push (j : JAConnect) (l : List Instr) : JAConnect := { j with todo := l ++ j.todo }

def toChar (n : ℤ) : UInt8 := UInt8.ofNat (n % 2 ^ 8).toNat

def Network.stopPlayback (w : Network C) (c : C) (a : Reply) : Network C :=
  (w.call c (fun p => p.playBackStop (w.client c).mPlaybackHandle a.result) a.result).1.set c
    fun j => { j with mPlaybackHandle := 0 }

def Network.exec (w : Network C) (c : C) (a : Reply) : Instr → Network C
  | .leaveConnected =>
    if (w.client c).connectNowStates = NET_STATUS_CONNECTED then
      w.set c fun j => j.push (DoDisconnect ++ [.clearStates])
    else w
  | .clearStates => w.set c fun j => { j with connectNowStates := 0 }
  | .ParseConnectString t => w.set c fun j => { j with toTarget := t }
  | .newConnector =>
    if 15 < (w.client c).mDeviceID.length then w.set c fun j => { j with mP2p := some .UDX_P2P }
    else
      let (w, k) := w.CreateConnector (w.client c).toTarget a
      w.set c fun j => { j with mP2p := some (.KCP_P2P k) }
  | .createP2PHandle =>
    let (w, h) := w.call c (fun p => p.createP2PHandle c a.handle) a.handle
    w.set c fun j => { j with mHandle := h }
  | .connect =>
    let j := w.client c
    let (w, r) := w.call c
      (fun p => p.connect j.mDeviceID j.mIP (j.mPort % 2 ^ 16) a.result) a.result
    w.set c fun j => { j with ret := r }
  | .fallback =>
    if (w.client c).fallsBack then
      w.set c fun j => j.push [.useLibrary1, .createP2PHandle, .connect]
    else w
  | .useLibrary1 => (w.DestroyConnector c).set c fun j => { j with mP2p := some .UDX_P2P }
  | .loginP2P =>
    if (w.client c).mVerify = [] ∧ (w.client c).ret = 0 then
      let (w, r) := w.call c (fun p => p.loginP2P a.result) a.result
      w.set c fun j => { j with ret := r }
    else w
  | .settle =>
    if (w.client c).ret = 0 then
      w.set c fun j => { j with mIsConnected := true, connectNowStates := NET_STATUS_CONNECTED }
    else w.set c fun j => { j with connectNowStates := j.failedState }.push DoDisconnect
  | .playBackStop => if (w.client c).mPlaybackHandle ≠ 0 then w.stopPlayback c a else w
  | .release =>
    if (w.client c).mHandle ≠ 0 ∧ (w.client c).mP2p ≠ none then w.DestroyConnector c else w
  | .forget =>
    w.set c fun j => { j with mIsConnected := false, mHandle := 0, mPlaybackHandle := 0 }
  | .openChannel channelNo bOpen =>
    if (w.client c).mP2p = none then w.set c fun j => { j with ret := -2 }
    else
      let (w, r) := w.call c (fun p => p.openChannel channelNo bOpen c a.result) a.result
      w.set c fun j => { j with ret := r }
  | .retry => if (w.client c).ret ≠ 0 then w.set c fun j => j.push ReConnect else w
  | .DoStartPlayback channelNo =>
    if (w.client c).mIsConnected = false ∨ (w.client c).mP2p = none then w
    else
      let (w, r) := w.call c (fun p => p.playBackStart (toChar channelNo) c a.result) a.result
      w.set c fun j => { j with mPlaybackHandle := r }
  | .DoStopPlayback =>
    if (w.client c).mPlaybackHandle ≠ 0 ∧ (w.client c).mP2p ≠ none then w.stopPlayback c a else w

/-- A client takes a command off its queue or runs its next instruction, or the
library reports that the session of a connector has dropped. -/
inductive Act (C : Type*) where
  | take (c : C) (cmd : Cmd)
  | run (c : C) (a : Reply)
  | OnKDisconnect (k : ℕ)

def Network.next (w : Network C) (c : C) : Option Instr := (w.client c).todo.head?

/-- An address that `new` returns is not in use. -/
def Network.step (w : Network C) : Act C → Option (Network C)
  | .take c cmd =>
    if (w.client c).todo = [] then some (w.set c fun j => { j with todo := cmd.body }) else none
  | .run c a =>
    match (w.client c).todo with
    | [] => none
    | i :: rest =>
      if i = .newConnector → w.connector a.address = none then
        some ((w.set c fun j => { j with todo := rest }).exec c a i)
      else none
  | .OnKDisconnect k =>
    (w.connector k).map fun p =>
      { w with connector := Function.update w.connector k (some p.ResetConnection) }

def camera : Target where
  mDeviceID := [49]
  mIP := []
  mPort := 0
  mVerify := [118]
  mUser := []
  mPwd := []

def reply (r : ℤ) (address : ℕ) : Reply := ⟨1, r, address, 0⟩

def connects (c : Bool) (address : ℕ) : List (Act Bool) :=
  .take c (.CMD_CONNECT camera) :: List.replicate 8 (.run c (reply 0 address))

end Jagles.Clients
