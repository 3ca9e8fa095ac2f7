import Jagles.KeyedTable

set_option autoImplicit false
set_option linter.dupNamespace false

/-!
# The shared connector (`JAP2PConnector2`)

One `JAP2PConnector2` stands for one session with a device and is shared by all the
clients of that device. `_ctx` says which client a callback goes to. What the p2p
library returns is an argument of each call; a handle is zero when it is `NULL`.
-/
namespace Jagles.Connector
open KeyedTable

inductive CtxType where
  | CTX_TYPE_LIVE
  | CTX_TYPE_PLAYBACk
  | CTX_TYPE_TALK
  | CTX_TYPE_GLOBAL
  deriving DecidableEq

structure NEWP2PCTX (Ctx : Type*) where
  ctx : Ctx
  index : ℤ
  type : CtxType
  deriving DecidableEq

def NEWP2PCTX.key {Ctx : Type*} (e : NEWP2PCTX Ctx) : ℤ × CtxType := (e.index, e.type)

/-- The value of `mConnectResult` and `mLoginResult` while there is no result. -/
def noResult : ℤ := 0x12345678

def JA_CONNECT_ERROR_UNKNOW : ℤ := 100

def toShort (n : ℤ) : ℤ := (n + 2 ^ 15) % 2 ^ 16 - 2 ^ 15

def toInt (n : UInt32) : ℤ := (n.toNat + 2 ^ 31) % 2 ^ 32 - 2 ^ 31

inductive Callback where
  | OnKConnect
  | OnKDisconnect
  | OnKLoginResult
  | OnKPtzResult
  | OnKOpenChannel (channel : UInt32)
  | OnKRecvFrame
  | OnKRecvFrameEx (frame_type channel : UInt32)
  | OnKRecvRecFrame (channel : UInt32)
  | OnKVconRecv
  | OnKRemoteSetup
  | OnKP2PError

structure JAP2PConnector2 (Ctx : Type*) where
  mHandle : ℕ
  mDeviceID : List UInt8
  mIP : List UInt8
  mPort : ℤ
  mUse : ℤ
  mConnectResult : ℤ
  mLoginResult : ℤ
  mPlayChannel : ℤ
  mDoneDisconnect : Bool
  _ctx : List (NEWP2PCTX Ctx)

variable {Ctx : Type*} [DecidableEq Ctx]

/-- The constructor; `mPlayChannel` is left as the allocation had it. -/
def create (playChannel : ℤ) : JAP2PConnector2 Ctx where
  mHandle := 0
  mDeviceID := []
  mIP := []
  mPort := 0
  mUse := 0
  mConnectResult := noResult
  mLoginResult := noResult
  mPlayChannel := playChannel
  mDoneDisconnect := false
  _ctx := []

namespace JAP2PConnector2

def GetCtx (p : JAP2PConnector2 Ctx) (channel : ℤ) (type : CtxType) : Option Ctx :=
  (lookup NEWP2PCTX.key p._ctx (channel, type)).map NEWP2PCTX.ctx

def AddCtx (p : JAP2PConnector2 Ctx) (ctx : Ctx) (channel : ℤ) (type : CtxType) :
    JAP2PConnector2 Ctx :=
  if p.GetCtx channel type = some ctx then p
  else { p with _ctx := p._ctx ++ [⟨ctx, channel, type⟩] }

def DelCtx (p : JAP2PConnector2 Ctx) (channel : ℤ) (type : CtxType) : JAP2PConnector2 Ctx :=
  { p with _ctx := p._ctx.eraseP fun e => decide (e.key = (channel, type)) }

/-- `h` is what `kp2p_create` returns. A handle whose session has dropped is
closed and replaced. -/
def createP2PHandle (p : JAP2PConnector2 Ctx) (ctx : Ctx) (h : ℕ) : JAP2PConnector2 Ctx × ℕ :=
  if p.mHandle ≠ 0 ∧ p.mDoneDisconnect = false then (p, p.mHandle)
  else
    let p := if p.mDoneDisconnect = true ∧ p.mHandle ≠ 0 then { p with mDoneDisconnect := false }
      else p
    ({ p.AddCtx ctx 0 .CTX_TYPE_GLOBAL with mHandle := h }, h)

def UpdateProperty (p : JAP2PConnector2 Ctx) (devid ipaddr : List UInt8) (port : ℤ) :
    JAP2PConnector2 Ctx :=
  { p with
    mDeviceID := devid.take 20
    mIP := ipaddr.take 80
    mPort := if port ≠ 0 then toShort port else p.mPort }

/-- `connect2` and `connect3`: `r` is what `kp2p_connect2` or `kp2p_connect` returns,
if it is called. -/
def connect (p : JAP2PConnector2 Ctx) (devid ipaddr : List UInt8) (port : ℤ) (r : ℤ) :
    JAP2PConnector2 Ctx × ℤ :=
  if p.mHandle = 0 then (p, -1)
  else if p.mConnectResult ≠ noResult then (p, p.mConnectResult)
  else ({ p.UpdateProperty devid ipaddr port with mConnectResult := r }, r)

/-- `r` is what `kp2p_login` returns, if it is called. -/
def loginP2P (p : JAP2PConnector2 Ctx) (r : ℤ) : JAP2PConnector2 Ctx × ℤ :=
  if p.mHandle = 0 then (p, JA_CONNECT_ERROR_UNKNOW)
  else if p.mLoginResult ≠ noResult then (p, p.mLoginResult)
  else ({ p with mLoginResult := r }, r)

def resetCallbacks (p : JAP2PConnector2 Ctx) : List Ctx :=
  (p._ctx.filter fun e => decide (e.type ≠ .CTX_TYPE_GLOBAL)).map NEWP2PCTX.ctx

def ResetConnection (p : JAP2PConnector2 Ctx) : JAP2PConnector2 Ctx :=
  { p with
    mConnectResult := noResult
    mLoginResult := noResult
    mDoneDisconnect := true }

def closeP2P (p : JAP2PConnector2 Ctx) : JAP2PConnector2 Ctx :=
  if p.mHandle = 0 then p
  else
    { p with
      mHandle := 0
      mConnectResult := noResult
      mLoginResult := noResult
      _ctx := [] }

/-- The entry that `openChannel` takes out first: the client's live entry for
another channel. -/
def leaves (ctx : Ctx) (nChannelId : ℤ) (e : NEWP2PCTX Ctx) : Bool :=
  decide (e.ctx = ctx ∧ e.type = .CTX_TYPE_LIVE ∧ e.index ≠ nChannelId)

/-- `r` is what `kp2p_open_stream` or the last `kp2p_close_stream` returns. -/
def openChannel (p : JAP2PConnector2 Ctx) (nChannelId : ℤ) (bOpen : ℤ) (ctx : Ctx) (r : ℤ) :
    JAP2PConnector2 Ctx × ℤ :=
  if p.mHandle = 0 then (p, -1)
  else if bOpen = 1 then
    let p := { p with _ctx := p._ctx.eraseP (leaves ctx nChannelId) }
    (p.AddCtx ctx nChannelId .CTX_TYPE_LIVE, r)
  else (p.DelCtx nChannelId .CTX_TYPE_LIVE, r)

/-- `r` is what `kp2p_rec_play_start` returns. -/
def playBackStart (p : JAP2PConnector2 Ctx) (chn : UInt8) (ctx : Ctx) (r : ℤ) :
    JAP2PConnector2 Ctx × ℤ :=
  if p.mHandle = 0 then (p, -1)
  else ({ p with mPlayChannel := chn.toNat }.AddCtx ctx chn.toNat .CTX_TYPE_PLAYBACk, r)

/-- The channel it forgets is the one started last, whoever stops. -/
def playBackStop (p : JAP2PConnector2 Ctx) (playBack_handle : ℤ) (r : ℤ) :
    JAP2PConnector2 Ctx × ℤ :=
  if playBack_handle = 0 then (p, -2) else (p.DelCtx p.mPlayChannel .CTX_TYPE_PLAYBACk, r)

def OnKRecvFrameEx (p : JAP2PConnector2 Ctx) (frame_type channel : UInt32) : Option Ctx :=
  p.GetCtx (if frame_type = 15 then 0 else toInt channel) .CTX_TYPE_LIVE

/-- The clients that a callback of the library is passed on to. -/
def receivers (p : JAP2PConnector2 Ctx) : Callback → List Ctx
  | .OnKConnect | .OnKLoginResult | .OnKPtzResult | .OnKVconRecv | .OnKRemoteSetup
  | .OnKP2PError => (p.GetCtx 0 .CTX_TYPE_GLOBAL).toList
  | .OnKDisconnect => (p.GetCtx 0 .CTX_TYPE_GLOBAL).toList ++ p.resetCallbacks
  | .OnKOpenChannel channel => (p.GetCtx (toInt channel) .CTX_TYPE_LIVE).toList
  | .OnKRecvFrame => (p.GetCtx 0 .CTX_TYPE_LIVE).toList
  | .OnKRecvFrameEx frame_type channel => (p.OnKRecvFrameEx frame_type channel).toList
  | .OnKRecvRecFrame channel => (p.GetCtx (toInt channel) .CTX_TYPE_PLAYBACk).toList

def sameText (a b : List UInt8) : Bool :=
  let lower (c : UInt8) : UInt8 := if 65 ≤ c ∧ c ≤ 90 then c + 32 else c
  decide (a.map lower = b.map lower)

/-- The port is an `unsigned short` here and a `short` in the connector. -/
def CompareConnectStr (p : JAP2PConnector2 Ctx) (devid ipaddr : List UInt8) (port : ℤ) : Bool :=
  if p.mDeviceID = [] ∧ p.mIP = [] then false
  else if p.mDeviceID = [] then sameText ipaddr p.mIP && decide (p.mPort = port % 2 ^ 16)
  else sameText devid p.mDeviceID

def UpdateUse (p : JAP2PConnector2 Ctx) (add : Bool) : JAP2PConnector2 Ctx :=
  { p with mUse := max 0 (if add then p.mUse + 1 else p.mUse - 1) }

section Table
variable {p : JAP2PConnector2 Ctx} {ctx : Ctx} {channel : ℤ} {type : CtxType}

omit [DecidableEq Ctx] in
theorem GetCtx_congr {q : JAP2PConnector2 Ctx} (h : q._ctx = p._ctx) :
    q.GetCtx channel type = p.GetCtx channel type := by
  unfold GetCtx
  rw [h]

theorem AddCtx_congr {q : JAP2PConnector2 Ctx} (h : q._ctx = p._ctx) :
    (q.AddCtx ctx channel type)._ctx = (p.AddCtx ctx channel type)._ctx := by
  unfold AddCtx
  rw [GetCtx_congr h]
  split
  · exact h
  · simp only [h]

theorem createP2PHandle_ctx (p : JAP2PConnector2 Ctx) (ctx : Ctx) (h : ℕ) :
    (p.createP2PHandle ctx h).1._ctx =
      if p.mHandle ≠ 0 ∧ p.mDoneDisconnect = false then p._ctx
      else (p.AddCtx ctx 0 .CTX_TYPE_GLOBAL)._ctx := by
  unfold createP2PHandle
  split
  · rfl
  · apply AddCtx_congr
    split
    · rfl
    · rfl

omit [DecidableEq Ctx] in
theorem GetCtx_mem {x : Ctx} (h : p.GetCtx channel type = some x) : ∃ e ∈ p._ctx, e.ctx = x := by
  obtain ⟨e, he, hx⟩ := Option.map_eq_some_iff.mp h
  exact ⟨e, (lookup_mem he).1, hx⟩

omit [DecidableEq Ctx] in
theorem receivers_mem {cb : Callback} {x : Ctx} (h : x ∈ p.receivers cb) :
    ∃ e ∈ p._ctx, e.ctx = x := by
  cases cb with
  | OnKDisconnect =>
    simp only [receivers, List.mem_append, Option.mem_toList] at h
    cases h with
    | inl hglobal => exact GetCtx_mem hglobal
    | inr hreset =>
      obtain ⟨e, he, hx⟩ := List.mem_map.mp hreset
      exact ⟨e, List.mem_of_mem_filter he, hx⟩
  | OnKRecvFrameEx frame_type channel =>
    simp only [receivers, OnKRecvFrameEx, Option.mem_toList] at h
    exact GetCtx_mem h
  | _ =>
    simp only [receivers, Option.mem_toList] at h
    exact GetCtx_mem h

theorem mem_AddCtx {e : NEWP2PCTX Ctx} (he : e ∈ (p.AddCtx ctx channel type)._ctx) :
    e ∈ p._ctx ∨ e.ctx = ctx := by
  unfold AddCtx at he
  split at he
  · exact .inl he
  · rw [List.mem_append, List.mem_singleton] at he
    cases he with
    | inl hold => exact .inl hold
    | inr hnew => exact .inr (congrArg NEWP2PCTX.ctx hnew)

theorem mem_createP2PHandle {e : NEWP2PCTX Ctx} {h : ℕ}
    (he : e ∈ (p.createP2PHandle ctx h).1._ctx) : e ∈ p._ctx ∨ e.ctx = ctx := by
  rw [createP2PHandle_ctx] at he
  split at he
  · exact .inl he
  · exact mem_AddCtx he

theorem mem_openChannel {e : NEWP2PCTX Ctx} {nChannelId bOpen r : ℤ}
    (he : e ∈ (p.openChannel nChannelId bOpen ctx r).1._ctx) : e ∈ p._ctx ∨ e.ctx = ctx := by
  unfold openChannel at he
  split at he
  · exact .inl he
  · split at he
    · cases mem_AddCtx he with
      | inl hold => exact .inl (List.mem_of_mem_eraseP hold)
      | inr hown => exact .inr hown
    · exact .inl (List.mem_of_mem_eraseP he)

theorem mem_playBackStart {e : NEWP2PCTX Ctx} {chn : UInt8} {r : ℤ}
    (he : e ∈ (p.playBackStart chn ctx r).1._ctx) : e ∈ p._ctx ∨ e.ctx = ctx := by
  unfold playBackStart at he
  split at he
  · exact .inl he
  · have hadd := mem_AddCtx he
    exact hadd

omit [DecidableEq Ctx] in
theorem mem_playBackStop {e : NEWP2PCTX Ctx} {playBack_handle r : ℤ}
    (he : e ∈ (p.playBackStop playBack_handle r).1._ctx) : e ∈ p._ctx := by
  unfold playBackStop at he
  split at he
  · exact he
  · exact List.mem_of_mem_eraseP he

end Table

/-! What each call leaves as it was. -/

variable (p : JAP2PConnector2 Ctx)

theorem AddCtx_eq (ctx : Ctx) (channel : ℤ) (type : CtxType) :
    p.AddCtx ctx channel type = { p with _ctx := (p.AddCtx ctx channel type)._ctx } := by
  unfold AddCtx
  split
  · rfl
  · rfl

theorem createP2PHandle_eq (ctx : Ctx) (h : ℕ) :
    (p.createP2PHandle ctx h).1 =
      { p with
        mHandle := (p.createP2PHandle ctx h).1.mHandle
        mDoneDisconnect := (p.createP2PHandle ctx h).1.mDoneDisconnect
        _ctx := (p.createP2PHandle ctx h).1._ctx } := by
  unfold createP2PHandle
  split
  · rfl
  · dsimp only
    rw [AddCtx_eq]
    split
    · rfl
    · rfl

omit [DecidableEq Ctx] in
theorem connect_eq (devid ipaddr : List UInt8) (port r : ℤ) :
    (p.connect devid ipaddr port r).1 =
      { p with
        mDeviceID := (p.connect devid ipaddr port r).1.mDeviceID
        mIP := (p.connect devid ipaddr port r).1.mIP
        mPort := (p.connect devid ipaddr port r).1.mPort
        mConnectResult := (p.connect devid ipaddr port r).1.mConnectResult } := by
  unfold connect
  repeat' split
  all_goals rfl

omit [DecidableEq Ctx] in
theorem connect_ctx (devid ipaddr : List UInt8) (port r : ℤ) :
    (p.connect devid ipaddr port r).1._ctx = p._ctx := by
  rw [connect_eq]

omit [DecidableEq Ctx] in
theorem loginP2P_eq (r : ℤ) :
    (p.loginP2P r).1 = { p with mLoginResult := (p.loginP2P r).1.mLoginResult } := by
  unfold loginP2P
  repeat' split
  all_goals rfl

omit [DecidableEq Ctx] in
theorem loginP2P_ctx (r : ℤ) : (p.loginP2P r).1._ctx = p._ctx := by
  rw [loginP2P_eq]

theorem openChannel_eq (nChannelId bOpen : ℤ) (ctx : Ctx) (r : ℤ) :
    (p.openChannel nChannelId bOpen ctx r).1 =
      { p with _ctx := (p.openChannel nChannelId bOpen ctx r).1._ctx } := by
  unfold openChannel
  split
  · rfl
  · split
    · exact AddCtx_eq _ ctx nChannelId .CTX_TYPE_LIVE
    · rfl

theorem playBackStart_eq (chn : UInt8) (ctx : Ctx) (r : ℤ) :
    (p.playBackStart chn ctx r).1 =
      { p with
        mPlayChannel := (p.playBackStart chn ctx r).1.mPlayChannel
        _ctx := (p.playBackStart chn ctx r).1._ctx } := by
  unfold playBackStart
  split
  · rfl
  · dsimp only
    rw [AddCtx_eq]

omit [DecidableEq Ctx] in
theorem playBackStop_eq (playBack_handle r : ℤ) :
    (p.playBackStop playBack_handle r).1 =
      { p with _ctx := (p.playBackStop playBack_handle r).1._ctx } := by
  unfold playBackStop
  split
  · rfl
  · rfl

end JAP2PConnector2
end Jagles.Connector
