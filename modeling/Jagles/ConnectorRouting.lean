import Jagles.Connector
import Jagles.GuardedRuns

set_option autoImplicit false
set_option linter.dupNamespace false

/-!
# Who gets the frames of a channel

`routes` is what the context table is for: for each channel the client that opened
it last and has neither closed it nor gone to another channel. The table follows it
as long as no call comes between a client and an entry of another client.
-/
namespace Jagles.Connector
open KeyedTable GuardedRuns

variable {Ctx : Type*} [DecidableEq Ctx]

/-- A call by a client or an event of the library, with the library's answer. -/
inductive Call (Ctx : Type*) where
  | createP2PHandle (ctx : Ctx) (h : ℕ)
  | connect2 (devid ipaddr : List UInt8) (port : ℤ) (verify_str : List UInt8) (r : ℤ)
  | connect3 (devid ipaddr : List UInt8) (port : ℤ) (r : ℤ)
  | loginP2P (user pwd : List UInt8) (r : ℤ)
  | openChannel (nChannelId nStreamId bOpen : ℤ) (ctx : Ctx) (r : ℤ)
  | playBackStart (chn : UInt8) (ctx : Ctx) (r : ℤ)
  | playBackStop (playBack_handle : ℤ) (r : ℤ)
  | closeP2P
  | OnKDisconnect (ret : ℤ)

def JAP2PConnector2.call (p : JAP2PConnector2 Ctx) : Call Ctx → JAP2PConnector2 Ctx
  | .createP2PHandle ctx h => (p.createP2PHandle ctx h).1
  | .connect2 devid ipaddr port _ r | .connect3 devid ipaddr port r =>
    (p.connect devid ipaddr port r).1
  | .loginP2P _ _ r => (p.loginP2P r).1
  | .openChannel nChannelId _ bOpen ctx r => (p.openChannel nChannelId bOpen ctx r).1
  | .playBackStart chn ctx r => (p.playBackStart chn ctx r).1
  | .playBackStop playBack_handle r => (p.playBackStop playBack_handle r).1
  | .closeP2P => p.closeP2P
  | .OnKDisconnect _ => p.ResetConnection

/-- What a call means for the channels of a connector with handle `mHandle`. -/
def reroute (mHandle : ℕ) (routes : ℤ → Option Ctx) : Call Ctx → ℤ → Option Ctx
  | .openChannel nChannelId _ bOpen ctx _, c =>
    if mHandle = 0 then routes c
    else if bOpen = 1 then
      if c = nChannelId then some ctx else (routes c).filter fun x => decide (x ≠ ctx)
    else if c = nChannelId then (routes c).filter fun x => decide (x ≠ ctx) else routes c
  | .closeP2P, c => if mHandle = 0 then routes c else none
  | _, c => routes c

structure Session (Ctx : Type*) where
  connector : JAP2PConnector2 Ctx
  routes : ℤ → Option Ctx

def Session.start (playChannel : ℤ) : Session Ctx := ⟨create playChannel, fun _ => none⟩

def Session.step (s : Session Ctx) (c : Call Ctx) : Option (Session Ctx) :=
  some ⟨s.connector.call c, reroute s.connector.mHandle s.routes c⟩

def JAP2PConnector2.Free (p : JAP2PConnector2 Ctx) (ctx : Ctx) (channel : ℤ) (type : CtxType) :
    Prop := ∀ x ∈ p.GetCtx channel type, x = ctx

/-- The condition on one call: it meets no entry of another client, and a channel is
opened on a connector that has a handle. -/
def Undisputed (p : JAP2PConnector2 Ctx) : Call Ctx → Prop
  | .createP2PHandle ctx _ =>
    p.mHandle = 0 ∨ p.mDoneDisconnect = true → p.Free ctx 0 .CTX_TYPE_GLOBAL
  | .openChannel nChannelId _ bOpen ctx _ =>
    (bOpen = 1 → p.mHandle ≠ 0) ∧ (p.mHandle ≠ 0 → p.Free ctx nChannelId .CTX_TYPE_LIVE)
  | .playBackStart chn ctx _ => p.mHandle ≠ 0 → p.Free ctx chn.toNat .CTX_TYPE_PLAYBACk
  | _ => True

instance (p : JAP2PConnector2 Ctx) (ctx : Ctx) (channel : ℤ) (type : CtxType) :
    Decidable (p.Free ctx channel type) :=
  inferInstanceAs (Decidable (∀ x ∈ p.GetCtx channel type, x = ctx))

instance (p : JAP2PConnector2 Ctx) : (c : Call Ctx) → Decidable (Undisputed p c)
  | .createP2PHandle ctx _ => inferInstanceAs
    (Decidable (p.mHandle = 0 ∨ p.mDoneDisconnect = true → p.Free ctx 0 .CTX_TYPE_GLOBAL))
  | .openChannel nChannelId _ bOpen ctx _ => inferInstanceAs (Decidable
    ((bOpen = 1 → p.mHandle ≠ 0) ∧ (p.mHandle ≠ 0 → p.Free ctx nChannelId .CTX_TYPE_LIVE)))
  | .playBackStart chn ctx _ => inferInstanceAs
    (Decidable (p.mHandle ≠ 0 → p.Free ctx chn.toNat .CTX_TYPE_PLAYBACk))
  | .connect2 .. | .connect3 .. | .loginP2P .. | .playBackStop .. | .closeP2P
  | .OnKDisconnect .. => inferInstanceAs (Decidable True)

/-- One entry for each channel and type, and one live entry for each client. -/
structure TableOk (t : List (NEWP2PCTX Ctx)) : Prop where
  distinct : DistinctKeys NEWP2PCTX.key t
  live : ∀ e ∈ t, ∀ e' ∈ t, e.type = .CTX_TYPE_LIVE → e'.type = .CTX_TYPE_LIVE →
    e.ctx = e'.ctx → e = e'

omit [DecidableEq Ctx] in
theorem TableOk.sublist {t t' : List (NEWP2PCTX Ctx)} (h : TableOk t) (hs : t'.Sublist t) :
    TableOk t' :=
  ⟨h.distinct.sublist hs, fun e he e' he' => h.live e (hs.subset he) e' (hs.subset he')⟩

namespace JAP2PConnector2
variable {p : JAP2PConnector2 Ctx} {ctx : Ctx} {channel : ℤ} {type : CtxType}

omit [DecidableEq Ctx] in
theorem GetCtx_eq_none : p.GetCtx channel type = none ↔
    lookup NEWP2PCTX.key p._ctx (channel, type) = none := by
  unfold GetCtx
  exact Option.map_eq_none_iff

theorem AddCtx_cases (hfree : p.Free ctx channel type) :
    (p.GetCtx channel type = some ctx ∧ p.AddCtx ctx channel type = p) ∨
      (p.GetCtx channel type = none ∧
        p.AddCtx ctx channel type = { p with _ctx := p._ctx ++ [⟨ctx, channel, type⟩] }) := by
  cases hg : p.GetCtx channel type with
  | none =>
    refine .inr ⟨rfl, ?_⟩
    simp [AddCtx, hg]
  | some x =>
    obtain rfl := hfree x hg
    refine .inl ⟨rfl, ?_⟩
    simp [AddCtx, hg]

theorem AddCtx_distinct (h : DistinctKeys NEWP2PCTX.key p._ctx)
    (hfree : p.Free ctx channel type) :
    DistinctKeys NEWP2PCTX.key (p.AddCtx ctx channel type)._ctx := by
  rcases AddCtx_cases hfree with ⟨-, heq⟩ | ⟨hnone, heq⟩
  · rw [heq]
    exact h
  · rw [heq]
    exact h.snoc (GetCtx_eq_none.mp hnone)

theorem GetCtx_AddCtx_self : (p.AddCtx ctx channel type).GetCtx channel type =
    (p.GetCtx channel type).or (some ctx) := by
  unfold AddCtx
  split
  · rename_i hsame
    rw [hsame]
    rfl
  · have hkey : NEWP2PCTX.key (⟨ctx, channel, type⟩ : NEWP2PCTX Ctx) = (channel, type) := rfl
    unfold GetCtx
    rw [lookup_snoc, hkey, if_pos rfl]
    cases lookup NEWP2PCTX.key p._ctx (channel, type) with
    | none => rfl
    | some e => rfl

theorem GetCtx_AddCtx_other {c : ℤ} {ty : CtxType} (h : (channel, type) ≠ (c, ty)) :
    (p.AddCtx ctx channel type).GetCtx c ty = p.GetCtx c ty := by
  unfold AddCtx
  split
  · rfl
  · have hkey : NEWP2PCTX.key (⟨ctx, channel, type⟩ : NEWP2PCTX Ctx) = (channel, type) := rfl
    unfold GetCtx
    rw [lookup_snoc, hkey, if_neg h, Option.or_none]

theorem GetCtx_AddCtx (hfree : p.Free ctx channel type) (c : ℤ) (ty : CtxType) :
    (p.AddCtx ctx channel type).GetCtx c ty =
      if c = channel ∧ ty = type then some ctx else p.GetCtx c ty := by
  by_cases hc : c = channel ∧ ty = type
  · obtain ⟨rfl, rfl⟩ := hc
    rw [if_pos ⟨rfl, rfl⟩, GetCtx_AddCtx_self]
    cases hg : p.GetCtx c ty with
    | none => rfl
    | some x =>
      obtain rfl := hfree x hg
      rfl
  · rw [if_neg hc]
    refine GetCtx_AddCtx_other fun hkey => hc ?_
    exact ⟨(Prod.mk.inj hkey).1.symm, (Prod.mk.inj hkey).2.symm⟩

omit [DecidableEq Ctx] in
theorem GetCtx_DelCtx_other {c : ℤ} {ty : CtxType} (h : (channel, type) ≠ (c, ty)) :
    (p.DelCtx channel type).GetCtx c ty = p.GetCtx c ty := by
  unfold GetCtx
  refine congrArg _ (lookup_eraseP fun e he heq => h ?_)
  exact (of_decide_eq_true he).symm.trans heq

omit [DecidableEq Ctx] in
theorem DelCtx_ctx (h : DistinctKeys NEWP2PCTX.key p._ctx) :
    (p.DelCtx channel type)._ctx =
      p._ctx.filter fun e => !decide (e.key = (channel, type)) := by
  refine eraseP_eq_filter h.nodup ?_
  intro e he e' he' hk hk'
  exact h.inj he he' ((of_decide_eq_true hk).trans (of_decide_eq_true hk').symm)

omit [DecidableEq Ctx] in
theorem GetCtx_DelCtx (h : DistinctKeys NEWP2PCTX.key p._ctx) (c : ℤ) (ty : CtxType) :
    (p.DelCtx channel type).GetCtx c ty =
      if c = channel ∧ ty = type then none else p.GetCtx c ty := by
  unfold GetCtx
  rw [DelCtx_ctx h, lookup_filter h]
  cases hl : lookup NEWP2PCTX.key p._ctx (c, ty) with
  | none => simp
  | some e =>
    have hk := (lookup_mem hl).2
    by_cases hc : c = channel ∧ ty = type
    · rw [if_pos hc]
      simp [hk, hc]
    · have hkey : ¬ (c, ty) = (channel, type) := by simpa using hc
      rw [if_neg hc]
      simp [hk, hkey]

theorem eraseP_leaves (h : TableOk p._ctx) (nChannelId : ℤ) :
    p._ctx.eraseP (leaves ctx nChannelId) =
      p._ctx.filter fun e => !leaves ctx nChannelId e := by
  refine eraseP_eq_filter h.distinct.nodup ?_
  intro e he e' he' hl hl'
  obtain ⟨hc, ht, -⟩ := of_decide_eq_true hl
  obtain ⟨hc', ht', -⟩ := of_decide_eq_true hl'
  exact h.live e he e' he' ht ht' (hc.trans hc'.symm)

theorem AddCtx_tableOk (h : TableOk p._ctx) (hfree : p.Free ctx channel type)
    (hlive : type = .CTX_TYPE_LIVE → ∀ e ∈ p._ctx, e.type = .CTX_TYPE_LIVE → e.ctx = ctx →
      e.index = channel) :
    TableOk (p.AddCtx ctx channel type)._ctx := by
  refine ⟨AddCtx_distinct h.distinct hfree, ?_⟩
  rcases AddCtx_cases hfree with ⟨-, heq⟩ | ⟨hnone, heq⟩
  · rw [heq]
    exact h.live
  · rw [heq]
    -- an old live entry of the client would have the key that is not in the table
    have hold : ∀ e ∈ p._ctx, e.type = .CTX_TYPE_LIVE → type = .CTX_TYPE_LIVE → e.ctx ≠ ctx := by
      intro e he het hty hctx
      have hkey : e.key = (channel, type) := by
        rw [NEWP2PCTX.key, hlive hty e he het hctx, het, hty]
      exact lookup_eq_none.mp (GetCtx_eq_none.mp hnone) e he hkey
    intro e he e' he' ht ht' hctx
    rw [List.mem_append, List.mem_singleton] at he he'
    cases he with
    | inl he =>
      cases he' with
      | inl he' => exact h.live e he e' he' ht ht' hctx
      | inr he' =>
        subst he'
        exact absurd hctx (hold e he ht ht')
    | inr he =>
      subst he
      cases he' with
      | inl he' => exact absurd hctx.symm (hold e' he' ht' ht)
      | inr he' => exact he'.symm

theorem GetCtx_left (h : TableOk p._ctx) (nChannelId c : ℤ) :
    GetCtx { p with _ctx := p._ctx.eraseP (leaves ctx nChannelId) } c .CTX_TYPE_LIVE =
      if c = nChannelId then p.GetCtx c .CTX_TYPE_LIVE
      else (p.GetCtx c .CTX_TYPE_LIVE).filter fun x => decide (x ≠ ctx) := by
  simp only [GetCtx]
  rw [eraseP_leaves h, lookup_filter h.distinct]
  cases hl : lookup NEWP2PCTX.key p._ctx (c, .CTX_TYPE_LIVE) with
  | none => simp
  | some e =>
    have hk := (lookup_mem hl).2
    simp only [NEWP2PCTX.key, Prod.mk.injEq] at hk
    by_cases hc : c = nChannelId
    · simp [leaves, hk, hc]
    · by_cases hx : e.ctx = ctx
      · simp [Option.filter_some, leaves, hk, hc, hx]
      · simp [Option.filter_some, leaves, hk, hc, hx]

omit [DecidableEq Ctx] in
theorem close_keeps (h : TableOk p._ctx) (hfree : p.Free ctx channel .CTX_TYPE_LIVE)
    {e : NEWP2PCTX Ctx} (he : e ∈ p._ctx) (hctx : e.ctx ≠ ctx) :
    e ∈ (p.DelCtx channel .CTX_TYPE_LIVE)._ctx := by
  rw [DelCtx_ctx h.distinct, List.mem_filter]
  refine ⟨he, ?_⟩
  have hkey : e.key ≠ (channel, .CTX_TYPE_LIVE) := by
    intro hk
    have hget : p.GetCtx channel .CTX_TYPE_LIVE = some e.ctx := by
      unfold GetCtx
      rw [h.distinct.lookup_eq he hk]
      rfl
    exact hctx (hfree e.ctx hget)
  simp [hkey]

theorem open_spec (h : TableOk p._ctx) (hfree : p.Free ctx channel .CTX_TYPE_LIVE) :
    let q : JAP2PConnector2 Ctx := { p with _ctx := p._ctx.eraseP (leaves ctx channel) }
    TableOk (q.AddCtx ctx channel .CTX_TYPE_LIVE)._ctx ∧
      ∀ c, (q.AddCtx ctx channel .CTX_TYPE_LIVE).GetCtx c .CTX_TYPE_LIVE =
        if c = channel then some ctx
        else (p.GetCtx c .CTX_TYPE_LIVE).filter fun x => decide (x ≠ ctx) := by
  intro q
  have hq : q._ctx = p._ctx.filter fun e => !leaves ctx channel e := eraseP_leaves h channel
  have hqfree : q.Free ctx channel .CTX_TYPE_LIVE := by
    intro x hx
    rw [GetCtx_left h channel channel, if_pos rfl] at hx
    exact hfree x hx
  constructor
  · apply AddCtx_tableOk _ hqfree
    · intro _ e he ht hctx
      rw [hq, List.mem_filter] at he
      simpa [leaves, ht, hctx] using he.2
    · rw [hq]
      exact h.sublist List.filter_sublist
  · intro c
    rw [GetCtx_AddCtx hqfree, GetCtx_left h channel c]
    by_cases hc : c = channel
    · simp [hc]
    · simp [hc]

end JAP2PConnector2

/-- The table is a map, and it says of each channel what `routes` says. -/
structure Followed (s : Session Ctx) : Prop where
  table : TableOk s.connector._ctx
  live : ∀ c, s.connector.GetCtx c .CTX_TYPE_LIVE = s.routes c

omit [DecidableEq Ctx] in
theorem Followed.of_ctx {s t : Session Ctx} (h : Followed s)
    (hctx : t.connector._ctx = s.connector._ctx) (hroutes : t.routes = s.routes) : Followed t := by
  refine ⟨hctx ▸ h.table, ?_⟩
  intro c
  rw [JAP2PConnector2.GetCtx_congr hctx, hroutes]
  exact h.live c

theorem Followed.addCtx {s t : Session Ctx} {ctx : Ctx} {channel : ℤ} {type : CtxType}
    (h : Followed s) (hfree : s.connector.Free ctx channel type) (htype : type ≠ .CTX_TYPE_LIVE)
    (hctx : t.connector._ctx = (s.connector.AddCtx ctx channel type)._ctx)
    (hroutes : t.routes = s.routes) : Followed t := by
  refine ⟨hctx ▸ JAP2PConnector2.AddCtx_tableOk h.table hfree (fun ht => absurd ht htype), ?_⟩
  intro c
  rw [JAP2PConnector2.GetCtx_congr hctx, JAP2PConnector2.GetCtx_AddCtx hfree, hroutes,
    if_neg (fun hc => htype hc.2.symm)]
  exact h.live c

theorem Followed.createP2PHandle {s t : Session Ctx} {ctx : Ctx} {hd : ℕ} (h : Followed s)
    (hc : Undisputed s.connector (.createP2PHandle ctx hd))
    (hs : s.step (.createP2PHandle ctx hd) = some t) : Followed t := by
  obtain rfl := Option.some.inj hs
  have hctx := s.connector.createP2PHandle_ctx ctx hd
  by_cases hkeep : s.connector.mHandle ≠ 0 ∧ s.connector.mDoneDisconnect = false
  · rw [if_pos hkeep] at hctx
    exact h.of_ctx hctx rfl
  · rw [if_neg hkeep] at hctx
    have hfree : s.connector.Free ctx 0 .CTX_TYPE_GLOBAL := by
      apply hc
      by_contra hn
      rw [not_or] at hn
      exact hkeep ⟨hn.1, Bool.eq_false_iff.mpr hn.2⟩
    exact h.addCtx hfree (by decide) hctx rfl

theorem Followed.openChannel {s t : Session Ctx} {nChannelId nStreamId bOpen : ℤ} {ctx : Ctx}
    {r : ℤ} (h : Followed s)
    (hc : Undisputed s.connector (.openChannel nChannelId nStreamId bOpen ctx r))
    (hs : s.step (.openChannel nChannelId nStreamId bOpen ctx r) = some t) : Followed t := by
  obtain rfl := Option.some.inj hs
  by_cases hh : s.connector.mHandle = 0
  · apply h.of_ctx
    · simp only [JAP2PConnector2.call, JAP2PConnector2.openChannel, if_pos hh]
    · funext c
      simp only [reroute, if_pos hh]
  · have hfree := hc.2 hh
    by_cases ho : bOpen = 1
    · obtain ⟨htable, hget⟩ := JAP2PConnector2.open_spec h.table hfree
      constructor
      · simp only [JAP2PConnector2.call, JAP2PConnector2.openChannel, if_neg hh, if_pos ho]
        exact htable
      · intro c
        simp only [JAP2PConnector2.call, JAP2PConnector2.openChannel, reroute, if_neg hh,
          if_pos ho, hget, h.live]
    · constructor
      · simp only [JAP2PConnector2.call, JAP2PConnector2.openChannel, if_neg hh, if_neg ho]
        exact h.table.sublist List.eraseP_sublist
      · intro c
        simp only [JAP2PConnector2.call, JAP2PConnector2.openChannel, reroute, if_neg hh,
          if_neg ho, JAP2PConnector2.GetCtx_DelCtx h.table.distinct, and_true, h.live]
        by_cases hcn : c = nChannelId
        · -- the entry that goes is the client's own
          subst hcn
          rw [if_pos rfl, if_pos rfl]
          symm
          rw [Option.filter_eq_none_iff]
          intro x hx
          have hown := hfree x ((h.live c).trans hx)
          simp [hown]
        · rw [if_neg hcn, if_neg hcn]

theorem Followed.playBackStart {s t : Session Ctx} {chn : UInt8} {ctx : Ctx} {r : ℤ}
    (h : Followed s) (hc : Undisputed s.connector (.playBackStart chn ctx r))
    (hs : s.step (.playBackStart chn ctx r) = some t) : Followed t := by
  obtain rfl := Option.some.inj hs
  by_cases hh : s.connector.mHandle = 0
  · refine h.of_ctx ?_ rfl
    simp only [JAP2PConnector2.call, JAP2PConnector2.playBackStart, if_pos hh]
  · refine h.addCtx (hc hh) (by decide) ?_ rfl
    simp only [JAP2PConnector2.call, JAP2PConnector2.playBackStart, if_neg hh]
    exact JAP2PConnector2.AddCtx_congr rfl

theorem Followed.playBackStop {s t : Session Ctx} {playBack_handle r : ℤ} (h : Followed s)
    (hs : s.step (.playBackStop playBack_handle r) = some t) : Followed t := by
  obtain rfl := Option.some.inj hs
  by_cases hp : playBack_handle = 0
  · refine h.of_ctx ?_ rfl
    simp only [JAP2PConnector2.call, JAP2PConnector2.playBackStop, if_pos hp]
  · constructor
    · simp only [JAP2PConnector2.call, JAP2PConnector2.playBackStop, if_neg hp]
      exact h.table.sublist List.eraseP_sublist
    · intro c
      simp only [JAP2PConnector2.call, JAP2PConnector2.playBackStop, if_neg hp,
        JAP2PConnector2.GetCtx_DelCtx h.table.distinct, reroute]
      rw [if_neg (fun hk => by cases hk.2)]
      exact h.live c

theorem Followed.closeP2P {s t : Session Ctx} (h : Followed s) (hs : s.step .closeP2P = some t) :
    Followed t := by
  obtain rfl := Option.some.inj hs
  by_cases hh : s.connector.mHandle = 0
  · apply h.of_ctx
    · simp only [JAP2PConnector2.call, JAP2PConnector2.closeP2P, if_pos hh]
    · funext c
      simp only [reroute, if_pos hh]
  · constructor
    · simp only [JAP2PConnector2.call, JAP2PConnector2.closeP2P, if_neg hh]
      exact h.table.sublist (List.nil_sublist _)
    · intro c
      simp [JAP2PConnector2.call, JAP2PConnector2.closeP2P, JAP2PConnector2.GetCtx, lookup,
        reroute, hh]

theorem Followed.step {s t : Session Ctx} {c : Call Ctx} (h : Followed s)
    (hc : Undisputed s.connector c) (hs : s.step c = some t) : Followed t := by
  cases c with
  | createP2PHandle ctx hd => exact h.createP2PHandle hc hs
  | connect2 devid ipaddr port verify_str r =>
    obtain rfl := Option.some.inj hs
    have hctx := s.connector.connect_ctx devid ipaddr port r
    exact h.of_ctx hctx rfl
  | connect3 devid ipaddr port r =>
    obtain rfl := Option.some.inj hs
    have hctx := s.connector.connect_ctx devid ipaddr port r
    exact h.of_ctx hctx rfl
  | loginP2P user pwd r =>
    obtain rfl := Option.some.inj hs
    have hctx := s.connector.loginP2P_ctx r
    exact h.of_ctx hctx rfl
  | openChannel nChannelId nStreamId bOpen ctx r => exact h.openChannel hc hs
  | playBackStart chn ctx r => exact h.playBackStart hc hs
  | playBackStop playBack_handle r => exact h.playBackStop hs
  | closeP2P => exact h.closeP2P hs
  | OnKDisconnect ret =>
    obtain rfl := Option.some.inj hs
    exact h.of_ctx rfl rfl

omit [DecidableEq Ctx] in
theorem Followed.start (playChannel : ℤ) : Followed (Session.start playChannel : Session Ctx) := by
  constructor
  · constructor
    · exact List.nodup_nil
    · intro e he
      cases he
  · intro c
    rfl

/-- The table follows the channels through every run of undisputed calls. -/
theorem routing_follows {playChannel : ℤ} {calls : List (Call Ctx)} {s : Session Ctx}
    (run : Run Session.step (fun s c => Undisputed s.connector c) (Session.start playChannel)
      calls s) :
    TableOk s.connector._ctx ∧
      (∀ frame_type channel : UInt32, s.connector.OnKRecvFrameEx frame_type channel =
        s.routes (if frame_type = 15 then 0 else toInt channel)) ∧
      (∀ (c st : ℤ) (ctx : Ctx) (r : ℤ), Undisputed s.connector (.openChannel c st 1 ctx r) →
        (s.connector.openChannel c 1 ctx r).1.GetCtx c .CTX_TYPE_LIVE = some ctx) ∧
      (∀ (c st bOpen : ℤ) (ctx : Ctx) (r : ℤ), bOpen ≠ 1 →
        Undisputed s.connector (.openChannel c st bOpen ctx r) →
        ∀ e ∈ s.connector._ctx, e.ctx ≠ ctx →
          e ∈ (s.connector.openChannel c bOpen ctx r).1._ctx) := by
  have h : Followed s := run.invariant _ (fun _ _ _ h hc hs => h.step hc hs) (.start playChannel)
  refine ⟨h.table, ?_, ?_, ?_⟩
  · intro frame_type channel
    unfold JAP2PConnector2.OnKRecvFrameEx
    exact h.live _
  · intro c st ctx r hc
    have hh := hc.1 rfl
    obtain ⟨-, hget⟩ := JAP2PConnector2.open_spec h.table (hc.2 hh)
    simp only [JAP2PConnector2.openChannel, if_neg hh, if_true, hget]
  · intro c st bOpen ctx r ho hc e he hctx
    by_cases hh : s.connector.mHandle = 0
    · simp only [JAP2PConnector2.openChannel, if_pos hh]
      exact he
    · simp only [JAP2PConnector2.openChannel, if_neg hh, if_neg ho]
      exact JAP2PConnector2.close_keeps h.table (hc.2 hh) he hctx

theorem routing_follows_two_clients : ∃ s : Session Bool,
    Run Session.step (fun s c => Undisputed s.connector c) (Session.start 0)
      [.createP2PHandle false 1, .openChannel 0 0 1 false 0, .createP2PHandle true 2,
        .openChannel 1 0 1 true 0, .openChannel 2 0 1 false 0] s ∧
    TableOk s.connector._ctx ∧ s.connector.OnKRecvFrameEx 1 0 = none ∧
    s.connector.OnKRecvFrameEx 1 1 = some true ∧ s.connector.OnKRecvFrameEx 1 2 = some false := by
  have hrun : ∃ s : Session Bool,
      Run Session.step (fun s c => Undisputed s.connector c) (Session.start 0)
        [.createP2PHandle false 1, .openChannel 0 0 1 false 0, .createP2PHandle true 2,
          .openChannel 1 0 1 true 0, .openChannel 2 0 1 false 0] s ∧
      s.routes 0 = none ∧ s.routes 1 = some true ∧ s.routes 2 = some false :=
    exists_run (by decide +kernel)
  obtain ⟨s, run, h0, h1, h2⟩ := hrun
  obtain ⟨htable, hframe, -, -⟩ := routing_follows run
  have hchannels : (if (1 : UInt32) = 15 then 0 else toInt 0) = 0 ∧
      (if (1 : UInt32) = 15 then 0 else toInt 1) = 1 ∧
      (if (1 : UInt32) = 15 then 0 else toInt 2) = 2 := by decide
  refine ⟨s, run, htable, ?_, ?_, ?_⟩
  · rw [hframe, hchannels.1, h0]
  · rw [hframe, hchannels.2.1, h1]
  · rw [hframe, hchannels.2.2, h2]

/-- Two clients open one channel: the frames stay with the first, and the second
takes the first one's entry out when it closes. -/
theorem routing_not_followed : ∃ s : Session Bool,
    Run Session.step (fun _ _ => True) (Session.start 0)
      [.createP2PHandle false 1, .openChannel 0 0 1 false 0, .openChannel 0 0 1 true 0] s ∧
    s.routes 0 = some true ∧ s.connector.OnKRecvFrameEx 1 0 = some false ∧
    (s.connector._ctx.filter fun e => decide (e.key = (0, .CTX_TYPE_LIVE))).length = 2 ∧
    ⟨false, 0, .CTX_TYPE_LIVE⟩ ∉ (s.connector.openChannel 0 0 true 0).1._ctx := by
  apply exists_run
  decide +kernel

end Jagles.Connector
