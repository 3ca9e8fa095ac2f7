import Jagles.ConnectorRouting

set_option autoImplicit false
set_option linter.dupNamespace false

/-!
# Playbacks of several clients on one connector

`running` records the playbacks whose handle has been given out and not been stopped,
each with its client and its own channel. The connector keeps one channel for all of them.
-/
namespace Jagles.Connector
open KeyedTable GuardedRuns

structure Playback (Ctx : Type*) where
  handle : ℤ
  ctx : Ctx
  chn : UInt8
  deriving DecidableEq

def Playback.entry {Ctx : Type*} (q : Playback Ctx) : NEWP2PCTX Ctx :=
  ⟨q.ctx, q.chn.toNat, .CTX_TYPE_PLAYBACk⟩

structure Playbacks (Ctx : Type*) where
  connector : JAP2PConnector2 Ctx
  running : List (Playback Ctx)

variable {Ctx : Type*} [DecidableEq Ctx]

namespace Playbacks

def start (playChannel : ℤ) : Playbacks Ctx := ⟨create playChannel, []⟩

variable (s : Playbacks Ctx)

/-- Playbacks are on different channels, and a client stops a handle that it has. -/
def Admits : Call Ctx → Prop
  | .playBackStart chn _ _ => ∀ q ∈ s.running, q.chn ≠ chn
  | .playBackStop playBack_handle _ =>
    playBack_handle ≠ 0 → ∃ q ∈ s.running, q.handle = playBack_handle
  | _ => True

instance : (c : Call Ctx) → Decidable (s.Admits c)
  | .playBackStart chn _ _ => inferInstanceAs (Decidable (∀ q ∈ s.running, q.chn ≠ chn))
  | .playBackStop playBack_handle _ => inferInstanceAs
    (Decidable (playBack_handle ≠ 0 → ∃ q ∈ s.running, q.handle = playBack_handle))
  | .createP2PHandle .. | .connect2 .. | .connect3 .. | .loginP2P .. | .openChannel ..
  | .closeP2P | .OnKDisconnect .. => inferInstanceAs (Decidable True)

/-- The playbacks after a call; they end with the session they belong to. -/
def playing : Call Ctx → List (Playback Ctx)
  | .createP2PHandle _ _ =>
    if s.connector.mHandle ≠ 0 ∧ s.connector.mDoneDisconnect = true then [] else s.running
  | .playBackStart chn ctx r =>
    if s.connector.mHandle ≠ 0 ∧ r ≠ 0 then s.running ++ [⟨r, ctx, chn⟩] else s.running
  | .playBackStop playBack_handle _ => s.running.filter fun q => q.handle ≠ playBack_handle
  | .closeP2P => if s.connector.mHandle = 0 then s.running else []
  | _ => s.running

def step (c : Call Ctx) : Option (Playbacks Ctx) :=
  if s.Admits c then some ⟨s.connector.call c, s.playing c⟩ else none

/-- The frames of every running playback go to the client that started it, and to no
other. -/
def Delivered : Prop :=
  ∀ q ∈ s.running, s.connector.receivers (.OnKRecvRecFrame q.chn.toUInt32) = [q.ctx]

/-- A stop takes out the entry of its playback and no other, and the frames go on. -/
structure Independent (c : Call Ctx) : Prop where
  stop : ∀ q ∈ s.running, ∀ r, c = .playBackStop q.handle r →
    s.connector._ctx.Perm (q.entry :: (s.connector.call c)._ctx)
  frames : ∀ t, s.step c = some t → t.Delivered

/-- A playback is stopped while its channel is the one started last, and it is started
where no other client has left an entry. -/
def Meets : Call Ctx → Prop
  | .playBackStart chn ctx r => s.connector.mHandle ≠ 0 → r ≠ 0 →
    s.connector.Free ctx chn.toNat .CTX_TYPE_PLAYBACk
  | .playBackStop playBack_handle _ =>
    ∀ q ∈ s.running, q.handle = playBack_handle → s.connector.mPlayChannel = q.chn.toNat
  | _ => True

/-- Handles are not `NULL`, and each playback has its own channel. -/
structure Kept : Prop where
  handle : ∀ q ∈ s.running, q.handle ≠ 0
  apart : ∀ q ∈ s.running, ∀ q' ∈ s.running, q.chn = q'.chn → q = q'

end Playbacks

namespace JAP2PConnector2
variable {p : JAP2PConnector2 Ctx}

/-- Opening and closing a channel is not seen by the playbacks. -/
theorem GetCtx_openChannel (nChannelId bOpen : ℤ) (ctx : Ctx) (r c : ℤ) :
    (p.openChannel nChannelId bOpen ctx r).1.GetCtx c .CTX_TYPE_PLAYBACk =
      p.GetCtx c .CTX_TYPE_PLAYBACk := by
  have hkey : (nChannelId, CtxType.CTX_TYPE_LIVE) ≠ (c, .CTX_TYPE_PLAYBACk) :=
    fun h => nomatch (Prod.mk.inj h).2
  unfold openChannel
  split
  · rfl
  · split
    · simp only
      rw [GetCtx_AddCtx_other hkey]
      unfold GetCtx
      refine congrArg _ (lookup_eraseP fun e he heq => ?_)
      obtain ⟨-, hlive, -⟩ := of_decide_eq_true he
      have hplay := (Prod.mk.inj heq).2
      rw [hlive] at hplay
      cases hplay
    · exact GetCtx_DelCtx_other hkey

theorem GetCtx_createP2PHandle (ctx : Ctx) (h : ℕ) (c : ℤ) :
    (p.createP2PHandle ctx h).1.GetCtx c .CTX_TYPE_PLAYBACk = p.GetCtx c .CTX_TYPE_PLAYBACk := by
  have hctx := p.createP2PHandle_ctx ctx h
  split at hctx
  · exact GetCtx_congr hctx
  · rw [GetCtx_congr hctx]
    exact GetCtx_AddCtx_other fun h => nomatch (Prod.mk.inj h).2

end JAP2PConnector2

theorem toInt_toUInt32 (c : UInt8) : toInt c.toUInt32 = c.toNat := by
  have hc : c.toNat < 256 := c.toNat_lt
  unfold toInt
  rw [UInt8.toNat_toUInt32]
  omega

namespace Playbacks
variable {s t : Playbacks Ctx}

omit [DecidableEq Ctx] in
theorem delivered_iff : s.Delivered ↔
    ∀ q ∈ s.running, s.connector.GetCtx q.chn.toNat .CTX_TYPE_PLAYBACk = some q.ctx := by
  have hone : ∀ (o : Option Ctx) (x : Ctx), o.toList = [x] ↔ o = some x := by
    intro o x
    cases o with
    | none => simp
    | some y => simp
  unfold Delivered
  simp only [JAP2PConnector2.receivers, toInt_toUInt32, hone]

theorem step_cases {c : Call Ctx} (h : s.step c = some t) :
    s.Admits c ∧ t = ⟨s.connector.call c, s.playing c⟩ := by
  unfold step at h
  split at h
  · rename_i hadmits
    exact ⟨hadmits, (Option.some.inj h).symm⟩
  · cases h

omit [DecidableEq Ctx] in
theorem Delivered.of_subset (h : s.Delivered) (hsub : ∀ q ∈ t.running, q ∈ s.running)
    (hget : ∀ q ∈ t.running, t.connector.GetCtx q.chn.toNat .CTX_TYPE_PLAYBACk =
      s.connector.GetCtx q.chn.toNat .CTX_TYPE_PLAYBACk) : t.Delivered := by
  rw [delivered_iff] at h ⊢
  intro q hq
  rw [hget q hq]
  exact h q (hsub q hq)

section Start
variable {chn : UInt8} {ctx : Ctx} {r : ℤ}

theorem key_ne {a b : UInt8} (h : a ≠ b) :
    ((a.toNat : ℤ), CtxType.CTX_TYPE_PLAYBACk) ≠ ((b.toNat : ℤ), .CTX_TYPE_PLAYBACk) := by
  intro heq
  have hnat : a.toNat = b.toNat := by exact_mod_cast (Prod.mk.inj heq).1
  exact h (UInt8.toNat_inj.mp hnat)

theorem started_other (hadmits : s.Admits (.playBackStart chn ctx r)) {q : Playback Ctx}
    (hq : q ∈ s.running) :
    (s.connector.call (.playBackStart chn ctx r)).GetCtx q.chn.toNat .CTX_TYPE_PLAYBACk =
      s.connector.GetCtx q.chn.toNat .CTX_TYPE_PLAYBACk := by
  simp only [JAP2PConnector2.call, JAP2PConnector2.playBackStart]
  split
  · rfl
  · exact JAP2PConnector2.GetCtx_AddCtx_other (key_ne (hadmits q hq).symm)

/-- A start is delivered to its client exactly when it finds no entry of another. -/
theorem start_iff (hd : s.Delivered) (h : s.step (.playBackStart chn ctx r) = some t) :
    t.Delivered ↔ s.Meets (.playBackStart chn ctx r) := by
  obtain ⟨hadmits, rfl⟩ := step_cases h
  by_cases hstarts : s.connector.mHandle ≠ 0 ∧ r ≠ 0
  · have hself : (s.connector.call (.playBackStart chn ctx r)).GetCtx chn.toNat
        .CTX_TYPE_PLAYBACk = (s.connector.GetCtx chn.toNat .CTX_TYPE_PLAYBACk).or (some ctx) := by
      simp only [JAP2PConnector2.call, JAP2PConnector2.playBackStart, if_neg hstarts.1]
      exact JAP2PConnector2.GetCtx_AddCtx_self
    have hrunning : s.playing (.playBackStart chn ctx r) = s.running ++ [⟨r, ctx, chn⟩] := by
      simp only [playing, if_pos hstarts]
    rw [delivered_iff] at hd ⊢
    rw [hrunning]
    constructor
    · intro ht _ _ x hx
      have hnew := ht ⟨r, ctx, chn⟩ (List.mem_append_right _ (List.mem_singleton_self _))
      simp only at hnew
      rw [hself, Option.mem_def.mp hx] at hnew
      exact Option.some.inj hnew
    · intro hfree q hq
      simp only
      rcases List.mem_append.mp hq with hold | hnew
      · rw [started_other hadmits hold]
        exact hd q hold
      · obtain rfl := List.mem_singleton.mp hnew
        simp only
        rw [hself]
        cases hget : s.connector.GetCtx chn.toNat .CTX_TYPE_PLAYBACk with
        | none => rfl
        | some x =>
          obtain rfl := hfree hstarts.1 hstarts.2 x hget
          rfl
  · have hrunning : s.playing (.playBackStart chn ctx r) = s.running := by
      simp only [playing, if_neg hstarts]
    refine iff_of_true ?_ fun hh hr => absurd ⟨hh, hr⟩ hstarts
    refine hd.of_subset (fun q hq => ?_) fun q hq => ?_
    · rwa [hrunning] at hq
    · simp only [hrunning] at hq
      exact started_other hadmits hq

end Start

section Stop
variable {playBack_handle r : ℤ}

omit [DecidableEq Ctx] in
theorem entry_found (hd : s.Delivered) {q : Playback Ctx} (hq : q ∈ s.running) :
    lookup NEWP2PCTX.key s.connector._ctx (q.chn.toNat, .CTX_TYPE_PLAYBACk) = some q.entry := by
  obtain ⟨e, he, hctx⟩ := Option.map_eq_some_iff.mp (delivered_iff.mp hd q hq)
  obtain ⟨hindex, htype⟩ := Prod.mk.inj (lookup_mem he).2
  have hentry : e = q.entry := by
    cases e
    simp only at hctx hindex htype
    rw [Playback.entry, hctx, hindex, htype]
  rw [he, hentry]

/-- The entry that goes is the playback's own exactly when its channel was started last. -/
theorem stop_iff (hk : s.Kept) (hd : s.Delivered) {q : Playback Ctx} (hq : q ∈ s.running) :
    s.connector._ctx.Perm (q.entry :: (s.connector.call (.playBackStop q.handle r))._ctx) ↔
      s.connector.mPlayChannel = q.chn.toNat := by
  simp only [JAP2PConnector2.call, JAP2PConnector2.playBackStop, if_neg (hk.handle q hq),
    JAP2PConnector2.DelCtx]
  constructor
  · intro hperm
    have hkey : q.entry.key = (s.connector.mPlayChannel, .CTX_TYPE_PLAYBACk) :=
      key_of_perm_eraseP hperm
    exact (Prod.mk.inj hkey).1.symm
  · intro hlast
    rw [hlast]
    exact perm_eraseP (entry_found hd hq)

theorem stop_delivered (hk : s.Kept) (hd : s.Delivered)
    (hmeets : s.Meets (.playBackStop playBack_handle r))
    (h : s.step (.playBackStop playBack_handle r) = some t) : t.Delivered := by
  obtain ⟨hadmits, rfl⟩ := step_cases h
  refine hd.of_subset (fun q hq => (List.mem_filter.mp hq).1) fun q hq => ?_
  obtain ⟨hrunning, hother⟩ := List.mem_filter.mp hq
  simp only [JAP2PConnector2.call, JAP2PConnector2.playBackStop]
  split
  · rfl
  · rename_i hnull
    obtain ⟨q', hq', hhandle⟩ := hadmits hnull
    have hchn : q'.chn ≠ q.chn := by
      intro heq
      obtain rfl := hk.apart q' hq' q hrunning heq
      exact of_decide_eq_true hother hhandle
    rw [hmeets q' hq' hhandle]
    exact JAP2PConnector2.GetCtx_DelCtx_other (key_ne hchn)

end Stop

omit [DecidableEq Ctx] in
theorem Kept.of_subset (hk : s.Kept) (hsub : ∀ q ∈ t.running, q ∈ s.running) : t.Kept :=
  ⟨fun q hq => hk.handle q (hsub q hq), fun q hq q' hq' => hk.apart q (hsub q hq) q' (hsub q' hq')⟩

theorem Kept.playBackStart (hk : s.Kept) {chn : UInt8} {ctx : Ctx} {r : ℤ}
    (h : s.step (.playBackStart chn ctx r) = some t) : t.Kept := by
  obtain ⟨hadmits, rfl⟩ := step_cases h
  by_cases hstarts : s.connector.mHandle ≠ 0 ∧ r ≠ 0
  · have hrunning : s.playing (.playBackStart chn ctx r) = s.running ++ [⟨r, ctx, chn⟩] := by
      simp only [playing, if_pos hstarts]
    rw [hrunning]
    refine ⟨fun q hq => ?_, fun q hq q' hq' heq => ?_⟩
    · rcases List.mem_append.mp hq with hold | hnew
      · exact hk.handle q hold
      · obtain rfl := List.mem_singleton.mp hnew
        exact hstarts.2
    · rcases List.mem_append.mp hq with hold | hnew
      · rcases List.mem_append.mp hq' with hold' | hnew'
        · exact hk.apart q hold q' hold' heq
        · obtain rfl := List.mem_singleton.mp hnew'
          exact absurd heq (hadmits q hold)
      · obtain rfl := List.mem_singleton.mp hnew
        rcases List.mem_append.mp hq' with hold' | hnew'
        · exact absurd heq.symm (hadmits q' hold')
        · exact (List.mem_singleton.mp hnew').symm
  · refine hk.of_subset fun q hq => ?_
    simp only [playing, if_neg hstarts] at hq
    exact hq

/-- The calls that are not about playback leave the playbacks as they are, or end them
together with their session. -/
theorem playing_other {c : Call Ctx} (hstart : ∀ chn ctx r, c ≠ .playBackStart chn ctx r)
    (hstop : ∀ h r, c ≠ .playBackStop h r) : s.playing c = [] ∨ s.playing c = s.running ∧
      ∀ channel, (s.connector.call c).GetCtx channel .CTX_TYPE_PLAYBACk =
        s.connector.GetCtx channel .CTX_TYPE_PLAYBACk := by
  cases c with
  | createP2PHandle ctx h =>
    simp only [playing]
    split
    · exact .inl rfl
    · exact .inr ⟨rfl, fun channel => JAP2PConnector2.GetCtx_createP2PHandle ctx h channel⟩
  | connect2 devid ipaddr port verify_str r =>
    have hctx := s.connector.connect_ctx devid ipaddr port r
    exact .inr ⟨rfl, fun _ => JAP2PConnector2.GetCtx_congr hctx⟩
  | connect3 devid ipaddr port r =>
    have hctx := s.connector.connect_ctx devid ipaddr port r
    exact .inr ⟨rfl, fun _ => JAP2PConnector2.GetCtx_congr hctx⟩
  | loginP2P user pwd r =>
    have hctx := s.connector.loginP2P_ctx r
    exact .inr ⟨rfl, fun _ => JAP2PConnector2.GetCtx_congr hctx⟩
  | openChannel nChannelId nStreamId bOpen ctx r =>
    exact .inr ⟨rfl, JAP2PConnector2.GetCtx_openChannel nChannelId bOpen ctx r⟩
  | playBackStart chn ctx r => exact absurd rfl (hstart chn ctx r)
  | playBackStop h r => exact absurd rfl (hstop h r)
  | closeP2P =>
    simp only [playing]
    split
    · rename_i hnone
      refine .inr ⟨rfl, fun channel => ?_⟩
      simp only [JAP2PConnector2.call, JAP2PConnector2.closeP2P, if_pos hnone]
    · exact .inl rfl
  | OnKDisconnect ret => exact .inr ⟨rfl, fun _ => rfl⟩

/-- What a call that is not about playback does. -/
theorem step_other {c : Call Ctx} (hstart : ∀ chn ctx r, c ≠ .playBackStart chn ctx r)
    (hstop : ∀ h r, c ≠ .playBackStop h r) (h : s.step c = some t) :
    (s.Kept → t.Kept) ∧ (s.Delivered → t.Delivered) := by
  obtain ⟨-, rfl⟩ := step_cases h
  rcases playing_other hstart hstop with hnone | ⟨hsame, hget⟩
  · rw [hnone]
    exact ⟨fun _ => ⟨(fun _ hq => nomatch hq), (fun _ hq => nomatch hq)⟩,
      fun _ => (fun _ hq => nomatch hq)⟩
  · rw [hsame]
    exact ⟨fun hk => hk.of_subset fun _ hq => hq,
      fun hd => hd.of_subset (fun _ hq => hq) fun q _ => hget q.chn.toNat⟩

theorem Kept.step (hk : s.Kept) {c : Call Ctx} (h : s.step c = some t) : t.Kept := by
  by_cases hstart : ∃ chn ctx r, c = .playBackStart chn ctx r
  · obtain ⟨chn, ctx, r, rfl⟩ := hstart
    exact hk.playBackStart h
  · by_cases hstop : ∃ hd r, c = .playBackStop hd r
    · obtain ⟨hd, r, rfl⟩ := hstop
      obtain ⟨-, rfl⟩ := step_cases h
      exact hk.of_subset fun q hq => (List.mem_filter.mp hq).1
    · simp only [not_exists] at hstart hstop
      exact (step_other hstart hstop h).1 hk

/-- A step is independent exactly when it meets the condition. -/
theorem independent_iff (hk : s.Kept) (hd : s.Delivered) {c : Call Ctx} (h : s.step c = some t) :
    s.Independent c ↔ s.Meets c := by
  have hframes : t.Delivered → ∀ u, s.step c = some u → u.Delivered := by
    intro ht u hu
    obtain rfl := Option.some.inj (h.symm.trans hu)
    exact ht
  by_cases hstart : ∃ chn ctx r, c = .playBackStart chn ctx r
  · obtain ⟨chn, ctx, r, rfl⟩ := hstart
    refine ⟨fun hi => (start_iff hd h).mp (hi.frames t h), fun hmeets => ⟨?_, ?_⟩⟩
    · exact fun _ _ _ heq => nomatch heq
    · exact hframes ((start_iff hd h).mpr hmeets)
  · by_cases hstop : ∃ handle r, c = .playBackStop handle r
    · obtain ⟨handle, r, rfl⟩ := hstop
      constructor
      · intro hi q hq hhandle
        subst hhandle
        exact (stop_iff hk hd hq).mp (hi.stop q hq r rfl)
      · intro hmeets
        refine ⟨fun q hq r' heq => ?_, hframes (stop_delivered hk hd hmeets h)⟩
        obtain ⟨rfl, rfl⟩ := Call.playBackStop.inj heq
        exact (stop_iff hk hd hq).mpr (hmeets q hq rfl)
    · simp only [not_exists] at hstart hstop
      refine iff_of_true ⟨fun q _ r heq => absurd heq (hstop q.handle r), ?_⟩ ?_
      · exact hframes ((step_other hstart hstop h).2 hd)
      · cases c with
        | playBackStart chn ctx r => exact absurd rfl (hstart chn ctx r)
        | playBackStop handle r => exact absurd rfl (hstop handle r)
        | _ => trivial

end Playbacks

/-- For every order of starts and stops by any clients, on their own channels and between
the other calls: every step is independent exactly when every step meets the condition. -/
theorem playbacks_independent_iff (playChannel : ℤ) (calls : List (Call Ctx)) (s : Playbacks Ctx) :
    Run Playbacks.step Playbacks.Independent (.start playChannel) calls s ↔
      Run Playbacks.step Playbacks.Meets (.start playChannel) calls s := by
  refine Run.guarded_iff (fun s => s.Kept ∧ s.Delivered)
    (fun s c t hs hi h => ⟨hs.1.step h, hi.frames t h⟩)
    (fun s c t hs h => Playbacks.independent_iff hs.1 hs.2 h) ⟨⟨?_, ?_⟩, ?_⟩
  · exact fun _ hq => nomatch hq
  · exact fun _ hq => nomatch hq
  · exact fun _ hq => nomatch hq

/-- The first of two clients stops: the entry of the second one goes, and its frames reach
nobody. -/
theorem playbacks_not_independent : ¬ ∀ (playChannel : ℤ) (calls : List (Call Bool))
    (s : Playbacks Bool) (c : Call Bool),
    Run Playbacks.step (fun _ _ => True) (.start playChannel) calls s → s.Independent c := by
  intro claim
  obtain ⟨s, run, hstep⟩ : ∃ s : Playbacks Bool, Run Playbacks.step (fun _ _ => True) (.start 0)
      [.createP2PHandle false 1, .playBackStart 1 false 10, .playBackStart 2 true 11] s ∧
      ((s.step (.playBackStop 10 0)).any fun t => decide (⟨11, true, 2⟩ ∈ t.running ∧
        t.connector.receivers (.OnKRecvRecFrame 2) = [])) = true :=
    exists_run (by decide +kernel)
  obtain ⟨t, ht, hlost⟩ := (Option.any_eq_true _ _).mp hstep
  obtain ⟨hrunning, hnobody⟩ := of_decide_eq_true hlost
  have hframes := (claim 0 _ s (.playBackStop 10 0) run).frames t ht _ hrunning
  have hchannel : (2 : UInt8).toUInt32 = 2 := by decide
  simp only [hchannel] at hframes
  rw [hnobody] at hframes
  cases hframes

end Jagles.Connector
