import Jagles.ClientPlayback

set_option autoImplicit false
set_option linter.dupNamespace false

/-!
# The playback status is sound

`DoDisconnect` gives up the handle, the connector and the status one after the other. What is
missing in between is made good by the instructions that the client has still to run.
-/
namespace Jagles.Clients
open Connector GuardedRuns

/-- `settle` comes before the next assignment of `mP2p`. -/
def settles : List Instr → Bool
  | [] => false
  | .newConnector :: _ | .useLibrary1 :: _ => false
  | .settle :: _ => true
  | _ :: l => settles l

def followed (l : List Instr) : Instr → Bool
  | .playBackStop => decide (.forget ∈ l)
  | .release => decide (.forget ∈ l) && !settles l && decide (l.head? ≠ some .release)
  | .settle | .leaveConnected | .retry => !settles l && decide (l.head? ≠ some .release)
  | _ => decide (l.head? ≠ some .release)

/-- What gives up the connector is followed by `forget` and not by `settle`, and `release` only
comes after `playBackStop`. -/
def orderly : List Instr → Bool
  | [] => true
  | i :: l => followed l i && orderly l

theorem orderly_body (cmd : Cmd) :
    orderly cmd.body = true ∧ settles cmd.body = false ∧ cmd.body.head? ≠ some .release := by
  cases cmd with
  | _ => exact ⟨rfl, rfl, by simp [Cmd.body, DoConnect, DoDisconnect]⟩

/-- The list of instructions goes on in order. -/
structure Continues (l l' : List Instr) : Prop where
  order : orderly l' = true
  settling : settles l' = true → settles l = true
  head : l'.head? ≠ some .release
  forgets : .forget ∈ l → .forget ∈ l'

/-- An instruction that neither assigns `mP2p` nor belongs to `DoDisconnect`. -/
def Instr.plain : Instr → Bool
  | .newConnector | .useLibrary1 | .playBackStop | .release | .forget => false
  | _ => true

/-- An instruction that starts or stops playback. -/
def Instr.plays : Instr → Bool
  | .playBackStop | .DoStartPlayback _ | .DoStopPlayback => true
  | _ => false

variable {i : Instr} {l : List Instr}

theorem followed_of_orderly (h : orderly (i :: l) = true) : followed l i = true ∧ orderly l = true := by
  simpa [orderly] using h

theorem head_of_orderly (h : orderly (i :: l) = true) (hi : i ≠ .playBackStop) :
    l.head? ≠ some .release := by
  have hf := (followed_of_orderly h).1
  cases i with
  | playBackStop => exact absurd rfl hi
  | release | settle | leaveConnected | retry =>
    simp only [followed, Bool.and_eq_true, decide_eq_true_eq] at hf
    exact hf.2
  | _ => exact of_decide_eq_true hf

theorem continues_pop (h : orderly (i :: l) = true) (hi : i.plain = true) : Continues (i :: l) l := by
  refine ⟨(followed_of_orderly h).2, ?_, head_of_orderly h ?_, ?_⟩
  · intro hs
    cases i with
    | newConnector | useLibrary1 | playBackStop | release | forget => cases hi
    | settle => rfl
    | _ => exact hs
  · rintro rfl
    cases hi
  · intro hf
    cases List.mem_cons.mp hf with
    | inl heq =>
      subst heq
      cases hi
    | inr htail => exact htail

theorem continues_leave (h : orderly (.leaveConnected :: l) = true) :
    Continues (.leaveConnected :: l) ((DoDisconnect ++ [.clearStates]) ++ l) := by
  obtain ⟨hf, ho⟩ := followed_of_orderly h
  simp only [followed, Bool.and_eq_true, Bool.not_eq_true', decide_eq_true_eq] at hf
  refine ⟨?_, ?_, ?_, ?_⟩
  · simp [DoDisconnect, orderly, followed, settles, hf.1, hf.2, ho]
  · exact fun hs => hs
  · simp [DoDisconnect]
  · simp [DoDisconnect]

theorem continues_settle (h : orderly (.settle :: l) = true) :
    Continues (.settle :: l) (DoDisconnect ++ l) := by
  obtain ⟨hf, ho⟩ := followed_of_orderly h
  simp only [followed, Bool.and_eq_true, Bool.not_eq_true', decide_eq_true_eq] at hf
  refine ⟨?_, fun _ => rfl, ?_, ?_⟩
  · simp [DoDisconnect, orderly, followed, settles, hf.1, hf.2, ho]
  · simp [DoDisconnect]
  · simp [DoDisconnect]

theorem continues_retry (h : orderly (.retry :: l) = true) :
    Continues (.retry :: l) (ReConnect ++ l) := by
  obtain ⟨hf, ho⟩ := followed_of_orderly h
  simp only [followed, Bool.and_eq_true, Bool.not_eq_true', decide_eq_true_eq] at hf
  refine ⟨?_, ?_, ?_, ?_⟩
  · simp [ReConnect, orderly, followed, hf.1, hf.2, ho]
  · simp [ReConnect, settles]
  · simp [ReConnect]
  · simp [ReConnect]

theorem continues_fallback (h : orderly (.fallback :: l) = true) :
    Continues (.fallback :: l) ([.useLibrary1, .createP2PHandle, .connect] ++ l) := by
  obtain ⟨hf, ho⟩ := followed_of_orderly h
  have hhead := of_decide_eq_true hf
  refine ⟨?_, ?_, ?_, ?_⟩
  · simp [orderly, followed, hhead, ho]
  · simp [settles]
  · simp
  · simp

/-- The invariant of one client. What its status and its connection lack is made good by the
`forget` that is still to come. -/
structure Sane (j : JAConnect) (s : PlayStatus) (n : ℕ) (live : List (ℕ × ℤ)) : Prop where
  order : orderly j.todo = true
  settling : settles j.todo = true → j.mP2p ≠ none
  releasing : j.todo.head? = some .release → j.mPlaybackHandle = 0
  owned : j.mPlaybackHandle ≠ 0 → j.mP2p ≠ none ∧ (n, j.mPlaybackHandle) ∈ live
  connected : j.mIsConnected = true → j.mP2p ≠ none ∨ .forget ∈ j.todo
  record : s = .NET_PLAY_RECORD → j.mPlaybackHandle ≠ 0 ∨ .forget ∈ j.todo

namespace Sane
variable {j j' : JAConnect} {s s' : PlayStatus} {n : ℕ} {live : List (ℕ × ℤ)}

/-- A step that leaves the connection and the handle. -/
theorem quiet (h : Sane j s n live) (hp : j'.mP2p = j.mP2p)
    (hh : j'.mPlaybackHandle = j.mPlaybackHandle) (hc : j'.mIsConnected = j.mIsConnected)
    (ht : Continues j.todo j'.todo) (hs : s' = .NET_PLAY_RECORD → s = .NET_PLAY_RECORD) :
    Sane j' s' n live := by
  constructor
  · exact ht.order
  · intro hsettle
    rw [hp]
    exact h.settling (ht.settling hsettle)
  · exact fun hhead => absurd hhead ht.head
  · rw [hp, hh]
    exact h.owned
  · rw [hp, hc]
    exact fun hcon => (h.connected hcon).imp_right ht.forgets
  · rw [hh]
    exact fun hrec => (h.record (hs hrec)).imp_right ht.forgets

/-- `mP2p` is assigned an object, another one only if there is no handle. -/
theorem assign {n' : ℕ} (h : Sane j s n live) (htodo : j.todo = i :: l) (hi : i ≠ .forget)
    (hi' : i ≠ .playBackStop) (ht : j'.todo = l) (hp : j'.mP2p ≠ none)
    (hh : j'.mPlaybackHandle = j.mPlaybackHandle) (hn : j.mPlaybackHandle ≠ 0 → n' = n) :
    Sane j' s n' live := by
  have horder := h.order
  rw [htodo] at horder
  constructor
  · rw [ht]
    exact (followed_of_orderly horder).2
  · exact fun _ => hp
  · rw [ht]
    exact fun hhead => absurd hhead (head_of_orderly horder hi')
  · rw [hh]
    intro hne
    rw [hn hne]
    exact ⟨hp, (h.owned hne).2⟩
  · exact fun _ => .inl hp
  · rw [hh, ht]
    intro hrec
    cases h.record hrec with
    | inl hne => exact .inl hne
    | inr hf =>
      rw [htodo] at hf
      exact .inr (List.mem_of_ne_of_mem hi.symm hf)

/-- The handle is stopped, or there was none. -/
theorem stopped {live' : List (ℕ × ℤ)} (h : Sane j s n live) (htodo : j.todo = .playBackStop :: l)
    (ht : j'.todo = l) (hp : j'.mP2p = j.mP2p) (hh : j'.mPlaybackHandle = 0) :
    Sane j' s n live' := by
  have horder := h.order
  rw [htodo] at horder
  obtain ⟨hf, ho⟩ := followed_of_orderly horder
  have hforget : .forget ∈ j'.todo := by
    rw [ht]
    exact of_decide_eq_true hf
  constructor
  · rw [ht]
    exact ho
  · rw [ht, hp]
    intro hs
    exact h.settling (by rw [htodo]; exact hs)
  · exact fun _ => hh
  · exact fun hne => absurd hh hne
  · exact fun _ => .inr hforget
  · exact fun _ => .inr hforget

theorem released {n' : ℕ} (h : Sane j s n live) (htodo : j.todo = .release :: l)
    (ht : j'.todo = l) (hh : j'.mPlaybackHandle = j.mPlaybackHandle) : Sane j' s n' live := by
  have horder := h.order
  rw [htodo] at horder
  obtain ⟨hf, ho⟩ := followed_of_orderly horder
  simp only [followed, Bool.and_eq_true, Bool.not_eq_true', decide_eq_true_eq] at hf
  obtain ⟨⟨hforget, hsettles⟩, hhead⟩ := hf
  have hzero : j'.mPlaybackHandle = 0 := by
    rw [hh]
    exact h.releasing (by rw [htodo]; rfl)
  rw [← ht] at ho hforget hsettles hhead
  constructor
  · exact ho
  · intro hs
    rw [hsettles] at hs
    cases hs
  · exact fun _ => hzero
  · exact fun hne => absurd hzero hne
  · exact fun _ => .inr hforget
  · exact fun _ => .inr hforget

theorem forgotten (h : Sane j s n live) (htodo : j.todo = .forget :: l) (ht : j'.todo = l)
    (hp : j'.mP2p = j.mP2p) (hh : j'.mPlaybackHandle = 0) (hc : j'.mIsConnected = false) :
    Sane j' .NET_PLAY_NONE n live := by
  have horder := h.order
  rw [htodo] at horder
  constructor
  · rw [ht]
    exact (followed_of_orderly horder).2
  · rw [ht, hp]
    intro hs
    exact h.settling (by rw [htodo]; exact hs)
  · exact fun _ => hh
  · exact fun hne => absurd hh hne
  · intro hcon
    rw [hc] at hcon
    cases hcon
  · exact fun hrec => by cases hrec

theorem settled (h : Sane j s n live) (htodo : j.todo = .settle :: l) (ht : j'.todo = l)
    (hp : j'.mP2p = j.mP2p) (hh : j'.mPlaybackHandle = j.mPlaybackHandle) : Sane j' s n live := by
  have hsome : j'.mP2p ≠ none := by
    rw [hp]
    exact h.settling (by rw [htodo]; rfl)
  exact h.assign htodo (by decide) (by decide) ht hsome hh (fun _ => rfl)

/-- A start or a stop of playback changes the handle; while recording there must be one, and it
must be owned. -/
theorem handled {live' : List (ℕ × ℤ)} (h : Sane j s n live) (htodo : j.todo = i :: l)
    (hi : i.plain = true) (ht : j'.todo = l) (hp : j'.mP2p = j.mP2p)
    (hc : j'.mIsConnected = j.mIsConnected)
    (howned : j'.mPlaybackHandle ≠ 0 → j'.mP2p ≠ none ∧ (n, j'.mPlaybackHandle) ∈ live')
    (hrecord : s' = .NET_PLAY_RECORD → j'.mPlaybackHandle ≠ 0) : Sane j' s' n live' := by
  have hcont : Continues (i :: l) l := continues_pop (htodo ▸ h.order) hi
  rw [← htodo, ← ht] at hcont
  constructor
  · exact hcont.order
  · intro hs
    rw [hp]
    exact h.settling (hcont.settling hs)
  · exact fun hhead => absurd hhead hcont.head
  · exact howned
  · rw [hp, hc]
    exact fun hcon => (h.connected hcon).imp_right hcont.forgets
  · exact fun hrec => .inl (hrecord hrec)

end Sane

section Exec
variable {C : Type} [DecidableEq C]

@[simp] theorem client_set (w : Network C) (c : C) (f : JAConnect → JAConnect) :
    (w.set c f).client c = f (w.client c) := Function.update_self ..

omit [DecidableEq C] in
@[simp] theorem client_call {α : Type*} (w : Network C) (c : C)
    (f : JAP2PConnector2 C → JAP2PConnector2 C × α) (r : α) :
    (w.call c f r).1.client = w.client := by
  unfold Network.call
  split
  · split <;> rfl
  · rfl

omit [DecidableEq C] in
theorem client_CreateConnector (w : Network C) (t : Target) (a : Reply) :
    (w.CreateConnector t a).1.client = w.client := by
  unfold Network.CreateConnector
  split <;> rfl

theorem client_DestroyConnector (w : Network C) (c : C) :
    (w.DestroyConnector c).client c = w.client c ∨
      (w.DestroyConnector c).client c = { w.client c with mP2p := none } := by
  unfold Network.DestroyConnector
  split
  · exact .inl rfl
  · exact .inr (client_set ..)
  · split
    · exact .inl rfl
    · split
      · exact .inr (client_set ..)
      · exact .inr (client_set ..)

variable {p : Player C} {c : C} {a : Reply} {rest : List Instr}

/-- The network in which the instruction runs. -/
def Player.popped (p : Player C) (c : C) (rest : List Instr) : Network C :=
  p.toNetwork.set c fun j => { j with todo := rest }

@[simp] theorem client_popped :
    (p.popped c rest).client c = { p.client c with todo := rest } := client_set ..

def Player.SaneAt (p : Player C) (c : C) : Prop :=
  Sane (p.client c) (p.mRealStatus c) (p.object c) (p.live c)

/-- The client after its instruction. -/
def Player.SaneAfter (p : Player C) (w : Network C) (c : C) (i : Instr) : Prop :=
  Sane (w.client c) (statusAfter p.toNetwork w c (p.mRealStatus c) i)
    (objectAfter p.toNetwork c (p.object c) i)
    (liveAfter p.toNetwork w c (p.object c) (p.live c) i)

omit [DecidableEq C] in
theorem liveAfter_eq (w w' : Network C) (n : ℕ) (live : List (ℕ × ℤ)) (hi : i.plays = false) :
    liveAfter w w' c n live i = live := by
  cases i with
  | playBackStop | DoStartPlayback | DoStopPlayback => cases hi
  | _ => simp [liveAfter, Network.stops]

omit [DecidableEq C] in
theorem exec_quiet (h : p.SaneAt c) (htodo : (p.client c).todo = i :: rest) {w : Network C}
    (hi : i.plain = true) (hplays : i.plays = false)
    (hp : (w.client c).mP2p = (p.client c).mP2p)
    (hh : (w.client c).mPlaybackHandle = (p.client c).mPlaybackHandle)
    (hc : (w.client c).mIsConnected = (p.client c).mIsConnected)
    (ht : Continues (i :: rest) (w.client c).todo) : p.SaneAfter w c i := by
  have hobject : objectAfter p.toNetwork c (p.object c) i = p.object c := by
    cases i with
    | newConnector | useLibrary1 | release => cases hi
    | _ => rfl
  have hstatus : statusAfter p.toNetwork w c (p.mRealStatus c) i = .NET_PLAY_RECORD →
      p.mRealStatus c = .NET_PLAY_RECORD := by
    cases i with
    | forget => cases hi
    | DoStartPlayback => cases hplays
    | openChannel channelNo bOpen =>
      simp only [statusAfter]
      split
      · split
        · exact fun hrec => by cases hrec
        · exact fun hrec => by cases hrec
      · exact id
    | _ => exact id
  unfold Player.SaneAfter
  rw [liveAfter_eq _ _ _ _ hplays, hobject]
  exact h.quiet hp hh hc (htodo ▸ ht) hstatus

theorem exec_newConnector (h : p.SaneAt c) (htodo : (p.client c).todo = .newConnector :: rest)
    (hc : p.Allowed c a .newConnector) :
    p.SaneAfter ((p.popped c rest).exec c a .newConnector) c .newConnector := by
  have hclient : ∃ r, ((p.popped c rest).exec c a .newConnector).client c =
      { p.client c with todo := rest, mP2p := some r } := by
    simp only [Network.exec]
    split
    · refine ⟨.UDX_P2P, ?_⟩
      rw [client_set, client_popped]
    · refine ⟨.KCP_P2P ((p.popped c rest).CreateConnector
        ((p.popped c rest).client c).toTarget a).2, ?_⟩
      rw [client_set, client_CreateConnector, client_popped]
  obtain ⟨r, hr⟩ := hclient
  unfold Player.SaneAfter
  rw [hr, liveAfter_eq _ _ _ _ rfl]
  refine h.assign htodo (by decide) (by decide) rfl (by simp) rfl ?_
  intro hne
  exact if_pos (hc hne)

theorem exec_useLibrary1 (h : p.SaneAt c) (htodo : (p.client c).todo = .useLibrary1 :: rest)
    (hc : p.Allowed c a .useLibrary1) :
    p.SaneAfter ((p.popped c rest).exec c a .useLibrary1) c .useLibrary1 := by
  have hclient : ((p.popped c rest).exec c a .useLibrary1).client c =
      { p.client c with todo := rest, mP2p := some .UDX_P2P } := by
    simp only [Network.exec, client_set]
    rcases client_DestroyConnector (p.popped c rest) c with hd | hd
    · rw [hd, client_popped]
    · rw [hd, client_popped]
  unfold Player.SaneAfter
  rw [hclient, liveAfter_eq _ _ _ _ rfl]
  exact h.assign htodo (by decide) (by decide) rfl (by simp) rfl (fun hne => absurd hc hne)

theorem exec_release (h : p.SaneAt c) (htodo : (p.client c).todo = .release :: rest) :
    p.SaneAfter ((p.popped c rest).exec c a .release) c .release := by
  have hclient : ∃ r, ((p.popped c rest).exec c a .release).client c =
      { p.client c with todo := rest, mP2p := r } := by
    simp only [Network.exec]
    split
    · rcases client_DestroyConnector (p.popped c rest) c with hd | hd
      · exact ⟨(p.client c).mP2p, by rw [hd, client_popped]⟩
      · exact ⟨none, by rw [hd, client_popped]⟩
    · exact ⟨(p.client c).mP2p, client_popped⟩
  obtain ⟨r, hr⟩ := hclient
  unfold Player.SaneAfter
  rw [hr, liveAfter_eq _ _ _ _ rfl]
  exact h.released htodo rfl rfl

theorem client_stopPlayback (w : Network C) (c : C) (a : Reply) :
    (w.stopPlayback c a).client c = { w.client c with mPlaybackHandle := 0 } := by
  unfold Network.stopPlayback
  rw [client_set, client_call]

theorem exec_playBackStop (h : p.SaneAt c) (htodo : (p.client c).todo = .playBackStop :: rest) :
    p.SaneAfter ((p.popped c rest).exec c a .playBackStop) c .playBackStop := by
  have hclient : ((p.popped c rest).exec c a .playBackStop).client c =
      { p.client c with todo := rest, mPlaybackHandle := 0 } := by
    simp only [Network.exec]
    split
    · rw [client_stopPlayback, client_popped]
    · rename_i hzero
      rw [client_popped] at hzero ⊢
      rw [← not_not.mp hzero]
  unfold Player.SaneAfter
  rw [hclient]
  exact h.stopped htodo rfl rfl rfl

theorem exec_DoStopPlayback (h : p.SaneAt c) (htodo : (p.client c).todo = .DoStopPlayback :: rest)
    (hc : p.Allowed c a .DoStopPlayback) :
    p.SaneAfter ((p.popped c rest).exec c a .DoStopPlayback) c .DoStopPlayback := by
  unfold Player.SaneAfter
  by_cases hgo : (p.client c).mPlaybackHandle ≠ 0 ∧ (p.client c).mP2p ≠ none
  · have hclient : ((p.popped c rest).exec c a .DoStopPlayback).client c =
        { p.client c with todo := rest, mPlaybackHandle := 0 } := by
      simp only [Network.exec, client_popped]
      rw [if_pos hgo, client_stopPlayback, client_popped]
    rw [hclient]
    exact h.handled htodo rfl rfl rfl rfl (fun hne => absurd rfl hne) (fun hrec => absurd hrec hc)
  · have hclient : ((p.popped c rest).exec c a .DoStopPlayback).client c =
        { p.client c with todo := rest } := by
      simp only [Network.exec, client_popped]
      rw [if_neg hgo, client_popped]
    have hlive : liveAfter p.toNetwork ((p.popped c rest).exec c a .DoStopPlayback) c (p.object c)
        (p.live c) .DoStopPlayback = p.live c := by
      refine if_neg ?_
      simpa [Network.stops] using hgo
    rw [hclient, hlive]
    exact h.handled htodo rfl rfl rfl rfl h.owned (fun hrec => absurd hrec hc)

/-- With a session `playBackStart` returns what the library returns. -/
theorem call_playBackStart {w : Network C} (h : w.hasSession c = true)
    (chn : UInt8) (r : ℤ) : (w.call c (fun q => q.playBackStart chn c r) r).2 = r := by
  unfold Network.hasSession at h
  unfold Network.call
  split
  · rename_i k hk
    rw [hk] at h
    split
    · rename_i q hq
      simp only [hq, Option.any_some, decide_eq_true_eq] at h
      simp [JAP2PConnector2.playBackStart, h]
    · rfl
  · rfl

theorem exec_DoStartPlayback {channelNo : ℤ} (h : p.SaneAt c)
    (htodo : (p.client c).todo = .DoStartPlayback channelNo :: rest)
    (hc : p.Allowed c a (.DoStartPlayback channelNo)) :
    p.SaneAfter ((p.popped c rest).exec c a (.DoStartPlayback channelNo)) c
      (.DoStartPlayback channelNo) := by
  unfold Player.SaneAfter
  by_cases hgo : p.starts c
  · obtain ⟨hsession, hresult⟩ := hc hgo
    have hsession' : (p.popped c rest).hasSession c = true := by
      simp only [Network.hasSession, client_popped]
      exact hsession
    have hclient : ((p.popped c rest).exec c a (.DoStartPlayback channelNo)).client c =
        { p.client c with todo := rest, mPlaybackHandle := a.result } := by
      simp only [Network.exec, client_popped]
      rw [if_neg (by simpa [Network.starts] using hgo), client_set, client_call, client_popped,
        call_playBackStart hsession']
    simp only [statusAfter, liveAfter, hclient, hgo, hsession, true_and]
    refine h.handled htodo rfl rfl rfl rfl ?_ ?_
    · intro hne
      exact ⟨hgo.2, by simp [hne]⟩
    · split
      · rename_i hne
        exact fun _ => hne
      · exact hresult
  · have hclient : ((p.popped c rest).exec c a (.DoStartPlayback channelNo)).client c =
        { p.client c with todo := rest } := by
      have hstop : (p.client c).mIsConnected = false ∨ (p.client c).mP2p = none := by
        by_contra hboth
        rw [not_or, Bool.not_eq_false] at hboth
        exact hgo hboth
      simp only [Network.exec, client_popped]
      rw [if_pos hstop, client_popped]
    simp only [statusAfter, liveAfter, hclient, hgo, false_and, if_false]
    exact h.quiet rfl rfl rfl (htodo ▸ continues_pop (htodo ▸ h.order) rfl) id

/-- More instructions are put in front. -/
theorem exec_push {pre : List Instr} (h : p.SaneAt c) (htodo : (p.client c).todo = i :: rest)
    (hi : i.plain = true) (hplays : i.plays = false)
    (hcont : Continues (i :: rest) (pre ++ rest)) :
    p.SaneAfter ((p.popped c rest).set c fun j => j.push pre) c i := by
  refine exec_quiet h htodo hi hplays ?_ ?_ ?_ ?_
  · simp [JAConnect.push]
  · simp [JAConnect.push]
  · simp [JAConnect.push]
  · simpa [JAConnect.push] using hcont

theorem exec_sane (h : p.SaneAt c) (htodo : (p.client c).todo = i :: rest) (hc : p.Allowed c a i) :
    p.SaneAfter ((p.popped c rest).exec c a i) c i := by
  have horder : orderly (i :: rest) = true := htodo ▸ h.order
  -- an instruction whose call only answers in `mHandle` or `ret`
  have hpop : ∀ w : Network C, i.plain = true → i.plays = false →
      (w.client c).mP2p = (p.client c).mP2p →
      (w.client c).mPlaybackHandle = (p.client c).mPlaybackHandle →
      (w.client c).mIsConnected = (p.client c).mIsConnected →
      (w.client c).todo = rest → p.SaneAfter w c i := by
    intro w hi hplays hp hh hcon ht
    refine exec_quiet h htodo hi hplays hp hh hcon ?_
    rw [ht]
    exact continues_pop horder hi
  cases i with
  | leaveConnected =>
    simp only [Network.exec]
    split
    · exact exec_push h htodo rfl rfl (continues_leave horder)
    · exact hpop _ rfl rfl (by simp) (by simp) (by simp) (by simp)
  | clearStates | ParseConnectString | createP2PHandle | connect =>
    simp only [Network.exec]
    exact hpop _ rfl rfl (by simp) (by simp) (by simp) (by simp)
  | newConnector => exact exec_newConnector h htodo hc
  | fallback =>
    simp only [Network.exec]
    split
    · exact exec_push h htodo rfl rfl (continues_fallback horder)
    · exact hpop _ rfl rfl (by simp) (by simp) (by simp) (by simp)
  | useLibrary1 => exact exec_useLibrary1 h htodo hc
  | loginP2P =>
    simp only [Network.exec]
    split
    · exact hpop _ rfl rfl (by simp) (by simp) (by simp) (by simp)
    · exact hpop _ rfl rfl (by simp) (by simp) (by simp) (by simp)
  | settle =>
    simp only [Network.exec]
    split
    · unfold Player.SaneAfter
      rw [liveAfter_eq _ _ _ _ rfl]
      exact h.settled htodo (by simp) (by simp) (by simp)
    · refine exec_quiet h htodo rfl rfl ?_ ?_ ?_ ?_
      · simp [JAConnect.push]
      · simp [JAConnect.push]
      · simp [JAConnect.push]
      · simpa [JAConnect.push] using continues_settle horder
  | playBackStop => exact exec_playBackStop h htodo
  | release => exact exec_release h htodo
  | forget =>
    unfold Player.SaneAfter
    rw [liveAfter_eq _ _ _ _ rfl]
    simp only [Network.exec]
    exact h.forgotten htodo (by simp) (by simp) (by simp) (by simp)
  | openChannel channelNo bOpen =>
    simp only [Network.exec]
    split
    · exact hpop _ rfl rfl (by simp) (by simp) (by simp) (by simp)
    · exact hpop _ rfl rfl (by simp) (by simp) (by simp) (by simp)
  | retry =>
    simp only [Network.exec]
    split
    · exact exec_push h htodo rfl rfl (continues_retry horder)
    · exact hpop _ rfl rfl (by simp) (by simp) (by simp) (by simp)
  | DoStartPlayback channelNo => exact exec_DoStartPlayback h htodo hc
  | DoStopPlayback => exact exec_DoStopPlayback h htodo hc

section Others
variable {w : Network C} {x : C}

theorem set_other (hx : x ≠ c) (f : JAConnect → JAConnect) : (w.set c f).client x = w.client x :=
  Function.update_of_ne hx _ _

theorem DestroyConnector_other (hx : x ≠ c) : (w.DestroyConnector c).client x = w.client x := by
  unfold Network.DestroyConnector
  split
  · rfl
  · exact set_other hx _
  · split
    · rfl
    · split
      · exact set_other hx _
      · exact set_other hx _

theorem stopPlayback_other (hx : x ≠ c) : (w.stopPlayback c a).client x = w.client x := by
  unfold Network.stopPlayback
  rw [set_other hx, client_call]

/-- An instruction of one client leaves the others as they are. -/
theorem exec_other (hx : x ≠ c) (i : Instr) : (w.exec c a i).client x = w.client x := by
  cases i with
  | clearStates | ParseConnectString | forget =>
    simp only [Network.exec]
    exact set_other hx _
  | leaveConnected | fallback | retry =>
    simp only [Network.exec]
    split
    · exact set_other hx _
    · rfl
  | newConnector =>
    simp only [Network.exec]
    split
    · exact set_other hx _
    · rw [set_other hx, client_CreateConnector]
  | createP2PHandle | connect =>
    simp only [Network.exec]
    rw [set_other hx, client_call]
  | useLibrary1 =>
    simp only [Network.exec]
    rw [set_other hx, DestroyConnector_other hx]
  | loginP2P =>
    simp only [Network.exec]
    split
    · rw [set_other hx, client_call]
    · rfl
  | settle =>
    simp only [Network.exec]
    split
    · exact set_other hx _
    · exact set_other hx _
  | playBackStop | DoStopPlayback =>
    simp only [Network.exec]
    split
    · exact stopPlayback_other hx
    · rfl
  | release =>
    simp only [Network.exec]
    split
    · exact DestroyConnector_other hx
    · rfl
  | openChannel channelNo bOpen =>
    simp only [Network.exec]
    split
    · exact set_other hx _
    · rw [set_other hx, client_call]
  | DoStartPlayback channelNo =>
    simp only [Network.exec]
    split
    · rfl
    · rw [set_other hx, client_call]

end Others

omit [DecidableEq C] in
theorem Player.SaneAt.congr {q : Player C} (h : p.SaneAt c) (hclient : q.client c = p.client c)
    (hstatus : q.mRealStatus c = p.mRealStatus c) (hobject : q.object c = p.object c)
    (hlive : q.live c = p.live c) : q.SaneAt c := by
  unfold Player.SaneAt
  rw [hclient, hstatus, hobject, hlive]
  exact h

theorem sane_run {w : Network C} (h : ∀ x, p.SaneAt x) (hi : p.next c = some i)
    (hc : p.Allowed c a i) (hs : p.toNetwork.step (.run c a) = some w) (x : C) :
    (p.after w c i).SaneAt x := by
  simp only [Network.step] at hs
  split at hs
  · cases hs
  · rename_i i' rest htodo
    have heq : i' = i := by
      rw [Network.next, htodo] at hi
      exact Option.some.inj hi
    subst heq
    split at hs
    · obtain rfl := Option.some.inj hs
      by_cases hx : x = c
      · subst hx
        have hsane := exec_sane (h x) htodo hc
        simp only [Player.SaneAt, Player.after, Function.update_self]
        exact hsane
      · refine (h x).congr ?_ ?_ ?_ ?_
        · exact (exec_other hx i').trans (set_other hx _)
        · exact Function.update_of_ne hx _ _
        · exact Function.update_of_ne hx _ _
        · exact Function.update_of_ne hx _ _
    · cases hs

theorem sane_take {w : Network C} {cmd : Cmd} (h : ∀ x, p.SaneAt x)
    (hs : p.toNetwork.step (.take c cmd) = some w) (x : C) :
    { p with toNetwork := w }.SaneAt x := by
  simp only [Network.step] at hs
  split at hs
  · rename_i hidle
    obtain rfl := Option.some.inj hs
    by_cases hx : x = c
    · subst hx
      obtain ⟨horder, hsettles, hhead⟩ := orderly_body cmd
      have hsane := h x
      unfold Player.SaneAt at hsane ⊢
      simp only [client_set]
      constructor
      · exact horder
      · intro hset
        rw [hsettles] at hset
        cases hset
      · exact fun hrel => absurd hrel hhead
      · exact hsane.owned
      · intro hcon
        have hkeep := hsane.connected hcon
        simp only [hidle, List.not_mem_nil, or_false] at hkeep
        exact .inl hkeep
      · intro hrec
        have hkeep := hsane.record hrec
        simp only [hidle, List.not_mem_nil, or_false] at hkeep
        exact .inl hkeep
    · refine (h x).congr ?_ rfl rfl rfl
      exact set_other hx fun j => { j with todo := cmd.body }
  · cases hs

theorem sane_step {q : Player C} {l : PlayAct C} (h : ∀ x, p.SaneAt x) (hc : p.Careful l)
    (hs : p.step l = some q) (x : C) : q.SaneAt x := by
  cases l with
  | net l =>
    cases l with
    | take c cmd =>
      obtain ⟨w, hw, rfl⟩ := Option.map_eq_some_iff.mp hs
      exact sane_take h hw x
    | run c a =>
      obtain ⟨i, hi, hs⟩ := Option.bind_eq_some_iff.mp hs
      obtain ⟨w, hw, rfl⟩ := Option.map_eq_some_iff.mp hs
      exact sane_run h hi (hc i hi) hw x
    | OnKDisconnect k =>
      obtain ⟨w, hw, rfl⟩ := Option.map_eq_some_iff.mp hs
      obtain ⟨q, hq, rfl⟩ := Option.map_eq_some_iff.mp hw
      exact (h x).congr rfl rfl rfl rfl
  | CMD_PLAYBACK_PAUSE c | CMD_PLAYBACK_CONTINUE c =>
    simp only [Player.step] at hs
    split at hs
    · obtain rfl := Option.some.inj hs
      exact h x
    · cases hs

omit [DecidableEq C] in
theorem sane_statusSound (h : ∀ x, p.SaneAt x) : p.StatusSound := by
  constructor
  · exact fun c hne => (h c).owned hne
  · intro c hidle hcon
    have hkeep := (h c).connected hcon
    simpa only [hidle, List.not_mem_nil, or_false] using hkeep
  · intro c hidle hrec
    have hkeep := (h c).record hrec
    simp only [hidle, List.not_mem_nil, or_false] at hkeep
    exact ⟨hkeep, (h c).owned hkeep⟩

omit [DecidableEq C] in
theorem sane_callsOwned (h : ∀ x, p.SaneAt x) (l : PlayAct C) : p.CallsOwned l := by
  intro c hctl
  cases l with
  | net l =>
    cases l with
    | run x a =>
      obtain ⟨-, i, -, hstops⟩ := hctl
      exact (h c).owned hstops.1
    | take | OnKDisconnect => exact hctl.elim
  | CMD_PLAYBACK_PAUSE x | CMD_PLAYBACK_CONTINUE x => exact (h c).owned hctl.2

/-- In every run of careful steps, from the start: the handle of a client is one that the
library returned on the connector that `mP2p` points to and that is not stopped, at every call
that passes it on and in every state; and between two commands a connected client has a
connector and a recording one has a handle. -/
theorem playback_status_sound {acts : List (PlayAct C)} {t : Player C}
    (run : Run Player.step Player.Careful Player.start acts t) :
    Run Player.step (fun p l => p.CallsOwned l ∧ p.StatusSound) Player.start acts t ∧
      t.StatusSound := by
  have hkeep : ∀ (p : Player C) l q, (∀ x, p.SaneAt x) → p.Careful l → p.step l = some q →
      ∀ x, q.SaneAt x := fun p l q h hc hs => sane_step h hc hs
  have hstart : ∀ x, (Player.start : Player C).SaneAt x := by
    intro x
    constructor <;> simp [Player.start, Network.start, JAConnect.init, orderly, settles]
  refine ⟨run.guarded (fun p => ∀ x, p.SaneAt x) hkeep ?_ hstart, ?_⟩
  · intro p l h _
    exact ⟨sane_callsOwned h l, sane_statusSound h⟩
  · exact sane_statusSound (run.invariant _ hkeep hstart)

end Exec

section Examples

instance (p : Player Bool) (c : Bool) (a : Reply) : (i : Instr) → Decidable (p.Allowed c a i)
  | .DoStartPlayback _ => inferInstanceAs (Decidable (p.starts c →
      p.hasSession c = true ∧ (p.mRealStatus c = .NET_PLAY_RECORD → a.result ≠ 0)))
  | .DoStopPlayback => inferInstanceAs (Decidable (p.mRealStatus c ≠ .NET_PLAY_RECORD))
  | .newConnector =>
    inferInstanceAs (Decidable ((p.client c).mPlaybackHandle ≠ 0 → p.findsOwn c))
  | .useLibrary1 => inferInstanceAs (Decidable ((p.client c).mPlaybackHandle = 0))
  | .leaveConnected | .clearStates | .ParseConnectString _ | .createP2PHandle | .connect
  | .fallback | .loginP2P | .settle | .playBackStop | .release | .forget | .openChannel ..
  | .retry => inferInstanceAs (Decidable True)

instance (p : Player Bool) : (l : PlayAct Bool) → Decidable (p.Careful l)
  | .net (.run c a) => inferInstanceAs (Decidable (∀ i ∈ p.next c, p.Allowed c a i))
  | .net (.take ..) | .net (.OnKDisconnect _) | .CMD_PLAYBACK_PAUSE _ | .CMD_PLAYBACK_CONTINUE _ =>
    inferInstanceAs (Decidable True)

def plays (handle : ℤ) : List (PlayAct Bool) :=
  (connects true 7).map .net ++
    [.net (.take true (.CMD_STARTPLAYBACK 0)), .net (.run true (reply handle 0))]

theorem playback_status_one_client : ∃ t : Player Bool,
    Run Player.step Player.Careful Player.start
      (plays 9 ++ [.CMD_PLAYBACK_PAUSE true, .CMD_PLAYBACK_CONTINUE true]) t ∧
    (t.client true).mPlaybackHandle = 9 ∧ t.mRealStatus true = .NET_PLAY_RECORD ∧
    t.StatusSound := by
  obtain ⟨t, hrun, hhandle, hstatus⟩ : ∃ t : Player Bool,
      Run Player.step Player.Careful Player.start
        (plays 9 ++ [.CMD_PLAYBACK_PAUSE true, .CMD_PLAYBACK_CONTINUE true]) t ∧
      (t.client true).mPlaybackHandle = 9 ∧ t.mRealStatus true = .NET_PLAY_RECORD :=
    exists_run (by decide +kernel)
  exact ⟨t, hrun, hhandle, hstatus, (playback_status_sound hrun).2⟩

/-- `DoStopPlayback` leaves the status at `NET_PLAY_RECORD`; and after a drop `ReConnect` comes
to another connector, on which the old handle is then stopped. -/
theorem stop_leaves_record_and_wrong_connector :
    (¬ ∀ (acts : List (PlayAct Bool)) (t : Player Bool),
      Run Player.step (fun _ _ => True) Player.start acts t → t.StatusSound) ∧
    ¬ ∀ (acts : List (PlayAct Bool)) (t : Player Bool) (l : PlayAct Bool),
      Run Player.step (fun _ _ => True) Player.start acts t → (t.step l).isSome = true →
        t.CallsOwned l := by
  constructor
  · intro hall
    obtain ⟨t, hrun, hidle, hstatus, hhandle⟩ : ∃ t : Player Bool,
        Run Player.step (fun _ _ => True) Player.start
          (plays 9 ++ [.net (.take true .CMD_STOPPLAYBACK), .net (.run true (reply 0 0))]) t ∧
        (t.client true).todo = [] ∧ t.mRealStatus true = .NET_PLAY_RECORD ∧
        (t.client true).mPlaybackHandle = 0 :=
      exists_run (by decide +kernel)
    exact ((hall _ t hrun).record true hidle hstatus).1 hhandle
  · intro hall
    obtain ⟨t, hrun, hstep, hnext, hhandle, hlive⟩ : ∃ t : Player Bool,
        Run Player.step (fun _ _ => True) Player.start
          (plays 9 ++ [.net (.OnKDisconnect 7), .net (.take true (.CMD_OPENCHANNEL 0))] ++
            List.replicate 6 (.net (.run true (reply KP2P_ERR_RESOLVE_FAILED 8))) ++
            List.replicate 5 (.net (.run true (reply 0 8))) ++
            [.net (.take true .CMD_STOPPLAYBACK)]) t ∧
        (t.step (.net (.run true (reply 0 0)))).isSome = true ∧
        (t.next true = some .DoStopPlayback ∧ t.stops true .DoStopPlayback) ∧
        (t.client true).mPlaybackHandle = 9 ∧ (t.object true, 9) ∉ t.live true :=
      exists_run (by decide +kernel)
    have howned := hall _ t _ hrun hstep true ⟨rfl, .DoStopPlayback, hnext.1, hnext.2⟩
    rw [Player.Owned, hhandle] at howned
    exact hlive howned.2

end Examples

end Jagles.Clients
