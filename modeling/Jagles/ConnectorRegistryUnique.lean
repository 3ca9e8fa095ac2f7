import Jagles.ConnectorRegistry

set_option autoImplicit false
set_option linter.dupNamespace false

/-!
# One connector per endpoint

A search that has come to an index knows that no connector before it is for its endpoint,
so the connector it then makes is the only one.
-/
namespace Jagles.ConnectorRegistry
open Connector CriticalSections GuardedRuns

section Compare
open JAP2PConnector2

theorem toShort_toShort (n : ℤ) : toShort (toShort n) = toShort n := by
  unfold toShort
  omega

theorem toShort_mod {n : ℕ} (h : n < 65536) : toShort n % 2 ^ 16 = n := by
  unfold toShort
  omega

theorem toShort_eq_iff {m n : ℕ} (hm : m < 65536) (hn : n < 65536) :
    toShort m = n ↔ n = m ∧ n < 32768 := by
  unfold toShort
  omega

theorem sameText_comm (a b : List UInt8) : sameText a b = sameText b a := by
  unfold sameText
  exact decide_eq_decide.mpr eq_comm

theorem sameText_nil_right {a : List UInt8} : sameText a [] = true ↔ a = [] := by
  simp [sameText]

theorem sameText_nil_left {a : List UInt8} : sameText [] a = true ↔ a = [] := by
  rw [sameText_comm, sameText_nil_right]

/-- The connector has been given the endpoint by `UpdateProperty`. -/
structure Stands (e : Endpoint) (p : JAP2PConnector2 Unit) : Prop where
  mDeviceID : p.mDeviceID = e.mDeviceID
  mIP : p.mIP = e.mIP
  mPort : e.mDeviceID = [] → p.mPort = toShort e.port

theorem Endpoint.port_lt (e : Endpoint) : e.port < 65536 := by
  by_cases hid : e.mDeviceID = []
  · exact (e.port_of_ip hid).2
  · rw [e.port_of_id hid]
    decide

theorem Endpoint.same_comm (e e' : Endpoint) : e.same e' = e'.same e := by
  unfold Endpoint.same
  by_cases hid : e.mDeviceID = []
  · by_cases hid' : e'.mDeviceID = []
    · simp only [hid, hid', if_true, decide_true, Bool.true_and]
      rw [sameText_comm, decide_eq_decide.mpr eq_comm]
    · simp [hid, hid', sameText]
  · by_cases hid' : e'.mDeviceID = []
    · simp [hid, hid', sameText]
    · simp only [hid, hid', if_false]
      exact sameText_comm _ _

theorem Endpoint.same_refl (e : Endpoint) : e.same e = true := by
  unfold Endpoint.same sameText
  split
  · rename_i hid
    simp [hid]
  · simp

theorem stands_UpdateProperty (e : Endpoint) (p : JAP2PConnector2 Unit) :
    Stands e (p.UpdateProperty e.mDeviceID e.mIP e.mPort) := by
  have hid := e.id_fits
  have hip := e.ip_fits
  refine ⟨List.take_of_length_le (by omega), List.take_of_length_le (by omega), ?_⟩
  intro hnil
  have hport := e.port_of_ip hnil
  have hne : e.mPort ≠ 0 := by
    unfold Endpoint.mPort toShort
    omega
  simp only [UpdateProperty, if_pos hne]
  exact toShort_toShort _

/-- The comparison finds the connector of an endpoint if its port is below 32768. -/
theorem CompareConnectStr_iff {e e' : Endpoint} {p : JAP2PConnector2 Unit} (h : Stands e' p) :
    p.CompareConnectStr e.mDeviceID e.mIP e.mPort = true ↔
      e.same e' = true ∧ e.port < 32768 := by
  have hone := e.one
  have hone' := e'.one
  have hport := toShort_eq_iff e'.port_lt e.port_lt
  unfold CompareConnectStr
  rw [h.mDeviceID, h.mIP, Endpoint.mPort, toShort_mod e.port_lt]
  by_cases hid' : e'.mDeviceID = []
  · have hip' := hone'.mp hid'
    rw [h.mPort hid']
    simp only [hid', hip', and_false, if_false, if_true, Bool.and_eq_true, decide_eq_true_eq]
    by_cases hid : e.mDeviceID = []
    · simp [Endpoint.same, hid, hid', hport, and_assoc]
    · have hip : e.mIP = [] := not_not.mp fun hne => hid (hone.mpr hne)
      simp [Endpoint.same, hid, hid', hip, sameText_nil_left, sameText_nil_right, hip']
  · simp only [hid', false_and, if_false]
    by_cases hid : e.mDeviceID = []
    · simp [Endpoint.same, hid, hid', sameText_nil_left]
    · have hzero := e.port_of_id hid
      simp [Endpoint.same, hid, hzero]

end Compare

variable {T : Type} {s t : Registry T} {th : T}

/-- An object after a call is what it was, for the same endpoint. -/
inductive Like : Option JAP2PManager → Option JAP2PManager → Prop where
  | refl (m : Option JAP2PManager) : Like m m
  | kcp {e : Endpoint} {p p' : JAP2PConnector2 Unit} (h : Stands e p → Stands e p') :
      Like (some (.KCP_P2P e p)) (some (.KCP_P2P e p'))

theorem Like.endpoint {m m' : Option JAP2PManager} (h : Like m m') :
    m'.bind JAP2PManager.endpoint = m.bind JAP2PManager.endpoint := by
  cases h with
  | refl => rfl
  | kcp => rfl

theorem Like.isSome {m m' : Option JAP2PManager} (h : Like m m') : m'.isSome = m.isSome := by
  cases h with
  | refl => rfl
  | kcp => rfl

theorem made_eq_some {k : ℕ} {e : Endpoint} :
    s.made k = some e ↔ ∃ p, s.heap k = some (.KCP_P2P e p) := by
  unfold Registry.made
  cases hk : s.heap k with
  | none => simp
  | some m =>
    cases m with
    | UDX_P2P => simp [JAP2PManager.endpoint]
    | KCP_P2P e' p => simp [JAP2PManager.endpoint]

theorem entry_eq_some {i : ℕ} {e : Endpoint} :
    s.entry i = some e ↔ ∃ k, s.g_ListManager[i]? = some k ∧ s.made k = some e := by
  unfold Registry.entry
  exact Option.bind_eq_some_iff

/-- What a thread knows where it stands. -/
def Knows (s : Registry T) (th : T) : Pc → Prop
  | .search e i => ∀ j < i, ∀ e' ∈ s.entry j, e.same e' = false
  | .construct e => ∀ k ∈ s.g_ListManager, ∀ e' ∈ s.made k, e.same e' = false
  | .property e k => k ∈ s.g_ListManager ∧ s.made k = some e
  | .share e k | .created e k => k ∈ s.g_ListManager ∧ ∃ e' ∈ s.made k, e.same e' = true
  | .erased | .free => ∀ k ∈ s.mP2p th, k ∉ s.g_ListManager
  | .found => False
  | _ => True

theorem Knows.congr {pc : Pc} (h : Knows s th pc) (hlist : t.g_ListManager = s.g_ListManager)
    (hmade : ∀ k ∈ s.g_ListManager, t.made k = s.made k) (hp : t.mP2p th = s.mP2p th) :
    Knows t th pc := by
  cases pc with
  | search e i =>
    intro j hj e' he'
    obtain ⟨k, hk, hmk⟩ := entry_eq_some.mp he'
    rw [hlist] at hk
    rw [hmade k (List.mem_of_getElem? hk)] at hmk
    exact h j hj e' (entry_eq_some.mpr ⟨k, hk, hmk⟩)
  | construct e =>
    intro k hk e' he'
    rw [hlist] at hk
    rw [hmade k hk] at he'
    exact h k hk e' he'
  | property e k =>
    obtain ⟨hk, hmk⟩ := h
    exact ⟨hlist ▸ hk, (hmade k hk).trans hmk⟩
  | share e k =>
    obtain ⟨hk, e', he', hsame⟩ := h
    exact ⟨hlist ▸ hk, e', (hmade k hk).trans he', hsame⟩
  | created e k =>
    obtain ⟨hk, e', he', hsame⟩ := h
    exact ⟨hlist ▸ hk, e', (hmade k hk).trans he', hsame⟩
  | erased =>
    intro k hk
    rw [hp] at hk
    rw [hlist]
    exact h k hk
  | free =>
    intro k hk
    rw [hp] at hk
    rw [hlist]
    exact h k hk
  | found => exact h
  | _ => trivial

/-- Outside the lock a thread knows of the list only that its connector has left it. -/
theorem Knows.outside {pc : Pc} (h : Knows s th pc) (hout : pc.inside = false)
    (hfree : pc = .free → Knows t th .free) : Knows t th pc := by
  cases pc with
  | free => exact hfree rfl
  | found => exact h
  | search | construct | property | share | created | erased => cases hout
  | _ => trivial

def Registry.view (s : Registry T) : View T := ⟨s.owner, fun th => (s.pc th).inside⟩

structure Registered (s : Registry T) : Prop where
  exclusive : Exclusive s.view
  nodup : s.g_ListManager.Nodup
  listed : ∀ k ∈ s.g_ListManager, (s.heap k).isSome = true
  held : ∀ th k, s.Has th k → (s.heap k).isSome = true
  stored : ∀ k ∈ s.g_ListManager, ∀ e p, s.heap k = some (.KCP_P2P e p) →
    Stands e p ∨ ∃ th, s.pc th = .property e k
  unique : ∀ k ∈ s.g_ListManager, ∀ k' ∈ s.g_ListManager, ∀ e ∈ s.made k, ∀ e' ∈ s.made k',
    e.same e' = true → k = k'
  knows : ∀ th, Knows s th (s.pc th)

theorem Registered.onePerEndpoint (r : Registered s) : OnePerEndpoint s := by
  intro i j e e' hi hj hsame
  obtain ⟨k, hk, hmk⟩ := entry_eq_some.mp hi
  obtain ⟨k', hk', hmk'⟩ := entry_eq_some.mp hj
  have heq := r.unique k (List.mem_of_getElem? hk) k' (List.mem_of_getElem? hk') e hmk e' hmk' hsame
  subst heq
  exact (List.getElem?_inj (List.getElem?_eq_some_iff.mp hk).1 r.nodup).mp (hk.trans hk'.symm)

theorem Registered.byHolder {a : Act T} (r : Registered s) : ByHolder s a := by
  cases a with
  | next th address playChannel =>
    intro hu
    have hknows := r.knows th
    refine (r.exclusive th).mpr ?_
    change (s.pc th).inside = true
    cases hpc : s.pc th with
    | created | oldCreated | removed | erased => rfl
    | found =>
      rw [hpc] at hknows
      exact hknows.elim
    | _ =>
      rw [hpc] at hu
      cases hu
  | _ => trivial

theorem Registered.returnsEqual {a : Act T} (r : Registered s) : ReturnsEqual s a := by
  cases a with
  | next th address playChannel =>
    intro e k hpc
    have hknows := r.knows th
    rw [hpc] at hknows
    exact hknows.2
  | _ => trivial

/-- While a thread is inside, a connector of the list has its endpoint unless that thread is
about to store it. -/
theorem Registered.stands (r : Registered s) (hin : (s.pc th).inside = true)
    (hnot : ∀ e k, s.pc th ≠ .property e k) {k : ℕ} (hk : k ∈ s.g_ListManager) {e : Endpoint}
    {p : JAP2PConnector2 Unit} (hp : s.heap k = some (.KCP_P2P e p)) : Stands e p := by
  rcases r.stored k hk e p hp with h | ⟨th', hpc⟩
  · exact h
  · have hin' : (s.pc th').inside = true := by rw [hpc]; rfl
    obtain rfl := r.exclusive.eq hin hin'
    exact absurd hpc (hnot e k)

section Steps
variable [DecidableEq T] {q : Pc}

/-- A step that leaves the list and what stands in it. -/
theorem Registered.change (r : Registered s) (th : T) (hturn : Turn s.view t.view)
    (hpc : t.pc = Function.update s.pc th q) (hlist : t.g_ListManager = s.g_ListManager)
    (hlike : ∀ k ∈ s.g_ListManager, Like (s.heap k) (t.heap k))
    (hp : ∀ th', th' ≠ th → t.mP2p th' = s.mP2p th')
    (hheld : ∀ th' k, t.Has th' k → (t.heap k).isSome = true)
    (hstored : ∀ e k p, s.pc th = .property e k → q ≠ .property e k →
      t.heap k = some (.KCP_P2P e p) → Stands e p)
    (hknows : Knows t th q) : Registered t := by
  have hmade : ∀ k ∈ s.g_ListManager, t.made k = s.made k := fun k hk => (hlike k hk).endpoint
  constructor
  · exact r.exclusive.turn hturn
  · rw [hlist]
    exact r.nodup
  · intro k hk
    rw [hlist] at hk
    rw [(hlike k hk).isSome]
    exact r.listed k hk
  · exact hheld
  · intro k hk e p hkp
    rw [hlist] at hk
    have hthread : (∃ th', s.pc th' = .property e k) →
        Stands e p ∨ ∃ th', t.pc th' = .property e k := by
      rintro ⟨th', hth'⟩
      rw [hpc]
      by_cases heq : th' = th
      · subst heq
        by_cases hq : q = .property e k
        · exact .inr ⟨th', by rw [Function.update_self, hq]⟩
        · exact .inl (hstored e k p hth' hq hkp)
      · exact .inr ⟨th', by rw [Function.update_of_ne heq, hth']⟩
    have hl := hlike k hk
    rw [hkp] at hl
    generalize hm : s.heap k = m at hl
    cases hl with
    | refl =>
      cases r.stored k hk e p hm with
      | inl h => exact .inl h
      | inr h => exact hthread h
    | kcp hkeep =>
      cases r.stored k hk e _ hm with
      | inl h => exact .inl (hkeep h)
      | inr h => exact hthread h
  · intro k hk k' hk' e he e' he'
    rw [hlist] at hk hk'
    rw [hmade k hk] at he
    rw [hmade k' hk'] at he'
    exact r.unique k hk k' hk' e he e' he'
  · intro th'
    rw [hpc]
    by_cases heq : th' = th
    · subst heq
      rw [Function.update_self]
      exact hknows
    · rw [Function.update_of_ne heq]
      exact (r.knows th').congr hlist hmade (hp th' heq)

/-- A thread that moves on has what it had, or what its local variable now points to. -/
theorem has_goto {th' : T} {k : ℕ} (h : (s.goto th q).Has th' k) :
    s.Has th' k ∨ q.lp2p = some k := by
  by_cases heq : th' = th
  · subst heq
    simp only [Registry.Has, Registry.goto, Function.update_self] at h
    exact h.imp_left .inl
  · refine .inl ?_
    simpa only [Registry.Has, Registry.goto, Function.update_of_ne heq] using h

/-- A step that only moves the thread on, and perhaps locks or unlocks. -/
theorem Registered.goto {o : Option T} (r : Registered s)
    (hturn : Turn s.view ⟨o, fun u => (Function.update s.pc th q u).inside⟩)
    (hstored : ∀ e k p, s.pc th = .property e k → s.heap k = some (.KCP_P2P e p) → Stands e p)
    (hheld : ∀ k, q.lp2p = some k → (s.heap k).isSome = true)
    (hknows : Knows s th q) : Registered { s.goto th q with owner := o } := by
  refine r.change th hturn rfl rfl (fun k _ => .refl _) (fun _ _ => rfl) ?_ ?_ ?_
  · intro th' k hhas
    cases has_goto (s := s) hhas with
    | inl hold => exact r.held th' k hold
    | inr hnew => exact hheld k hnew
  · intro e k p hpc _
    exact hstored e k p hpc
  · exact hknows.congr rfl (fun _ _ => rfl) rfl

/-- The pointer of a thread changes to one that the thread has, or to none. -/
theorem Registered.point {p : Option ℕ} (r : Registered s)
    (hp : ∀ k, p = some k → (s.heap k).isSome = true) (hknows : Knows (s.point th p) th (s.pc th)) :
    Registered (s.point th p) := by
  have hsame := (Function.update_eq_self th s.pc).symm
  refine r.change th (.keep _) hsame rfl (fun k _ => .refl _) ?_ ?_ ?_ hknows
  · intro th' hne
    exact Function.update_of_ne hne _ _
  · intro th' k hhas
    by_cases heq : th' = th
    · subst heq
      cases hhas with
      | inl h =>
        simp only [Registry.point, Function.update_self] at h
        exact hp k h
      | inr h => exact r.held th' k (.inr h)
    · refine r.held th' k ?_
      simpa only [Registry.Has, Registry.point, Function.update_of_ne heq] using hhas
  · intro e k p hpc hne
    exact absurd hpc hne

omit [DecidableEq T] in
theorem modify_like {k : ℕ} {f : JAP2PConnector2 Unit → JAP2PConnector2 Unit}
    (h : s.modify k f = some t)
    (hf : ∀ e p, s.heap k = some (.KCP_P2P e p) → Stands e p → Stands e (f p)) :
    ∃ m, s.heap k = some m ∧
      t = { s with heap := Function.update s.heap k (some (m.map f)) } ∧
      ∀ j, Like (s.heap j) (t.heap j) := by
  obtain ⟨m, hm, rfl⟩ := Option.map_eq_some_iff.mp h
  refine ⟨m, hm, rfl, ?_⟩
  intro j
  by_cases hj : j = k
  · subst hj
    simp only [Function.update_self, hm]
    cases m with
    | UDX_P2P => exact .refl _
    | KCP_P2P e p => exact .kcp (hf e p hm)
  · simp only [Function.update_of_ne hj]
    exact .refl _

theorem Registered.modify {k : ℕ} {f : JAP2PConnector2 Unit → JAP2PConnector2 Unit}
    (r : Registered s) (th : T) (h : s.modify k f = some t)
    (hf : ∀ e p, s.heap k = some (.KCP_P2P e p) → Stands e p → Stands e (f p)) :
    Registered t := by
  obtain ⟨m, hm, rfl, hlike⟩ := modify_like h hf
  have hsame := (Function.update_eq_self th s.pc).symm
  refine r.change th (.keep _) hsame rfl (fun j _ => hlike j) (fun _ _ => rfl) ?_ ?_ ?_
  · intro th' j hhas
    rw [(hlike j).isSome]
    exact r.held th' j hhas
  · intro e j p hpc hne
    exact absurd hpc hne
  · exact (r.knows th).congr rfl (fun j _ => (hlike j).endpoint) rfl

/-- The other threads are outside while one is inside. -/
theorem Registered.knows_others (r : Registered s) (hin : (s.pc th).inside = true)
    (hpc : t.pc = Function.update s.pc th q) (hq : Knows t th q)
    (hfree : ∀ th', th' ≠ th → s.pc th' = .free → Knows t th' .free) (th' : T) :
    Knows t th' (t.pc th') := by
  rw [hpc]
  by_cases heq : th' = th
  · subst heq
    rw [Function.update_self]
    exact hq
  · rw [Function.update_of_ne heq]
    refine (r.knows th').outside ?_ (hfree th' heq)
    by_contra hin'
    exact heq (r.exclusive.eq (Bool.of_not_eq_false hin') hin)

theorem Registered.erase {k : ℕ} (r : Registered s) (hin : (s.pc th).inside = true)
    (hnot : ∀ e k, s.pc th ≠ .property e k) (hq : q.inside = true) (hlp2p : q.lp2p = none)
    (hknows : k ∉ s.g_ListManager.erase k →
      Knows { s.goto th q with g_ListManager := s.g_ListManager.erase k } th q) :
    Registered { s.goto th q with g_ListManager := s.g_ListManager.erase k } := by
  have hmem : ∀ j, j ∈ s.g_ListManager.erase k → j ∈ s.g_ListManager := fun j => List.mem_of_mem_erase
  constructor
  · exact r.exclusive.turn (Turn.goto (hq.trans hin.symm))
  · exact r.nodup.erase k
  · intro j hj
    exact r.listed j (hmem j hj)
  · intro th' j hhas
    cases has_goto (s := s) hhas with
    | inl hold => exact r.held th' j hold
    | inr hnew =>
      rw [hlp2p] at hnew
      cases hnew
  · intro j hj e p hp
    exact .inl (r.stands hin hnot (hmem j hj) hp)
  · intro j hj j' hj' e he e' he'
    exact r.unique j (hmem j hj) j' (hmem j' hj') e he e' he'
  · refine r.knows_others hin rfl (hknows r.nodup.not_mem_erase) ?_
    intro th' _ hpc j hj
    have hfree := r.knows th'
    rw [hpc] at hfree
    exact fun hmem' => hfree j hj (hmem j hmem')

/-- What `new` does: an object at a free address, at the end of the list. -/
structure Inserted (s u : Registry T) (k : ℕ) (m : JAP2PManager) : Prop where
  free : s.heap k = none
  self : u.heap k = some m
  other : ∀ j, j ≠ k → u.heap j = s.heap j
  list : u.g_ListManager = s.g_ListManager ++ [k]
  owner : u.owner = s.owner
  pc : u.pc = s.pc
  mP2p : u.mP2p = s.mP2p

omit [DecidableEq T] in
theorem inserted_of_insert {k : ℕ} {m : JAP2PManager} {u : Registry T}
    (h : s.insert k m = some u) : Inserted s u k m := by
  unfold Registry.insert at h
  split at h
  · rename_i hfree
    obtain rfl := Option.some.inj h
    exact ⟨hfree, Function.update_self .., fun j hj => Function.update_of_ne hj _ _, rfl, rfl, rfl,
      rfl⟩
  · cases h

namespace Inserted
variable {u : Registry T} {k : ℕ} {m : JAP2PManager}

omit [DecidableEq T]

theorem ne_of_alive (h : Inserted s u k m) {j : ℕ} (hj : (s.heap j).isSome = true) : j ≠ k := by
  rintro rfl
  rw [h.free] at hj
  cases hj

theorem mem_cases (h : Inserted s u k m) (r : Registered s) {j : ℕ} (hj : j ∈ u.g_ListManager) :
    j ∈ s.g_ListManager ∧ j ≠ k ∨ j = k := by
  rw [h.list, List.mem_append, List.mem_singleton] at hj
  cases hj with
  | inl hold => exact .inl ⟨hold, h.ne_of_alive (r.listed j hold)⟩
  | inr hk => exact .inr hk

theorem alive (h : Inserted s u k m) {j : ℕ} (hj : (s.heap j).isSome = true) :
    (u.heap j).isSome = true := by
  rw [h.other j (h.ne_of_alive hj)]
  exact hj

theorem alive_self (h : Inserted s u k m) : (u.heap k).isSome = true := by
  rw [h.self]
  rfl

theorem made_self (h : Inserted s u k m) : u.made k = m.endpoint := by
  rw [Registry.made, h.self, Option.bind_some]

theorem made_other (h : Inserted s u k m) {j : ℕ} (hj : j ≠ k) : u.made j = s.made j := by
  rw [Registry.made, Registry.made, h.other j hj]

theorem has (h : Inserted s u k m) (th : T) (j : ℕ) : u.Has th j ↔ s.Has th j := by
  rw [Registry.Has, Registry.Has, h.pc, h.mP2p]

theorem nodup (h : Inserted s u k m) (r : Registered s) : u.g_ListManager.Nodup := by
  rw [h.list]
  refine List.Nodup.append r.nodup (List.nodup_singleton k) ?_
  rw [List.disjoint_singleton]
  exact fun hk => h.ne_of_alive (r.listed k hk) rfl

/-- No connector of the list was for the endpoint of the new one. -/
theorem unique (h : Inserted s u k m) (r : Registered s)
    (hm : ∀ e ∈ m.endpoint, ∀ j ∈ s.g_ListManager, ∀ e' ∈ s.made j, e.same e' = false) :
    ∀ j ∈ u.g_ListManager, ∀ j' ∈ u.g_ListManager, ∀ e ∈ u.made j, ∀ e' ∈ u.made j',
      e.same e' = true → j = j' := by
  intro j hj j' hj' e he e' he' hsame
  rcases h.mem_cases r hj with ⟨hold, hne⟩ | rfl
  · rw [h.made_other hne] at he
    rcases h.mem_cases r hj' with ⟨hold', hne'⟩ | rfl
    · rw [h.made_other hne'] at he'
      exact r.unique j hold j' hold' e he e' he' hsame
    · rw [h.made_self] at he'
      have hdiff := hm e' he' j hold e he
      rw [Endpoint.same_comm, hsame] at hdiff
      cases hdiff
  · rw [h.made_self] at he
    rcases h.mem_cases r hj' with ⟨hold', hne'⟩ | rfl
    · rw [h.made_other hne'] at he'
      have hdiff := hm e he j' hold' e' he'
      rw [hsame] at hdiff
      cases hdiff
    · rfl

end Inserted

/-- A new object in the list. Nobody has its address yet. -/
theorem Registered.insert {k : ℕ} {m : JAP2PManager} {u : Registry T} (r : Registered s)
    (h : Inserted s u k m) (hin : (s.pc th).inside = true)
    (hnot : ∀ e k, s.pc th ≠ .property e k) (hq : q.inside = true) (hlp2p : q.lp2p = some k)
    (hproperty : ∀ e ∈ m.endpoint, q = .property e k)
    (hm : ∀ e ∈ m.endpoint, ∀ j ∈ s.g_ListManager, ∀ e' ∈ s.made j, e.same e' = false)
    (hknows : Knows (u.goto th q) th q) : Registered (u.goto th q) := by
  have hpc : (u.goto th q).pc = Function.update s.pc th q := by
    simp only [Registry.goto, h.pc]
  have hview : Turn s.view (u.goto th q).view := by
    have hsame : (u.goto th q).view = ⟨s.owner, fun v => (Function.update s.pc th q v).inside⟩ := by
      rw [Registry.view, hpc]
      exact congrArg (View.mk · _) h.owner
    rw [hsame]
    exact Turn.goto (hq.trans hin.symm)
  constructor
  · exact r.exclusive.turn hview
  · exact h.nodup r
  · intro j hj
    rcases h.mem_cases r hj with ⟨hold, -⟩ | rfl
    · exact h.alive (r.listed j hold)
    · exact h.alive_self
  · intro th' j hhas
    by_cases hj : j = k
    · rw [hj]
      exact h.alive_self
    · cases has_goto hhas with
      | inl hold => exact h.alive (r.held th' j ((h.has th' j).mp hold))
      | inr hnew =>
        rw [hlp2p] at hnew
        exact absurd (Option.some.inj hnew).symm hj
  · intro j hj e p hp
    rcases h.mem_cases r hj with ⟨hold, hne⟩ | rfl
    · exact .inl (r.stands hin hnot hold ((h.other j hne).symm.trans hp))
    · obtain rfl := Option.some.inj (h.self.symm.trans hp)
      refine .inr ⟨th, ?_⟩
      rw [hpc, Function.update_self]
      exact hproperty e rfl
  · exact h.unique r hm
  · refine r.knows_others hin hpc hknows ?_
    intro th' _ hfree j hj hmem
    have hout := r.knows th'
    rw [hfree] at hout
    have hp : s.mP2p th' = some j := h.mP2p ▸ hj
    rcases h.mem_cases r hmem with ⟨hold, -⟩ | rfl
    · exact hout j hp hold
    · exact h.ne_of_alive (r.held th' j (.inl hp)) rfl

/-- `delete` takes away an object that is not in the list and that nobody else has. -/
theorem Registered.free {k : ℕ} (r : Registered s) (hpc : s.pc th = .free)
    (hk : s.mP2p th = some k) (hothers : ∀ th', th' ≠ th → ¬ s.Has th' k) :
    Registered { (s.goto th .idle).point th none with heap := Function.update s.heap k none } := by
  have hout : k ∉ s.g_ListManager := by
    have hknows := r.knows th
    rw [hpc] at hknows
    exact hknows k hk
  refine r.change th (Turn.goto (by rw [hpc]; rfl)) rfl rfl ?_ ?_ ?_ ?_ trivial
  · intro j hj
    have hne : j ≠ k := fun heq => hout (heq ▸ hj)
    simp only [Function.update_of_ne hne]
    exact .refl _
  · intro th' hne
    exact Function.update_of_ne hne _ _
  · intro th' j hhas
    by_cases heq : th' = th
    · subst heq
      simp [Registry.Has, Registry.goto, Registry.point, Pc.lp2p] at hhas
    · have hhas' : s.Has th' j := by
        simpa only [Registry.Has, Registry.goto, Registry.point, Function.update_of_ne heq] using hhas
      have hne : j ≠ k := fun hjk => hothers th' heq (hjk ▸ hhas')
      simp only [Function.update_of_ne hne]
      exact r.held th' j hhas'
  · intro e j p hpc'
    rw [hpc] at hpc'
    cases hpc'

theorem Registered.move (r : Registered s) (hin : q.inside = (s.pc th).inside)
    (hnot : ∀ e k, s.pc th ≠ .property e k)
    (hheld : ∀ k, q.lp2p = some k → (s.heap k).isSome = true) (hknows : Knows s th q) :
    Registered (s.goto th q) :=
  r.goto (Turn.goto hin) (fun e k _ hpc => absurd hpc (hnot e k)) hheld hknows

theorem Registered.lock (r : Registered s) (h : s.lock th q = some t) (hq : q.inside = true)
    (hnot : ∀ e k, s.pc th ≠ .property e k)
    (hheld : ∀ k, q.lp2p = some k → (s.heap k).isSome = true) (hknows : Knows s th q) :
    Registered t := by
  unfold Registry.lock at h
  split at h
  · rename_i hfree
    obtain rfl := Option.some.inj h
    exact r.goto (Turn.acquire hfree hq) (fun e k _ hpc => absurd hpc (hnot e k)) hheld hknows
  · cases h

theorem Registered.unlock (r : Registered s) (hin : (s.pc th).inside = true)
    (hq : q.inside = false) (hnot : ∀ e k, s.pc th ≠ .property e k)
    (hheld : ∀ k, q.lp2p = some k → (s.heap k).isSome = true) (hknows : Knows s th q) :
    Registered (s.unlock th q) :=
  r.goto (Turn.give hin hq) (fun e k _ hpc => absurd hpc (hnot e k)) hheld hknows

/-- A thread outside the lock moves on outside of it. -/
theorem Registered.wander (r : Registered s) (hout : (s.pc th).inside = false)
    (hq : q.inside = false) (hlp2p : q.lp2p = none) (hknows : Knows s th q) :
    Registered (s.goto th q) := by
  refine r.move (hq.trans hout.symm) ?_ (by simp [hlp2p]) hknows
  intro e k hpc
  rw [hpc] at hout
  cases hout

/-- `mP2p` is set to what the thread has made or found. -/
theorem Registered.returned {k : ℕ} (r : Registered s) (hin : (s.pc th).inside = true)
    (hnot : ∀ e k, s.pc th ≠ .property e k) (hk : (s.pc th).lp2p = some k) :
    Registered ((s.unlock th .idle).point th (some k)) := by
  have hu : Registered (s.unlock th .idle) :=
    r.unlock hin rfl hnot (fun _ hl => by cases hl) trivial
  refine hu.point ?_ (by simp [Registry.unlock, Registry.goto, Knows])
  intro j hj
  obtain rfl := Option.some.inj hj
  exact r.held th k (.inr hk)

/-- A search that comes to an entry has found the connector of its endpoint, or the entry is
of another endpoint. -/
theorem Registered.search {e : Endpoint} {i : ℕ} (r : Registered s) (hpc : s.pc th = .search e i)
    (hc : Allowed s th (.search e i)) {a : ℕ} {c : ℤ} (h : s.proceed th a c = some t) :
    Registered t := by
  have hin : (s.pc th).inside = true := by rw [hpc]; rfl
  have hnot : ∀ e k, s.pc th ≠ .property e k := by simp [hpc]
  have hknows := r.knows th
  rw [hpc] at hknows
  have hnext : (∀ e' ∈ s.entry i, e.same e' = false) → Knows s th (.search e (i + 1)) := by
    intro hi j hj
    rcases Nat.lt_succ_iff_lt_or_eq.mp hj with hlt | rfl
    · exact hknows j hlt
    · exact hi
  simp only [Registry.proceed, hpc] at h
  split at h
  · rename_i hend
    obtain rfl := Option.some.inj h
    refine r.move (by rw [hin]; rfl) hnot (fun _ hl => by cases hl) ?_
    intro k hk e' he'
    obtain ⟨j, hj⟩ := List.mem_iff_getElem?.mp hk
    have hlt : j < i := lt_of_lt_of_le (List.getElem?_eq_some_iff.mp hj).1
      (List.getElem?_eq_none_iff.mp hend)
    exact hknows j hlt e' (entry_eq_some.mpr ⟨k, hj, he'⟩)
  · rename_i k hk
    have hmem := List.mem_of_getElem? hk
    have hentry : s.entry i = s.made k := by simp only [Registry.entry, hk, Option.bind_some]
    split at h
    · cases h
    · rename_i hudx
      obtain rfl := Option.some.inj h
      refine r.move (by rw [hin]; rfl) hnot (fun _ hl => by cases hl) (hnext ?_)
      simp [hentry, Registry.made, hudx, JAP2PManager.endpoint]
    · rename_i e' p hkcp
      have hmade : s.made k = some e' := made_eq_some.mpr ⟨p, hkcp⟩
      have hcompare := CompareConnectStr_iff (e := e) (r.stands hin hnot hmem hkcp)
      split at h
      · rename_i hfound
        obtain rfl := Option.some.inj h
        refine r.move (by rw [hin]; rfl) hnot ?_ ⟨hmem, e', hmade, (hcompare.mp hfound).1⟩
        intro j hj
        obtain rfl := Option.some.inj hj
        exact r.listed k hmem
      · rename_i hother
        obtain rfl := Option.some.inj h
        refine r.move (by rw [hin]; rfl) hnot (fun _ hl => by cases hl) (hnext ?_)
        intro e'' he''
        rw [hentry, hmade] at he''
        obtain rfl := Option.some.inj he''
        -- the port condition is what makes the comparison complete
        have hport := hc e' (by rw [hentry]; exact hmade)
        by_contra hsame
        rw [Bool.not_eq_false] at hsame
        exact hother (hcompare.mpr ⟨hsame, hport hsame⟩)

theorem stands_UpdateUse {e : Endpoint} {p : JAP2PConnector2 Unit} {add : Bool}
    (h : Stands e p) : Stands e (p.UpdateUse add) :=
  ⟨h.mDeviceID, h.mIP, h.mPort⟩

theorem stands_closeP2P {e : Endpoint} {p : JAP2PConnector2 Unit} (h : Stands e p) :
    Stands e p.closeP2P := by
  unfold JAP2PConnector2.closeP2P
  split
  · exact h
  · exact ⟨h.mDeviceID, h.mIP, h.mPort⟩

/-- A call on an object of the list before `CreateConnector` unlocks. -/
theorem Registered.finish {e : Endpoint} {k : ℕ} {f : JAP2PConnector2 Unit → JAP2PConnector2 Unit}
    {u : Registry T} (r : Registered s) (hin : (s.pc th).inside = true) (h : s.modify k f = some u)
    (hf : ∀ e p, s.heap k = some (.KCP_P2P e p) → Stands e p → Stands e (f p))
    (hstored : ∀ e k' p, s.pc th = .property e k' → u.heap k' = some (.KCP_P2P e p) → Stands e p)
    (hk : k ∈ s.g_ListManager) (hfor : ∃ e' ∈ s.made k, e.same e' = true) :
    Registered (u.goto th (.created e k)) := by
  have hu := r.modify th h hf
  obtain ⟨m, hm, rfl, hlike⟩ := modify_like h hf
  refine hu.goto (Turn.goto (hin.symm ▸ rfl)) hstored ?_ ⟨hk, ?_⟩
  · intro j hj
    obtain rfl := Option.some.inj hj
    exact hu.listed k hk
  · obtain ⟨e', he', hsame⟩ := hfor
    exact ⟨e', (hlike k).endpoint.trans he', hsame⟩

/-- `UpdateProperty` gives the new connector its endpoint. -/
theorem Registered.property {e : Endpoint} {k : ℕ} (r : Registered s)
    (hpc : s.pc th = .property e k) {a : ℕ} {c : ℤ} (h : s.proceed th a c = some t) :
    Registered t := by
  have hknows := r.knows th
  rw [hpc] at hknows
  simp only [Registry.proceed, hpc] at h
  obtain ⟨u, hu, rfl⟩ := Option.map_eq_some_iff.mp h
  obtain ⟨p, hp⟩ := made_eq_some.mp hknows.2
  refine r.finish (by rw [hpc]; rfl) hu ?_ ?_ hknows.1 ⟨e, hknows.2, e.same_refl⟩
  · intro e' p' hp' _
    obtain ⟨rfl, rfl⟩ : e = e' ∧ p = p' := by simpa [hp] using hp'
    exact stands_UpdateProperty e _
  · intro e' k' p' hpc' hp'
    obtain ⟨rfl, rfl⟩ : e = e' ∧ k = k' := by simpa [hpc] using hpc'
    obtain ⟨m, hm, rfl⟩ := Option.map_eq_some_iff.mp hu
    obtain rfl := Option.some.inj (hm.symm.trans hp)
    simp only [Function.update_self, JAP2PManager.map, Option.some.injEq,
      JAP2PManager.KCP_P2P.injEq, true_and] at hp'
    rw [← hp']
    exact stands_UpdateProperty e _

/-- A call on the object of a thread outside the lock. -/
theorem Registered.touch {k : ℕ} {f : JAP2PConnector2 Unit → JAP2PConnector2 Unit}
    {u : Registry T} (r : Registered s) (hout : (s.pc th).inside = false)
    (h : s.modify k f = some u) (hf : ∀ e p, Stands e p → Stands e (f p))
    (hq : q.inside = false) (hlp2p : q.lp2p = none) (hknows : Knows u th q) :
    Registered (u.goto th q) := by
  have hu := r.modify th h fun e p _ => hf e p
  obtain ⟨m, -, rfl⟩ := Option.map_eq_some_iff.mp h
  exact hu.wander hout hq hlp2p hknows

theorem Registered.proceed {a : ℕ} {c : ℤ} (r : Registered s) (hc : Allowed s th (s.pc th))
    (h : s.proceed th a c = some t) : Registered t := by
  have hknows := r.knows th
  cases hpc : s.pc th with
  | idle =>
    simp only [Registry.proceed, hpc] at h
    cases h
  | createLock e =>
    simp only [Registry.proceed, hpc] at h
    refine r.lock h rfl (by simp [hpc]) (fun _ hl => by cases hl) ?_
    intro j hj
    cases hj
  | search e i =>
    rw [hpc] at hc
    exact r.search hpc hc h
  | share e k =>
    rw [hpc] at hknows
    simp only [Registry.proceed, hpc] at h
    obtain ⟨u, hu, rfl⟩ := Option.map_eq_some_iff.mp h
    refine r.finish (by rw [hpc]; rfl) hu ?_ (by simp [hpc]) hknows.1 hknows.2
    exact fun e p _ => stands_UpdateUse
  | construct e =>
    rw [hpc] at hknows
    simp only [Registry.proceed, hpc] at h
    obtain ⟨u, hu, rfl⟩ := Option.map_eq_some_iff.mp h
    have hins := inserted_of_insert hu
    refine r.insert hins (by rw [hpc]; rfl) (by simp [hpc]) rfl rfl ?_ ?_ ⟨?_, hins.made_self⟩
    · intro e' he'
      obtain rfl := Option.some.inj he'
      rfl
    · intro e' he'
      obtain rfl := Option.some.inj he'
      exact hknows
    · change a ∈ u.g_ListManager
      rw [hins.list]
      exact List.mem_append_right _ (List.mem_singleton_self a)
  | property e k => exact r.property hpc h
  | created e k =>
    simp only [Registry.proceed, hpc] at h
    obtain rfl := Option.some.inj h
    exact r.returned (by rw [hpc]; rfl) (by simp [hpc]) (by rw [hpc]; rfl)
  | oldLock =>
    simp only [Registry.proceed, hpc] at h
    exact r.lock h rfl (by simp [hpc]) (fun _ hl => by cases hl) trivial
  | oldConstruct =>
    simp only [Registry.proceed, hpc] at h
    obtain ⟨u, hu, rfl⟩ := Option.map_eq_some_iff.mp h
    have hins := inserted_of_insert hu
    refine r.insert hins (by rw [hpc]; rfl) (by simp [hpc]) rfl rfl ?_ ?_ trivial
    · exact fun e he => by cases he
    · exact fun e he => by cases he
  | oldCreated k =>
    simp only [Registry.proceed, hpc] at h
    obtain rfl := Option.some.inj h
    exact r.returned (by rw [hpc]; rfl) (by simp [hpc]) (by rw [hpc]; rfl)
  | use =>
    have hout : (s.pc th).inside = false := by rw [hpc]; rfl
    simp only [Registry.proceed, hpc] at h
    split at h
    · obtain rfl := Option.some.inj h
      exact r.wander hout rfl rfl trivial
    · split at h
      · cases h
      · obtain rfl := Option.some.inj h
        exact r.wander hout rfl rfl trivial
      · obtain rfl := Option.some.inj h
        split
        · exact r.wander hout rfl rfl trivial
        · exact r.wander hout rfl rfl trivial
  | leave =>
    simp only [Registry.proceed, hpc] at h
    obtain ⟨k, hk, h⟩ := Option.bind_eq_some_iff.mp h
    obtain ⟨u, hu, rfl⟩ := Option.map_eq_some_iff.mp h
    have hmove : Registered (u.goto th .idle) :=
      r.touch (by rw [hpc]; rfl) hu (fun e p => stands_UpdateUse) rfl rfl trivial
    exact hmove.point (fun _ hl => by cases hl) (by simp [Registry.goto, Knows])
  | removeLock =>
    simp only [Registry.proceed, hpc] at h
    exact r.lock h rfl (by simp [hpc]) (fun _ hl => by cases hl) trivial
  | remove =>
    simp only [Registry.proceed, hpc] at h
    obtain ⟨k, hk, rfl⟩ := Option.map_eq_some_iff.mp h
    exact r.erase (by rw [hpc]; rfl) (by simp [hpc]) rfl rfl (fun _ => trivial)
  | removed =>
    simp only [Registry.proceed, hpc] at h
    obtain rfl := Option.some.inj h
    exact r.unlock (by rw [hpc]; rfl) rfl (by simp [hpc]) (fun _ hl => by cases hl) trivial
  | close =>
    simp only [Registry.proceed, hpc] at h
    obtain ⟨k, hk, h⟩ := Option.bind_eq_some_iff.mp h
    obtain ⟨u, hu, rfl⟩ := Option.map_eq_some_iff.mp h
    refine r.touch (by rw [hpc]; rfl) hu (fun e p hp => ?_) rfl rfl trivial
    exact stands_UpdateUse (stands_closeP2P hp)
  | eraseLock =>
    simp only [Registry.proceed, hpc] at h
    exact r.lock h rfl (by simp [hpc]) (fun _ hl => by cases hl) trivial
  | erase =>
    simp only [Registry.proceed, hpc] at h
    obtain ⟨k, hk, rfl⟩ := Option.map_eq_some_iff.mp h
    refine r.erase (by rw [hpc]; rfl) (by simp [hpc]) rfl rfl ?_
    intro hout j hj
    obtain rfl := Option.some.inj (hk.symm.trans hj)
    exact hout
  | erased =>
    rw [hpc] at hknows
    simp only [Registry.proceed, hpc] at h
    obtain rfl := Option.some.inj h
    exact r.unlock (by rw [hpc]; rfl) rfl (by simp [hpc]) (fun _ hl => by cases hl) hknows
  | free =>
    rw [hpc] at hc
    simp only [Registry.proceed, hpc] at h
    obtain ⟨k, hk, h⟩ := Option.bind_eq_some_iff.mp h
    obtain ⟨m, hm, rfl⟩ := Option.map_eq_some_iff.mp h
    exact r.free hpc hk (hc k hk)
  | callback mgn i =>
    rw [hpc] at hc
    have hout : (s.pc th).inside = false := by rw [hpc]; rfl
    simp only [Registry.proceed, hpc] at h
    split at h
    · obtain rfl := Option.some.inj h
      exact r.wander hout rfl rfl trivial
    · rename_i k hk
      obtain rfl := Option.some.inj h
      have hne : k ≠ mgn := fun heq => hc (heq ▸ hk)
      rw [if_neg hne]
      exact r.wander hout rfl rfl trivial
  | found =>
    rw [hpc] at hknows
    exact hknows.elim

theorem Registered.call {pc : Pc} (r : Registered s) (h : s.call th pc = some t)
    (hin : pc.inside = false) (hl : pc.lp2p = none) (hknows : Knows s th pc) : Registered t := by
  unfold Registry.call at h
  split at h
  · rename_i hidle
    obtain rfl := Option.some.inj h
    exact r.wander (by rw [hidle]; rfl) hin hl hknows
  · cases h

theorem Registered.step {a : Act T} (r : Registered s) (hc : Careful s a)
    (h : s.step a = some t) : Registered t := by
  cases a with
  | next th address playChannel => exact r.proceed hc h
  | _ => exact r.call h rfl rfl trivial

omit [DecidableEq T] in
theorem Registered.start : Registered (Registry.start : Registry T) := by
  constructor
  · intro th
    simp [Registry.view, Registry.start, Pc.inside]
  · exact List.nodup_nil
  · intro k hk
    cases hk
  · intro th k hhas
    simp [Registry.Has, Registry.start, Pc.lp2p] at hhas
  · intro k hk
    cases hk
  · intro k hk
    cases hk
  · intro th
    trivial

/-- In every run of careful steps the list never holds two connectors for one endpoint,
`CreateConnector` returns a connector of the endpoint it was asked for, and the mutex is
only unlocked by its holder. -/
theorem one_connector_per_endpoint {acts : List (Act T)}
    (run : Run Registry.step Careful Registry.start acts t) :
    Run Registry.step (fun s a => ByHolder s a ∧ ReturnsEqual s a ∧ OnePerEndpoint s)
        Registry.start acts t ∧ OnePerEndpoint t := by
  have hkeep : ∀ (s : Registry T) a u, Registered s → Careful s a → s.step a = some u →
      Registered u := fun s a u r hc h => r.step hc h
  refine ⟨run.guarded Registered hkeep ?_ Registered.start, ?_⟩
  · intro s a r _
    exact ⟨r.byHolder, r.returnsEqual, r.onePerEndpoint⟩
  · exact (run.invariant Registered hkeep Registered.start).onePerEndpoint

end Steps

section Examples

instance (s : Registry (Fin 2)) (th : Fin 2) (k : ℕ) : Decidable (s.Has th k) :=
  inferInstanceAs (Decidable (_ ∨ _))

instance (s : Registry (Fin 2)) (th : Fin 2) : (pc : Pc) → Decidable (Allowed s th pc)
  | .callback mgn i => inferInstanceAs (Decidable (s.g_ListManager[i]? ≠ some mgn))
  | .search e i =>
    inferInstanceAs (Decidable (∀ e' ∈ s.entry i, e.same e' = true → e.port < 32768))
  | .free => inferInstanceAs (Decidable (∀ k ∈ s.mP2p th, ∀ th', th' ≠ th → ¬ s.Has th' k))
  | .idle | .createLock _ | .share .. | .construct _ | .property .. | .created .. | .oldLock
  | .oldConstruct | .oldCreated _ | .use | .leave | .removeLock | .remove | .removed | .close
  | .eraseLock | .erase | .erased | .found => inferInstanceAs (Decidable True)

instance (s : Registry (Fin 2)) : (a : Act (Fin 2)) → Decidable (Careful s a)
  | .next th _ _ => inferInstanceAs (Decidable (Allowed s th (s.pc th)))
  | .CreateConnector .. | .newJAP2PConnector _ | .DestroyConnector _ | .GetP2PConnector .. =>
    inferInstanceAs (Decidable True)

def door (port : ℕ) (h : 1 ≤ port ∧ port < 65536) : Endpoint where
  mDeviceID := []
  mIP := [49]
  port := port
  id_fits := by decide
  ip_fits := by decide
  one := by decide
  port_of_id := fun hid => absurd rfl hid
  port_of_ip := fun _ => h

def lowDoor : Endpoint := door 80 (by decide)

def highDoor : Endpoint := door 40000 (by decide)

def steps (th : Fin 2) (address n : ℕ) : List (Act (Fin 2)) :=
  List.replicate n (.next th address 0)

/-- The second thread shares the connector of the first, which then leaves it. -/
theorem one_connector_two_threads : ∃ t : Registry (Fin 2),
    Run Registry.step Careful Registry.start
      (.CreateConnector 0 lowDoor :: steps 0 5 5 ++
        .CreateConnector 1 lowDoor :: steps 1 6 4 ++
        .DestroyConnector 0 :: steps 0 7 2) t ∧
    t.mP2p 0 = none ∧ t.mP2p 1 = some 5 ∧ t.g_ListManager = [5] ∧ OnePerEndpoint t := by
  obtain ⟨t, hrun, h0, h1, hlist⟩ : ∃ t : Registry (Fin 2),
      Run Registry.step Careful Registry.start
        (.CreateConnector 0 lowDoor :: steps 0 5 5 ++
          .CreateConnector 1 lowDoor :: steps 1 6 4 ++
          .DestroyConnector 0 :: steps 0 7 2) t ∧
      t.mP2p 0 = none ∧ t.mP2p 1 = some 5 ∧ t.g_ListManager = [5] :=
    exists_run (by decide +kernel)
  exact ⟨t, hrun, h0, h1, hlist, (one_connector_per_endpoint hrun).2⟩

/-- A port that a `short` cannot hold gives two connectors for one address, and a callback
unlocks the mutex that a task thread holds. -/
theorem two_connectors_and_stray_unlock :
    (¬ ∀ (acts : List (Act (Fin 2))) (t : Registry (Fin 2)),
      Run Registry.step (fun _ _ => True) Registry.start acts t → OnePerEndpoint t) ∧
    ¬ ∀ (acts : List (Act (Fin 2))) (t : Registry (Fin 2)) (a : Act (Fin 2)),
      Run Registry.step (fun _ _ => True) Registry.start acts t → (t.step a).isSome = true →
        ByHolder t a := by
  constructor
  · intro hall
    obtain ⟨t, hrun, h0, h1⟩ : ∃ t : Registry (Fin 2),
        Run Registry.step (fun _ _ => True) Registry.start
          (.CreateConnector 0 highDoor :: steps 0 5 5 ++
            .CreateConnector 1 highDoor :: steps 1 6 6) t ∧
        t.entry 0 = some highDoor ∧ t.entry 1 = some highDoor :=
      exists_run (by decide +kernel)
    exact absurd (hall _ t hrun 0 1 _ _ h0 h1 (Endpoint.same_refl _)) (by decide)
  · intro hall
    obtain ⟨t, hrun, hpc, howner, hnext⟩ : ∃ t : Registry (Fin 2),
        Run Registry.step (fun _ _ => True) Registry.start
          (.CreateConnector 0 lowDoor :: steps 0 5 5 ++
            .GetP2PConnector 1 5 :: steps 1 5 1 ++
            .CreateConnector 0 lowDoor :: steps 0 5 1) t ∧
        t.pc 1 = .found ∧ t.owner = some 0 ∧ (t.step (.next 1 0 0)).isSome = true :=
      exists_run (by decide +kernel)
    have hby := hall _ t (.next 1 0 0) hrun hnext (by rw [hpc]; rfl)
    rw [howner] at hby
    exact absurd hby (by decide)

end Examples

end Jagles.ConnectorRegistry
