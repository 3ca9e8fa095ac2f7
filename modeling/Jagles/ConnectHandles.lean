import Jagles.GuardedRuns

set_option autoImplicit false
set_option linter.dupNamespace false

/-!
# Connector handles (`GLVideoConnect`)

Java keeps the handle of each connector in a map under its message; the native layer keeps
the objects in a list and deletes them. A handle is the address of its object, and `new` may
give an address again that `delete` gave back. Messages are of any type.
-/
namespace Jagles.ConnectHandles
open GuardedRuns

/-- `managed` says that `InitManager` has run since the last `DestroyManager`. The fields
behind it only record: the messages whose connector was deleted while registered, whether
`DestroyManager` has been called, the handles passed to native code that were not those of
an object, the messages for which `GetConnect` kept such a handle, the connectors created
without the network library and the calls of `getInstance` that left no manager. -/
structure GLVideoConnect (Msg : Type) where
  pGLVideoConnect : ℕ
  connectInFos : Msg → Option ℕ
  connectManagerList : List ℕ
  gIsInitNetwork : Bool
  managed : Bool
  destroyed : Msg → Bool
  tornDown : Bool
  stale : List ℕ
  kept : List Msg
  early : ℕ
  missing : ℕ

def GLVideoConnect.create (Msg : Type) : GLVideoConnect Msg where
  pGLVideoConnect := 0
  connectInFos _ := none
  connectManagerList := []
  gIsInitNetwork := false
  managed := false
  destroyed _ := false
  tornDown := false
  stale := []
  kept := []
  early := 0
  missing := 0

namespace GLVideoConnect

variable {Msg : Type} (s : GLVideoConnect Msg)

/-! ## Native code -/

def initManager : GLVideoConnect Msg := { s with gIsInitNetwork := true, managed := true }

/-- `GetConnectInstance`, where `new` gives `address`. -/
def getConnectInstance (address : ℕ) : GLVideoConnect Msg :=
  { s with
    connectManagerList := s.connectManagerList ++ [address]
    early := s.early + if s.gIsInitNetwork then 0 else 1 }

/-- A handle goes to native code. -/
def pass (handle : ℕ) : GLVideoConnect Msg :=
  { s with stale := if handle ∈ s.connectManagerList then s.stale else handle :: s.stale }

def destroyManager : GLVideoConnect Msg :=
  { s with
    connectManagerList := []
    managed := false
    destroyed := fun msg => s.destroyed msg || (s.connectInFos msg).isSome
    tornDown := true }

/-- The native `DestroyConnector`: it deletes the object if it is in the list. -/
def destroyHandle (handle : ℕ) : GLVideoConnect Msg :=
  { s with
    connectManagerList := s.connectManagerList.erase handle
    destroyed := fun msg => s.destroyed msg || decide (s.connectInFos msg = some handle) }

/-! ## Java -/

def getInstance : GLVideoConnect Msg :=
  let s := if s.pGLVideoConnect = 0 then { s.initManager with pGLVideoConnect := 1 } else s
  { s with missing := s.missing + if s.managed then 0 else 1 }

/-- The marker is 1 afterwards as it was before. -/
def destroyInstance : GLVideoConnect Msg :=
  if s.pGLVideoConnect ≠ 0 then
    { s.destroyManager with
      connectInFos := fun _ => none
      destroyed := fun _ => false
      pGLVideoConnect := 1 }
  else s

def addConnect [DecidableEq Msg] (msg : Msg) (handle : ℕ) : GLVideoConnect Msg :=
  { s with connectInFos := Function.update s.connectInFos msg (some handle) }

def getConnect [DecidableEq Msg] (msg : Msg) (address : ℕ) : GLVideoConnect Msg :=
  match s.connectInFos msg with
  | none => (s.getConnectInstance address).addConnect msg address
  | some handle =>
    { s with kept := if handle ∈ s.connectManagerList then s.kept else msg :: s.kept }

def destroyConnector (msg : Msg) : GLVideoConnect Msg :=
  match s.connectInFos msg with
  | none => s
  | some handle => (s.pass handle).destroyHandle handle

/-- Any other method that takes a message: it looks up the handle and passes it on. -/
def call (msg : Msg) : GLVideoConnect Msg :=
  match s.connectInFos msg with
  | none => s
  | some handle => s.pass handle

/-- The handle made here is not registered. -/
def doCheckTutkOnline (msg : Msg) (address : ℕ) : GLVideoConnect Msg :=
  match s.connectInFos msg with
  | none => (s.getConnectInstance address).pass address
  | some _ => s

end GLVideoConnect

/-- `address` is what `new` gives where a connector is made. `native..` are calls of the
public native methods with a handle of the caller's own. -/
inductive Label (Msg : Type) where
  | getInstance
  | destroyInstance
  | getConnect (msg : Msg) (address : ℕ)
  | destroyConnector (msg : Msg)
  | call (msg : Msg)
  | doCheckTutkOnline (msg : Msg) (address : ℕ)
  | nativeCall (handle : ℕ)
  | nativeDestroyConnector (handle : ℕ)
  | nativeDestroyManager

variable {Msg : Type}

/-- The methods of an instance need `getInstance` to have been called; `new` gives an address
that is not in use. -/
def Enabled (s : GLVideoConnect Msg) : Label Msg → Prop
  | .getInstance | .destroyInstance | .nativeDestroyManager => True
  | .getConnect _ address | .doCheckTutkOnline _ address =>
    s.pGLVideoConnect ≠ 0 ∧ address ≠ 0 ∧ address ∉ s.connectManagerList
  | .destroyConnector _ | .call _ | .nativeCall _ | .nativeDestroyConnector _ =>
    s.pGLVideoConnect ≠ 0

instance (s : GLVideoConnect Msg) (l : Label Msg) : Decidable (Enabled s l) := by
  cases l <;> unfold Enabled <;> infer_instance

variable [DecidableEq Msg]

def next (s : GLVideoConnect Msg) : Label Msg → GLVideoConnect Msg
  | .getInstance => s.getInstance
  | .destroyInstance => s.destroyInstance
  | .getConnect msg address => s.getConnect msg address
  | .destroyConnector msg => s.destroyConnector msg
  | .call msg => s.call msg
  | .doCheckTutkOnline msg address => s.doCheckTutkOnline msg address
  | .nativeCall handle => s.pass handle
  | .nativeDestroyConnector handle => (s.pass handle).destroyHandle handle
  | .nativeDestroyManager => s.destroyManager

def step (s : GLVideoConnect Msg) (l : Label Msg) : Option (GLVideoConnect Msg) :=
  if Enabled s l then some (next s l) else none

theorem step_eq_some {s t : GLVideoConnect Msg} {l : Label Msg} (h : step s l = some t) :
    Enabled s l ∧ t = next s l := by
  unfold step at h
  split at h
  · exact ⟨‹_›, (Option.some.inj h).symm⟩
  · cases h

/-! ## Registered handles -/

/-- A handle is passed on only through a message whose connector has not been deleted since
it was registered, or by a caller who has it from a connector that still exists, and
`getInstance` is not called once `DestroyManager` has been. -/
def InOrder (s : GLVideoConnect Msg) : Label Msg → Prop
  | .getInstance => s.tornDown = false
  | .getConnect msg _ => s.destroyed msg = false
  | .destroyConnector msg => s.destroyed msg = false
  | .call msg => s.destroyed msg = false
  | .nativeCall handle => handle ∈ s.connectManagerList
  | .nativeDestroyConnector handle => handle ∈ s.connectManagerList
  | _ => True

/-- Whatever is registered and not known to be deleted is in the list. -/
structure Registered (s : GLVideoConnect Msg) : Prop where
  live : ∀ msg handle, s.connectInFos msg = some handle → s.destroyed msg = false →
    handle ∈ s.connectManagerList
  known : ∀ msg, s.destroyed msg = true → (s.connectInFos msg).isSome
  stale : s.stale = []
  kept : s.kept = []

section invariant

variable {Msg : Type} {s : GLVideoConnect Msg}

theorem Registered.pass (h : Registered s) {handle : ℕ} (hin : handle ∈ s.connectManagerList) :
    Registered (s.pass handle) :=
  ⟨h.live, h.known, by simp only [GLVideoConnect.pass, if_pos hin, h.stale], h.kept⟩

theorem Registered.getConnectInstance (h : Registered s) (address : ℕ) :
    Registered (s.getConnectInstance address) :=
  ⟨fun msg handle hm hd => List.mem_append_left _ (h.live msg handle hm hd), h.known, h.stale,
    h.kept⟩

theorem Registered.destroyHandle (h : Registered s) (handle : ℕ) :
    Registered (s.destroyHandle handle) where
  live msg handle' hm hd := by
    simp only [GLVideoConnect.destroyHandle, Bool.or_eq_false_iff, decide_eq_false_iff_not] at hd
    have hne : handle' ≠ handle := by
      rintro rfl
      exact hd.2 hm
    exact (List.mem_erase_of_ne hne).mpr (h.live msg handle' hm hd.1)
  known msg hd := by
    simp only [GLVideoConnect.destroyHandle, Bool.or_eq_true, decide_eq_true_eq] at hd
    rcases hd with hd | hd
    · exact h.known msg hd
    · exact Option.isSome_of_mem hd
  stale := h.stale
  kept := h.kept

theorem Registered.destroyManager (h : Registered s) : Registered s.destroyManager where
  live msg handle hm hd := by
    simp only [GLVideoConnect.destroyManager, Bool.or_eq_false_iff] at hd
    change s.connectInFos msg = some handle at hm
    rw [hm] at hd
    exact absurd hd.2 (by simp)
  known msg hd := by
    simp only [GLVideoConnect.destroyManager, Bool.or_eq_true] at hd
    exact hd.elim (h.known msg) id
  stale := h.stale
  kept := h.kept

theorem Registered.addConnect [DecidableEq Msg] (h : Registered s) {msg : Msg} {address : ℕ}
    (hin : address ∈ s.connectManagerList) : Registered (s.addConnect msg address) where
  live msg' handle hm hd := by
    by_cases heq : msg' = msg
    · subst heq
      simp only [GLVideoConnect.addConnect, Function.update_self, Option.some.injEq] at hm
      exact hm ▸ hin
    · simp only [GLVideoConnect.addConnect, Function.update_of_ne heq] at hm
      exact h.live msg' handle hm hd
  known msg' hd := by
    by_cases heq : msg' = msg
    · subst heq
      simp [GLVideoConnect.addConnect]
    · simp only [GLVideoConnect.addConnect, Function.update_of_ne heq]
      exact h.known msg' hd
  stale := h.stale
  kept := h.kept

theorem Registered.getInstance (h : Registered s) : Registered s.getInstance := by
  unfold GLVideoConnect.getInstance
  split
  · exact ⟨h.live, h.known, h.stale, h.kept⟩
  · exact ⟨h.live, h.known, h.stale, h.kept⟩

theorem Registered.destroyInstance (h : Registered s) : Registered s.destroyInstance := by
  unfold GLVideoConnect.destroyInstance
  split
  · exact ⟨fun _ _ hm _ => absurd hm (by simp), fun _ hd => absurd hd (by simp), h.stale, h.kept⟩
  · exact h

theorem Registered.getConnect [DecidableEq Msg] (h : Registered s) {msg : Msg} (hd : s.destroyed msg = false)
    (address : ℕ) : Registered (s.getConnect msg address) := by
  cases hm : s.connectInFos msg with
  | none =>
    simp only [GLVideoConnect.getConnect, hm]
    exact (h.getConnectInstance address).addConnect (by simp [GLVideoConnect.getConnectInstance])
  | some handle =>
    simp only [GLVideoConnect.getConnect, hm, if_pos (h.live msg handle hm hd)]
    exact h

theorem Registered.destroyConnector (h : Registered s) {msg : Msg}
    (hd : s.destroyed msg = false) : Registered (s.destroyConnector msg) := by
  cases hm : s.connectInFos msg with
  | none =>
    simp only [GLVideoConnect.destroyConnector, hm]
    exact h
  | some handle =>
    simp only [GLVideoConnect.destroyConnector, hm]
    exact (h.pass (h.live msg handle hm hd)).destroyHandle handle

theorem Registered.call (h : Registered s) {msg : Msg} (hd : s.destroyed msg = false) :
    Registered (s.call msg) := by
  cases hm : s.connectInFos msg with
  | none =>
    simp only [GLVideoConnect.call, hm]
    exact h
  | some handle =>
    simp only [GLVideoConnect.call, hm]
    exact h.pass (h.live msg handle hm hd)

theorem Registered.doCheckTutkOnline (h : Registered s) (msg : Msg) (address : ℕ) :
    Registered (s.doCheckTutkOnline msg address) := by
  unfold GLVideoConnect.doCheckTutkOnline
  split
  · exact (h.getConnectInstance address).pass (by simp [GLVideoConnect.getConnectInstance])
  · exact h

theorem Registered.next [DecidableEq Msg] (h : Registered s) {l : Label Msg} (hc : InOrder s l) :
    Registered (next s l) := by
  cases l with
  | getInstance => exact h.getInstance
  | destroyInstance => exact h.destroyInstance
  | getConnect msg address => exact h.getConnect hc address
  | destroyConnector msg => exact h.destroyConnector hc
  | call msg => exact h.call hc
  | doCheckTutkOnline msg address => exact h.doCheckTutkOnline msg address
  | nativeCall handle => exact h.pass hc
  | nativeDestroyConnector handle => exact (h.pass hc).destroyHandle handle
  | nativeDestroyManager => exact h.destroyManager

end invariant

/-! ## The manager -/

/-- The network library outlives `DestroyManager`, so that a connector is never created
without it. -/
structure Initialised (s : GLVideoConnect Msg) : Prop where
  network : s.pGLVideoConnect ≠ 0 → s.gIsInitNetwork = true
  early : s.early = 0

omit [DecidableEq Msg] in
theorem Initialised.getConnectInstance {s : GLVideoConnect Msg} (h : Initialised s)
    (hp : s.pGLVideoConnect ≠ 0) (address : ℕ) : Initialised (s.getConnectInstance address) where
  network := h.network
  early := by simp only [GLVideoConnect.getConnectInstance, h.network hp, if_true, h.early]

theorem Initialised.next {s : GLVideoConnect Msg} (h : Initialised s) {l : Label Msg}
    (he : Enabled s l) : Initialised (next s l) := by
  cases l with
  | getInstance =>
    change Initialised s.getInstance
    unfold GLVideoConnect.getInstance
    split
    · exact ⟨fun _ => rfl, h.early⟩
    · exact ⟨h.network, h.early⟩
  | destroyInstance =>
    change Initialised s.destroyInstance
    unfold GLVideoConnect.destroyInstance
    split
    · exact ⟨fun _ => h.network ‹_›, h.early⟩
    · exact h
  | getConnect msg address =>
    change Initialised (s.getConnect msg address)
    have hnew := h.getConnectInstance he.1 address
    unfold GLVideoConnect.getConnect
    split
    · exact ⟨hnew.network, hnew.early⟩
    · exact ⟨h.network, h.early⟩
  | destroyConnector msg =>
    change Initialised (s.destroyConnector msg)
    unfold GLVideoConnect.destroyConnector
    split
    · exact h
    · exact ⟨h.network, h.early⟩
  | call msg =>
    change Initialised (s.call msg)
    unfold GLVideoConnect.call
    split
    · exact h
    · exact ⟨h.network, h.early⟩
  | doCheckTutkOnline msg address =>
    change Initialised (s.doCheckTutkOnline msg address)
    have hnew := h.getConnectInstance he.1 address
    unfold GLVideoConnect.doCheckTutkOnline
    split
    · exact ⟨hnew.network, hnew.early⟩
    · exact h
  | nativeCall handle => exact ⟨h.network, h.early⟩
  | nativeDestroyConnector handle => exact ⟨h.network, h.early⟩
  | nativeDestroyManager => exact ⟨h.network, h.early⟩

/-- Until `DestroyManager`, the marker stands for a manager. -/
structure Managed (s : GLVideoConnect Msg) : Prop where
  managed : s.pGLVideoConnect ≠ 0 → s.tornDown = false → s.managed = true
  missing : s.missing = 0

theorem Managed.next {s : GLVideoConnect Msg} (h : Managed s) {l : Label Msg}
    (hc : InOrder s l) : Managed (next s l) := by
  cases l with
  | getInstance =>
    change Managed s.getInstance
    unfold GLVideoConnect.getInstance
    split
    · exact ⟨fun _ _ => rfl, by simp [GLVideoConnect.initManager, h.missing]⟩
    · rename_i hp
      exact ⟨h.managed, by simp [h.managed hp hc, h.missing]⟩
  | destroyInstance =>
    change Managed s.destroyInstance
    unfold GLVideoConnect.destroyInstance
    split
    · exact ⟨fun _ ht => absurd ht (by simp [GLVideoConnect.destroyManager]), h.missing⟩
    · exact h
  | getConnect msg address =>
    change Managed (s.getConnect msg address)
    unfold GLVideoConnect.getConnect
    split <;> exact ⟨h.managed, h.missing⟩
  | destroyConnector msg =>
    change Managed (s.destroyConnector msg)
    unfold GLVideoConnect.destroyConnector
    split <;> exact ⟨h.managed, h.missing⟩
  | call msg =>
    change Managed (s.call msg)
    unfold GLVideoConnect.call
    split <;> exact ⟨h.managed, h.missing⟩
  | doCheckTutkOnline msg address =>
    change Managed (s.doCheckTutkOnline msg address)
    unfold GLVideoConnect.doCheckTutkOnline
    split <;> exact ⟨h.managed, h.missing⟩
  | nativeCall handle => exact ⟨h.managed, h.missing⟩
  | nativeDestroyConnector handle => exact ⟨h.managed, h.missing⟩
  | nativeDestroyManager =>
    exact ⟨fun _ ht => absurd ht (by simp [Jagles.ConnectHandles.next, GLVideoConnect.destroyManager]),
      h.missing⟩

/-! ## Runs -/

theorem early_eq_zero {cond : GLVideoConnect Msg → Label Msg → Prop} {ls : List (Label Msg)}
    {t : GLVideoConnect Msg} (h : Run step cond (.create Msg) ls t) : t.early = 0 := by
  have hi : Initialised t := by
    apply h.invariant Initialised
    · intro s l u hs _ hstep
      obtain ⟨he, rfl⟩ := step_eq_some hstep
      exact hs.next he
    · exact ⟨fun hp => absurd rfl hp, rfl⟩
  exact hi.early

/-- In a run that keeps the order, every handle passed to native code is that of an object,
`GetConnect` keeps none that is not, and a connector is created only under a manager. -/
theorem handles_live {ls : List (Label Msg)} {t : GLVideoConnect Msg}
    (h : Run step InOrder (.create Msg) ls t) :
    t.stale = [] ∧ t.kept = [] ∧ t.early = 0 ∧ t.missing = 0 := by
  have hr : Registered t := by
    apply h.invariant Registered
    · intro s l u hs hc hstep
      obtain ⟨-, rfl⟩ := step_eq_some hstep
      exact hs.next hc
    · exact ⟨fun _ _ hm _ => absurd hm (by simp [GLVideoConnect.create]),
        fun _ hd => absurd hd (by simp [GLVideoConnect.create]), rfl, rfl⟩
  have hm : Managed t := by
    apply h.invariant Managed
    · intro s l u hs hc hstep
      obtain ⟨-, rfl⟩ := step_eq_some hstep
      exact hs.next hc
    · exact ⟨fun hp => absurd rfl hp, rfl⟩
  exact ⟨hr.stale, hr.kept, early_eq_zero h, hm.missing⟩

instance (s : GLVideoConnect Msg) (l : Label Msg) : Decidable (InOrder s l) := by
  cases l <;> unfold InOrder <;> infer_instance

/-- Two messages, one connector destroyed and the other used afterwards. -/
theorem handles_live_two_connectors :
    ∃ t, Run step InOrder (.create Bool) [.getInstance, .getConnect true 1000,
      .getConnect false 2000, .destroyConnector true, .call false, .destroyInstance] t ∧
      (t.stale = [] ∧ t.kept = [] ∧ t.early = 0 ∧ t.missing = 0) := by
  have hrun : ∃ t, Run step InOrder (.create Bool) [.getInstance, .getConnect true 1000,
      .getConnect false 2000, .destroyConnector true, .call false, .destroyInstance] t ∧ True :=
    exists_run (by decide +kernel)
  obtain ⟨t, ht, -⟩ := hrun
  exact ⟨t, ht, handles_live ht⟩

/-- After `DestroyConnector(msg)`, `GetConnect(msg)` keeps the old handle and the next call
passes it on; after `destroyInstance`, `getInstance` does not call `InitManager`. -/
theorem destroyed_handle_passed :
    (∃ ls t, Run step (fun _ _ => True) (.create Bool) ls t ∧ t.stale = [1000] ∧ t.kept = [true]) ∧
    ∃ ls t, Run step (fun _ _ => True) (.create Bool) ls t ∧ t.missing = 1 := by
  constructor
  · refine ⟨[.getInstance, .getConnect true 1000, .destroyConnector true, .getConnect true 2000,
      .call true], ?_⟩
    exact exists_run (by decide +kernel)
  · refine ⟨[.getInstance, .destroyInstance, .getInstance], ?_⟩
    exact exists_run (by decide +kernel)

end Jagles.ConnectHandles
