import Jagles.Connector
import Jagles.CriticalSections
import Jagles.GuardedRuns

set_option autoImplicit false
set_option linter.dupNamespace false

/-!
# The list of all connectors (`g_ListManager`)

Task threads run `CreateConnector`, `DestroyConnector` and the constructor of the old
library's `JAP2PConnector`, and the threads of the p2p library run callbacks, which begin
with `GetP2PConnector(mgn)`. `g_listLock` guards the list.
-/
namespace Jagles.ConnectorRegistry
open Connector CriticalSections GuardedRuns

/-- What `ParseConnectString` can leave for `CreateConnector`: a device id, or an address
with a port. A longer id is given to the old library. -/
structure Endpoint where
  mDeviceID : List UInt8
  mIP : List UInt8
  port : ℕ
  id_fits : mDeviceID.length ≤ 15
  ip_fits : mIP.length < 80
  one : mDeviceID = [] ↔ mIP ≠ []
  port_of_id : mDeviceID ≠ [] → port = 0
  port_of_ip : mDeviceID = [] → 1 ≤ port ∧ port < 65536
  deriving DecidableEq

namespace Endpoint

/-- The member of `JAConnect` is a `short`. -/
def mPort (e : Endpoint) : ℤ := toShort e.port

def same (e e' : Endpoint) : Bool :=
  if e.mDeviceID = [] then
    decide (e'.mDeviceID = []) && JAP2PConnector2.sameText e.mIP e'.mIP && decide (e.port = e'.port)
  else JAP2PConnector2.sameText e.mDeviceID e'.mDeviceID

end Endpoint

/-- `e` is the endpoint that the connector was created for. -/
inductive JAP2PManager where
  | UDX_P2P
  | KCP_P2P (e : Endpoint) (p : JAP2PConnector2 Unit)

namespace JAP2PManager

def endpoint : JAP2PManager → Option Endpoint
  | .UDX_P2P => none
  | .KCP_P2P e _ => some e

def map (f : JAP2PConnector2 Unit → JAP2PConnector2 Unit) : JAP2PManager → JAP2PManager
  | .UDX_P2P => .UDX_P2P
  | .KCP_P2P e p => .KCP_P2P e (f p)

end JAP2PManager

/-- Where a thread is. `lp2p` is the local variable of `CreateConnector`; `DestroyConnector`
and the destructors work on `mP2p`. -/
inductive Pc where
  | idle
  | createLock (e : Endpoint)
  | search (e : Endpoint) (i : ℕ)
  | share (e : Endpoint) (lp2p : ℕ)
  | construct (e : Endpoint)
  | property (e : Endpoint) (lp2p : ℕ)
  | created (e : Endpoint) (lp2p : ℕ)
  | oldLock
  | oldConstruct
  | oldCreated (lp2p : ℕ)
  | use
  | leave
  | removeLock
  | remove
  | removed
  | close
  | eraseLock
  | erase
  | erased
  | free
  | callback (mgn : ℕ) (i : ℕ)
  | found
  deriving DecidableEq

namespace Pc

def inside : Pc → Bool
  | .search .. | .share .. | .construct _ | .property .. | .created .. | .oldConstruct
  | .oldCreated _ | .remove | .removed | .erase | .erased => true
  | _ => false

def unlocks : Pc → Bool
  | .created .. | .oldCreated _ | .removed | .erased | .found => true
  | _ => false

def lp2p : Pc → Option ℕ
  | .share _ k | .property _ k | .created _ k | .oldCreated k => some k
  | _ => none

end Pc

/-- `heap k` is the object at address `k`, if there is one. -/
structure Registry (T : Type) where
  owner : Option T
  pc : T → Pc
  mP2p : T → Option ℕ
  heap : ℕ → Option JAP2PManager
  g_ListManager : List ℕ

inductive Act (T : Type) where
  | CreateConnector (th : T) (e : Endpoint)
  | newJAP2PConnector (th : T)
  | DestroyConnector (th : T)
  | GetP2PConnector (th : T) (mgn : ℕ)
  | next (th : T) (address : ℕ) (playChannel : ℤ)

variable {T : Type}

namespace Registry

def start : Registry T := ⟨none, fun _ => .idle, fun _ => none, fun _ => none, []⟩

/-- The endpoint that the connector at an address was created for; none for the old library. -/
def made (s : Registry T) (k : ℕ) : Option Endpoint := (s.heap k).bind JAP2PManager.endpoint

def entry (s : Registry T) (i : ℕ) : Option Endpoint := (s.g_ListManager[i]?).bind s.made

def Has (s : Registry T) (th : T) (k : ℕ) : Prop := s.mP2p th = some k ∨ (s.pc th).lp2p = some k

section Model
variable [DecidableEq T]

def goto (s : Registry T) (th : T) (pc : Pc) : Registry T :=
  { s with pc := Function.update s.pc th pc }

def lock (s : Registry T) (th : T) (pc : Pc) : Option (Registry T) :=
  match s.owner with
  | none => some { s.goto th pc with owner := some th }
  | some _ => none

def unlock (s : Registry T) (th : T) (pc : Pc) : Registry T := { s.goto th pc with owner := none }

def point (s : Registry T) (th : T) (p : Option ℕ) : Registry T :=
  { s with mP2p := Function.update s.mP2p th p }

/-- A call on the object at `k`. There is no step when the memory has been given back. -/
def modify (s : Registry T) (k : ℕ) (f : JAP2PConnector2 Unit → JAP2PConnector2 Unit) :
    Option (Registry T) :=
  (s.heap k).map fun m => { s with heap := Function.update s.heap k (some (m.map f)) }

/-- `new` with a constructor that enters the object into the list. -/
def insert (s : Registry T) (k : ℕ) (m : JAP2PManager) : Option (Registry T) :=
  match s.heap k with
  | none =>
    some { s with
      heap := Function.update s.heap k (some m)
      g_ListManager := s.g_ListManager ++ [k] }
  | some _ => none

def proceed (s : Registry T) (th : T) (address : ℕ) (playChannel : ℤ) : Option (Registry T) :=
  match s.pc th with
  | .idle => none
  | .createLock e => s.lock th (.search e 0)
  | .search e i =>
    match s.g_ListManager[i]? with
    | none => some (s.goto th (.construct e))
    | some k =>
      match s.heap k with
      | none => none
      | some .UDX_P2P => some (s.goto th (.search e (i + 1)))
      | some (.KCP_P2P _ p) =>
        if p.CompareConnectStr e.mDeviceID e.mIP e.mPort then some (s.goto th (.share e k))
        else some (s.goto th (.search e (i + 1)))
  | .share e k =>
    (s.modify k fun p => p.UpdateUse true).map fun s => s.goto th (.created e k)
  | .construct e =>
    (s.insert address (.KCP_P2P e (create playChannel))).map fun s =>
      s.goto th (.property e address)
  | .property e k =>
    (s.modify k fun p => (p.UpdateUse true).UpdateProperty e.mDeviceID e.mIP e.mPort).map
      fun s => s.goto th (.created e k)
  | .created _ k => some ((s.unlock th .idle).point th (some k))
  | .oldLock => s.lock th .oldConstruct
  | .oldConstruct =>
    (s.insert address .UDX_P2P).map fun s => s.goto th (.oldCreated address)
  | .oldCreated k => some ((s.unlock th .idle).point th (some k))
  | .use =>
    match s.mP2p th with
    | none => some (s.goto th .idle)
    | some k =>
      match s.heap k with
      | none => none
      | some .UDX_P2P => some (s.goto th .close)
      | some (.KCP_P2P _ p) => some (s.goto th (if 1 < p.mUse then .leave else .removeLock))
  | .leave =>
    (s.mP2p th).bind fun k =>
      (s.modify k fun p => p.UpdateUse false).map fun s => (s.goto th .idle).point th none
  | .removeLock => s.lock th .remove
  | .remove =>
    (s.mP2p th).map fun k =>
      { s.goto th .removed with g_ListManager := s.g_ListManager.erase k }
  | .removed => some (s.unlock th .close)
  | .close =>
    (s.mP2p th).bind fun k =>
      (s.modify k fun p => p.closeP2P.UpdateUse false).map fun s => s.goto th .eraseLock
  | .eraseLock => s.lock th .erase
  | .erase =>
    (s.mP2p th).map fun k =>
      { s.goto th .erased with g_ListManager := s.g_ListManager.erase k }
  | .erased => some (s.unlock th .free)
  | .free =>
    (s.mP2p th).bind fun k =>
      (s.heap k).map fun _ =>
        { (s.goto th .idle).point th none with heap := Function.update s.heap k none }
  | .callback mgn i =>
    match s.g_ListManager[i]? with
    | none => some (s.goto th .idle)
    | some k => some (s.goto th (if k = mgn then .found else .callback mgn (i + 1)))
  | .found => some (s.unlock th .idle)

def call (s : Registry T) (th : T) (pc : Pc) : Option (Registry T) :=
  if s.pc th = .idle then some (s.goto th pc) else none

def step (s : Registry T) : Act T → Option (Registry T)
  | .CreateConnector th e => s.call th (.createLock e)
  | .newJAP2PConnector th => s.call th .oldLock
  | .DestroyConnector th => s.call th .use
  | .GetP2PConnector th mgn => s.call th (.callback mgn 0)
  | .next th address playChannel => s.proceed th address playChannel

end Model
end Registry

def OnePerEndpoint (s : Registry T) : Prop :=
  ∀ i j e e', s.entry i = some e → s.entry j = some e' → e.same e' = true → i = j

def ByHolder (s : Registry T) : Act T → Prop
  | .next th _ _ => (s.pc th).unlocks = true → s.owner = some th
  | _ => True

/-- When `CreateConnector` returns, its connector was created for the endpoint it was asked for. -/
def ReturnsEqual (s : Registry T) : Act T → Prop
  | .next th _ _ => ∀ e k, s.pc th = .created e k → ∃ e' ∈ s.made k, e.same e' = true
  | _ => True

/-- A thread meets what the code relies on: a callback does not find its connector in the
list, a search that comes to the connector of its endpoint has a port that a `short` can
hold, and nobody else has the connector that is given back. -/
def Allowed (s : Registry T) (th : T) : Pc → Prop
  | .callback mgn i => s.g_ListManager[i]? ≠ some mgn
  | .search e i => ∀ e' ∈ s.entry i, e.same e' = true → e.port < 32768
  | .free => ∀ k ∈ s.mP2p th, ∀ th', th' ≠ th → ¬ s.Has th' k
  | _ => True

def Careful (s : Registry T) : Act T → Prop
  | .next th _ _ => Allowed s th (s.pc th)
  | _ => True

end Jagles.ConnectorRegistry
