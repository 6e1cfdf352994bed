import LanLink.Network.Ethernet
import LanLink.Network.RoutedNetwork
import LanLink.Transport.SessionState
/-!
# The virtual network

`VirtualNetwork` (`network/virtual_network.cpp`) puts the networks of a snapshot on
an adapter and has a bridge carry their packets. A call that changes it holds the
lifecycle mutex and goes on in steps, one for each call of the adapter or the
bridge. Packets come in on other threads, between any two steps.
-/
open LanLink.Lib

namespace LanLink

/-- What an adapter has from the calls that reached it. -/
structure AdapterState where
  addresses : Map NetworkId VirtualNetworkAddress := ∅
  /-- `none` after a call that failed, which may have left anything. -/
  routing : Option RoutingConfiguration := some {}
  running : Bool := false

/-- Where the call that holds the lifecycle mutex stands. -/
inductive NetworkTask
  | idle
  /-- `synchronize`: the addresses that are not configured yet. -/
  | configuring (snapshot : NetworkSnapshot) (todo : List VirtualNetworkAddress)
  | bridging (snapshot : NetworkSnapshot)
  | listening (snapshot : NetworkSnapshot)
  | removing (todo : List NetworkId)
  /-- What the handlers of an exception do; `again` in the inner one. -/
  | failing (again : Bool)
  | unrouting (again : Bool)
  | stopping
  deriving DecidableEq

structure VirtualNetwork where
  bridge : VirtualPacketBridge := {}
  adapter : AdapterState := {}
  /-- The packet path has the receive handler. -/
  receiving : Bool := false
  started : Bool := false
  acceptRoutes : Bool := false
  forward : Bool := false
  installed : Map NetworkId VirtualNetworkAddress := ∅
  rejected : UInt64 := 0
  task : NetworkTask := .idle
  /-- The snapshot that the bridge took last, until its sessions are cleared. -/
  held : Option NetworkSnapshot := none

/-- What a step finds. -/
structure NetworkInputs where
  bridge : BridgeInputs := {}
  /-- The call of the adapter succeeds. -/
  succeeds : Bool := true
  /-- An address that could not be configured is not there any more. -/
  lost : Bool := false
  groups : Option (List UInt32) := none

namespace VirtualNetwork
variable (crypto : PacketCrypto)

def addressOf (p : NetworkPeerState) : VirtualNetworkAddress :=
  { networkId := p.networkId, address := p.ownAddress, subnet := p.subnetAddress, prefixLength := p.prefixLength }

/-- The loop that fills `desired`. -/
def emplaceAddresses (desired : List VirtualNetworkAddress) : List ActiveNetworkPacketState → Except Exn (List VirtualNetworkAddress)
  | [] => .ok desired
  | network :: rest =>
    if desired.any fun a => a.networkId = network.peers.networkId then .error (.invalidArgument "duplicate virtual network address")
    else emplaceAddresses (desired ++ [addressOf network.peers]) rest

/-- The addresses of a snapshot, in the order of `std::map`. -/
def desiredAddresses (snapshot : NetworkSnapshot) : Except Exn (List VirtualNetworkAddress) :=
  match snapshot.identity with
  | none => .ok []
  | some _ => do
    let desired ← emplaceAddresses [] snapshot.networks
    .ok (desired.mergeSort fun a b => a.networkId ≤ b.networkId)

/-- Whether the snapshot has the network. -/
def desires (snapshot : NetworkSnapshot) (n : NetworkId) : Bool :=
  snapshot.identity.isSome && snapshot.networks.any fun network => network.peers.networkId = n

/-- The networks installed, in the order of `std::map`. -/
def installedIds (v : VirtualNetwork) : List NetworkId := (v.installed.rows.map (·.1)).mergeSort fun m n => m ≤ n

/-- The constructor. -/
def make (mtu : ℕ) : Except Exn VirtualNetwork :=
  match VirtualPacketBridge.setMtu mtu {} with
  | (.ok _, bridge) => .ok { bridge }
  | (.error e, _) => .error e

/-! ## Calls -/

/-- No session is there yet, so that packets that come in meanwhile find nothing. -/
def start (v : VirtualNetwork) (succeeds : Bool) : VirtualNetwork :=
  if v.task ≠ .idle ∨ v.started then v
  else if succeeds then { v with started := true, receiving := true, adapter := { v.adapter with running := true } }
  else { v with bridge := v.bridge.clear, held := none, receiving := false, adapter := { v.adapter with running := false } }

def setRoutingOptions (v : VirtualNetwork) (acceptRoutes forward succeeds : Bool) : VirtualNetwork :=
  if v.task ≠ .idle then v
  else
    let v := { v with acceptRoutes, forward, bridge := v.bridge.setRoutingOptions acceptRoutes forward }
    if acceptRoutes ∨ forward then v
    else { v with adapter := { v.adapter with routing := if succeeds then some {} else none } }

/-- `synchronize`, up to its first call of the adapter. -/
def synchronize (v : VirtualNetwork) (snapshot : NetworkSnapshot) : VirtualNetwork :=
  if v.task ≠ .idle ∨ ¬ v.started then v
  else
    match desiredAddresses snapshot with
    | .error _ => { v with task := .failing false }
    | .ok desired => { v with task := .configuring snapshot desired }

/-- `stop`, up to its first call of the adapter. -/
def stop (v : VirtualNetwork) : VirtualNetwork :=
  if v.task ≠ .idle ∨ ¬ v.started then v
  else { v with bridge := v.bridge.clear, held := none, task := .stopping }

/-! ## Steps -/

def configureNext (v : VirtualNetwork) (inputs : NetworkInputs) (snapshot : NetworkSnapshot) (a : VirtualNetworkAddress)
    (todo : List VirtualNetworkAddress) : VirtualNetwork :=
  if inputs.succeeds then
    { v with
      adapter := { v.adapter with addresses := v.adapter.addresses.insert a.networkId a }
      installed := v.installed.insert a.networkId a
      task := .configuring snapshot todo }
  else
    { v with
      adapter := { v.adapter with addresses := if inputs.lost then v.adapter.addresses.erase a.networkId else v.adapter.addresses }
      task := .failing false }

def configureRouting (v : VirtualNetwork) (inputs : NetworkInputs) (snapshot : NetworkSnapshot) : VirtualNetwork :=
  match routingConfiguration snapshot v.acceptRoutes v.forward with
  | .error _ => { v with task := .failing false }
  | .ok routing =>
    if inputs.succeeds then { v with adapter := { v.adapter with routing := some routing }, task := .bridging snapshot }
    else { v with adapter := { v.adapter with routing := none }, task := .failing true }

def synchronizeBridge (v : VirtualNetwork) (inputs : NetworkInputs) (snapshot : NetworkSnapshot) : VirtualNetwork :=
  match VirtualPacketBridge.synchronize crypto inputs.bridge snapshot.identity snapshot.networks v.bridge with
  | (.ok _, bridge) => { v with bridge, held := some snapshot, task := .listening snapshot }
  | (.error _, bridge) => { v with bridge, task := .failing false }

def synchronizeMulticast (v : VirtualNetwork) (inputs : NetworkInputs) (snapshot : NetworkSnapshot) : VirtualNetwork :=
  if ¬ inputs.succeeds then { v with task := .failing false }
  else
    { v with
      bridge := (VirtualPacketBridge.synchronizeMulticast inputs.groups v.bridge.ids v.bridge).2
      task := .removing (v.installedIds.filter fun n => !desires snapshot n) }

def removeNetwork (v : VirtualNetwork) (n : NetworkId) : VirtualNetwork :=
  { v with adapter := { v.adapter with addresses := v.adapter.addresses.erase n }, installed := v.installed.erase n }

def removeNetworks : List NetworkId → VirtualNetwork → VirtualNetwork
  | [], v => v
  | n :: ns, v => removeNetworks ns (v.removeNetwork n)

/-- The rest of `stop`. -/
def finish (v : VirtualNetwork) (inputs : NetworkInputs) : VirtualNetwork :=
  let v := removeNetworks v.installedIds v
  { v with
    adapter := { v.adapter with routing := if inputs.succeeds then some {} else none, running := false }
    receiving := false, installed := ∅, started := false, task := .idle }

/-- The call goes on by a step. -/
def advance (v : VirtualNetwork) (inputs : NetworkInputs) : VirtualNetwork :=
  match v.task with
  | .idle => v
  | .configuring snapshot (a :: todo) => v.configureNext inputs snapshot a todo
  | .configuring snapshot [] => v.configureRouting inputs snapshot
  | .bridging snapshot => v.synchronizeBridge crypto inputs snapshot
  | .listening snapshot => v.synchronizeMulticast inputs snapshot
  | .removing (n :: todo) => { v.removeNetwork n with task := .removing todo }
  | .removing [] => { v with task := .idle }
  | .failing again => { v with bridge := v.bridge.clear, held := none, task := .unrouting again }
  | .unrouting again =>
    { v with
      adapter := { v.adapter with routing := if inputs.succeeds then some {} else none }
      task := if again then .failing false else .idle }
  | .stopping => v.finish inputs

/-! ## Packets -/

/-- The bridge after one of its calls for a packet, which is counted if it throws. -/
def packet (v : VirtualNetwork) (r : Except Exn Unit × VirtualPacketBridge) : VirtualNetwork :=
  match r.1 with
  | .ok _ => { v with bridge := r.2 }
  | .error _ => { v with bridge := r.2, rejected := v.rejected + 1 }

/-- The adapter has a packet. -/
def outbound (v : VirtualNetwork) (inputs : BridgeInputs) (bytes : Bytes) : VirtualNetwork :=
  if v.adapter.running then v.packet (VirtualPacketBridge.outbound crypto inputs bytes v.bridge) else v

/-- The path has a packet. -/
def inbound (v : VirtualNetwork) (inputs : BridgeInputs) (delivery : ForwardedNetworkPacket) : VirtualNetwork :=
  if v.receiving then v.packet (VirtualPacketBridge.inbound crypto inputs delivery v.bridge) else v

inductive Event
  | start (succeeds : Bool)
  | setRoutingOptions (acceptRoutes forward succeeds : Bool)
  | synchronize (snapshot : NetworkSnapshot)
  | stop
  | advance (inputs : NetworkInputs)
  | outbound (inputs : BridgeInputs) (bytes : Bytes)
  | inbound (inputs : BridgeInputs) (delivery : ForwardedNetworkPacket)

/-- A call that finds another one holding the mutex comes later. -/
def step (v : VirtualNetwork) : Event → VirtualNetwork
  | .start succeeds => v.start succeeds
  | .setRoutingOptions acceptRoutes forward succeeds => v.setRoutingOptions acceptRoutes forward succeeds
  | .synchronize snapshot => v.synchronize snapshot
  | .stop => v.stop
  | .advance inputs => v.advance crypto inputs
  | .outbound inputs bytes => v.outbound crypto inputs bytes
  | .inbound inputs delivery => v.inbound crypto inputs delivery

/-- The network after the first `k` events. -/
def run (v : VirtualNetwork) (events : ℕ → Event) (k : ℕ) : VirtualNetwork := states (step crypto) v events k

end VirtualNetwork
end LanLink
