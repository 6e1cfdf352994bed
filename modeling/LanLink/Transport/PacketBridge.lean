import LanLink.Auth.CipherState
import LanLink.Network.Filters
/-!
# The packet bridge

`VirtualPacketBridge` (`transport/packet_bridge.cpp`) stands between the
virtual adapter and the relay: it holds a session for each network of the
current snapshot, encrypts what the adapter sends and injects what it decrypts.
The calls of the send and inject handlers are recorded; a handler that throws is
not modelled.
-/
open LanLink.Lib

namespace LanLink

structure NetworkKeySnapshot where
  epoch : UInt64
  key : NetworkKey
  deriving DecidableEq, Repr

structure PacketIdentitySnapshot where
  deviceId : DeviceId
  signedKey : SignedDeviceKey
  deriving DecidableEq, Repr

structure ActiveNetworkPacketState where
  peers : NetworkPeerState
  key : NetworkKeySnapshot
  deriving DecidableEq, Repr

inductive HandlerCall
  | send (packet : EncryptedNetworkPacket)
  | inject (packet : Bytes)
  deriving DecidableEq, Repr

structure Session where
  peers : NetworkPeerState
  key : NetworkKeySnapshot
  ownSignedKey : SignedDeviceKey
  ownDeviceId : DeviceId
  cipher : NetworkPacketCipher
  multicast : MulticastMembership := {}
  outboundDiscovery : LanDiscoveryGuard := {}
  inboundDiscovery : Map DeviceId LanDiscoveryGuard := ∅
  injectedFanout : PacketHistory := {}
  reflected : ℕ := 0

structure VirtualPacketBridge where
  sessions : Map NetworkId Session := ∅
  acceptRoutes : Bool := false
  forward : Bool := false
  mtu : ℕ := 65535
  /-- What the handlers were called with, oldest first. -/
  calls : List HandlerCall := []

/-- What a call of the bridge reads from outside: the clock, and the nonce prefix drawn for the network at each
position of a snapshot. -/
structure BridgeInputs where
  now : Time := 0
  noncePrefixes : ℕ → BitVec 64 := fun _ => 0

/-- A member function of the bridge. -/
abbrev BridgeCall (α : Type) := Action Exn VirtualPacketBridge α

/-- What the bridge does inside one session: the session, and the calls of the handlers. -/
abbrev SessionCall (α : Type) := Action Exn (Session × List HandlerCall) α

namespace Session
variable (crypto : PacketCrypto)

/-- Read the session. -/
def view {α : Type} (f : Session → α) : SessionCall α := Action.gets fun s => f s.1

/-- Change what is not the cipher. -/
def change {α : Type} (f : Session → α × Session) : SessionCall α :=
  Action.update fun s => ((f s.1).1, { (f s.1).2 with cipher := s.1.cipher }, s.2)

def call (c : HandlerCall) : SessionCall Unit := Action.modify fun s => (s.1, s.2 ++ [c])

/-- Run a member function of the cipher. -/
def onCipher {α : Type} (x : Action Exn NetworkPacketCipher α) : SessionCall α := fun s =>
  ((x s.1.cipher).1, { s.1 with cipher := (x s.1.cipher).2 }, s.2)

/-- Run `f` on each element in order. -/
def each {α : Type} (f : α → SessionCall Unit) : List α → SessionCall Unit
  | [] => pure ()
  | a :: as => do
    f a
    each f as

def encryptAndSend (packet : Bytes) : SessionCall Unit := do
  let p ← onCipher (NetworkPacketCipher.encrypt crypto packet)
  call (.send p)

end Session

namespace VirtualPacketBridge
variable (crypto : PacketCrypto) (inputs : BridgeInputs)

/-- Run `x` in the session of `n`; `default` if there is none. -/
def onSession {α : Type} (n : NetworkId) (default : α) (x : SessionCall α) : BridgeCall α := fun b =>
  match b.sessions.lookup n with
  | none => (.ok default, b)
  | some s =>
    let r := x (s, b.calls)
    (r.1, { b with sessions := b.sessions.insert n r.2.1, calls := r.2.2 })

/-- The sessions, in the order of `std::map`. -/
def ids (b : VirtualPacketBridge) : List NetworkId := (b.sessions.rows.map (·.1)).mergeSort fun m n => m ≤ n

/-! ## Synchronisation -/

/-- The loop over earlier networks: no common id, no common addresses. -/
def checkApart (state : NetworkPeerState) : List NetworkPeerState → Except Exn Unit
  | [] => .ok ()
  | previous :: rest => do
    let mask := subnetMask (min state.prefixLength previous.prefixLength)
    check (¬ (state.networkId = previous.networkId ∨ (state.subnetAddress &&& mask) = (previous.subnetAddress &&& mask)))
      (.invalidArgument "virtual network subnets overlap")
    checkApart state rest

/-- The first loop of `synchronize`, given the networks before. -/
def checkNetworks (before : List NetworkPeerState) : List ActiveNetworkPacketState → Except Exn Unit
  | [] => .ok ()
  | network :: rest => do
    let state := network.peers
    check (isIpv4Host state.ownAddress state.subnetAddress state.prefixLength)
      (.invalidArgument "virtual network address is not a subnet host")
    checkApart state before
    checkNetworks (before ++ [state]) rest

/-- The checks of the second loop. -/
def checkState (network : ActiveNetworkPacketState) : Except Exn Unit :=
  let state := network.peers
  check (¬ (state.keyEpoch = 0 ∨ state.keyEpoch ≠ network.key.epoch ∨ state.ownAddress = 0 ∨ state.prefixLength = 0 ∨
      30 < state.prefixLength ∨ (state.ownAddress &&& subnetMask state.prefixLength) ≠ state.subnetAddress))
    (.invalidArgument "virtual packet bridge has invalid network state")

/-- The session goes on under the network's new state: same keys, same address. -/
def keepsSession (session : Session) (identity : PacketIdentitySnapshot) (network : ActiveNetworkPacketState) : Bool :=
  session.key = network.key && session.peers.ownAddress = network.peers.ownAddress &&
    session.ownSignedKey = identity.signedKey

/-- A kept session under a new state; discovery limits of peers that left are dropped. -/
def refreshed (session : Session) (state : NetworkPeerState) : Except Exn Session := do
  if session.peers = state then .ok session
  else do
    let cipher ← session.cipher.updatePeers crypto state
    .ok { session with
          cipher
          peers := state
          inboundDiscovery := session.inboundDiscovery.eraseIf fun d _ => !state.peers.any fun p => p.deviceId = d }

/-- A new session; `noncePrefix` is the one its cipher draws. -/
def created (noncePrefix : BitVec 64) (identity : PacketIdentitySnapshot) (network : ActiveNetworkPacketState) :
    Except Exn Session := do
  let state := network.peers
  let cipher ← NetworkPacketCipher.make crypto noncePrefix state.networkId state.keyEpoch network.key.key
    identity.deviceId identity.signedKey state.ownAddress
  let cipher ← cipher.updatePeers crypto state
  .ok { peers := state, key := network.key, ownSignedKey := identity.signedKey, ownDeviceId := identity.deviceId, cipher }

/-- One round of the second loop; the network at position `i`. A kept session is changed in place. -/
def synchronizeNetwork (identity : PacketIdentitySnapshot) (updated : Map NetworkId Session) (i : ℕ)
    (network : ActiveNetworkPacketState) : BridgeCall (Map NetworkId Session) := do
  Action.lift (checkState network)
  let n := network.peers.networkId
  let old ← Action.gets fun b => b.sessions.lookup n
  match old.filter fun session => keepsSession session identity network with
  | some session => do
    let session ← Action.lift (refreshed crypto session network.peers)
    Action.modify fun b => { b with sessions := b.sessions.insert n session }
    pure (if n ∈ updated then updated else updated.insert n session)
  | none => do
    let session ← Action.lift (created crypto (inputs.noncePrefixes i) identity network)
    if n ∈ updated then Action.throw (.invalidArgument "duplicate virtual packet network")
    else pure (updated.insert n session)

/-- The second loop, from position `i` on. -/
def synchronizeNetworks (identity : PacketIdentitySnapshot) (updated : Map NetworkId Session) (i : ℕ) :
    List ActiveNetworkPacketState → BridgeCall (Map NetworkId Session)
  | [] => pure updated
  | network :: rest => do
    let updated ← synchronizeNetwork crypto inputs identity updated i network
    synchronizeNetworks identity updated (i + 1) rest

def synchronize (identity : Option PacketIdentitySnapshot) (networks : List ActiveNetworkPacketState) :
    BridgeCall Unit :=
  match identity with
  | none => Action.modify fun b => { b with sessions := ∅ }
  | some identity => do
    Action.lift (checkNetworks [] networks)
    let updated ← synchronizeNetworks crypto inputs identity ∅ 0 networks
    Action.modify fun b => { b with sessions := updated }

def clear (b : VirtualPacketBridge) : VirtualPacketBridge := { b with sessions := ∅ }

def setMtu (mtu : ℕ) : BridgeCall Unit := do
  Action.lift (check (68 ≤ mtu) (.invalidArgument "virtual MTU is below 68"))
  Action.modify fun b => { b with mtu }

def setRoutingOptions (b : VirtualPacketBridge) (acceptRoutes forward : Bool) : VirtualPacketBridge :=
  { b with acceptRoutes, forward }

/-- `synchronize_multicast` for one session after the other. -/
def synchronizeMulticast (groups : Option (List UInt32)) : List NetworkId → BridgeCall Unit
  | [] => pure ()
  | n :: ns => do
    onSession n () (Session.change fun s => ((), { s with multicast := s.multicast.synchronize groups }))
    synchronizeMulticast groups ns

/-! ## Packets from the adapter -/

/-- What a route says about a packet from the adapter. -/
inductive RouteVerdict
  | skip
  | stop
  | forwardTo (destination : UInt32)

def routeVerdict (b : VirtualPacketBridge) (s : Session) (policy : NetworkPolicy) (route : RoutedSubnet) (h : Ipv4Header) :
    RouteVerdict :=
  if h.source = s.peers.ownAddress ∧ subnetContains route.address route.prefixLength h.destination then
    if ¬ b.acceptRoutes ∨ ¬ routeAllows policy route s.ownDeviceId then .stop
    else match s.peers.peers.find? fun p => p.deviceId = route.gateway && p.signedKey.isSome with
      | none => .stop
      | some peer => if peer.ipv4Address = 0 then .skip else .forwardTo peer.ipv4Address
  else if route.gateway = s.ownDeviceId ∧ subnetContains route.address route.prefixLength h.source then
    match s.peers.peers.find? fun p => p.ipv4Address = h.destination && p.signedKey.isSome with
    | none => .stop
    | some peer =>
      if ¬ b.forward ∨ ¬ routeAllows policy route peer.deviceId then .stop
      else if peer.ipv4Address = 0 then .skip else .forwardTo peer.ipv4Address
  else .skip

/-- The first route of the sessions that takes the packet, or stops it. -/
def findRoute (b : VirtualPacketBridge) (h : Ipv4Header) : Option (NetworkId × Option UInt32) :=
  b.ids.findSome? fun n =>
    match b.sessions.lookup n with
    | none => none
    | some s => match s.peers.policy with
      | none => none
      | some policy => policy.routes.findSome? fun route =>
        match b.routeVerdict s policy route h with
        | .skip => none
        | .stop => some (n, none)
        | .forwardTo destination => some (n, some destination)

/-- A packet that takes a route, inside the session. -/
def sendRouted (mtu : ℕ) (packet : Bytes) (h : Ipv4Header) (destination : UInt32) : SessionCall Unit := do
  let own ← Session.view fun s => s.peers.ownAddress
  let safe ← Action.lift (safeRoutedIpv4 packet)
  if ¬ safe then pure ()
  else
    let innerMtu := min mtu 65515
    if innerMtu < packet.length ∧ h.dontFragment then
      if h.source = own then do
        let error ← Action.lift (ipv4FragmentationNeeded packet own innerMtu)
        match error with
        | none => pure ()
        | some error => Session.call (.inject error)
      else pure ()
    else do
      let fragments ← Action.lift (fragmentIpv4 packet innerMtu)
      Session.each (fun fragment => do
        let outer ← Action.lift (encapsulateRoutedIpv4 fragment own destination)
        Session.encryptAndSend crypto outer) fragments

/-- Whether a route took or stopped the packet. -/
def outboundRouted (packet : Bytes) : BridgeCall Bool := do
  let h ← Action.lift (inspectIpv4 packet)
  let route ← Action.gets fun b => b.findRoute h
  match route with
  | none => pure false
  | some (_, none) => pure true
  | some (n, some destination) => do
    let mtu ← Action.gets fun b => b.mtu
    onSession n () (sendRouted crypto mtu packet h destination)
    pure true

/-- What one session makes of a packet from the adapter: `some true` if it takes it, `some false` if it drops it,
`none` if the packet is not for it. -/
def offerOutbound (mtu : ℕ) (packet : Bytes) : SessionCall (Option Bool) :=
  Session.change fun s =>
    let source := readIpv4 packet 12
    let destination := readIpv4 packet 16
    let fanout := isIpv4FanoutDestination destination s.peers.subnetAddress s.peers.prefixLength
    let history := s.injectedFanout.contains crypto.toCrypto packet inputs.now
    let s := if fanout then { s with injectedFanout := history.2 } else s
    if fanout ∧ history.1 then (some false, { s with reflected := s.reflected + 1 })
    else if source = s.peers.ownAddress ∧ (byteAt packet 9 = 2 ∨
        (destination &&& subnetMask s.peers.prefixLength) = s.peers.subnetAddress ∨ fanout) then
      let report := s.multicast.observe packet inputs.now
      let s := { s with multicast := report.2 }
      if report.1 ≠ .notIgmp then (some false, s)
      else if fanout then
        if min mtu 1400 < packet.length then (some false, s)
        else
          let permitted := s.outboundDiscovery.permit crypto.toCrypto packet inputs.now
          (some permitted.1, { s with outboundDiscovery := permitted.2 })
      else (some true, s)
    else (none, s)

/-- The loop of `outbound` over the sessions: the one that takes the packet. -/
def chooseSession (mtu : ℕ) (packet : Bytes) : List NetworkId → BridgeCall (Option NetworkId)
  | [] => pure none
  | n :: ns => do
    let taken ← onSession n none (offerOutbound crypto inputs mtu packet)
    match taken with
    | none => chooseSession mtu packet ns
    | some true => pure (some n)
    | some false => pure none

/-- A packet a session took, encrypted and sent. -/
def sendOutbound (mtu : ℕ) (packet : Bytes) (header : Ipv4Header) : SessionCall Unit :=
  if mtu < packet.length ∧ header.dontFragment then do
    let error ← Action.lift (ipv4FragmentationNeeded packet (readIpv4 packet 12) mtu)
    match error with
    | none => pure ()
    | some error => Session.call (.inject error)
  else do
    let fragments ← Action.lift (fragmentIpv4 packet mtu)
    Session.each (Session.encryptAndSend crypto) fragments

def outbound (packet : Bytes) : BridgeCall Unit :=
  if packet.length < minVirtualIpv4PacketSize then pure ()
  else do
    let routed ← outboundRouted crypto packet
    if routed then pure ()
    else do
      let header ← Action.lift (inspectIpv4 packet)
      let mtu ← Action.gets fun b => b.mtu
      let ids ← Action.gets fun b => b.ids
      let chosen ← chooseSession crypto inputs mtu packet ids
      match chosen with
      | none => pure ()
      | some n => onSession n () (sendOutbound crypto mtu packet header)

/-! ## Packets from the relay -/

/-- A packet of a gateway tunnel. -/
def inboundRouted (acceptRoutes forward : Bool) (mtu : ℕ) (delivery : ForwardedNetworkPacket) (outer : Bytes) :
    SessionCall Unit := do
  let inner ← Action.lift (decapsulateRoutedIpv4 outer)
  let h ← Action.lift (inspectIpv4 inner)
  let safe ← Action.lift (safeRoutedIpv4 inner)
  let taken ← Session.view fun s =>
    match s.peers.policy, s.peers.peers.find? fun p => p.deviceId = delivery.senderDeviceId && p.signedKey.isSome with
    | some policy, some sender =>
      s.peers.keyEpoch = delivery.packet.keyEpoch && safe && policyAllows policy s.ownDeviceId delivery.senderDeviceId &&
      policy.routes.any fun route =>
        (forward && route.gateway = s.ownDeviceId && h.source = sender.ipv4Address &&
          isIpv4Host h.destination route.address route.prefixLength && routeAllows policy route delivery.senderDeviceId) ||
        (acceptRoutes && route.gateway = delivery.senderDeviceId && h.destination = s.peers.ownAddress &&
          isIpv4Host h.source route.address route.prefixLength && routeAllows policy route s.ownDeviceId)
    | _, _ => false
  if taken then do
    let fragments ← Action.lift (fragmentIpv4 inner mtu)
    Session.each (fun fragment => Session.call (.inject fragment)) fragments
  else pure ()

/-- The filters for a packet to a fan-out address: whether it may be injected. -/
def admitFanout (mtu : ℕ) (delivery : ForwardedNetworkPacket) (plaintext : Bytes) : SessionCall Bool :=
  Session.change fun s =>
    let destination := delivery.packet.destinationIpv4
    if ¬ s.peers.peers.any (fun p => p.deviceId = delivery.senderDeviceId) ∨ min mtu 1400 < plaintext.length ∨
        (isIpv4Multicast destination ∧ ¬ s.multicast.receives destination (readIpv4 plaintext 12) inputs.now) then
      (false, s)
    else
      let guard := s.inboundDiscovery.getD delivery.senderDeviceId {}
      let permitted := guard.permit crypto.toCrypto plaintext inputs.now
      let s := { s with inboundDiscovery := s.inboundDiscovery.insert delivery.senderDeviceId permitted.2 }
      if ¬ permitted.1 then (false, s)
      else (true, { s with injectedFanout := s.injectedFanout.remember crypto.toCrypto plaintext inputs.now })

/-- A decrypted packet on its way to the adapter. -/
def injectInbound (mtu : ℕ) (delivery : ForwardedNetworkPacket) (plaintext : Bytes) (header : Ipv4Header) :
    SessionCall Unit := do
  let peers ← Session.view fun s => s.peers
  if mtu < plaintext.length ∧ header.dontFragment then do
    let error ← Action.lift (ipv4FragmentationNeeded plaintext peers.ownAddress mtu)
    match error with
    | none => pure ()
    | some error => Session.encryptAndSend crypto error
  else do
    let fragments ← Action.lift (fragmentIpv4 plaintext mtu)
    if peers.peers.any fun p => p.deviceId = delivery.senderDeviceId then
      Session.each (fun fragment => Session.call (.inject fragment)) fragments
    else pure ()

/-- `inbound` inside the session of the packet's network. -/
def receive (acceptRoutes forward : Bool) (mtu : ℕ) (delivery : ForwardedNetworkPacket) : SessionCall Unit := do
  let plaintext ← Session.onCipher (NetworkPacketCipher.decrypt crypto delivery.packet delivery.senderDeviceId)
  let peers ← Session.view fun s => s.peers
  if byteAt plaintext 9 = 4 ∧ peers.policy.isSome then inboundRouted acceptRoutes forward mtu delivery plaintext
  else do
    let header ← Action.lift (inspectIpv4 plaintext)
    if isIpv4FanoutDestination delivery.packet.destinationIpv4 peers.subnetAddress peers.prefixLength then do
      let admitted ← admitFanout crypto inputs mtu delivery plaintext
      if admitted then injectInbound crypto mtu delivery plaintext header else pure ()
    else injectInbound crypto mtu delivery plaintext header

def inbound (delivery : ForwardedNetworkPacket) : BridgeCall Unit := do
  let options ← Action.gets fun b => (b.acceptRoutes, b.forward, b.mtu)
  onSession delivery.packet.networkId () (receive crypto inputs options.1 options.2.1 options.2.2 delivery)

end VirtualPacketBridge

end LanLink
