import LanLink.Transport.PacketBridge
/-!
# The routes of the adapter

`routing_configuration` (`network/routed_network.cpp`) goes over the policies of
a snapshot and lists the routed subnets the adapter sends to the tunnel, and the
members it forwards for where the device is a gateway. It refuses a snapshot
whose routes are not safe to install.
-/
open LanLink.Lib

namespace LanLink

/-- `session::NetworkSnapshot`. -/
structure NetworkSnapshot where
  identity : Option PacketIdentitySnapshot := none
  networks : List ActiveNetworkPacketState := []
  deriving DecidableEq, Repr

structure AdapterRoute where
  networkId : NetworkId
  address : UInt32 := 0
  prefixLength : UInt8 := 24
  deriving DecidableEq, Repr

structure AdapterForward where
  networkId : NetworkId
  subnet : UInt32 := 0
  prefixLength : UInt8 := 24
  memberAddress : UInt32 := 0
  deriving DecidableEq, Repr

structure RoutingConfiguration where
  routes : List AdapterRoute := []
  forwards : List AdapterForward := []
  deriving DecidableEq, Repr

namespace RoutingConfiguration

/-- The members a gateway forwards a subnet for. -/
def forwardsOf (state : NetworkPeerState) (policy : NetworkPolicy) (route : RoutedSubnet) : List AdapterForward :=
  (state.peers.filter fun peer => peer.signedKey.isSome && routeAllows policy route peer.deviceId).map fun peer =>
    { networkId := state.networkId, subnet := route.address, prefixLength := route.prefixLength
      memberAddress := peer.ipv4Address }

/-- One round of the loop over the routes. -/
def addRoute (own : DeviceId) (acceptRoutes forward : Bool) (state : NetworkPeerState) (policy : NetworkPolicy)
    (result : RoutingConfiguration) (route : RoutedSubnet) : Except Exn RoutingConfiguration := do
  check (¬ (¬ privateRoutedSubnet route.address route.prefixLength ∨
      subnetsOverlap route.address route.prefixLength 0x0a400000 10))
    (.invalidArgument "unsafe gateway subnet")
  if route.gateway = own ∧ forward then
    .ok { result with forwards := result.forwards ++ forwardsOf state policy route }
  else if acceptRoutes ∧ routeAllows policy route own ∧
      state.peers.any fun peer => peer.deviceId = route.gateway && peer.signedKey.isSome then
    .ok { result with routes := result.routes ++
      [{ networkId := state.networkId, address := route.address, prefixLength := route.prefixLength }] }
  else .ok result

/-- The loop over the routes of a network. -/
def addRoutes (own : DeviceId) (acceptRoutes forward : Bool) (state : NetworkPeerState) (policy : NetworkPolicy)
    (result : RoutingConfiguration) : List RoutedSubnet → Except Exn RoutingConfiguration
  | [] => .ok result
  | route :: routes => do
    let result ← addRoute own acceptRoutes forward state policy result route
    addRoutes own acceptRoutes forward state policy result routes

/-- The loop over the networks. -/
def addNetworks (own : DeviceId) (acceptRoutes forward : Bool) (result : RoutingConfiguration) :
    List ActiveNetworkPacketState → Except Exn RoutingConfiguration
  | [] => .ok result
  | network :: networks =>
    match network.peers.policy with
    | none => addNetworks own acceptRoutes forward result networks
    | some policy => do
      let result ← addRoutes own acceptRoutes forward network.peers policy result policy.routes
      addNetworks own acceptRoutes forward result networks

/-- The last loop: no route overlaps an overlay or a route before it. -/
def checkRoutes (networks : List ActiveNetworkPacketState) (before : List AdapterRoute) :
    List AdapterRoute → Except Exn Unit
  | [] => .ok ()
  | route :: routes => do
    check (privateRoutedSubnet route.address route.prefixLength) (.invalidArgument "unsafe routed subnet")
    check (¬ networks.any fun n =>
        subnetsOverlap route.address route.prefixLength n.peers.subnetAddress n.peers.prefixLength)
      (.invalidArgument "routed subnet overlaps overlay")
    check (¬ before.any fun r => subnetsOverlap route.address route.prefixLength r.address r.prefixLength)
      (.invalidArgument "routed subnets overlap")
    checkRoutes networks (before ++ [route]) routes

end RoutingConfiguration

def routingConfiguration (snapshot : NetworkSnapshot) (acceptRoutes forward : Bool) : Except Exn RoutingConfiguration :=
  match snapshot.identity with
  | none => .ok {}
  | some identity => do
    let result ← RoutingConfiguration.addNetworks identity.deviceId acceptRoutes forward {} snapshot.networks
    check (result.forwards.length ≤ 1024) (.invalidArgument "gateway forwarding limit exceeded")
    RoutingConfiguration.checkRoutes snapshot.networks [] result.routes
    .ok result

/-! ## What is listed -/

/-- The device takes the route to its gateway. -/
structure TakesRoute (own : DeviceId) (acceptRoutes forward : Bool) (state : NetworkPeerState) (policy : NetworkPolicy)
    (route : RoutedSubnet) : Prop where
  other : ¬ (route.gateway = own ∧ forward)
  accepts : acceptRoutes
  allowed : routeAllows policy route own
  online : ∃ peer ∈ state.peers, peer.deviceId = route.gateway ∧ peer.signedKey.isSome

/-- The device is the route's gateway, and forwards it for the member at `address`. -/
structure ForwardsRoute (own : DeviceId) (forward : Bool) (state : NetworkPeerState) (policy : NetworkPolicy)
    (route : RoutedSubnet) (address : UInt32) : Prop where
  gateway : route.gateway = own
  forwards : forward
  member : ∃ peer ∈ state.peers, peer.ipv4Address = address ∧ peer.signedKey.isSome ∧ routeAllows policy route peer.deviceId

/-- A route of a network's policy. -/
def RouteOf (networks : List ActiveNetworkPacketState) (state : NetworkPeerState) (policy : NetworkPolicy)
    (route : RoutedSubnet) : Prop :=
  (∃ network ∈ networks, network.peers = state) ∧ state.policy = some policy ∧ route ∈ policy.routes

/-- What is safe to route at all: a private subnet outside the pool of the overlays. -/
def SafeSubnet (route : RoutedSubnet) : Prop :=
  privateRoutedSubnet route.address route.prefixLength ∧ ¬ subnetsOverlap route.address route.prefixLength 0x0a400000 10

instance (route : RoutedSubnet) : Decidable (SafeSubnet route) := inferInstanceAs (Decidable (_ ∧ _))

namespace RoutingConfiguration

section
variable {own : DeviceId} {acceptRoutes forward : Bool} {state : NetworkPeerState} {policy : NetworkPolicy}
  {result result' : RoutingConfiguration} {route : RoutedSubnet} {routes : List RoutedSubnet}
  {networks : List ActiveNetworkPacketState}

theorem mem_forwardsOf {f : AdapterForward} : f ∈ forwardsOf state policy route ↔
    ∃ peer ∈ state.peers, peer.signedKey.isSome ∧ routeAllows policy route peer.deviceId ∧
      f = { networkId := state.networkId, subnet := route.address, prefixLength := route.prefixLength
            memberAddress := peer.ipv4Address } := by
  simp only [forwardsOf, List.mem_map, List.mem_filter, Bool.and_eq_true, and_assoc, eq_comm (a := f)]

/-- What one route adds. -/
structure Added (own : DeviceId) (acceptRoutes forward : Bool) (sources : NetworkPeerState → NetworkPolicy → RoutedSubnet → Prop)
    (result result' : RoutingConfiguration) : Prop where
  safe : ∀ state policy route, sources state policy route → SafeSubnet route
  routes : ∀ r, r ∈ result'.routes ↔ r ∈ result.routes ∨ ∃ state policy route, sources state policy route ∧
    TakesRoute own acceptRoutes forward state policy route ∧
    r = { networkId := state.networkId, address := route.address, prefixLength := route.prefixLength }
  forwards : ∀ f, f ∈ result'.forwards ↔ f ∈ result.forwards ∨ ∃ state policy route, sources state policy route ∧
    ∃ address, ForwardsRoute own forward state policy route address ∧
    f = { networkId := state.networkId, subnet := route.address, prefixLength := route.prefixLength, memberAddress := address }

theorem added_none : Added own acceptRoutes forward (fun _ _ _ => False) result result := by
  constructor <;> simp

theorem Added.trans {sources sources' : NetworkPeerState → NetworkPolicy → RoutedSubnet → Prop} {result'' : RoutingConfiguration}
    (h : Added own acceptRoutes forward sources result result') (h' : Added own acceptRoutes forward sources' result' result'') :
    Added own acceptRoutes forward (fun s p r => sources s p r ∨ sources' s p r) result result'' where
  safe := by
    rintro s p r (hs | hs)
    · exact h.safe s p r hs
    · exact h'.safe s p r hs
  routes := by
    intro r
    rw [h'.routes, h.routes, or_assoc]
    simp only [or_and_right, exists_or]
  forwards := by
    intro f
    rw [h'.forwards, h.forwards, or_assoc]
    simp only [or_and_right, exists_or]

theorem Added.congr {sources sources' : NetworkPeerState → NetworkPolicy → RoutedSubnet → Prop}
    (h : Added own acceptRoutes forward sources result result') (hs : ∀ s p r, sources s p r ↔ sources' s p r) :
    Added own acceptRoutes forward sources' result result' := by
  obtain rfl : sources = sources' := by
    funext s p r
    exact propext (hs s p r)
  exact h

theorem addRoute_ok (h : addRoute own acceptRoutes forward state policy result route = .ok result') :
    Added own acceptRoutes forward (fun s p r => s = state ∧ p = policy ∧ r = route) result result' := by
  simp only [addRoute, bind_eq_ok, check_eq_ok, exists_const, not_or, not_not] at h
  obtain ⟨hsafe, h⟩ := h
  have hsources : ∀ s p r, s = state ∧ p = policy ∧ r = route → SafeSubnet r := by
    rintro s p r ⟨rfl, rfl, rfl⟩
    exact hsafe
  have hone {P : NetworkPeerState → NetworkPolicy → RoutedSubnet → Prop} :
      (∃ s p r, (s = state ∧ p = policy ∧ r = route) ∧ P s p r) ↔ P state policy route := by
    simp
  split at h
  · -- the gateway itself
    rename_i hown
    cases h
    refine ⟨hsources, fun r => ?_, fun f => ?_⟩
    · rw [hone]
      refine (or_iff_left ?_).symm
      rintro ⟨htakes, -⟩
      exact htakes.other hown
    · rw [hone, List.mem_append, mem_forwardsOf]
      refine or_congr_right ⟨?_, ?_⟩
      · rintro ⟨peer, hpeer, hkey, hallowed, rfl⟩
        exact ⟨peer.ipv4Address, ⟨hown.1, hown.2, peer, hpeer, rfl, hkey, hallowed⟩, rfl⟩
      · rintro ⟨address, ⟨-, -, peer, hpeer, rfl, hkey, hallowed⟩, rfl⟩
        exact ⟨peer, hpeer, hkey, hallowed, rfl⟩
  · rename_i hown
    have hforwards : ∀ address, ¬ ForwardsRoute own forward state policy route address :=
      fun address hf => hown ⟨hf.gateway, hf.forwards⟩
    have htakes : (acceptRoutes ∧ routeAllows policy route own ∧
        state.peers.any fun peer => peer.deviceId = route.gateway && peer.signedKey.isSome) ↔
        TakesRoute own acceptRoutes forward state policy route := by
      simp only [List.any_eq_true, Bool.and_eq_true, decide_eq_true_eq]
      constructor
      · rintro ⟨haccepts, hallowed, honline⟩
        exact ⟨hown, haccepts, hallowed, honline⟩
      · intro h
        exact ⟨h.accepts, h.allowed, h.online⟩
    split at h <;> rename_i hcase <;> rw [htakes] at hcase <;> cases h
    · refine ⟨hsources, fun r => ?_, fun f => ?_⟩
      · simp [hcase]
      · simp [hforwards]
    · refine ⟨hsources, fun r => ?_, fun f => ?_⟩
      · simp [hcase]
      · simp [hforwards]

theorem addRoutes_ok (h : addRoutes own acceptRoutes forward state policy result routes = .ok result') :
    Added own acceptRoutes forward (fun s p r => s = state ∧ p = policy ∧ r ∈ routes) result result' := by
  induction routes generalizing result with
  | nil =>
    cases h
    exact added_none.congr (by simp)
  | cons route routes ih =>
    simp only [addRoutes, bind_eq_ok] at h
    obtain ⟨result₁, hroute, hroutes⟩ := h
    refine ((addRoute_ok hroute).trans (ih hroutes)).congr fun s p r => ?_
    rw [List.mem_cons]
    tauto

theorem addNetworks_ok (h : addNetworks own acceptRoutes forward result networks = .ok result') :
    Added own acceptRoutes forward (RouteOf networks) result result' := by
  induction networks generalizing result with
  | nil =>
    cases h
    exact added_none.congr (by simp [RouteOf])
  | cons network networks ih =>
    simp only [addNetworks] at h
    split at h
    · rename_i hpolicy
      refine (ih h).congr fun s p r => ?_
      constructor
      · rintro ⟨⟨other, hmem, rfl⟩, hrest⟩
        exact ⟨⟨other, List.mem_cons_of_mem _ hmem, rfl⟩, hrest⟩
      · rintro ⟨⟨other, hmem, rfl⟩, hp, hr⟩
        rcases List.mem_cons.1 hmem with rfl | hmem
        · rw [hpolicy] at hp
          cases hp
        · exact ⟨⟨other, hmem, rfl⟩, hp, hr⟩
    · rename_i policy hpolicy
      simp only [bind_eq_ok] at h
      obtain ⟨result₁, hroutes, hnetworks⟩ := h
      refine ((addRoutes_ok hroutes).trans (ih hnetworks)).congr fun s p r => ?_
      constructor
      · rintro (⟨rfl, rfl, hr⟩ | ⟨⟨other, hmem, rfl⟩, hrest⟩)
        · exact ⟨⟨network, List.mem_cons_self, rfl⟩, hpolicy, hr⟩
        · exact ⟨⟨other, List.mem_cons_of_mem _ hmem, rfl⟩, hrest⟩
      · rintro ⟨⟨other, hmem, rfl⟩, hp, hr⟩
        rcases List.mem_cons.1 hmem with rfl | hmem
        · rw [hpolicy] at hp
          cases hp
          exact .inl ⟨rfl, rfl, hr⟩
        · exact .inr ⟨⟨other, hmem, rfl⟩, hp, hr⟩

end

end RoutingConfiguration

/-- What a configuration lists, given whose it is. -/
theorem routingConfiguration_ok {snapshot : NetworkSnapshot} {identity : PacketIdentitySnapshot} {acceptRoutes forward : Bool}
    {result : RoutingConfiguration} (hidentity : snapshot.identity = some identity)
    (h : routingConfiguration snapshot acceptRoutes forward = .ok result) :
    RoutingConfiguration.Added identity.deviceId acceptRoutes forward (RouteOf snapshot.networks) {} result := by
  simp only [routingConfiguration, hidentity, bind_eq_ok, check_eq_ok, exists_const, Except.ok.injEq] at h
  obtain ⟨result', hadd, -, u, -, rfl⟩ := h
  exact RoutingConfiguration.addNetworks_ok hadd

end LanLink
