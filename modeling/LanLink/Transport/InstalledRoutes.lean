import LanLink.Network.Tunnels
import LanLink.Protocol.Fragments
import LanLink.Transport.RouteChoice
/-!
# Installed routes and forwarded packets

`routing_configuration` decides what the adapter routes, `outbound_routed` what
the bridge sends into a tunnel. For a bridge synchronised on the same snapshot
both come to the same: routed subnets do not overlap and lie outside the pool of
overlay addresses, so at most one route of one session has a say about a packet.
-/
open LanLink.Lib

namespace LanLink

/-! ## Packets -/

/-- A safe packet that is not a fragment and need not become one. -/
structure Routable (limit : ℕ) (source destination : UInt32) (packet : Bytes) : Prop where
  inspect : inspectIpv4 packet = .ok (headerOf packet)
  source : readIpv4 packet 12 = source
  destination : readIpv4 packet 16 = destination
  safe : safeRoutedIpv4 packet = .ok true
  whole : fragmentOffset packet = 0 ∧ moreFragments packet = false
  size : packet.length ≤ limit

theorem PlainPacket.safe {source destination : UInt32} {payload packet : Bytes}
    (h : PlainPacket 6 source destination payload packet) : safeRoutedIpv4 packet = .ok true := by
  rw [safeRoutedIpv4, h.inspect, ok_bind]
  simp [headerOf, h.header, h.ttl, h.protocol]

/-- There are such packets between any two addresses. -/
theorem exists_routable {limit : ℕ} (hlimit : 20 ≤ limit) (source destination : UInt32) :
    ∃ packet, Routable limit source destination packet := by
  obtain ⟨packet, -, h⟩ := plainPacket_updated 6 source destination (show ([] : Bytes).length + 20 ≤ 65535 by norm_num)
  have hlength := h.length
  exact ⟨packet, h.inspect, h.source, h.destination, h.safe, h.whole, by simpa [hlength] using hlimit⟩

/-- The routes of a state's policy. -/
def NetworkPeerState.routes (state : NetworkPeerState) : List RoutedSubnet := (state.policy.map (·.routes)).getD []

/-- No two routed subnets of the networks overlap. -/
def DisjointRoutes (networks : List ActiveNetworkPacketState) : Prop :=
  (networks.flatMap fun network => network.peers.routes).Pairwise RoutesApart

theorem mem_routes {state : NetworkPeerState} {policy : NetworkPolicy} (h : state.policy = some policy) {route : RoutedSubnet} :
    route ∈ state.routes ↔ route ∈ policy.routes := by
  rw [NetworkPeerState.routes, h, Option.map_some, Option.getD_some]

namespace VirtualPacketBridge

/-! ## Sending -/

section
variable {crypto : PacketCrypto} {b : VirtualPacketBridge} {packet : Bytes}

/-- `outbound_routed` sends the packet in one tunnel packet, or would if the cipher had a sequence number left. -/
def SendsRouted (crypto : PacketCrypto) (b : VirtualPacketBridge) (packet : Bytes) : Prop :=
  (∃ p, (outboundRouted crypto packet b).1 = .ok true ∧ (outboundRouted crypto packet b).2.calls = b.calls ++ [.send p]) ∨
    (outboundRouted crypto packet b).1 = .error (.overflowError "virtual packet sequence exhausted")

/-- A packet that no route takes, or that one stops, leaves no trace. -/
theorem not_sendsRouted (hinspect : inspectIpv4 packet = .ok (headerOf packet))
    (hroute : b.findRoute (headerOf packet) = none ∨ ∃ n, b.findRoute (headerOf packet) = some (n, none)) :
    ¬ SendsRouted crypto b packet := by
  have hrun : ∃ taken, outboundRouted crypto packet b = (.ok taken, b) := by
    rcases hroute with hnone | ⟨n, hstop⟩
    · refine ⟨false, ?_⟩
      simp only [outboundRouted, Bind.bind, Action.bind, Action.lift, Action.gets, hinspect, hnone]
      rfl
    · refine ⟨true, ?_⟩
      simp only [outboundRouted, Bind.bind, Action.bind, Action.lift, Action.gets, hinspect, hstop]
      rfl
  obtain ⟨taken, hrun⟩ := hrun
  rw [SendsRouted, hrun]
  rintro (⟨p, -, hcalls⟩ | herror)
  · simp at hcalls
  · cases herror

theorem sendsRouted_of_forward {n : NetworkId} {s : Session} {destination source target : UInt32}
    (hroute : b.findRoute (headerOf packet) = some (n, some destination)) (hs : b.sessions.lookup n = some s)
    (hmtu : 68 ≤ b.mtu) (h : Routable (min b.mtu 65515) source target packet)
    (hadmits : ∀ outer, PlainPacket 4 s.peers.ownAddress destination packet outer → s.cipher.Admits crypto outer) :
    SendsRouted crypto b packet := by
  have haccepted : Accepted packet := (inspectIpv4_eq_ok.1 h.inspect).1
  have hsize := h.size
  obtain ⟨outer, houter, hplain⟩ := encapsulateRoutedIpv4_ok haccepted (by omega) s.peers.ownAddress destination
  have hfragments := (fragmentIpv4_of_fits [] haccepted (show 68 ≤ min b.mtu 65515 by omega) hsize).1
  have hsend : sendRouted crypto b.mtu packet (headerOf packet) destination (s, b.calls) =
      Session.encryptAndSend crypto outer (s, b.calls) := by
    have hone : Session.each (fun fragment => do
        let outer ← Action.lift (encapsulateRoutedIpv4 fragment s.peers.ownAddress destination)
        Session.encryptAndSend crypto outer) [packet] (s, b.calls) = Session.encryptAndSend crypto outer (s, b.calls) := by
      simp only [Session.each, Bind.bind, Action.bind, Action.lift, houter]
      rcases Session.encryptAndSend crypto outer (s, b.calls) with ⟨_ | u, t⟩ <;> rfl
    rw [← hone]
    have hfit : ¬ (min b.mtu 65515 < packet.length ∧ (headerOf packet).dontFragment = true) := by omega
    simp only [sendRouted, Bind.bind, Action.bind, Action.lift, Session.view, Action.gets, h.safe, not_true_eq_false, if_false,
      if_neg hfit, hfragments]
  rw [SendsRouted]
  rcases hadmits outer hplain with ⟨p, hp⟩ | ⟨-, hp⟩
  · left
    refine ⟨p, ?_⟩
    simp only [outboundRouted, Bind.bind, Action.bind, Action.lift, Action.gets, h.inspect, hroute, onSession, hs, hsend,
      Session.encryptAndSend, Session.onCipher, Session.call, Action.modify, hp]
    exact ⟨rfl, rfl⟩
  · right
    simp only [outboundRouted, Bind.bind, Action.bind, Action.lift, Action.gets, h.inspect, hroute, onSession, hs, hsend,
      Session.encryptAndSend, Session.onCipher, hp]

end

/-! ## Verdicts -/

/-- What the other routes need to know of a bridge that holds a snapshot. -/
structure Configured (crypto : PacketCrypto) (snapshot : NetworkSnapshot) (identity : PacketIdentitySnapshot)
    (b : VirtualPacketBridge) : Prop where
  identity : snapshot.identity = some identity
  holds : Holds snapshot b
  wf : Wf crypto b
  agrees : Agrees crypto b
  own : OwnsApart b
  mtu : 68 ≤ b.mtu
  safe : ∀ state policy route, RouteOf snapshot.networks state policy route → SafeSubnet route
  disjoint : DisjointRoutes snapshot.networks

namespace Configured
variable {crypto : PacketCrypto} {snapshot : NetworkSnapshot} {identity : PacketIdentitySnapshot} {b : VirtualPacketBridge}
  {state : NetworkPeerState} {policy : NetworkPolicy} {route : RoutedSubnet} {n m : NetworkId} {s t : Session} {h : Ipv4Header}

theorem session (hb : Configured crypto snapshot identity b) (hroute : RouteOf snapshot.networks state policy route) :
    ∃ s, b.sessions.lookup state.networkId = some s ∧ s.peers = state := by
  obtain ⟨⟨network, hmem, rfl⟩, -, -⟩ := hroute
  exact hb.holds.networks identity hb.identity network hmem

theorem routeOf (hb : Configured crypto snapshot identity b) (hs : b.sessions.lookup n = some s) (hpolicy : s.peers.policy = some policy)
    (hroute : route ∈ policy.routes) : RouteOf snapshot.networks s.peers policy route :=
  ⟨(hb.holds.sessions n s hs).2.1, hpolicy, hroute⟩

theorem device (hb : Configured crypto snapshot identity b) (hs : b.sessions.lookup n = some s) : s.ownDeviceId = identity.deviceId := by
  obtain ⟨-, -, identity', hidentity, hdevice⟩ := hb.holds.sessions n s hs
  rw [hb.identity, Option.some.injEq] at hidentity
  rw [hdevice, hidentity]

theorem valid (hb : Configured crypto snapshot identity b) (hs : b.sessions.lookup n = some s) : requirePeerState s.peers = .ok () :=
  (hb.agrees n s hs).valid

/-- Different routes have no address in common. -/
theorem apart (hb : Configured crypto snapshot identity b) {policy' : NetworkPolicy} {route' : RoutedSubnet}
    (hs : b.sessions.lookup n = some s) (hpolicy : s.peers.policy = some policy) (hroute : route ∈ policy.routes)
    (ht : b.sessions.lookup m = some t) (hpolicy' : t.peers.policy = some policy') (hroute' : route' ∈ policy'.routes)
    (hne : m ≠ n ∨ route' ≠ route) : RoutesApart route' route := by
  obtain ⟨hinner, houter⟩ := List.pairwise_flatMap.1 hb.disjoint
  obtain ⟨hn, ⟨network, hmem, hpeers⟩, -⟩ := hb.holds.sessions n s hs
  obtain ⟨hm, ⟨other, hother, hpeers'⟩, -⟩ := hb.holds.sessions m t ht
  have hin : route ∈ network.peers.routes := by rwa [hpeers, mem_routes hpolicy]
  have hin' : route' ∈ other.peers.routes := by rwa [hpeers', mem_routes hpolicy']
  by_cases heq : m = n
  · subst heq
    rw [hs, Option.some.injEq] at ht
    subst ht
    rw [hpeers, ← hpeers'] at hin
    exact (hinner other hother).forall hin' hin (hne.resolve_left fun hneq => hneq rfl)
  · have hsymm : Std.Symm fun a b : ActiveNetworkPacketState => ∀ r ∈ a.peers.routes, ∀ r' ∈ b.peers.routes, RoutesApart r r' :=
      ⟨fun _ _ h r hr r' hr' => Std.Symm.symm _ _ (h r' hr' r hr)⟩
    refine houter.forall hother hmem (fun hsame => heq ?_) route' hin' route hin
    rw [← hm, ← hn, ← hpeers, ← hpeers', hsame]

theorem safeRoutes (hb : Configured crypto snapshot identity b) : SafeRoutes b :=
  fun _ _ _ _ hs hpolicy hroute => hb.safe _ _ _ (hb.routeOf hs hpolicy hroute)

/-- A packet out of a routed subnet is left to its route too. -/
theorem findRoute_subnet (hb : Configured crypto snapshot identity b) (hs : b.sessions.lookup n = some s)
    (hpolicy : s.peers.policy = some policy) (hroute : route ∈ policy.routes)
    (hsource : subnetContains route.address route.prefixLength h.source) :
    b.findRoute h = (b.routeVerdict s policy route h).outcome n := by
  refine findRoute_unique hs hpolicy hroute fun m t p r ht hp hr hne => ?_
  have hfirst : ¬ (h.source = t.peers.ownAddress ∧ subnetContains r.address r.prefixLength h.destination) := by
    rintro ⟨hown, -⟩
    rw [hown] at hsource
    exact (hb.safe _ _ _ (hb.routeOf hs hpolicy hroute)).not_contains (valid_own (hb.valid ht)).2 hsource
  have hsecond : ¬ (r.gateway = t.ownDeviceId ∧ subnetContains r.address r.prefixLength h.source) := fun hin =>
    hb.apart hs hpolicy hroute ht hp hr hne (subnetsOverlap_of_contains hin.2 hsource)
  rw [routeVerdict, if_neg hfirst, if_neg hsecond]

/-- A tunnel packet to a peer that the policy allows passes the cipher. -/
theorem admits (hb : Configured crypto snapshot identity b) (hs : b.sessions.lookup n = some s) {peer : NetworkPeer}
    (hpeer : peer ∈ s.peers.peers) (hkey : peer.signedKey.isSome) (hpolicy : s.peers.policy = some policy)
    (hallowed : policyAllows policy s.ownDeviceId peer.deviceId) {packet outer : Bytes}
    (hplain : PlainPacket 4 s.peers.ownAddress peer.ipv4Address packet outer) : s.cipher.Admits crypto outer := by
  have hwf := hb.wf n s hs
  have hreflects := (hb.agrees n s hs).reflects
  obtain ⟨hplaced, hne, -⟩ := valid_peer (hb.valid hs) hpeer
  obtain ⟨key, hkey⟩ := Option.isSome_iff_exists.1 hkey
  have haddresses : ipv4Addresses outer = .ok (s.cipher.ownIpv4Address, peer.ipv4Address) := by
    rw [ipv4Addresses_of_accepted hplain.accepted, hplain.source, hplain.destination, hwf.ownAddress]
  refine (NetworkPacketCipher.admits_iff hwf.cipher haddresses hreflects.prefixLength ?_ ?_).2 fun _ => ?_
  · rw [hreflects.subnet]
    exact hplaced
  · rw [hwf.ownAddress]
    exact hne
  · have hlists : s.cipher.Lists s.peers.policy s.peers.peers peer key := by
      refine ⟨hpeer, hkey, ?_⟩
      rw [hpolicy, Option.all_some, hwf.ownDeviceId]
      exact hallowed
    obtain ⟨r, hr, haddress, -⟩ := (hreflects.receivers peer.deviceId peer.ipv4Address key.encryptionPublicKey).2
      ⟨peer, key, hlists, rfl, rfl, rfl⟩
    exact ⟨_, r, hr, haddress⟩

theorem peer_ne_zero (hb : Configured crypto snapshot identity b) (hs : b.sessions.lookup n = some s) {peer : NetworkPeer}
    (hpeer : peer ∈ s.peers.peers) : peer.ipv4Address ≠ 0 := by
  intro hzero
  have hhost := (valid_peer (hb.valid hs) hpeer).1.host.1
  rw [hzero] at hhost
  exact Nat.not_lt_zero _ hhost

/-! ## The two evaluations -/

theorem sends_own_iff (hb : Configured crypto snapshot identity b) (hs : b.sessions.lookup n = some s)
    (hpolicy : s.peers.policy = some policy) (hroute : route ∈ policy.routes) :
    (∀ destination packet, subnetContains route.address route.prefixLength destination →
      Routable (min b.mtu 65515) s.peers.ownAddress destination packet → SendsRouted crypto b packet) ↔
      TakesRoute identity.deviceId b.acceptRoutes b.forward s.peers policy route := by
  have hmtu := hb.mtu
  have hdevice := hb.device hs
  constructor
  · intro hsends
    obtain ⟨packet, hpacket⟩ := exists_routable (show 20 ≤ min b.mtu 65515 by omega) s.peers.ownAddress route.address
    have hcontains := (hb.safe _ _ _ (hb.routeOf hs hpolicy hroute)).contains_self
    by_contra hnot
    refine not_sendsRouted hpacket.inspect (.inr ⟨n, ?_⟩) (hsends route.address packet hcontains hpacket)
    rw [findRoute_own hb.agrees hb.own hb.safeRoutes hs hpolicy hroute (h := headerOf packet) hpacket.source (by rw [headerOf, hpacket.destination]; exact hcontains)]
    have hverdict : b.routeVerdict s policy route (headerOf packet) = .stop := by
      rw [routeVerdict, if_pos ⟨hpacket.source, by rw [headerOf, hpacket.destination]; exact hcontains⟩]
      split
      · rfl
      · rename_i hopen
        rw [not_or, not_not, not_not, hdevice] at hopen
        split
        · rfl
        · rename_i peer hfind
          have hmem := List.mem_of_find?_eq_some hfind
          have hthis := List.find?_some hfind
          rw [Bool.and_eq_true, decide_eq_true_eq] at hthis
          exact absurd (takesRoute_of hopen.1 hopen.2 ⟨peer, hmem, hthis⟩) hnot
    rw [hverdict]
    rfl
  · intro htakes destination packet hcontains hpacket
    obtain ⟨peer, hfind⟩ : ∃ peer, (s.peers.peers.find? fun p => p.deviceId = route.gateway && p.signedKey.isSome) = some peer := by
      rw [← Option.isSome_iff_exists, List.find?_isSome]
      obtain ⟨peer, hmem, hgateway, hkey⟩ := htakes.online
      exact ⟨peer, hmem, by simp [hgateway, hkey]⟩
    have hmem := List.mem_of_find?_eq_some hfind
    have hthis := List.find?_some hfind
    rw [Bool.and_eq_true, decide_eq_true_eq] at hthis
    have hverdict : b.routeVerdict s policy route (headerOf packet) = .forwardTo peer.ipv4Address := by
      have hopen : ¬ (¬ b.acceptRoutes = true ∨ ¬ routeAllows policy route s.ownDeviceId = true) := by
        rw [hdevice]
        simp [htakes.accepts, htakes.allowed]
      rw [routeVerdict, if_pos ⟨hpacket.source, by rw [headerOf, hpacket.destination]; exact hcontains⟩, if_neg hopen, hfind]
      exact if_neg (hb.peer_ne_zero hs hmem)
    have hfound : b.findRoute (headerOf packet) = some (n, some peer.ipv4Address) := by
      rw [findRoute_own hb.agrees hb.own hb.safeRoutes hs hpolicy hroute (h := headerOf packet) hpacket.source
        (by rw [headerOf, hpacket.destination]; exact hcontains), hverdict]
      rfl
    refine sendsRouted_of_forward hfound hs hmtu hpacket fun outer hplain => ?_
    refine hb.admits hs hmem hthis.2 hpolicy ?_ hplain
    rw [hdevice, hthis.1]
    exact policyAllows_of_routeAllows htakes.allowed

theorem sends_subnet_iff (hb : Configured crypto snapshot identity b) (hs : b.sessions.lookup n = some s)
    (hpolicy : s.peers.policy = some policy) (hroute : route ∈ policy.routes) (address : UInt32) :
    (route.gateway = identity.deviceId ∧ ∀ source packet, subnetContains route.address route.prefixLength source →
      Routable (min b.mtu 65515) source address packet → SendsRouted crypto b packet) ↔
      ForwardsRoute identity.deviceId b.forward s.peers policy route address := by
  have hmtu := hb.mtu
  have hdevice := hb.device hs
  have hplaced := (valid_own (hb.valid hs)).2
  have hsafe := hb.safe _ _ _ (hb.routeOf hs hpolicy hroute)
  -- the first branch is for packets from the own address
  have hbranch {source : UInt32} {packet : Bytes} (hgateway : route.gateway = identity.deviceId)
      (hcontains : subnetContains route.address route.prefixLength source) (hpacket : Routable (min b.mtu 65515) source address packet) :
      b.findRoute (headerOf packet) = (b.routeVerdict s policy route (headerOf packet)).outcome n ∧
      ¬ ((headerOf packet).source = s.peers.ownAddress ∧
        subnetContains route.address route.prefixLength (headerOf packet).destination) ∧
      (route.gateway = s.ownDeviceId ∧ subnetContains route.address route.prefixLength (headerOf packet).source) ∧
      (headerOf packet).destination = address := by
    have hin : subnetContains route.address route.prefixLength (headerOf packet).source := by
      rw [headerOf, hpacket.source]
      exact hcontains
    refine ⟨hb.findRoute_subnet hs hpolicy hroute hin, ?_, ⟨by rw [hdevice, hgateway], hin⟩, hpacket.destination⟩
    rintro ⟨hown, -⟩
    rw [hown] at hin
    exact hsafe.not_contains hplaced hin
  constructor
  · rintro ⟨hgateway, hsends⟩
    obtain ⟨packet, hpacket⟩ := exists_routable (show 20 ≤ min b.mtu 65515 by omega) route.address address
    obtain ⟨hfound, hfirst, hsecond, hdestination⟩ := hbranch hgateway hsafe.contains_self hpacket
    by_contra hnot
    refine not_sendsRouted hpacket.inspect (.inr ⟨n, ?_⟩) (hsends route.address packet hsafe.contains_self hpacket)
    have hverdict : b.routeVerdict s policy route (headerOf packet) = .stop := by
      rw [routeVerdict, if_neg hfirst, if_pos hsecond, hdestination]
      split
      · rfl
      · rename_i peer hfind
        have hmem := List.mem_of_find?_eq_some hfind
        have hthis := List.find?_some hfind
        rw [Bool.and_eq_true, decide_eq_true_eq] at hthis
        split
        · rfl
        · rename_i hopen
          rw [not_or, not_not, not_not] at hopen
          exact absurd ⟨hgateway, hopen.1, peer, hmem, hthis.1, hthis.2, hopen.2⟩ hnot
    rw [hfound, hverdict]
    rfl
  · rintro ⟨hgateway, hforward, peer, hpeer, rfl, hkey, hallowed⟩
    refine ⟨hgateway, fun source packet hcontains hpacket => ?_⟩
    obtain ⟨hfound, hfirst, hsecond, hdestination⟩ := hbranch hgateway hcontains hpacket
    have hfind : (s.peers.peers.find? fun p => p.ipv4Address = peer.ipv4Address && p.signedKey.isSome) = some peer := by
      obtain ⟨other, hother⟩ : ∃ other, (s.peers.peers.find? fun p => p.ipv4Address = peer.ipv4Address && p.signedKey.isSome) =
          some other := by
        rw [← Option.isSome_iff_exists, List.find?_isSome]
        exact ⟨peer, hpeer, by simp [hkey]⟩
      have hthis := List.find?_some hother
      rw [Bool.and_eq_true, decide_eq_true_eq] at hthis
      rw [hother, (valid_peer (hb.valid hs) hpeer).2.2 other (List.mem_of_find?_eq_some hother) hthis.1]
    have hverdict : b.routeVerdict s policy route (headerOf packet) = .forwardTo peer.ipv4Address := by
      have hopen : ¬ (¬ b.forward = true ∨ ¬ routeAllows policy route peer.deviceId = true) := by simp [hforward, hallowed]
      rw [routeVerdict, if_neg hfirst, if_pos hsecond, hdestination, hfind]
      exact (if_neg hopen).trans (if_neg (hb.peer_ne_zero hs hpeer))
    rw [hverdict] at hfound
    refine sendsRouted_of_forward hfound hs hmtu hpacket fun outer hplain => ?_
    refine hb.admits hs hpeer hkey hpolicy ?_ hplain
    rw [hdevice, policyAllows_comm, ← hgateway]
    exact policyAllows_of_routeAllows hallowed

end Configured

/-! ## Agreement -/

/-- A route is known by its network and its subnet. -/
theorem routeOf_unique {crypto : PacketCrypto} {snapshot : NetworkSnapshot} {identity : PacketIdentitySnapshot}
    {b : VirtualPacketBridge} (hb : Configured crypto snapshot identity b) {state state' : NetworkPeerState}
    {policy policy' : NetworkPolicy} {route route' : RoutedSubnet} (hroute : RouteOf snapshot.networks state policy route)
    (hroute' : RouteOf snapshot.networks state' policy' route') (hid : state'.networkId = state.networkId)
    (haddress : route'.address = route.address) (hlength : route'.prefixLength = route.prefixLength) :
    state' = state ∧ policy' = policy ∧ route' = route := by
  obtain ⟨s, hs, rfl⟩ := hb.session hroute
  obtain ⟨t, ht, rfl⟩ := hb.session hroute'
  rw [hid, hs, Option.some.injEq] at ht
  subst ht
  have hpolicy := hroute.2.1
  have hpolicy' := hroute'.2.1
  rw [hpolicy, Option.some.injEq] at hpolicy'
  subst hpolicy'
  refine ⟨rfl, rfl, ?_⟩
  by_contra hne
  have hself := (hb.safe _ _ _ hroute).contains_self
  refine hb.apart hs hpolicy hroute.2.2 hs hpolicy hroute'.2.2 (.inr hne) ?_
  rw [haddress, hlength]
  exact subnetsOverlap_of_contains hself hself

/-- For a bridge that was synchronised on a snapshot, the adapter's routes are those whose packets the bridge sends, and its
forwards those whose packets it sends back. -/
theorem installed_routes (crypto : PacketCrypto) (hl : crypto.Lawful) (events : ℕ → BridgeInputs × BridgeEvent) (k : ℕ)
    (snapshot : NetworkSnapshot) (result : RoutingConfiguration) (hsync : SynchronizedOn crypto events k snapshot)
    (hidentity : ∀ identity, snapshot.identity = some identity →
      verifySignedDeviceKey crypto.toCrypto identity.signedKey identity.deviceId)
    (hdisjoint : DisjointRoutes snapshot.networks)
    (hconfig : routingConfiguration snapshot (run crypto events k).acceptRoutes (run crypto events k).forward = .ok result) :
    (snapshot.identity = none → result = {} ∧ ∀ packet, inspectIpv4 packet = .ok (headerOf packet) →
      ¬ SendsRouted crypto (run crypto events k) packet) ∧
    ∀ identity, snapshot.identity = some identity → ∀ state policy route, RouteOf snapshot.networks state policy route →
      ({ networkId := state.networkId, address := route.address, prefixLength := route.prefixLength } ∈ result.routes ↔
        ∀ destination packet, subnetContains route.address route.prefixLength destination →
          Routable (min (run crypto events k).mtu 65515) state.ownAddress destination packet →
          SendsRouted crypto (run crypto events k) packet) ∧
      ∀ address, ({ networkId := state.networkId, subnet := route.address, prefixLength := route.prefixLength
                    memberAddress := address } ∈ result.forwards ↔
        route.gateway = identity.deviceId ∧ ∀ source packet, subnetContains route.address route.prefixLength source →
          Routable (min (run crypto events k).mtu 65515) source address packet →
          SendsRouted crypto (run crypto events k) packet) := by
  have hholds := holds_run hl hidentity hsync
  have hwf := wf_run hl events k
  have hagrees := agrees_run hl events k
  have hown := ownsApart_run hl events k
  have hmtu := mtu_run crypto events k
  generalize run crypto events k = b at *
  constructor
  · intro hnone
    refine ⟨?_, fun packet hinspect => not_sendsRouted hinspect (.inl ?_)⟩
    · rw [routingConfiguration, hnone] at hconfig
      exact (Except.ok.inj hconfig).symm
    · -- without an identity there are no sessions
      have hids : b.ids = [] := by
        rw [List.eq_nil_iff_forall_not_mem]
        intro n hn
        obtain ⟨s, hs⟩ := mem_ids.1 hn
        obtain ⟨-, -, identity, hsome, -⟩ := hholds.sessions n s hs
        rw [hnone] at hsome
        cases hsome
      rw [findRoute, hids]
      rfl
  · intro identity hsome state policy route hroute
    have hadded := routingConfiguration_ok hsome hconfig
    have hb : Configured crypto snapshot identity b := ⟨hsome, hholds, hwf, hagrees, hown, hmtu, hadded.safe, hdisjoint⟩
    obtain ⟨s, hs, rfl⟩ := hb.session hroute
    constructor
    · rw [hb.sends_own_iff hs hroute.2.1 hroute.2.2, hadded.routes]
      constructor
      · rintro (hempty | ⟨state', policy', route', hroute', htakes, heq⟩)
        · cases hempty
        · simp only [AdapterRoute.mk.injEq] at heq
          obtain ⟨rfl, rfl, rfl⟩ := routeOf_unique hb hroute hroute' heq.1.symm heq.2.1.symm heq.2.2.symm
          exact htakes
      · intro htakes
        exact .inr ⟨s.peers, policy, route, hroute, htakes, rfl⟩
    · intro address
      rw [hb.sends_subnet_iff hs hroute.2.1 hroute.2.2 address, hadded.forwards]
      constructor
      · rintro (hempty | ⟨state', policy', route', hroute', address', hforwards, heq⟩)
        · cases hempty
        · simp only [AdapterForward.mk.injEq] at heq
          obtain ⟨hid, haddress, hlength, rfl⟩ := heq
          obtain ⟨rfl, rfl, rfl⟩ := routeOf_unique hb hroute hroute' hid.symm haddress.symm hlength.symm
          exact hforwards
      · intro hforwards
        exact .inr ⟨s.peers, policy, route, hroute, address, hforwards, rfl⟩

open NetworkPacketCipher

/-- Device 2 is the gateway of one subnet. -/
def tunnelPolicy : NetworkPolicy :=
  { managed := true, rules := [{ allow := true }], gateways := [{ device := 2, approved := true }]
    routes := [{ gateway := 2, address := 0xc0a80500 }] }

/-- The network of the samples under that policy, as device `d` sees it. -/
def tunnelSnapshot (d : DeviceId) (own : UInt32) (peer : DeviceId) (address : UInt32) : NetworkSnapshot :=
  { identity := some { deviceId := d, signedKey := sampleKey d }
    networks := [{ peers := { sampleState own peer address with policy := some tunnelPolicy }
                   key := { epoch := 1, key := 5 } }] }

/-- A member that accepts routes. -/
def tunnelRun : ℕ → BridgeInputs × BridgeEvent
  | 0 => ({}, .synchronize (tunnelSnapshot 3 0x0a400002 2 0x0a400001).identity (tunnelSnapshot 3 0x0a400002 2 0x0a400001).networks)
  | _ => ({}, .setRoutingOptions true false)

theorem installed_routes_member :
    routingConfiguration (tunnelSnapshot 3 0x0a400002 2 0x0a400001) true false =
      .ok { routes := [{ networkId := 8, address := 0xc0a80500 }] } ∧
    ∀ destination packet, subnetContains 0xc0a80500 24 destination →
      Routable (min (run plainPacketCrypto tunnelRun 2).mtu 65515) 0x0a400002 destination packet →
      SendsRouted plainPacketCrypto (run plainPacketCrypto tunnelRun 2) packet := by
  have hconfig : routingConfiguration (tunnelSnapshot 3 0x0a400002 2 0x0a400001) true false =
      .ok { routes := [{ networkId := 8, address := 0xc0a80500 }] } := by
    decide +kernel
  have hsync : SynchronizedOn plainPacketCrypto tunnelRun 2 (tunnelSnapshot 3 0x0a400002 2 0x0a400001) := by
    refine ⟨0, by decide, {}, rfl, by decide +kernel, fun i hi hi2 => ?_⟩
    obtain rfl : i = 1 := by omega
    exact id
  have hroute : RouteOf (tunnelSnapshot 3 0x0a400002 2 0x0a400001).networks
      { sampleState 0x0a400002 2 0x0a400001 with policy := some tunnelPolicy } tunnelPolicy
      { gateway := 2, address := 0xc0a80500 } :=
    ⟨⟨_, List.mem_singleton.2 rfl, rfl⟩, rfl, List.mem_singleton.2 rfl⟩
  have hagree := installed_routes plainPacketCrypto plainPacketCrypto_lawful tunnelRun 2
    (tunnelSnapshot 3 0x0a400002 2 0x0a400001) _ hsync ?_ (List.pairwise_singleton _ _) hconfig
  · exact ⟨hconfig, ((hagree.2 _ rfl _ _ _ hroute).1).1 (List.mem_singleton.2 rfl)⟩
  · intro identity hsome
    cases hsome
    decide +kernel

end VirtualPacketBridge

end LanLink
