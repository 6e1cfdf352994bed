import LanLink.Transport.InstalledRoutes
import LanLink.Transport.Replays
/-!
# From a member through the gateway

`outbound_routed` cuts a packet for a routed subnet into fragments and sends each
in a tunnel packet of its own; `inbound_routed` of the gateway takes them out
again. They come out as they went in, for as long as the member has sequence
numbers left and the gateway's replay window takes them. What is not a request of
a member to a route, or a reply of a route's gateway, is not injected.
-/
open LanLink.Lib

namespace LanLink

/-! ## Packets -/

/-- A TCP or UDP packet without options from `source` to a host of the route. -/
structure Transit (source : UInt32) (route : RoutedSubnet) (packet : Bytes) : Prop where
  inspect : inspectIpv4 packet = .ok (headerOf packet)
  header : headerLength packet = 20
  protocol : byteAt packet 9 = 6 ∨ byteAt packet 9 = 17
  ttl : 1 < byteAt packet 8
  source : readIpv4 packet 12 = source
  host : isIpv4Host (readIpv4 packet 16) route.address route.prefixLength

namespace Transit
variable {source : UInt32} {route : RoutedSubnet} {packet : Bytes} {mtu : ℕ} {fragments : List Bytes}

theorem accepted (h : Transit source route packet) : Accepted packet := (inspectIpv4_eq_ok.1 h.inspect).1

theorem safe (h : Transit source route packet) : safeRoutedIpv4 packet = .ok true := by
  have httl : ¬ byteAt packet 8 ≤ 1 := UInt8.not_le.2 h.ttl
  rw [safeRoutedIpv4, h.inspect, ok_bind, if_neg (by simp [headerOf, h.header, httl]), if_pos h.protocol]

theorem contains (h : Transit source route packet) :
    subnetContains route.address route.prefixLength (readIpv4 packet 16) := by
  have hhost := h.host
  simp only [isIpv4Host, isIpv4Subnet, Bool.and_eq_true, decide_eq_true_eq] at hhost
  obtain ⟨⟨⟨⟨⟨⟨hpos, hle⟩, -⟩, -⟩, -⟩, -⟩, hmask⟩ := hhost
  simp only [subnetContains, Bool.and_eq_true, decide_eq_true_eq]
  exact ⟨⟨hpos, UInt8.le_trans hle (by decide)⟩, hmask⟩

/-- So are its fragments. -/
theorem fragment (h : Transit source route packet) (hmtu : 68 ≤ mtu) (hok : fragmentIpv4 packet mtu = .ok fragments)
    {f : Bytes} (hf : f ∈ fragments) : Transit source route f ∧ f.length ≤ mtu := by
  have hoptions : optionBytes packet = [] := by
    rw [optionBytes, h.header]
    rfl
  have hnone : Options (optionBytes packet) [] := by
    rw [hoptions]
    exact .done
  obtain ⟨hall, -⟩ := fragmentation_of_ok h.accepted hnone hmtu hok
  have haccepted := (inspectIpv4_eq_ok.1 (hall.accepted f hf)).1
  have hsame := hall.same f hf
  -- neither the first fragment nor a later one has options
  have hempty : optionBytes f = [] := by
    cases fragments with
    | nil => cases hf
    | cons first rest =>
      rcases List.mem_cons.1 hf with rfl | hf
      · rw [hall.first f rfl, hoptions]
      · rw [hall.later f hf]
        rfl
  have hheader : headerLength f = 20 := by
    have hlength := length_optionBytes haccepted
    have hmin := haccepted.header
    rw [hempty, List.length_nil] at hlength
    omega
  refine ⟨⟨hall.accepted f hf, hheader, ?_, ?_, ?_, ?_⟩, hall.size f hf⟩
  · rw [hsame.protocol]
    exact h.protocol
  · rw [hsame.ttl]
    exact h.ttl
  · rw [hsame.source, h.source]
  · rw [hsame.destination]
    exact h.host

end Transit

/-- The fragments that go into tunnel packets: none of a packet that is too large and must not be fragmented. -/
def madeFragments (mtu : ℕ) (packet : Bytes) : List Bytes :=
  match fragmentIpv4 packet (min mtu 65515) with
  | .ok fragments => fragments
  | .error _ => []

/-! ## Sealing -/

namespace NetworkPacketCipher
variable {crypto : PacketCrypto}

/-- `ps` are the fragments in tunnel packets that `a` sealed, numbered on from `k`, as far as the numbers went. -/
inductive Tunnelled (crypto : PacketCrypto) (a : NetworkPacketCipher) (destination : UInt32) :
    ℕ → List Bytes → List EncryptedNetworkPacket → Prop
  | done {k : ℕ} : Tunnelled crypto a destination k [] []
  | exhausted {f : Bytes} {fragments : List Bytes} : Tunnelled crypto a destination (2 ^ 32 - 1) (f :: fragments) []
  | sent {k : ℕ} {f outer : Bytes} {p : EncryptedNetworkPacket} {fragments : List Bytes} {ps : List EncryptedNetworkPacket}
      (hplain : PlainPacket 4 a.ownIpv4Address destination f outer)
      (hsealed : Sealed crypto a a.subnetAddress a.prefixLength outer p) (hnumber : p.sequence.toNat = k + 1)
      (hrest : Tunnelled crypto a destination (k + 1) fragments ps) :
      Tunnelled crypto a destination k (f :: fragments) (p :: ps)

theorem Tunnelled.eq_nil {a : NetworkPacketCipher} {destination : UInt32} {k : ℕ} {ps : List EncryptedNetworkPacket}
    (h : Tunnelled crypto a destination k [] ps) : ps = [] := by
  cases h
  rfl

/-- The cipher lets packets to the host through. -/
structure Reaches (c : NetworkPacketCipher) (destination : UInt32) : Prop where
  prefixLength : c.prefixLength = 24
  placed : Placed c.subnetAddress destination
  other : destination ≠ c.ownIpv4Address
  allowed : c.managed = true → ∃ d r, c.peers.lookup d = some r ∧ r.ipv4Address = destination

/-- A tunnel packet is sealed with the next number, if there is one. -/
theorem Reaches.encrypt {c : NetworkPacketCipher} {destination : UInt32} (h : c.Reaches destination) (hl : crypto.Lawful)
    (hw : c.Wf crypto) {f outer : Bytes} (hplain : PlainPacket 4 c.ownIpv4Address destination f outer) :
    (c.nextSequence.toNat = 2 ^ 32 - 1 ∧ ∃ e, NetworkPacketCipher.encrypt crypto outer c = (.error e, c)) ∨
    ∃ p, NetworkPacketCipher.encrypt crypto outer c = (.ok p, { c with nextSequence := c.nextSequence + 1 }) ∧
      p.sequence.toNat = c.nextSequence.toNat + 1 ∧ (c.nextSequence + 1).toNat = c.nextSequence.toNat + 1 ∧
      Sealed crypto c c.subnetAddress c.prefixLength outer p := by
  have haddresses : ipv4Addresses outer = .ok (c.ownIpv4Address, destination) := by
    rw [ipv4Addresses_of_accepted hplain.accepted, hplain.source, hplain.destination]
  have hadmits := (admits_iff hw haddresses h.prefixLength h.placed h.other).2 h.allowed
  rcases encrypt_cases hl hw outer with ⟨e, herror⟩ | ⟨p, hok, hsequence, hlast, hsealed⟩
  · left
    rcases hadmits with ⟨p, hp⟩ | ⟨hlast, -⟩
    · rw [herror] at hp
      cases hp
    · exact ⟨by rw [hlast]; rfl, e, herror⟩
  · right
    have hnext : (c.nextSequence + 1).toNat = c.nextSequence.toNat + 1 := by
      have hlt := c.nextSequence.toNat_lt
      have hne : c.nextSequence.toNat ≠ 2 ^ 32 - 1 := fun heq => hlast (UInt32.toNat_inj.1 heq)
      rw [UInt32.toNat_add]
      change (_ + 1) % 2 ^ 32 = _
      omega
    exact ⟨p, hok, by rw [hsequence, hnext], hnext, hsealed⟩

end NetworkPacketCipher

namespace VirtualPacketBridge
open NetworkPacketCipher

/-! ## The member -/

section
variable {crypto : PacketCrypto} {a : NetworkPacketCipher} {destination : UInt32}

/-- What the loop over the fragments sends. -/
theorem tunnelled_each (hl : crypto.Lawful) {fragments : List Bytes} (hfragments : ∀ f ∈ fragments, Accepted f ∧ f.length ≤ 65515)
    (s : Session) (calls : List HandlerCall) (hw : s.cipher.Wf crypto) (hreaches : s.cipher.Reaches destination)
    (hsame : SameIdentity a s.cipher) (hsubnet : s.cipher.subnetAddress = a.subnetAddress)
    (hlength : s.cipher.prefixLength = a.prefixLength) :
    ∃ ps, (Session.each (fun fragment => do
        let outer ← Action.lift (encapsulateRoutedIpv4 fragment a.ownIpv4Address destination)
        Session.encryptAndSend crypto outer) fragments (s, calls)).2.2 = calls ++ ps.map .send ∧
      Tunnelled crypto a destination s.cipher.nextSequence.toNat fragments ps := by
  induction fragments generalizing s calls with
  | nil => exact ⟨[], (List.append_nil calls).symm, .done⟩
  | cons f fragments ih =>
    obtain ⟨haccepted, hsize⟩ := hfragments f List.mem_cons_self
    obtain ⟨outer, houter, hplain⟩ := encapsulateRoutedIpv4_ok haccepted hsize a.ownIpv4Address destination
    have hown : PlainPacket 4 s.cipher.ownIpv4Address destination f outer := by rwa [hsame.ownIpv4Address]
    rcases hreaches.encrypt hl hw hown with ⟨hlast, e, herror⟩ | ⟨p, hok, hnumber, hnext, hsealed⟩
    · refine ⟨[], ?_, ?_⟩
      · simp only [Session.each, Bind.bind, Action.bind, Action.lift, houter, Session.encryptAndSend, Session.onCipher, herror]
        exact (List.append_nil calls).symm
      · rw [hlast]
        exact .exhausted
    · have hw' : ({ s.cipher with nextSequence := s.cipher.nextSequence + 1 } : NetworkPacketCipher).Wf crypto := by
        have hstep := NetworkPacketCipher.wf_step hl hw (.encrypt outer)
        simpa only [NetworkPacketCipher.step, hok] using hstep
      obtain ⟨ps, hcalls, hrest⟩ := ih (fun g hg => hfragments g (List.mem_cons_of_mem f hg))
        { s with cipher := { s.cipher with nextSequence := s.cipher.nextSequence + 1 } } (calls ++ [.send p]) hw'
        ⟨hreaches.prefixLength, hreaches.placed, hreaches.other, hreaches.allowed⟩
        ⟨hsame.networkId, hsame.keyEpoch, hsame.networkKey, hsame.ownDeviceId, hsame.ownSessionPublicKey, hsame.ownIpv4Address,
          hsame.outgoingKey, hsame.outgoingNoncePrefix⟩ hsubnet hlength
      refine ⟨p :: ps, ?_, ?_⟩
      · simp only [Session.each, Bind.bind, Action.bind, Action.lift, houter, Session.encryptAndSend, Session.onCipher, hok,
          Session.call, Action.modify]
        rw [List.map_cons, List.append_cons calls (.send p) (ps.map _)]
        exact hcalls
      · have hsealed' := sealed_congr hsame hsealed
        rw [hsubnet, hlength] at hsealed'
        rw [hnext] at hrest
        have hown' : PlainPacket 4 a.ownIpv4Address destination f outer := hplain
        exact .sent hown' hsealed' hnumber hrest

/-- What `outbound_routed` does inside the session. -/
theorem tunnelled_sendRouted (hl : crypto.Lawful) {n : NetworkId} {s : Session} (calls : List HandlerCall) (hw : SessionWf crypto n s)
    (hreaches : s.cipher.Reaches destination) {route : RoutedSubnet} {packet : Bytes} {mtu : ℕ} (hmtu : 68 ≤ mtu)
    (h : Transit s.peers.ownAddress route packet) :
    ∃ new ps, (sendRouted crypto mtu packet (headerOf packet) destination (s, calls)).2.2 = calls ++ new ∧
      new.filterMap HandlerCall.sent = ps ∧
      Tunnelled crypto s.cipher destination s.cipher.nextSequence.toNat (madeFragments mtu packet) ps := by
  have hlimit : 68 ≤ min mtu 65515 := by omega
  have herrors := fragmentIpv4_error h.accepted hlimit
  by_cases hrefused : min mtu 65515 < packet.length ∧ (headerOf packet).dontFragment
  · -- nothing is sent; the own adapter may get an ICMP error
    have hnone : madeFragments mtu packet = [] := by
      obtain ⟨e, he⟩ := herrors.2 hrefused
      rw [madeFragments, he]
    have hsource : (headerOf packet).source = s.peers.ownAddress := h.source
    rw [hnone]
    simp only [sendRouted, Bind.bind, Action.bind, Session.view, Action.gets, Action.lift, h.safe, not_true_eq_false, if_false,
      if_pos hrefused, hsource, if_true]
    cases ipv4FragmentationNeeded packet s.peers.ownAddress (min mtu 65515) with
    | error e => exact ⟨[], [], (List.append_nil calls).symm, rfl, .done⟩
    | ok error =>
      cases error with
      | none => exact ⟨[], [], (List.append_nil calls).symm, rfl, .done⟩
      | some error => exact ⟨[.inject error], [], rfl, rfl, .done⟩
  · obtain ⟨fragments, hok⟩ : ∃ fragments, fragmentIpv4 packet (min mtu 65515) = .ok fragments := by
      cases hfragments : fragmentIpv4 packet (min mtu 65515) with
      | ok fragments => exact ⟨fragments, rfl⟩
      | error e => exact absurd (herrors.1 ⟨e, hfragments⟩) hrefused
    have hmade : madeFragments mtu packet = fragments := by rw [madeFragments, hok]
    have hfragments : ∀ f ∈ fragments, Accepted f ∧ f.length ≤ 65515 := by
      intro f hf
      obtain ⟨htransit, hsize⟩ := h.fragment hlimit hok hf
      exact ⟨htransit.accepted, hsize.trans (min_le_right _ _)⟩
    obtain ⟨ps, hcalls, htunnelled⟩ := tunnelled_each hl hfragments s calls hw.cipher hreaches (.refl s.cipher) rfl rfl
    rw [hmade]
    refine ⟨ps.map .send, ps, ?_, ?_, htunnelled⟩
    · rw [← hcalls]
      simp only [sendRouted, Bind.bind, Action.bind, Session.view, Action.gets, Action.lift, h.safe, not_true_eq_false, if_false,
        if_neg hrefused, hok, hw.ownAddress]
    · rw [List.filterMap_map]
      exact List.filterMap_some

/-- A packet that takes a route is left to the session of that route. -/
theorem calls_outbound {b : VirtualPacketBridge} {n : NetworkId} {s : Session} {packet : Bytes} (inputs : BridgeInputs)
    (hinspect : inspectIpv4 packet = .ok (headerOf packet)) (hs : b.sessions.lookup n = some s)
    (hroute : b.findRoute (headerOf packet) = some (n, some destination)) :
    (outbound crypto inputs packet b).2.calls = (sendRouted crypto b.mtu packet (headerOf packet) destination (s, b.calls)).2.2 := by
  have hsize : ¬ packet.length < minVirtualIpv4PacketSize := by
    have haccepted := (inspectIpv4_eq_ok.1 hinspect).1
    have hmin := haccepted.header.trans haccepted.header_le
    rw [minVirtualIpv4PacketSize]
    omega
  simp only [outbound, if_neg hsize, outboundRouted, Bind.bind, Action.bind, Action.lift, Action.gets, hinspect, hroute, onSession, hs]
  cases (sendRouted crypto b.mtu packet (headerOf packet) destination (s, b.calls)).1 with
  | error e => rfl
  | ok u => rfl

end

/-! ## The other end -/

/-- The peers of the session list the other one, under its address and its signed key. -/
def ListsSession (s t : Session) : Prop :=
  ∃ peer ∈ s.peers.peers, peer.deviceId = t.ownDeviceId ∧ peer.ipv4Address = t.peers.ownAddress ∧ peer.signedKey = some t.ownSignedKey

instance (s t : Session) : Decidable (ListsSession s t) := inferInstanceAs (Decidable (∃ _ ∈ _, _))

section
variable {crypto : PacketCrypto} {n : NetworkId} {s t : Session} {policy : NetworkPolicy}

/-- No device is listed twice. -/
theorem eq_of_deviceId {state : NetworkPeerState} (h : requirePeerState state = .ok ()) {peer other : NetworkPeer}
    (hpeer : peer ∈ state.peers) (hother : other ∈ state.peers) (hid : other.deviceId = peer.deviceId) : other = peer := by
  have hvalid := (requirePeerState_ok h).1
  simp only [validPeerState, Bool.and_eq_true, decide_eq_true_eq] at hvalid
  exact List.inj_on_of_nodup_map hvalid.1.2 hother hpeer hid

/-- The search finds it. -/
theorem ListsSession.find? (h : ListsSession s t) (ha : SessionAgrees crypto s) :
    ∃ peer, (s.peers.peers.find? fun p => p.deviceId = t.ownDeviceId && p.signedKey.isSome) = some peer ∧
      peer ∈ s.peers.peers ∧ peer.ipv4Address = t.peers.ownAddress := by
  obtain ⟨peer, hpeer, hid, haddress, hkey⟩ := h
  obtain ⟨other, hother⟩ : ∃ other, (s.peers.peers.find? fun p => p.deviceId = t.ownDeviceId && p.signedKey.isSome) = some other := by
    rw [← Option.isSome_iff_exists, List.find?_isSome]
    exact ⟨peer, hpeer, by simp [hid, hkey]⟩
  have hthis := List.find?_some hother
  rw [Bool.and_eq_true, decide_eq_true_eq] at hthis
  have heq := eq_of_deviceId ha.valid hpeer (List.mem_of_find?_eq_some hother) (hthis.1.trans hid.symm)
  exact ⟨peer, heq ▸ hother, hpeer, haddress⟩

/-- The cipher has a receiver for it, if the policy allows. -/
theorem ListsSession.receiver (h : ListsSession s t) (hw : SessionWf crypto n s) (ha : SessionAgrees crypto s)
    (hpolicy : s.peers.policy = some policy) (hallowed : policyAllows policy s.ownDeviceId t.ownDeviceId) :
    ∃ r, s.cipher.peers.lookup t.ownDeviceId = some r ∧ r.ipv4Address = t.peers.ownAddress ∧
      r.sessionPublicKey = t.ownSignedKey.encryptionPublicKey := by
  obtain ⟨peer, hpeer, hid, haddress, hkey⟩ := h
  refine (ha.reflects.receivers _ _ _).2 ⟨peer, t.ownSignedKey, ⟨hpeer, hkey, ?_⟩, hid, haddress, rfl⟩
  rw [hpolicy, Option.all_some, hw.ownDeviceId, hid]
  exact hallowed

theorem ListsSession.placed (h : ListsSession s t) (ha : SessionAgrees crypto s) :
    Placed s.peers.subnetAddress t.peers.ownAddress ∧ t.peers.ownAddress ≠ s.peers.ownAddress := by
  obtain ⟨peer, hpeer, -, haddress, -⟩ := h
  obtain ⟨hplaced, hne, -⟩ := valid_peer ha.valid hpeer
  rw [← haddress]
  exact ⟨hplaced, hne⟩

theorem ListsSession.reaches (h : ListsSession s t) (hw : SessionWf crypto n s) (ha : SessionAgrees crypto s)
    (hpolicy : s.peers.policy = some policy) (hallowed : policyAllows policy s.ownDeviceId t.ownDeviceId) :
    s.cipher.Reaches t.peers.ownAddress := by
  obtain ⟨hplaced, hne⟩ := h.placed ha
  obtain ⟨r, hr, haddress, -⟩ := h.receiver hw ha hpolicy hallowed
  refine ⟨ha.reflects.prefixLength, ?_, ?_, fun _ => ⟨_, r, hr, haddress⟩⟩
  · rw [ha.reflects.subnet]
    exact hplaced
  · rw [hw.ownAddress]
    exact hne

/-- Sessions of one network that know each other have one subnet. -/
theorem ListsSession.subnet (h : ListsSession s t) (hs : SessionAgrees crypto s) (ht : SessionAgrees crypto t) :
    t.cipher.subnetAddress = s.cipher.subnetAddress := by
  rw [ht.reflects.subnet, hs.reflects.subnet, ← UInt32.toNat_inj]
  obtain ⟨-, -, haligned, hhost⟩ := (h.placed hs).1
  obtain ⟨-, -, haligned', hhost'⟩ := (valid_own ht.valid).2
  omega

end

/-! ## The gateway -/

/-- The packets of `sender` reach the bridge, one after the other. -/
def deliver (crypto : PacketCrypto) (sender : DeviceId) : List EncryptedNetworkPacket → (ℕ → BridgeInputs) → BridgeCall Unit
  | [], _ => pure ()
  | p :: ps, inputs => do
    inbound crypto (inputs 0) { senderDeviceId := sender, packet := p }
    deliver crypto sender ps fun i => inputs (i + 1)

/-- What the gateway `G` with session `g` needs to take what `a` sends to its route. -/
structure Awaits (crypto : PacketCrypto) (a : NetworkPacketCipher) (policy : NetworkPolicy) (route : RoutedSubnet)
    (G : VirtualPacketBridge) (g : Session) (r : PeerReceiver) : Prop where
  session : G.sessions.lookup a.networkId = some g
  wf : g.cipher.Wf crypto
  matched : Matched a g.cipher r
  subnet : a.subnetAddress = g.cipher.subnetAddress
  prefixLength : a.prefixLength = g.cipher.prefixLength
  address : g.cipher.ownIpv4Address = g.peers.ownAddress
  epoch : g.peers.keyEpoch = a.keyEpoch
  holds : g.peers.policy = some policy
  listed : ∃ peer, (g.peers.peers.find? fun p => p.deviceId = a.ownDeviceId && p.signedKey.isSome) = some peer ∧
    peer.ipv4Address = a.ownIpv4Address
  member : route ∈ policy.routes
  gateway : route.gateway = g.ownDeviceId
  allowed : routeAllows policy route a.ownDeviceId
  forward : G.forward
  mtu : 68 ≤ G.mtu

section
variable {crypto : PacketCrypto} {a : NetworkPacketCipher} {policy : NetworkPolicy} {route : RoutedSubnet}
  {G : VirtualPacketBridge} {g : Session} {r : PeerReceiver}

/-- The route lets a packet of `a` through. -/
theorem Awaits.taken (h : Awaits crypto a policy route G g r) {f : Bytes} (hf : Transit a.ownIpv4Address route f) {peer : NetworkPeer}
    (haddress : peer.ipv4Address = a.ownIpv4Address) : (policy.routes.any fun route =>
      (G.forward && route.gateway = g.ownDeviceId && (headerOf f).source = peer.ipv4Address &&
        isIpv4Host (headerOf f).destination route.address route.prefixLength && routeAllows policy route a.ownDeviceId) ||
      (G.acceptRoutes && route.gateway = a.ownDeviceId && (headerOf f).destination = g.peers.ownAddress &&
        isIpv4Host (headerOf f).source route.address route.prefixLength && routeAllows policy route g.ownDeviceId)) = true := by
  have hsource : (headerOf f).source = peer.ipv4Address := hf.source.trans haddress.symm
  have hhost : isIpv4Host (headerOf f).destination route.address route.prefixLength := hf.host
  rw [List.any_eq_true]
  exact ⟨route, h.member, by simp [h.forward, h.gateway, hsource, hhost, h.allowed]⟩

/-- What is in the tunnel packet is injected. -/
theorem Awaits.inboundRouted (h : Awaits crypto a policy route G g r) {p : EncryptedNetworkPacket} (hepoch : p.keyEpoch = a.keyEpoch)
    {f outer : Bytes} (hplain : PlainPacket 4 a.ownIpv4Address g.peers.ownAddress f outer) (hf : Transit a.ownIpv4Address route f)
    (hsize : f.length ≤ G.mtu) (c : NetworkPacketCipher) :
    VirtualPacketBridge.inboundRouted G.acceptRoutes G.forward G.mtu { senderDeviceId := a.ownDeviceId, packet := p } outer
      ({ g with cipher := c }, G.calls) = (.ok (), { g with cipher := c }, G.calls ++ [.inject f]) := by
  obtain ⟨peer, hfind, haddress⟩ := h.listed
  have htaken := h.taken hf haddress
  have hpolicy : policyAllows policy g.ownDeviceId a.ownDeviceId := by
    rw [policyAllows_comm, ← h.gateway]
    exact policyAllows_of_routeAllows h.allowed
  have hsame : g.peers.keyEpoch = p.keyEpoch := h.epoch.trans hepoch.symm
  have hone := (fragmentIpv4_of_fits [] hf.accepted h.mtu hsize).1
  simp only [VirtualPacketBridge.inboundRouted, Bind.bind, Action.bind, Action.lift, Session.view, Action.gets,
    hplain.decapsulate hf.accepted, hf.inspect, hf.safe, h.holds, hfind, hsame, hpolicy, htaken, hone]
  rfl

/-- A tunnel packet of `a` is refused by the window, or what is in it is injected. -/
theorem Awaits.inbound (h : Awaits crypto a policy route G g r) (hl : crypto.Lawful) (ha : a.Wf crypto) (inputs : BridgeInputs)
    {p : EncryptedNetworkPacket} {f outer : Bytes} (hplain : PlainPacket 4 a.ownIpv4Address g.peers.ownAddress f outer)
    (hsealed : Sealed crypto a a.subnetAddress a.prefixLength outer p) (hf : Transit a.ownIpv4Address route f)
    (hsize : f.length ≤ G.mtu) :
    (r.refuses p = true ∧ ∃ e, (VirtualPacketBridge.inbound crypto inputs { senderDeviceId := a.ownDeviceId, packet := p } G).1 = .error e) ∨
    (r.refuses p = false ∧ ∃ G' g',
      VirtualPacketBridge.inbound crypto inputs { senderDeviceId := a.ownDeviceId, packet := p } G = (.ok (), G') ∧
      G'.calls = G.calls ++ [.inject f] ∧ G'.mtu = G.mtu ∧ g'.peers.ownAddress = g.peers.ownAddress ∧
      Awaits crypto a policy route G' g' (r.record p)) := by
  have hdestination : p.destinationIpv4 = g.peers.ownAddress := by
    have haddresses := hsealed.addresses
    rw [ipv4Addresses_of_accepted hplain.accepted, hplain.destination] at haddresses
    exact (Prod.ext_iff.1 (Except.ok.inj haddresses)).2.symm
  have hopened := h.matched.opened ha h.wf (x := ⟨p, outer, a.subnetAddress, a.prefixLength⟩) hsealed
    ⟨h.subnet, h.prefixLength, .inl (hdestination.trans h.address.symm)⟩
  dsimp only at hopened
  have hnetwork := hsealed.networkId
  have hsession : G.sessions.lookup p.networkId = some g := hnetwork ▸ h.session
  cases hrefuses : r.refuses p with
  | true =>
    left
    rw [if_pos hrefuses] at hopened
    refine ⟨rfl, .runtimeError "virtual packet replay or sender nonce change", ?_⟩
    simp only [VirtualPacketBridge.inbound, Bind.bind, Action.bind, Action.gets, onSession, hsession, receive,
      Session.onCipher, decrypt, hopened]
  | false =>
    right
    rw [if_neg (by simp [hrefuses])] at hopened
    obtain ⟨c, hc⟩ : ∃ c, c = { g.cipher with peers := g.cipher.peers.insert a.ownDeviceId (r.record p) } := ⟨_, rfl⟩
    have hdecrypt : decrypt crypto p a.ownDeviceId g.cipher = (.ok outer, c) := by
      simp only [decrypt, hopened, hc]
    have hprotocol : byteAt outer 9 = 4 ∧ g.peers.policy.isSome := ⟨hplain.protocol, by rw [h.holds]; rfl⟩
    obtain ⟨-, hkey, haddress⟩ := encryptionKey_record r p
    refine ⟨rfl, { G with sessions := G.sessions.insert p.networkId { g with cipher := c }, calls := G.calls ++ [.inject f] },
      { g with cipher := c }, ?_, rfl, rfl, rfl, ?_⟩
    · simp only [VirtualPacketBridge.inbound, Bind.bind, Action.bind, Action.gets, onSession, hsession, receive,
        Session.onCipher, hdecrypt, Session.view, if_pos hprotocol, h.inboundRouted hsealed.keyEpoch hplain hf hsize c]
    · have hwf : c.Wf crypto := by
        have hstep := NetworkPacketCipher.wf_step hl h.wf (.decrypt p a.ownDeviceId)
        simpa only [NetworkPacketCipher.step, hdecrypt] using hstep
      refine ⟨?_, hwf, ?_, ?_, ?_, ?_, h.epoch, h.holds, h.listed, h.member, h.gateway, h.allowed, h.forward, h.mtu⟩
      · rw [hnetwork]
        exact AList.lookup_insert _
      · subst hc
        refine ⟨h.matched.networkId, h.matched.keyEpoch, h.matched.networkKey, ?_, hkey.trans h.matched.session,
          haddress.trans h.matched.address⟩
        exact AList.lookup_insert _
      · subst hc
        exact h.subnet
      · subst hc
        exact h.prefixLength
      · subst hc
        exact h.address

@[simp] theorem deliver_nil (sender : DeviceId) (inputs : ℕ → BridgeInputs) (b : VirtualPacketBridge) :
    deliver crypto sender [] inputs b = (.ok (), b) := rfl

theorem deliver_cons_ok {sender : DeviceId} {p : EncryptedNetworkPacket} {inputs : ℕ → BridgeInputs} {b b' : VirtualPacketBridge}
    (h : VirtualPacketBridge.inbound crypto (inputs 0) { senderDeviceId := sender, packet := p } b = (.ok (), b'))
    (ps : List EncryptedNetworkPacket) :
    deliver crypto sender (p :: ps) inputs b = deliver crypto sender ps (fun i => inputs (i + 1)) b' := by
  simp only [deliver, Bind.bind, Action.bind, h]

theorem deliver_cons_error {sender : DeviceId} {p : EncryptedNetworkPacket} {inputs : ℕ → BridgeInputs} {b : VirtualPacketBridge}
    {e : Exn} (h : (VirtualPacketBridge.inbound crypto (inputs 0) { senderDeviceId := sender, packet := p } b).1 = .error e)
    (ps : List EncryptedNetworkPacket) : (deliver crypto sender (p :: ps) inputs b).1 = .error e := by
  obtain ⟨b', hb⟩ : ∃ b', VirtualPacketBridge.inbound crypto (inputs 0) { senderDeviceId := sender, packet := p } b = (.error e, b') :=
    ⟨_, Prod.ext h rfl⟩
  simp only [deliver, Bind.bind, Action.bind, hb]

/-- The tunnel packets, the fragments and the window of the gateway. -/
theorem Awaits.deliver_iff (h : Awaits crypto a policy route G g r) (hl : crypto.Lawful) (ha : a.Wf crypto) {seen : Finset ℕ}
    (hstands : r.Stands a.outgoingNoncePrefix seen) {k : ℕ} {fragments : List Bytes} {ps : List EncryptedNetworkPacket}
    (htunnelled : Tunnelled crypto a g.peers.ownAddress k fragments ps) (hk : k < 2 ^ 32)
    (hfragments : ∀ f ∈ fragments, Transit a.ownIpv4Address route f ∧ f.length ≤ G.mtu) (inputs : ℕ → BridgeInputs) :
    ((deliver crypto a.ownDeviceId ps inputs G).1 = .ok () ∧
      (deliver crypto a.ownDeviceId ps inputs G).2.calls = G.calls ++ fragments.map .inject) ↔
    k + fragments.length < 2 ^ 32 ∧ ∀ i < fragments.length, Fits 64 seen (k + 1 + i) := by
  induction fragments generalizing k ps G g r seen inputs with
  | nil =>
    cases htunnelled
    rw [deliver_nil]
    simpa using hk
  | cons f fragments ih =>
    cases htunnelled with
    | exhausted =>
      -- a fragment that was never sent is not injected
      constructor
      · rintro ⟨-, hcalls⟩
        have hlength := congrArg List.length hcalls
        simp at hlength
      · rintro ⟨hlast, -⟩
        rw [List.length_cons] at hlast
        omega
    | @sent _ _ outer p _ ps hplain hsealed hnumber hrest =>
      obtain ⟨hf, hsize⟩ := hfragments f List.mem_cons_self
      have hwindow : r.Stands p.prefixOfNonce seen := hsealed.prefixOfNonce ▸ hstands
      have hfirst := hwindow.refuses_iff
      rw [hnumber] at hfirst
      rcases h.inbound hl ha (inputs 0) hplain hsealed hf hsize with ⟨hrefused, e, herror⟩ | ⟨htaken, G', g', hok, hcalls, hmtu, hown, h'⟩
      · constructor
        · rintro ⟨hok, -⟩
          rw [deliver_cons_error herror] at hok
          cases hok
        · rintro ⟨-, hfits⟩
          have hnot := hfirst.2 (hfits 0 (by simp))
          rw [hrefused] at hnot
          cases hnot
      · have hfits := hfirst.1 htaken
        have hnext : k + 1 < 2 ^ 32 := hnumber ▸ p.sequence.toNat_lt
        have hrecorded : (r.record p).Stands a.outgoingNoncePrefix (insert (k + 1) seen) := by
          have hrecord := hwindow.record (hnumber ▸ hfits)
          rwa [hsealed.prefixOfNonce, hnumber] at hrecord
        rw [← hown] at hrest
        have hrun := ih h' hrecorded hrest hnext
          (fun x hx => by rw [hmtu]; exact hfragments x (List.mem_cons_of_mem f hx)) (fun i => inputs (i + 1))
        rw [deliver_cons_ok hok, List.map_cons, List.append_cons G.calls (.inject f) (fragments.map _), ← hcalls, hrun,
          List.length_cons]
        constructor
        · rintro ⟨hlast, hall⟩
          refine ⟨by omega, fun i hi => ?_⟩
          cases i with
          | zero => exact hfits
          | succ i =>
            have hthis := (fits_insert_of_lt (show k + 1 < k + 1 + 1 + i by omega)).1 (hall i (by omega))
            rwa [show k + 1 + (i + 1) = k + 1 + 1 + i by omega]
        · rintro ⟨hlast, hall⟩
          refine ⟨by omega, fun i hi => (fits_insert_of_lt (by omega)).2 ?_⟩
          rw [show k + 1 + 1 + i = k + 1 + (i + 1) by omega]
          exact hall (i + 1) (by omega)

/-- A window of another nonce prefix takes nothing. -/
theorem Awaits.deliver_other (h : Awaits crypto a policy route G g r) (hl : crypto.Lawful) (ha : a.Wf crypto)
    (hinit : r.initialized) (hother : r.noncePrefix ≠ a.outgoingNoncePrefix) {k : ℕ} {f : Bytes} {fragments : List Bytes}
    {ps : List EncryptedNetworkPacket} (htunnelled : Tunnelled crypto a g.peers.ownAddress k (f :: fragments) ps)
    (hfragments : Transit a.ownIpv4Address route f ∧ f.length ≤ G.mtu) (inputs : ℕ → BridgeInputs) :
    ¬ ((deliver crypto a.ownDeviceId ps inputs G).1 = .ok () ∧
      (deliver crypto a.ownDeviceId ps inputs G).2.calls = G.calls ++ (f :: fragments).map .inject) := by
  rintro ⟨hok, hcalls⟩
  cases htunnelled with
  | exhausted =>
    have hlength := congrArg List.length hcalls
    simp at hlength
  | @sent _ _ outer p _ ps hplain hsealed hnumber hrest =>
    obtain ⟨hf, hsize⟩ := hfragments
    rcases h.inbound hl ha (inputs 0) hplain hsealed hf hsize with ⟨-, e, herror⟩ | ⟨htaken, -⟩
    · rw [deliver_cons_error herror] at hok
      cases hok
    · have hrefused : r.refuses p = true := by
        rw [PeerReceiver.refuses, hinit, hsealed.prefixOfNonce]
        simp [hother]
      rw [hrefused] at htaken
      cases htaken

end

/-! ## Member and gateway -/

/-- `a` is the session of a member that accepts routes, `g` that of the gateway of `route`, which forwards. They hold the
network with one policy and one key, and each lists the other. -/
structure Tunnel (A G : VirtualPacketBridge) (n : NetworkId) (a g : Session) (policy : NetworkPolicy) (route : RoutedSubnet) :
    Prop where
  member : A.sessions.lookup n = some a
  gateway : G.sessions.lookup n = some g
  key : g.key = a.key
  policies : a.peers.policy = some policy ∧ g.peers.policy = some policy
  routed : route ∈ policy.routes ∧ route.gateway = g.ownDeviceId
  listed : ListsSession a g ∧ ListsSession g a
  options : A.acceptRoutes ∧ G.forward
  allowed : routeAllows policy route a.ownDeviceId
  mtu : A.mtu ≤ G.mtu
  /-- The bridge is only synchronised on what `routing_configuration` takes. -/
  safe : SafeRoutes A

/-- The sender has `count` sequence numbers left, and the gateway's window for it takes them. -/
structure Ready (a g : Session) (count : ℕ) : Prop where
  numbers : a.cipher.nextSequence.toNat + count < 2 ^ 32
  window : ∀ r, g.cipher.peers.lookup a.ownDeviceId = some r → r.initialized →
    ∀ q, a.cipher.nextSequence < q → q.toNat ≤ a.cipher.nextSequence.toNat + count →
      r.noncePrefix = a.cipher.outgoingNoncePrefix ∧ acceptSequence q r.highestSequence r.seenSequences

/-- What a call gave to the send handler. -/
def sentBy (before after : VirtualPacketBridge) : List EncryptedNetworkPacket :=
  (after.calls.drop before.calls.length).filterMap HandlerCall.sent

/-- The gateway accepts every packet `A` sends for `packet`, and injects the fragments `A` made of it, in order. -/
def PassesTunnel (crypto : PacketCrypto) (A G : VirtualPacketBridge) (sender : DeviceId) (packet : Bytes) (inputs : BridgeInputs)
    (arrivals : ℕ → BridgeInputs) : Prop :=
  let sent := sentBy A (outbound crypto inputs packet A).2
  (deliver crypto sender sent arrivals G).1 = .ok () ∧
    (deliver crypto sender sent arrivals G).2.calls = G.calls ++ (madeFragments A.mtu packet).map .inject

instance (crypto : PacketCrypto) (A G : VirtualPacketBridge) (sender : DeviceId) (packet : Bytes) (inputs : BridgeInputs)
    (arrivals : ℕ → BridgeInputs) : Decidable (PassesTunnel crypto A G sender packet inputs arrivals) :=
  inferInstanceAs (Decidable (_ ∧ _))

section
variable {crypto : PacketCrypto} {A G : VirtualPacketBridge} {n : NetworkId} {a g : Session} {policy : NetworkPolicy}
  {route : RoutedSubnet}

/-- The member's packet takes the route to the gateway's address. -/
theorem Tunnel.findRoute (h : Tunnel A G n a g policy route) (hagrees : Agrees crypto A) (hown : OwnsApart A) {packet : Bytes}
    (hpacket : Transit a.peers.ownAddress route packet) :
    A.findRoute (headerOf packet) = some (n, some g.peers.ownAddress) := by
  obtain ⟨peer, hfind, hpeer, haddress⟩ := h.listed.1.find? (hagrees n a h.member)
  have hsource : (headerOf packet).source = a.peers.ownAddress := hpacket.source
  have hdestination : subnetContains route.address route.prefixLength (headerOf packet).destination := hpacket.contains
  have hnonzero : peer.ipv4Address ≠ 0 := by
    intro hzero
    have hhost := (valid_peer (hagrees n a h.member).valid hpeer).1.host.1
    rw [hzero] at hhost
    exact Nat.not_lt_zero _ hhost
  have hopen : ¬ (¬ A.acceptRoutes = true ∨ ¬ routeAllows policy route a.ownDeviceId = true) := by
    simp [h.options.1, h.allowed]
  rw [findRoute_own hagrees hown h.safe h.member h.policies.1 h.routed.1 hsource hdestination, routeVerdict,
    if_pos ⟨hsource, hdestination⟩, if_neg hopen, h.routed.2, hfind]
  dsimp only
  rw [if_neg hnonzero, haddress]
  rfl

/-- The gateway is prepared for it. -/
theorem Tunnel.awaits (h : Tunnel A G n a g policy route) (hwA : Wf crypto A) (hwG : Wf crypto G) (hagreesA : Agrees crypto A)
    (hagreesG : Agrees crypto G) (hepoch : EpochsAgree G) (hmtu : 68 ≤ G.mtu) :
    ∃ r, g.cipher.peers.lookup a.ownDeviceId = some r ∧ Awaits crypto a.cipher policy route G g r := by
  have hwa := hwA n a h.member
  have hwg := hwG n g h.gateway
  have hagreesa := hagreesA n a h.member
  have hagreesg := hagreesG n g h.gateway
  have hallowed : policyAllows policy g.ownDeviceId a.ownDeviceId := by
    rw [policyAllows_comm, ← h.routed.2]
    exact policyAllows_of_routeAllows h.allowed
  obtain ⟨r, hr, haddress, hsession⟩ := h.listed.2.receiver hwg hagreesg h.policies.2 hallowed
  obtain ⟨peer, hfind, -, hpeer⟩ := h.listed.2.find? hagreesg
  refine ⟨r, hr, ?_⟩
  constructor
  · rw [hwa.networkId]
    exact h.gateway
  · exact hwg.cipher
  · constructor
    · rw [hwg.networkId, hwa.networkId]
    · rw [hwg.keyEpoch, hwa.keyEpoch, h.key]
    · rw [hwg.networkKey, hwa.networkKey, h.key]
    · rw [hwa.ownDeviceId]
      exact hr
    · rw [hsession, hwa.ownSession]
    · rw [haddress, hwa.ownAddress]
  · exact h.listed.2.subnet hagreesg hagreesa
  · rw [hagreesa.reflects.prefixLength, hagreesg.reflects.prefixLength]
  · exact hwg.ownAddress
  · rw [hepoch n g h.gateway, h.key, hwa.keyEpoch]
  · exact h.policies.2
  · rw [hwa.ownDeviceId, hwa.ownAddress]
    exact ⟨peer, hfind, hpeer⟩
  · exact h.routed.1
  · exact h.routed.2
  · rw [hwa.ownDeviceId]
    exact h.allowed
  · exact h.options.2
  · exact hmtu

theorem Tunnel.reaches (h : Tunnel A G n a g policy route) (hw : Wf crypto A) (hagrees : Agrees crypto A) :
    a.cipher.Reaches g.peers.ownAddress := by
  refine h.listed.1.reaches (hw n a h.member) (hagrees n a h.member) h.policies.1 ?_
  rw [← h.routed.2]
  exact policyAllows_of_routeAllows h.allowed

/-- The numbers the window takes are those that fit it. -/
theorem ready_iff {r : PeerReceiver} {seen : Finset ℕ} (hr : g.cipher.peers.lookup a.ownDeviceId = some r)
    (hstands : r.Stands a.cipher.outgoingNoncePrefix seen) (count : ℕ) : Ready a g count ↔
      a.cipher.nextSequence.toNat + count < 2 ^ 32 ∧ ∀ i < count, Fits 64 seen (a.cipher.nextSequence.toNat + 1 + i) := by
  constructor
  · rintro ⟨hnumbers, hwindow⟩
    refine ⟨hnumbers, fun i hi => ?_⟩
    by_cases hinit : r.initialized
    · have hq : (UInt32.ofNat (a.cipher.nextSequence.toNat + 1 + i)).toNat = a.cipher.nextSequence.toNat + 1 + i :=
        UInt32.toNat_ofNat_of_lt' (by change _ < 2 ^ 32; omega)
      obtain ⟨-, haccepts⟩ := hwindow r hr hinit (UInt32.ofNat (a.cipher.nextSequence.toNat + 1 + i))
        (UInt32.lt_iff_toNat_lt.2 (by omega)) (by omega)
      rwa [hstands.accepts_iff hinit, hq] at haccepts
    · unfold PeerReceiver.Stands at hstands
      rw [if_neg hinit] at hstands
      subst hstands
      simp [Fits]
  · rintro ⟨hnumbers, hfits⟩
    refine ⟨hnumbers, fun r' hr' hinit q hlt hle => ?_⟩
    rw [hr, Option.some.injEq] at hr'
    subst hr'
    refine ⟨PeerReceiver.noncePrefix_of_stands hstands hinit, (hstands.accepts_iff hinit q).2 ?_⟩
    have hlt' := UInt32.lt_iff_toNat_lt.1 hlt
    have hthis := hfits (q.toNat - (a.cipher.nextSequence.toNat + 1)) (by omega)
    rwa [show a.cipher.nextSequence.toNat + 1 + (q.toNat - (a.cipher.nextSequence.toNat + 1)) = q.toNat by omega] at hthis

/-- A packet passes the tunnel exactly if both ends are ready for its fragments. -/
theorem Tunnel.passes_iff (h : Tunnel A G n a g policy route) (hl : crypto.Lawful) (hwA : Wf crypto A) (hwG : Wf crypto G)
    (hagreesA : Agrees crypto A) (hagreesG : Agrees crypto G) (hown : OwnsApart A) (hepoch : EpochsAgree G) (hmtu : 68 ≤ A.mtu)
    (hmarked : g.cipher.Marked) {packet : Bytes} (hpacket : Transit a.peers.ownAddress route packet) (inputs : BridgeInputs)
    (arrivals : ℕ → BridgeInputs) :
    PassesTunnel crypto A G a.ownDeviceId packet inputs arrivals ↔ Ready a g (madeFragments A.mtu packet).length := by
  have hwa := hwA n a h.member
  have hmtuG := hmtu.trans h.mtu
  obtain ⟨r, hr, hawaits⟩ := h.awaits hwA hwG hagreesA hagreesG hepoch hmtuG
  obtain ⟨new, ps, hcalls, hsent, htunnelled⟩ := tunnelled_sendRouted hl A.calls hwa (h.reaches hwA hagreesA) hmtu hpacket
  have hsentBy : sentBy A (outbound crypto inputs packet A).2 = ps := by
    rw [sentBy, calls_outbound inputs hpacket.inspect h.member (h.findRoute hagreesA hown hpacket), hcalls, List.drop_left, hsent]
  have hfragments : ∀ f ∈ madeFragments A.mtu packet, Transit a.cipher.ownIpv4Address route f ∧ f.length ≤ G.mtu := by
    intro f hf
    unfold madeFragments at hf
    split at hf
    · rename_i fragments hok
      obtain ⟨htransit, hsize⟩ := hpacket.fragment (by omega) hok hf
      rw [hwa.ownAddress]
      have hle := h.mtu
      exact ⟨htransit, by omega⟩
    · cases hf
  rw [PassesTunnel, hsentBy, ← hwa.ownDeviceId]
  obtain ⟨seen, hstands⟩ := hmarked _ r hr
  by_cases hother : r.initialized ∧ r.noncePrefix ≠ a.cipher.outgoingNoncePrefix
  · -- the window belongs to another session of the member
    cases hmade : madeFragments A.mtu packet with
    | nil =>
      rw [hmade] at htunnelled
      rw [htunnelled.eq_nil, deliver_nil]
      refine iff_of_true ⟨rfl, by simp⟩ ⟨a.cipher.nextSequence.toNat_lt, fun _ _ _ q hlt hle => ?_⟩
      have hlt' := UInt32.lt_iff_toNat_lt.1 hlt
      simp only [List.length_nil] at hle
      omega
    | cons f fragments =>
      rw [hmade] at htunnelled
      refine iff_of_false (hawaits.deliver_other hl hwa.cipher hother.1 hother.2 htunnelled
        (hfragments f (by simp [hmade])) arrivals) fun hready => ?_
      have hnumbers := hready.numbers
      rw [List.length_cons] at hnumbers
      have hnext : (a.cipher.nextSequence + 1).toNat = a.cipher.nextSequence.toNat + 1 := by
        rw [UInt32.toNat_add]
        exact Nat.mod_eq_of_lt (by change _ + 1 < 2 ^ 32; omega)
      refine hother.2 (hready.window r hr hother.1 (a.cipher.nextSequence + 1) (UInt32.lt_iff_toNat_lt.2 (by omega)) ?_).1
      rw [hnext, List.length_cons]
      omega
  · have hstands' : r.Stands a.cipher.outgoingNoncePrefix seen := by
      by_cases hinit : r.initialized
      · rw [not_and_not_right] at hother
        rwa [← hother hinit]
      · unfold PeerReceiver.Stands at hstands ⊢
        rwa [if_neg hinit] at hstands ⊢
    rw [hawaits.deliver_iff hl hwa.cipher hstands' htunnelled a.cipher.nextSequence.toNat_lt hfragments arrivals,
      ready_iff hr hstands']

end

/-! ## What a tunnel packet may do -/

/-- A route of the policy lets the inner packet in: as a request of the sender to its gateway, or as a reply of the gateway. -/
def Entitled (b : VirtualPacketBridge) (s : Session) (policy : NetworkPolicy) (sender : DeviceId) (inner : Bytes) : Prop :=
  ∃ route ∈ policy.routes,
    (route.gateway = s.ownDeviceId ∧ b.forward ∧
      (∃ peer ∈ s.peers.peers, peer.deviceId = sender ∧ peer.ipv4Address = readIpv4 inner 12) ∧
      isIpv4Host (readIpv4 inner 16) route.address route.prefixLength ∧ routeAllows policy route sender) ∨
    (route.gateway = sender ∧ readIpv4 inner 16 = s.peers.ownAddress ∧
      isIpv4Host (readIpv4 inner 12) route.address route.prefixLength ∧ b.acceptRoutes ∧ routeAllows policy route s.ownDeviceId)

section
variable {crypto : PacketCrypto} {b : VirtualPacketBridge} {s : Session} {delivery : ForwardedNetworkPacket} {outer : Bytes}
  {c : NetworkPacketCipher}

theorem each_inject (fragments : List Bytes) (s : Session) (calls : List HandlerCall) :
    Session.each (fun fragment => Session.call (.inject fragment)) fragments (s, calls) =
      (.ok (), s, calls ++ fragments.map .inject) := by
  induction fragments generalizing calls with
  | nil =>
    rw [List.map_nil, List.append_nil]
    rfl
  | cons f fragments ih =>
    have hrest := ih (calls ++ [.inject f])
    rw [List.append_assoc] at hrest
    exact hrest

theorem calls_inbound (inputs : BridgeInputs) (hs : b.sessions.lookup delivery.packet.networkId = some s) :
    (inbound crypto inputs delivery b).2.calls =
      (receive crypto inputs b.acceptRoutes b.forward b.mtu delivery (s, b.calls)).2.2 := by
  simp only [inbound, Bind.bind, Action.bind, Action.gets, onSession, hs]

/-- The inner packet is injected if a route lets it in, and nothing happens otherwise. -/
theorem post_inboundRouted (b : VirtualPacketBridge) (s : Session) (delivery : ForwardedNetworkPacket) (outer : Bytes) {policy : NetworkPolicy}
    (hpolicy : s.peers.policy = some policy) (calls : List HandlerCall) :
    Action.Post (inboundRouted b.acceptRoutes b.forward b.mtu delivery outer) (s, calls) fun _ t => t.2 = calls ∨
      ∃ inner fragments, decapsulateRoutedIpv4 outer = .ok inner ∧ fragmentIpv4 inner b.mtu = .ok fragments ∧
        t.2 = calls ++ fragments.map .inject ∧ Entitled b s policy delivery.senderDeviceId inner := by
  refine Action.post_lift_bind (fun inner hinner => ?_) fun _ => .inl rfl
  refine Action.post_lift_bind (fun h hinspect => ?_) fun _ => .inl rfl
  refine Action.post_lift_bind (fun safe _ => ?_) fun _ => .inl rfl
  obtain ⟨-, rfl⟩ := inspectIpv4_eq_ok.1 hinspect
  rw [Session.view, Action.post_gets_bind]
  dsimp only
  rw [hpolicy]
  cases hfind : s.peers.peers.find? fun p => p.deviceId = delivery.senderDeviceId && p.signedKey.isSome with
  | none => exact .inl rfl
  | some sender =>
    have hthis := List.find?_some hfind
    dsimp only
    split
    · rename_i htaken
      refine Action.post_lift_bind (fun fragments hfragments => ?_) fun _ => .inl rfl
      rw [Action.Post, each_inject]
      refine .inr ⟨inner, fragments, hinner, hfragments, rfl, ?_⟩
      simp only [Bool.and_eq_true, Bool.or_eq_true, decide_eq_true_eq, List.any_eq_true] at htaken hthis
      obtain ⟨-, route, hroute, hrequest | hreply⟩ := htaken
      · obtain ⟨⟨⟨⟨hforward, hgateway⟩, hsource⟩, hhost⟩, hallowed⟩ := hrequest
        exact ⟨route, hroute, .inl ⟨hgateway, hforward, ⟨sender, List.mem_of_find?_eq_some hfind, hthis.1, hsource.symm⟩, hhost, hallowed⟩⟩
      · obtain ⟨⟨⟨⟨haccepts, hgateway⟩, hdestination⟩, hhost⟩, hallowed⟩ := hreply
        exact ⟨route, hroute, .inr ⟨hgateway, hdestination, hhost, haccepts, hallowed⟩⟩
    · exact .inl rfl

/-- What `inject_inbound` injects are fragments of the packet. -/
theorem post_injectInbound (mtu : ℕ) (delivery : ForwardedNetworkPacket) (plaintext : Bytes) (header : Ipv4Header)
    (t : Session × List HandlerCall) :
    Action.Post (injectInbound crypto mtu delivery plaintext header) t fun _ u => ∃ new, u.2 = t.2 ++ new ∧
      ∀ packet, HandlerCall.inject packet ∈ new → ∃ fragments, fragmentIpv4 plaintext mtu = .ok fragments ∧ packet ∈ fragments := by
  have hnothing : ∃ new, t.2 = t.2 ++ new ∧ ∀ packet, HandlerCall.inject packet ∈ new →
      ∃ fragments, fragmentIpv4 plaintext mtu = .ok fragments ∧ packet ∈ fragments := ⟨[], by simp, by simp⟩
  rw [injectInbound, Session.view, Action.post_gets_bind]
  split
  · refine Action.post_lift_bind (fun error _ => ?_) fun _ => hnothing
    cases error with
    | none => exact hnothing
    | some error =>
      -- an ICMP error goes back, nothing is injected
      unfold Session.encryptAndSend Session.onCipher Session.call
      simp only [Action.Post, Bind.bind, Action.bind, Action.modify]
      cases (NetworkPacketCipher.encrypt crypto error t.1.cipher).1 with
      | error e => exact hnothing
      | ok p => exact ⟨[.send p], rfl, by simp⟩
  · refine Action.post_lift_bind (fun fragments hfragments => ?_) fun _ => hnothing
    split
    · rw [Action.Post, each_inject]
      refine ⟨fragments.map .inject, rfl, fun packet hpacket => ⟨fragments, hfragments, ?_⟩⟩
      simpa using hpacket
    · exact hnothing

/-- What `inbound` does with a packet once it is decrypted. -/
theorem receive_decrypted (inputs : BridgeInputs)
    (hdecrypt : decrypt crypto delivery.packet delivery.senderDeviceId s.cipher = (.ok outer, c)) (acceptRoutes forward : Bool) (mtu : ℕ)
    (calls : List HandlerCall) : receive crypto inputs acceptRoutes forward mtu delivery (s, calls) =
      (if byteAt outer 9 = 4 ∧ s.peers.policy.isSome then inboundRouted acceptRoutes forward mtu delivery outer
      else do
        let header ← Action.lift (inspectIpv4 outer)
        if isIpv4FanoutDestination delivery.packet.destinationIpv4 s.peers.subnetAddress s.peers.prefixLength then do
          let admitted ← admitFanout crypto inputs mtu delivery outer
          if admitted then injectInbound crypto mtu delivery outer header else pure ()
        else injectInbound crypto mtu delivery outer header) ({ s with cipher := c }, calls) := by
  simp only [receive, Bind.bind, Action.bind, Session.onCipher, hdecrypt, Session.view, Action.gets]

/-- A packet with protocol 4 under a policy is unpacked for a route; without one it is a packet like any other. -/
theorem inbound_tunnel (inputs : BridgeInputs) (hs : b.sessions.lookup delivery.packet.networkId = some s)
    (hdecrypt : decrypt crypto delivery.packet delivery.senderDeviceId s.cipher = (.ok outer, c)) (hprotocol : byteAt outer 9 = 4) :
    (∀ policy, s.peers.policy = some policy → (inbound crypto inputs delivery b).2.calls = b.calls ∨
      ∃ inner fragments, decapsulateRoutedIpv4 outer = .ok inner ∧ fragmentIpv4 inner b.mtu = .ok fragments ∧
        (inbound crypto inputs delivery b).2.calls = b.calls ++ fragments.map .inject ∧
        Entitled b s policy delivery.senderDeviceId inner) ∧
    (s.peers.policy = none → ∀ packet, .inject packet ∈ (inbound crypto inputs delivery b).2.calls.drop b.calls.length →
      ∃ fragments, fragmentIpv4 outer b.mtu = .ok fragments ∧ packet ∈ fragments) := by
  rw [calls_inbound inputs hs, receive_decrypted inputs hdecrypt]
  constructor
  · intro policy hpolicy
    rw [if_pos ⟨hprotocol, by rw [hpolicy]; rfl⟩]
    exact post_inboundRouted b { s with cipher := c } delivery outer hpolicy b.calls
  · intro hnone
    rw [if_neg (by simp [hnone])]
    have hpost : Action.Post (do
        let header ← Action.lift (inspectIpv4 outer)
        if isIpv4FanoutDestination delivery.packet.destinationIpv4 s.peers.subnetAddress s.peers.prefixLength then do
          let admitted ← admitFanout crypto inputs b.mtu delivery outer
          if admitted then injectInbound crypto b.mtu delivery outer header else pure ()
        else injectInbound crypto b.mtu delivery outer header) ({ s with cipher := c }, b.calls) fun _ t =>
        ∃ new, t.2 = b.calls ++ new ∧ ∀ packet, HandlerCall.inject packet ∈ new →
          ∃ fragments, fragmentIpv4 outer b.mtu = .ok fragments ∧ packet ∈ fragments := by
      refine Action.post_lift_bind (fun header _ => ?_) fun _ => ⟨[], by simp, by simp⟩
      split
      · -- the filters call no handler
        rw [admitFanout, Session.change, Action.post_update_bind]
        split
        · exact post_injectInbound b.mtu delivery outer header _
        · exact ⟨[], (List.append_nil b.calls).symm, by simp⟩
      · exact post_injectInbound b.mtu delivery outer header _
    obtain ⟨new, hnew, hall⟩ := hpost
    intro packet hpacket
    rw [hnew, List.drop_left] at hpacket
    exact hall packet hpacket

end

/-! ## Agreement -/

/-- In every pair of bridges a packet passes the tunnel exactly if both ends are ready for its fragments; and whatever comes
through a tunnel, its inner packet is injected only if a route of the current policy lets it in. -/
theorem routed_tunnel (crypto : PacketCrypto) (hl : crypto.Lawful) :
    (∀ (eventsA eventsG : ℕ → BridgeInputs × BridgeEvent) (i j : ℕ) (n : NetworkId) (a g : Session) (policy : NetworkPolicy)
        (route : RoutedSubnet) (packet : Bytes) (inputs : BridgeInputs) (arrivals : ℕ → BridgeInputs),
      Tunnel (run crypto eventsA i) (run crypto eventsG j) n a g policy route → Transit a.peers.ownAddress route packet →
      (PassesTunnel crypto (run crypto eventsA i) (run crypto eventsG j) a.ownDeviceId packet inputs arrivals ↔
        Ready a g (madeFragments (run crypto eventsA i).mtu packet).length)) ∧
    ∀ (b : VirtualPacketBridge) (inputs : BridgeInputs) (delivery : ForwardedNetworkPacket) (s : Session) (outer : Bytes)
        (c : NetworkPacketCipher), b.sessions.lookup delivery.packet.networkId = some s →
      decrypt crypto delivery.packet delivery.senderDeviceId s.cipher = (.ok outer, c) → byteAt outer 9 = 4 →
      (∀ policy, s.peers.policy = some policy → (inbound crypto inputs delivery b).2.calls = b.calls ∨
        ∃ inner fragments, decapsulateRoutedIpv4 outer = .ok inner ∧ fragmentIpv4 inner b.mtu = .ok fragments ∧
          (inbound crypto inputs delivery b).2.calls = b.calls ++ fragments.map .inject ∧
          Entitled b s policy delivery.senderDeviceId inner) ∧
      (s.peers.policy = none → ∀ packet, .inject packet ∈ (inbound crypto inputs delivery b).2.calls.drop b.calls.length →
        ∃ fragments, fragmentIpv4 outer b.mtu = .ok fragments ∧ packet ∈ fragments) := by
  constructor
  · intro eventsA eventsG i j n a g policy route packet inputs arrivals htunnel hpacket
    exact htunnel.passes_iff hl (wf_run hl eventsA i) (wf_run hl eventsG j) (agrees_run hl eventsA i) (agrees_run hl eventsG j)
      (ownsApart_run hl eventsA i) (epochsAgree_run hl eventsG j) (mtu_run crypto eventsA i)
      (marked_run hl eventsG j htunnel.gateway) hpacket inputs arrivals
  · intro b inputs delivery s outer c hs hdecrypt hprotocol
    exact inbound_tunnel inputs hs hdecrypt hprotocol

/-- A UDP packet from the sample member into the subnet of the sample gateway. -/
def routedPing : Bytes := [0x45, 0, 0, 20, 0, 0, 0, 0, 64, 17, 170, 230, 10, 64, 0, 2, 192, 168, 5, 9]

/-- The member, cleared after its first packet. -/
def memberRun : ℕ → BridgeInputs × BridgeEvent
  | 0 => ({ noncePrefixes := fun _ => 7 },
      .synchronize (tunnelSnapshot 3 0x0a400002 2 0x0a400001).identity (tunnelSnapshot 3 0x0a400002 2 0x0a400001).networks)
  | 1 => ({}, .setRoutingOptions true false)
  | 2 => ({}, .outbound routedPing)
  | 3 => ({}, .clear)
  | _ => ({ noncePrefixes := fun _ => 9 },
      .synchronize (tunnelSnapshot 3 0x0a400002 2 0x0a400001).identity (tunnelSnapshot 3 0x0a400002 2 0x0a400001).networks)

/-- The first packet of the member. -/
def memberPacket : EncryptedNetworkPacket :=
  { networkId := 8, destinationIpv4 := 0x0a400001, keyEpoch := 1, sequence := 1, nonce := (7 : BitVec 64) ++ (1 : BitVec 32)
    ciphertext := [0x45, 0, 0, 40, 0, 0, 0, 0, 64, 4, 102, 80, 10, 64, 0, 2, 10, 64, 0, 1] ++ routedPing
    tag := 0x4011aae60a400016cae8051e }

/-- The gateway. -/
def gatewayRun : ℕ → BridgeInputs × BridgeEvent
  | 0 => ({}, .synchronize (tunnelSnapshot 2 0x0a400001 3 0x0a400002).identity (tunnelSnapshot 2 0x0a400001 3 0x0a400002).networks)
  | 1 => ({}, .setRoutingOptions false true)
  | _ => ({}, .inbound { senderDeviceId := 3, packet := memberPacket })

theorem transit_routedPing : Transit 0x0a400002 { gateway := 2, address := 0xc0a80500 } routedPing :=
  ⟨by decide +kernel, by decide +kernel, by decide +kernel, by decide +kernel, by decide +kernel, by decide +kernel⟩

/-- What makes the samples a tunnel, as far as it can be evaluated. -/
theorem tunnel_of_sample {A G : VirtualPacketBridge} (hends : (A.sessions.lookup 8).any (fun a => (G.sessions.lookup 8).any fun g =>
      g.key = a.key ∧ a.peers.policy = some tunnelPolicy ∧ g.peers.policy = some tunnelPolicy ∧ g.ownDeviceId = 2 ∧
      a.ownDeviceId = 3 ∧ a.peers.ownAddress = 0x0a400002 ∧ ListsSession a g ∧ ListsSession g a) = true)
    (hsafe : (A.sessions.rows.all fun x => x.2.peers.policy.all fun policy => policy.routes.all fun route => SafeSubnet route) = true)
    (hoptions : A.acceptRoutes ∧ G.forward ∧ A.mtu ≤ G.mtu) :
    ∃ a g, Tunnel A G 8 a g tunnelPolicy { gateway := 2, address := 0xc0a80500 } ∧ A.sessions.lookup 8 = some a ∧
      G.sessions.lookup 8 = some g ∧ a.ownDeviceId = 3 ∧ a.peers.ownAddress = 0x0a400002 := by
  obtain ⟨a, ha, hrest⟩ := (Option.any_eq_true _ _).1 hends
  obtain ⟨g, hg, hrest⟩ := (Option.any_eq_true _ _).1 hrest
  obtain ⟨hkey, hpolicy, hpolicy', hgateway, hmember, haddress, hlists, hlists'⟩ := of_decide_eq_true hrest
  refine ⟨a, g, ⟨ha, hg, hkey, ⟨hpolicy, hpolicy'⟩, ⟨List.mem_singleton.2 rfl, hgateway.symm⟩, ⟨hlists, hlists'⟩,
    ⟨hoptions.1, hoptions.2.1⟩, ?_, hoptions.2.2, ?_⟩, ha, hg, hmember, haddress⟩
  · rw [hmember]
    decide +kernel
  · intro n s policy route hs hp hroute
    have hall := List.all_eq_true.1 hsafe (n, s) (Map.mem_rows.2 hs)
    dsimp only at hall
    rw [hp, Option.all_some, List.all_eq_true] at hall
    exact of_decide_eq_true (hall route hroute)

/-- A gateway that has heard nothing yet takes the packets of the member. -/
theorem routed_tunnel_first :
    PassesTunnel plainPacketCrypto (run plainPacketCrypto memberRun 2) (run plainPacketCrypto gatewayRun 2) 3 routedPing {} fun _ => {} := by
  obtain ⟨a, g, htunnel, ha, hg, hdevice, haddress⟩ := tunnel_of_sample (A := run plainPacketCrypto memberRun 2)
    (G := run plainPacketCrypto gatewayRun 2) (by decide +kernel) (by decide +kernel) (by decide +kernel)
  have hpasses := (routed_tunnel plainPacketCrypto plainPacketCrypto_lawful).1 memberRun gatewayRun 2 2 8 a g tunnelPolicy
    { gateway := 2, address := 0xc0a80500 } routedPing {} (fun _ => {}) htunnel (haddress ▸ transit_routedPing)
  rw [hdevice] at hpasses
  refine hpasses.2 ⟨?_, ?_⟩
  · have hnumbers : ((run plainPacketCrypto memberRun 2).sessions.lookup 8).all (fun a => a.cipher.nextSequence.toNat +
        (madeFragments (run plainPacketCrypto memberRun 2).mtu routedPing).length < 2 ^ 32) = true := by
      decide +kernel
    rw [ha] at hnumbers
    exact of_decide_eq_true hnumbers
  · intro r hr hinit
    have hfresh : ((run plainPacketCrypto gatewayRun 2).sessions.lookup 8).all (fun g =>
        (g.cipher.peers.lookup 3).all fun r => !r.initialized) = true := by
      decide +kernel
    rw [hg, Option.all_some] at hfresh
    rw [hdevice] at hr
    rw [hr, Option.all_some, hinit] at hfresh
    cases hfresh

/-- A packet of a member that got the network back does not pass. -/
theorem tunnel_refused_after_clear :
    ¬ ∀ (crypto : PacketCrypto), crypto.Lawful → ∀ (eventsA eventsG : ℕ → BridgeInputs × BridgeEvent) (i j : ℕ) (n : NetworkId)
      (a g : Session) (policy : NetworkPolicy) (route : RoutedSubnet) (packet : Bytes) (inputs : BridgeInputs)
      (arrivals : ℕ → BridgeInputs), Tunnel (run crypto eventsA i) (run crypto eventsG j) n a g policy route →
      Transit a.peers.ownAddress route packet →
      PassesTunnel crypto (run crypto eventsA i) (run crypto eventsG j) a.ownDeviceId packet inputs arrivals := by
  intro h
  obtain ⟨a, g, htunnel, -, -, hdevice, haddress⟩ := tunnel_of_sample (A := run plainPacketCrypto memberRun 5)
    (G := run plainPacketCrypto gatewayRun 3) (by decide +kernel) (by decide +kernel) (by decide +kernel)
  have hpasses := h plainPacketCrypto plainPacketCrypto_lawful memberRun gatewayRun 5 3 8 a g tunnelPolicy
    { gateway := 2, address := 0xc0a80500 } routedPing {} (fun _ => {}) htunnel (haddress ▸ transit_routedPing)
  rw [hdevice] at hpasses
  have hfails : ¬ PassesTunnel plainPacketCrypto (run plainPacketCrypto memberRun 5) (run plainPacketCrypto gatewayRun 3) 3
      routedPing {} fun _ => {} := by
    decide +kernel
  exact hfails hpasses

end VirtualPacketBridge

end LanLink
